import Mathlib.Data.Finset.Basic
import Mathlib.Data.Finset.Dedup
import WhichStream.Library.Machine

/-!
Logging in with Facebook. Each tap makes a login manager, which leaves the app for Facebook
and waits for the URL that comes back. The managers share the access token, the challenge
that the last of them has sent, and the place of the one that a URL goes to.
-/

namespace WhichStream.Facebook

open EventMachine

structure NSError where
  domain : String
  code : ℤ
  deriving DecidableEq, Repr

def FBSDKErrorDomain : String := "com.facebook.sdk.core"

def FBSDKLoginErrorDomain : String := "com.facebook.sdk.login"

def SFVCCanceledLogin : String := "com.apple.SafariServices.Authentication"

def FBSDKGraphRequestGraphAPIErrorCode : ℤ := 8

def FBSDKLoginUnknownErrorCode : ℤ := 301

def FBSDKLoginUserMismatchErrorCode : ℤ := 304

def FBSDKLoginBadChallengeString : ℤ := 308

structure FBSDKAccessToken where
  tokenString : String
  permissions : Finset String
  declinedPermissions : Finset String
  appID : Option String
  userID : Option String
  deriving DecidableEq

structure FBSDKLoginManagerLoginResult where
  token : Option FBSDKAccessToken
  isCancelled : Bool
  grantedPermissions : Option (Finset String)
  declinedPermissions : Option (Finset String)
  deriving DecidableEq

structure FBSDKLoginCompletionParameters where
  accessTokenString : Option String
  permissions : Finset String
  declinedPermissions : Finset String
  appID : Option String
  userID : Option String
  challenge : Option String
  error : Option NSError
  deriving DecidableEq

-- `userID` is what the payload of the request names.
structure SignedRequest where
  text : String
  userID : Option String
  deriving DecidableEq, Repr

-- The parameters that the login reads; `challenge` is taken from the JSON of `state`.
structure URLParameters where
  access_token : Option String
  granted_scopes : Option String
  denied_scopes : Option String
  signed_request : Option SignedRequest
  user_id : Option String
  error : Option String
  error_message : Option String
  challenge : Option String
  deriving DecidableEq, Repr

structure CallbackURL where
  scheme : Option String
  host : Option String
  sourceApplication : String
  parameters : URLParameters
  deriving DecidableEq, Repr

def length (s : Option String) : ℕ := (s.getD "").length

def hasPrefix (s p : String) : Bool := p.toList.isPrefixOf s.toList

-- A string of no length is the empty set, rather than a set with an empty string.
def scopes (s : Option String) : Finset String :=
  match s with
  | none => ∅
  | some s => if s = "" then ∅ else ((s.toList.splitOn ',').map String.ofList).toFinset

-- `queryParamsFromLoginURL`, which prefers the user of the signed request, and the part of
-- `setParametersWithDictionary` that looks there again.
def URLParameters.userID (p : URLParameters) : Option String :=
  let signed := p.signed_request.bind SignedRequest.userID
  let userID := if signed.isSome then signed else p.user_id
  if length userID = 0 && 0 < length (p.signed_request.map SignedRequest.text) then signed else userID

def errorFromReturnURLParameters (p : URLParameters) : Option NSError :=
  p.error_message.map fun _ => ⟨FBSDKErrorDomain, FBSDKGraphRequestGraphAPIErrorCode⟩

structure FBSDKLoginURLCompleter where
  parameters : FBSDKLoginCompletionParameters
  performExplicitFallback : Bool

def FBSDKLoginURLCompleter.initWithURLParameters (p : URLParameters) (appID : String) :
    FBSDKLoginURLCompleter :=
  if 0 < length p.access_token then
    ⟨⟨p.access_token, scopes p.granted_scopes, scopes p.denied_scopes, some appID, p.userID,
      p.challenge, none⟩, false⟩
  else
    ⟨⟨none, ∅, ∅, none, none, none, errorFromReturnURLParameters p⟩,
      p.error = some "service_disabled_use_browser" || p.error = some "service_disabled"⟩

inductive FBSDKLoginManagerState
  | idle
  | start
  | performingLogin
  deriving DecidableEq, Repr

-- `handler` tells whether the closure of the login is still there.
structure FBSDKLoginManager where
  handler : Bool
  state : FBSDKLoginManagerState
  usedSFAuthSession : Bool
  requestedPermissions : Option (Finset String)

-- What a call finds around it: the device, the configuration of the server, two random
-- challenges, and whether the keychain does as it is told.
structure LoginEnvironment where
  isFacebookAppInstalled : Bool
  useNativeDialog : Bool
  useSafariViewController : Bool
  authURLError : Option (Option NSError)
  authenticationSession : Bool
  safariViewControllerClass : Bool
  parent : Bool
  isActive : Bool
  challenge : String
  browserChallenge : String
  loads : Bool
  stores : Bool
  deletes : Bool

-- The calls that leave the app and are answered once.
inductive Opening
  | native (id : ℕ)
  | browser (id : ℕ)
  | authenticationSession (id : ℕ)
  deriving DecidableEq, Repr

-- A token that waits for the user it belongs to; `currentUserID` is the one of the token
-- there was when it came.
structure Reauthentication where
  id : ℕ
  currentUserID : Option String
  token : FBSDKAccessToken
  grantedPermissions : Finset String
  declinedPermissions : Option (Finset String)
  deriving DecidableEq

structure HandlerCall where
  id : ℕ
  result : Option FBSDKLoginManagerLoginResult
  error : Option NSError
  currentAccessToken : Option FBSDKAccessToken
  deriving DecidableEq

-- `issued`, `accepted` and `calls` record the challenges that were sent, those that came
-- back with a token that was taken, and the calls of the handlers.
structure FacebookLogin where
  appID : String
  managers : ℕ → FBSDKLoginManager
  created : ℕ
  expectedChallenge : Option String
  currentAccessToken : Option FBSDKAccessToken
  pendingURLOpen : Option ℕ
  safariViewController : Bool
  openings : List Opening
  dismissals : List (Option ℕ × CallbackURL)
  fallbacks : List ℕ
  graphRequests : List (ℕ × FBSDKLoginCompletionParameters)
  reauthentications : List Reauthentication
  issued : List String
  accepted : List String
  calls : List HandlerCall

namespace FacebookLogin

variable (login : FacebookLogin)

def setManager (id : ℕ) (m : FBSDKLoginManager) : FacebookLogin :=
  { login with managers := Function.update login.managers id m }

def setState (id : ℕ) (state : FBSDKLoginManagerState) : FacebookLogin :=
  login.setManager id { login.managers id with state := state }

def setUsedSFAuthSession (id : ℕ) (used : Bool) : FacebookLogin :=
  login.setManager id { login.managers id with usedSFAuthSession := used }

def invokeHandler (id : ℕ) (result : Option FBSDKLoginManagerLoginResult) (error : Option NSError) :
    FacebookLogin :=
  { login.setManager id { login.managers id with state := .idle, handler := false } with
    calls := if (login.managers id).handler then
        login.calls ++ [⟨id, result, error, login.currentAccessToken⟩]
      else login.calls }

def handleImplicitCancelOfLogIn (id : ℕ) : FacebookLogin :=
  login.invokeHandler id (some ⟨none, true, none, none⟩) none

def validateLoginStartState (id : ℕ) : Bool × FacebookLogin :=
  match (login.managers id).state with
  | .start => ((login.managers id).usedSFAuthSession, login)
  | .performingLogin => (true, login.handleImplicitCancelOfLogIn id)
  | .idle => (true, login.setState id .start)

-- A keychain that fails keeps what it has.
def storeExpectedChallenge (challenge : Option String) (env : LoginEnvironment) : FacebookLogin :=
  if (if challenge.isSome then env.stores else env.deletes) then
    { login with expectedChallenge := challenge }
  else login

def loadExpectedChallenge (env : LoginEnvironment) : Option String :=
  if env.loads then login.expectedChallenge else none

def logInParameters (challenge : String) (env : LoginEnvironment) : FacebookLogin :=
  { login.storeExpectedChallenge (some challenge) env with issued := login.issued ++ [challenge] }

def logInCompletion (id : ℕ) (didPerformLogIn : Bool) (error : Option NSError) : FacebookLogin :=
  if didPerformLogIn then login.setState id .performingLogin
  else
    match error with
    | none => login.invokeHandler id none (some ⟨FBSDKLoginErrorDomain, FBSDKLoginUnknownErrorCode⟩)
    | some e =>
      if e.domain = SFVCCanceledLogin then login.handleImplicitCancelOfLogIn id
      else login.invokeHandler id none (some e)

def openURLWithSender (id : ℕ) (opening : Opening) : FacebookLogin :=
  { login with pendingURLOpen := some id, openings := login.openings ++ [opening] }

-- With no view controller to present from, nothing is called back.
def openURLWithSafariViewController (id : ℕ) (env : LoginEnvironment) : FacebookLogin :=
  if env.authenticationSession then login.openURLWithSender id (.authenticationSession id)
  else if env.safariViewControllerClass then
    if env.parent then
      { login with pendingURLOpen := some id, safariViewController := true }.logInCompletion id true none
    else { login with pendingURLOpen := some id }
  else login.openURLWithSender id (.browser id)

def performBrowserLogIn (id : ℕ) (env : LoginEnvironment) : FacebookLogin :=
  match env.authURLError with
  | some error => login.logInCompletion id false
      (some (error.getD ⟨FBSDKErrorDomain, FBSDKLoginUnknownErrorCode⟩))
  | none =>
    if env.useSafariViewController then
      (login.setUsedSFAuthSession id true).openURLWithSafariViewController id env
    else login.openURLWithSender id (.browser id)

def logInWithBrowserBehavior (id : ℕ) (env : LoginEnvironment) : FacebookLogin :=
  ((login.logInParameters env.browserChallenge env).setUsedSFAuthSession id false).performBrowserLogIn id env

-- Without the Facebook app the browser is used with the same challenge.
def logInWithNativeBehavior (id : ℕ) (env : LoginEnvironment) : FacebookLogin :=
  let started := (login.logInParameters env.challenge env).setUsedSFAuthSession id false
  if env.isFacebookAppInstalled then
    if env.useNativeDialog then started.openURLWithSender id (.native id)
    else started.logInWithBrowserBehavior id env
  else started.performBrowserLogIn id env

def logInWithPermissions (id : ℕ) (permissions : Finset String) (env : LoginEnvironment) :
    FacebookLogin :=
  (login.setManager id { login.managers id with
    handler := true
    requestedPermissions := some permissions }).logInWithNativeBehavior id env

def logInWithReadPermissions (id : ℕ) (permissions : Finset String) (env : LoginEnvironment) :
    FacebookLogin :=
  let valid := login.validateLoginStartState id
  if valid.1 then valid.2.logInWithPermissions id permissions env else valid.2

-- `FBSDKLoginManager()`.
def makeManager : FacebookLogin :=
  { login.setManager login.created ⟨false, .idle, false, none⟩ with created := login.created + 1 }

def facebookAuthentication (env : LoginEnvironment) : FacebookLogin :=
  login.makeManager.logInWithReadPermissions login.created {"email"} env

-- What was requested does not count in a first login.
def recentlyGrantedPermissions (id : ℕ) (granted : Finset String) : Finset String :=
  match login.currentAccessToken, (login.managers id).requestedPermissions with
  | some token, some requested =>
    if token.permissions = ∅ || requested = ∅ then granted else granted ∩ requested
  | _, _ => granted

def recentlyDeclinedPermissions (id : ℕ) (declined : Finset String) : Option (Finset String) :=
  (login.managers id).requestedPermissions.map (· ∩ declined)

def cancelled (id : ℕ) (declined : Option (Finset String)) : FacebookLogin :=
  login.invokeHandler id (some ⟨none, true, none,
    if login.currentAccessToken.isSome then declined else none⟩) none

def badChallenge : NSError := ⟨FBSDKLoginErrorDomain, FBSDKLoginBadChallengeString⟩

def challengePassed (p : FBSDKLoginCompletionParameters) (env : LoginEnvironment) : Bool :=
  (login.loadExpectedChallenge env).isSome && login.loadExpectedChallenge env = p.challenge

-- The challenge is dropped in all cases. With a token there already, the new one is first
-- asked whose it is.
def completeAuthentication (id : ℕ) (p : FBSDKLoginCompletionParameters) (env : LoginEnvironment) :
    FacebookLogin :=
  let cleared := login.storeExpectedChallenge none env
  match p.error, p.accessTokenString with
  | some e, _ => cleared.invokeHandler id none (some e)
  | none, none => cleared.cancelled id none
  | none, some tokenString =>
    if login.challengePassed p env then
      let granted := login.recentlyGrantedPermissions id p.permissions
      let declined := login.recentlyDeclinedPermissions id p.declinedPermissions
      if granted = ∅ then cleared.cancelled id declined
      else
        let token : FBSDKAccessToken :=
          ⟨tokenString, p.permissions, p.declinedPermissions, p.appID, p.userID⟩
        let taken := { cleared with accepted := login.accepted ++ p.challenge.toList }
        match login.currentAccessToken with
        | none => { taken with currentAccessToken := some token }.invokeHandler id
            (some ⟨some token, false, some granted, declined⟩) none
        | some current => { taken with reauthentications := login.reauthentications ++
            [⟨id, current.userID, token, granted, declined⟩] }
    else cleared.invokeHandler id none (some badChallenge)

-- The behavior of the managers is the native one, which falls back to the browser.
def completeLogIn (id : ℕ) (completer : FBSDKLoginURLCompleter) (env : LoginEnvironment) :
    FacebookLogin :=
  if completer.performExplicitFallback then
    if env.isActive then login.logInWithBrowserBehavior id env
    else { login with fallbacks := login.fallbacks ++ [id] }
  else if completer.parameters.accessTokenString.isSome && completer.parameters.userID.isNone then
    { login with graphRequests := login.graphRequests ++ [(id, completer.parameters)] }
  else login.completeAuthentication id completer.parameters env

def canOpenURL (url : CallbackURL) : Bool :=
  url.scheme.any (fun scheme => hasPrefix scheme ("fb" ++ login.appID)) &&
    url.host = some "authorize" &&
    ["com.facebook", "com.apple", "com.burbn"].any (hasPrefix url.sourceApplication)

def cancelIfPerformingLogin (id : ℕ) : FacebookLogin :=
  if (login.managers id).state = .performingLogin then login.handleImplicitCancelOfLogIn id else login

-- `application:openURL:sourceApplication:annotation:` of a manager.
def managerOpenURL (id : ℕ) (url : CallbackURL) (env : LoginEnvironment) : FacebookLogin :=
  if login.canOpenURL url then
    login.completeLogIn id (.initWithURLParameters url.parameters login.appID) env
  else login.cancelIfPerformingLogin id

def completePendingOpenURL (pending : Option ℕ) (url : CallbackURL) (env : LoginEnvironment) :
    FacebookLogin :=
  match pending with
  | none => { login with pendingURLOpen := none }
  | some id => { login with pendingURLOpen := none }.managerOpenURL id url env

-- A Safari view is dismissed first.
def openURL (url : CallbackURL) (env : LoginEnvironment) : FacebookLogin :=
  if login.safariViewController then
    { login with
      safariViewController := false
      dismissals := login.dismissals ++ [(login.pendingURLOpen, url)] }
  else login.completePendingOpenURL login.pendingURLOpen url env

def safariViewControllerDidFinish : FacebookLogin :=
  match login.pendingURLOpen with
  | none => { login with safariViewController := false }
  | some id => { { login with pendingURLOpen := none }.cancelIfPerformingLogin id with
      safariViewController := false }

def applicationDidBecomeActive : FacebookLogin :=
  match login.pendingURLOpen with
  | none => login
  | some id => login.cancelIfPerformingLogin id

-- What the two requests for a token without a user come back with.
structure MeAndPermissions where
  userID : Option String
  meError : Option NSError
  granted : Finset String
  declined : Finset String
  permissionsError : Option NSError

def answeredParameters (p : FBSDKLoginCompletionParameters) (answer : MeAndPermissions) :
    FBSDKLoginCompletionParameters :=
  { p with
    userID := answer.userID
    permissions := answer.granted
    declinedPermissions := answer.declined
    error := answer.permissionsError.orElse fun _ => answer.meError.orElse fun _ => p.error }

def userMismatch : NSError := ⟨FBSDKLoginErrorDomain, FBSDKLoginUserMismatchErrorCode⟩

-- The completion of `validateReauthentication`.
def validated (r : Reauthentication) (actualID : Option String) : FacebookLogin :=
  if r.currentUserID.isSome && r.currentUserID = actualID then
    { login with currentAccessToken := some r.token }.invokeHandler r.id
      (some ⟨some r.token, false, some r.grantedPermissions, r.declinedPermissions⟩) none
  else login.invokeHandler r.id none (some userMismatch)

def launch (appID : String) (expectedChallenge : Option String)
    (cachedToken : Option FBSDKAccessToken) : FacebookLogin where
  appID := appID
  managers := fun _ => ⟨false, .idle, false, none⟩
  created := 0
  expectedChallenge := expectedChallenge
  currentAccessToken := cachedToken
  pendingURLOpen := none
  safariViewController := false
  openings := []
  dismissals := []
  fallbacks := []
  graphRequests := []
  reauthentications := []
  issued := expectedChallenge.toList
  accepted := []
  calls := []

-- A URL that launches the app goes to a manager of its own, which has no handler.
def didFinishLaunchingWithURL (url : CallbackURL) (env : LoginEnvironment) : FacebookLogin :=
  login.makeManager.managerOpenURL login.created url env

end FacebookLogin

inductive FacebookEvent
  | launchedURL (url : CallbackURL) (env : LoginEnvironment)
  | facebookAuthentication (env : LoginEnvironment)
  | openedURL (opening : Opening) (success : Bool) (env : LoginEnvironment)
  | authenticationSessionEnded (id : ℕ) (result : Except NSError CallbackURL)
    (env : LoginEnvironment)
  | openURL (url : CallbackURL) (env : LoginEnvironment)
  | safariViewControllerDismissed (pending : Option ℕ) (url : CallbackURL) (env : LoginEnvironment)
  | safariViewControllerDidFinish
  | applicationDidBecomeActive
  | attemptBrowserLogIn (id : ℕ) (env : LoginEnvironment)
  | gotMeAndPermissions (id : ℕ) (parameters : FBSDKLoginCompletionParameters)
    (answer : FacebookLogin.MeAndPermissions) (env : LoginEnvironment)
  | gotMe (r : Reauthentication) (actualID : Option String)

namespace FacebookLogin

variable (login : FacebookLogin)

def openedURL (opening : Opening) (success : Bool) (env : LoginEnvironment) : FacebookLogin :=
  match opening with
  | .native id =>
    if success then login.logInCompletion id true none else login.logInWithBrowserBehavior id env
  | .browser id => login.logInCompletion id success none
  | .authenticationSession _ => login

def authenticationSessionEnded (id : ℕ) (result : Except NSError CallbackURL)
    (env : LoginEnvironment) : FacebookLogin :=
  match result with
  | .error e => login.logInCompletion id false (some e)
  | .ok url => (login.logInCompletion id true none).openURL url env

def step (login : FacebookLogin) : FacebookEvent → Option FacebookLogin
  | .launchedURL url env =>
    if login.created = 0 then some (login.didFinishLaunchingWithURL url env) else none
  | .facebookAuthentication env => some (login.facebookAuthentication env)
  | .openedURL opening success env =>
    if opening ∈ login.openings then
      some ({ login with openings := login.openings.erase opening }.openedURL opening success env)
    else none
  | .authenticationSessionEnded id result env =>
    if .authenticationSession id ∈ login.openings then
      some ({ login with openings := login.openings.erase (.authenticationSession id)
        }.authenticationSessionEnded id result env)
    else none
  | .openURL url env => some (login.openURL url env)
  | .safariViewControllerDismissed pending url env =>
    if (pending, url) ∈ login.dismissals then
      some ({ login with dismissals := login.dismissals.erase (pending, url)
        }.completePendingOpenURL pending url env)
    else none
  | .safariViewControllerDidFinish =>
    if login.safariViewController then some login.safariViewControllerDidFinish else none
  | .applicationDidBecomeActive =>
    if login.safariViewController || !login.dismissals.isEmpty then none
    else some login.applicationDidBecomeActive
  | .attemptBrowserLogIn id env =>
    if id ∈ login.fallbacks then
      some ({ login with fallbacks := login.fallbacks.erase id }.logInWithBrowserBehavior id env)
    else none
  | .gotMeAndPermissions id parameters answer env =>
    if (id, parameters) ∈ login.graphRequests then
      some ({ login with graphRequests := login.graphRequests.erase (id, parameters)
        }.completeAuthentication id (answeredParameters parameters answer) env)
    else none
  | .gotMe r actualID =>
    if r ∈ login.reauthentications then
      some ({ login with reauthentications := login.reauthentications.erase r }.validated r actualID)
    else none

def machine : Machine FacebookLogin FacebookEvent := ⟨step⟩

end FacebookLogin

end WhichStream.Facebook
