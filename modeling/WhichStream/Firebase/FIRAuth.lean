import WhichStream.Firebase.Keychain
import WhichStream.Firebase.Session
import WhichStream.Firebase.User

/-!
FirebaseAuth as the app uses it: sign-in, sign-up and verification emails. Everything runs
on one work queue, in pieces that the answers of the service and the token queues of the
users separate; completions are queued on the main thread.
-/

namespace WhichStream.Firebase

open EventMachine KeyedArchives

-- A user object is known by its address.
abbrev Ref := ℕ

def FIRAuthErrorCodeUserDisabled : ErrorCode := 17005

def FIRAuthErrorCodeWrongPassword : ErrorCode := 17009

def FIRAuthErrorCodeUserNotFound : ErrorCode := 17011

def FIRAuthErrorCodeInvalidUserToken : ErrorCode := 17017

def FIRAuthErrorCodeUserTokenExpired : ErrorCode := 17021

def FIRAuthErrorCodeWeakPassword : ErrorCode := 17026

def FIRAuthErrorCodeMissingEmail : ErrorCode := 17034

def FIRAuthErrorCodeKeychainError : ErrorCode := 17995

def invalidatesToken (error : ErrorCode) : Bool :=
  error = FIRAuthErrorCodeUserNotFound || error = FIRAuthErrorCodeUserDisabled ||
    error = FIRAuthErrorCodeInvalidUserToken || error = FIRAuthErrorCodeUserTokenExpired

-- The closure that a request of the app leaves behind, with the number of the request.
inductive Completion
  | auth (call : Call) (k : ℕ)
  | mail (m : ℕ)
  deriving DecidableEq, Repr

-- The requests in flight; `tokens` is `verifyPassword` or `signUpNewUser`. A request for an
-- access token is the running task of its user's token service.
inductive Request
  | tokens (call : Call) (k : ℕ)
  | getAccountInfo (call : Call) (k : ℕ) (ref : Ref)
  | getOOBConfirmationCode (m : ℕ) (ref : Ref)
  deriving DecidableEq, Repr

def Request.completion : Request → Completion
  | .tokens call k => .auth call k
  | .getAccountInfo call k _ => .auth call k
  | .getOOBConfirmationCode m _ => .mail m

inductive Outcome
  | authResult (user : Option Ref)
  | error (code : ErrorCode)
  deriving DecidableEq, Repr

inductive Block
  | completion (call : Call) (k : ℕ) (outcome : Outcome)
  | mailCompletion (m : ℕ) (error : Option ErrorCode)
  | stateDidChange
  deriving DecidableEq, Repr

def Block.completed : Block → List Completion
  | .completion call k _ => [.auth call k]
  | .mailCompletion m _ => [.mail m]
  | .stateDidChange => []

structure IssuedTokens where
  IDToken : Option String
  approximateExpirationDate : Option NSDate
  refreshToken : Option String

structure SaveFaults where
  save : Option Fault
  legacyDelete : Option Fault

-- `taggedPointer` tells the strings that the system keeps in the pointer itself. `started`
-- and `mails` number the calls; `made`, `calledBack` and `log` record what has happened.
structure FIRAuth where
  firebaseAppName : String
  taggedPointer : String → Bool
  currentUser : Option Ref
  users : Ref → FIRUser Completion
  allocated : Ref
  keychain : FIRAuthKeychain Archive
  lastNotifiedUserToken : Option String
  requests : List Request
  mainQueue : List Block
  started : ℕ
  mails : ℕ
  made : List Completion
  calledBack : List Block
  log : List SessionEvent

namespace FIRAuth

variable (auth : FIRAuth)

def userKey : String := auth.firebaseAppName ++ "_firebase_user"

def setUser (ref : Ref) (user : FIRUser Completion) : FIRAuth :=
  { auth with users := Function.update auth.users ref user }

-- What the app reads of a user; a missing string is empty in Swift.
def user (ref : Ref) : User := ⟨(auth.users ref).userID.getD "", (auth.users ref).emailVerified⟩

def session : Option User := auth.currentUser.map auth.user

def rawAccessToken : Option String :=
  auth.currentUser.bind (fun ref => (auth.users ref).tokenService.accessToken)

def possiblyPostAuthStateChangeNotification : FIRAuth :=
  if auth.lastNotifiedUserToken = auth.rawAccessToken then auth
  else { auth with
    lastNotifiedUserToken := auth.rawAccessToken
    mainQueue := auth.mainQueue ++ [.stateDidChange] }

def saveUser (user : Option Ref) (f : SaveFaults) : Except KeychainError Unit × FIRAuth :=
  let saved := match user with
    | none => auth.keychain.removeDataForKey auth.userKey f.save f.legacyDelete
    | some ref => auth.keychain.setData auth.userKey (auth.users ref).encodeWithCoder f.save
  (saved.1, { auth with keychain := saved.2 })

def setCurrentUser (user : Option Ref) : FIRAuth :=
  { auth with
    currentUser := user
    log := if user.isNone then auth.log ++ [.signedOut] else auth.log }

def updateCurrentUser (user : Option Ref) (force saveToDisk : Bool) (f : SaveFaults) :
    Except KeychainError Unit × FIRAuth :=
  if user = auth.currentUser then (.ok (), auth.possiblyPostAuthStateChangeNotification)
  else
    let saved := if saveToDisk then auth.saveUser user f else (.ok (), auth)
    match saved.1 with
    | .ok _ => (.ok (), (saved.2.setCurrentUser user).possiblyPostAuthStateChangeNotification)
    | .error e =>
      (.error e, if force then (saved.2.setCurrentUser user).possiblyPostAuthStateChangeNotification
        else saved.2)

def updateKeychainWithUser (ref : Ref) (f : SaveFaults) : Except KeychainError Unit × FIRAuth :=
  if auth.currentUser = some ref then
    let saved := auth.saveUser (some ref) f
    match saved.1 with
    | .ok _ => (.ok (), saved.2.possiblyPostAuthStateChangeNotification)
    | .error e => (.error e, saved.2)
  else (.ok (), auth)

-- Identifiers are compared by address: an object is only equal to itself, unless the
-- strings are absent or tagged.
def sameUserID (ref : Ref) : Bool :=
  match auth.currentUser with
  | none => (auth.users ref).userID.isNone
  | some current => current = ref ||
      (auth.users current).userID = (auth.users ref).userID &&
        (auth.users ref).userID.all auth.taggedPointer

def signOutByForceWithUserID (ref : Ref) (f : SaveFaults) : FIRAuth :=
  if auth.sameUserID ref then (auth.updateCurrentUser none true true f).2 else auth

def signOutIfTokenIsInvalid (ref : Ref) (error : Option ErrorCode) (f : SaveFaults) : FIRAuth :=
  if error.any invalidatesToken then auth.signOutByForceWithUserID ref f else auth

def event (k : ℕ) : Outcome → SessionEvent
  | .authResult (some ref) => .answer k (.user (auth.user ref))
  | .authResult none => .answerWithoutUser k
  | .error _ => .answer k .error

def callInMainThread (call : Call) (k : ℕ) (outcome : Outcome) : FIRAuth :=
  { auth with
    mainQueue := auth.mainQueue ++ [.completion call k outcome]
    log := auth.log ++ [auth.event k outcome] }

def callInMainThreadWithError (m : ℕ) (error : Option ErrorCode) : FIRAuth :=
  { auth with mainQueue := auth.mainQueue ++ [.mailCompletion m error] }

-- The decorated callback of a sign-in flow.
def signInFlowCallback (call : Call) (k : ℕ) (result : Except ErrorCode (Option Ref))
    (f : SaveFaults) : FIRAuth :=
  match result with
  | .error e => auth.callInMainThread call k (.error e)
  | .ok user =>
    let updated := auth.updateCurrentUser user false true f
    match updated.1 with
    | .ok _ => updated.2.callInMainThread call k (.authResult user)
    | .error _ => updated.2.callInMainThread call k (.error FIRAuthErrorCodeKeychainError)

-- What `completeSignInWithAccessToken` calls back. Sign-up drops the error.
def completeSignIn (call : Call) (k : ℕ) (result : Except ErrorCode Ref) (f : SaveFaults) : FIRAuth :=
  match call, result with
  | _, .ok ref => auth.signInFlowCallback call k (.ok (some ref)) f
  | .signIn, .error e => auth.signInFlowCallback call k (.error e) f
  | .createUser, .error _ => auth.signInFlowCallback call k (.ok none) f

def request (r : Request) : FIRAuth := { auth with requests := auth.requests ++ [r] }

def gotToken (ref : Ref) (c : Completion) (result : Except ErrorCode Unit) (f : SaveFaults) : FIRAuth :=
  match c, result with
  | .auth call k, .ok _ => auth.request (.getAccountInfo call k ref)
  | .mail m, .ok _ => auth.request (.getOOBConfirmationCode m ref)
  | .auth call k, .error e => auth.completeSignIn call k (.error e) f
  | .mail m, .error e => auth.callInMainThreadWithError m (some e)

def internalGetTokenCallback (ref : Ref) (c : Completion) (result : FetchResult) (f : SaveFaults) :
    FIRAuth :=
  match result.error with
  | some e => (auth.signOutIfTokenIsInvalid ref (some e) f).gotToken ref c (.error e) f
  | none =>
    if result.tokenUpdated then
      let updated := auth.updateKeychainWithUser ref f
      match updated.1 with
      | .ok _ => updated.2.gotToken ref c (.ok ()) f
      | .error _ => updated.2.gotToken ref c (.error FIRAuthErrorCodeKeychainError) f
    else auth.gotToken ref c (.ok ()) f

def setTokenService (ref : Ref) (s : FIRSecureTokenService Completion) : FIRAuth :=
  auth.setUser ref { auth.users ref with tokenService := s }

def internalGetToken (ref : Ref) (c : Completion) : FIRAuth :=
  auth.setTokenService ref ((auth.users ref).tokenService.fetchAccessToken false c)

def retrieveUser (call : Call) (k : ℕ) (t : IssuedTokens) : FIRAuth :=
  { auth.setUser auth.allocated (.initWithTokenService
      (.initWithTokens t.IDToken t.approximateExpirationDate t.refreshToken)) with
    allocated := auth.allocated + 1 }.internalGetToken auth.allocated (.auth call k)

def start (call : Call) : FIRAuth :=
  { auth with
    started := auth.started + 1
    made := auth.made ++ [.auth call auth.started]
    log := auth.log ++ [.start call] }

def startMail : FIRAuth :=
  { auth with mails := auth.mails + 1, made := auth.made ++ [.mail auth.mails] }

-- A call without a password, or a sign-up without an email address, is not sent.
def signInWithEmail (call : Call) (email password : Text) : FIRAuth :=
  match call with
  | .signIn =>
    if password = [] then
      (auth.start call).callInMainThread call auth.started (.error FIRAuthErrorCodeWrongPassword)
    else (auth.start call).request (.tokens call auth.started)
  | .createUser =>
    if password = [] then
      (auth.start call).callInMainThread call auth.started (.error FIRAuthErrorCodeWeakPassword)
    else if email = [] then
      (auth.start call).callInMainThread call auth.started (.error FIRAuthErrorCodeMissingEmail)
    else (auth.start call).request (.tokens call auth.started)

def initWithAPIKey (firebaseAppName : String) (taggedPointer : String → Bool)
    (keychain : FIRAuthKeychain Archive) : FIRAuth where
  firebaseAppName := firebaseAppName
  taggedPointer := taggedPointer
  currentUser := none
  users := fun _ => .initWithTokenService (.initWithTokens none none none)
  allocated := 0
  keychain := keychain
  lastNotifiedUserToken := none
  requests := []
  mainQueue := []
  started := 0
  mails := 0
  made := []
  calledBack := []
  log := []

-- A keychain that cannot be read gives no user, as one with no user does.
def getUser (f : FIRAuthKeychain.ReadFaults) : Option (FIRUser Completion) × FIRAuth :=
  let read := auth.keychain.dataForKey auth.userKey f
  (match read.1 with
    | .error _ => none
    | .ok data => data.bind FIRUser.initWithCoder, { auth with keychain := read.2 })

def launch (firebaseAppName : String) (taggedPointer : String → Bool)
    (keychain : FIRAuthKeychain Archive) (f : FIRAuthKeychain.ReadFaults) : FIRAuth :=
  let read := (initWithAPIKey firebaseAppName taggedPointer keychain).getUser f
  match read.1 with
  | none => read.2
  | some user =>
    ({ read.2.setUser 0 user with allocated := 1 }.updateCurrentUser (some 0) false false
      ⟨none, none⟩).2

def relaunch (f : FIRAuthKeychain.ReadFaults) : FIRAuth :=
  launch auth.firebaseAppName auth.taggedPointer auth.keychain.relaunch f

end FIRAuth

inductive FIRAuthEvent
  | call (call : Call) (email password : Text)
  | sendEmailVerification (ref : Ref)
  | signOut (f : SaveFaults)
  | tokens (call : Call) (k : ℕ) (result : Except ErrorCode IssuedTokens)
  | runTask (ref : Ref) (now : NSDate)
  | requestCompleted (ref : Ref) (result : Except ErrorCode SecureTokenResponse) (f : SaveFaults)
  | gotAccountInfo (call : Call) (k : ℕ) (ref : Ref)
    (result : Except ErrorCode GetAccountInfoResponseUser) (f : SaveFaults)
  | gotOOBConfirmationCode (m : ℕ) (ref : Ref) (error : Option ErrorCode) (f : SaveFaults)
  | main

namespace FIRAuth

variable (auth : FIRAuth)

def answered (r : Request) : Option FIRAuth :=
  if r ∈ auth.requests then some { auth with requests := auth.requests.erase r } else none

def gotTokens (call : Call) (k : ℕ) (result : Except ErrorCode IssuedTokens) : FIRAuth :=
  match result with
  | .error e => auth.callInMainThread call k (.error e)
  | .ok t => auth.retrieveUser call k t

def lookedUp (ref : Ref) (account : GetAccountInfoResponseUser) : FIRAuth :=
  auth.setUser ref ({ auth.users ref with anonymous := false }.updateWithGetAccountInfoResponse
    account)

def gotAccountInfo (call : Call) (k : ℕ) (ref : Ref)
    (result : Except ErrorCode GetAccountInfoResponseUser) (f : SaveFaults) : FIRAuth :=
  match result with
  | .error e => auth.completeSignIn call k (.error e) f
  | .ok account =>
    (auth.lookedUp ref account).completeSignIn call k (.ok ref) f

def ran (ref : Ref) : TaskOutcome Completion → FIRAuth
  | .calledBack c result => auth.internalGetTokenCallback ref c result ⟨none, none⟩
  | .requested _ => auth

def step (auth : FIRAuth) : FIRAuthEvent → Option FIRAuth
  | .call call email password => some (auth.signInWithEmail call email password)
  | .sendEmailVerification ref =>
    if ref < auth.allocated then some (auth.startMail.internalGetToken ref (.mail auth.mails))
    else none
  | .signOut f =>
    if auth.currentUser.isNone then some auth else some (auth.updateCurrentUser none false true f).2
  | .tokens call k result => (auth.answered (.tokens call k)).map fun auth =>
    auth.gotTokens call k result
  | .runTask ref now => ((auth.users ref).tokenService.runTask now).map fun (outcome, s) =>
    (auth.setTokenService ref s).ran ref outcome
  | .requestCompleted ref result f =>
    ((auth.users ref).tokenService.requestCompleted result).map fun ((c, fetched), s) =>
      (auth.setTokenService ref s).internalGetTokenCallback ref c fetched f
  | .gotAccountInfo call k ref result f => (auth.answered (.getAccountInfo call k ref)).map
    fun auth => auth.gotAccountInfo call k ref result f
  | .gotOOBConfirmationCode m ref error f => (auth.answered (.getOOBConfirmationCode m ref)).map
    fun auth => (auth.signOutIfTokenIsInvalid ref error f).callInMainThreadWithError m error
  | .main =>
    match auth.mainQueue with
    | [] => none
    | block :: rest => some { auth with
      mainQueue := rest
      calledBack := auth.calledBack ++ [block]
      log := match block with
        | .completion _ k _ => auth.log ++ [.callback k]
        | _ => auth.log }

def machine : Machine FIRAuth FIRAuthEvent := ⟨step⟩

end FIRAuth

end WhichStream.Firebase
