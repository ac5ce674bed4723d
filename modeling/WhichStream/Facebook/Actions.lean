import WhichStream.Facebook.Login

/-!
What matters of the logins: who has still to be called back, the challenge that is expected,
the token, and the record of it. Every event is a chain of a few actions on that.
-/

namespace WhichStream.Facebook

open EventMachine Relation

structure Logins where
  handlers : ℕ → Bool
  created : ℕ
  expectedChallenge : Option String
  currentAccessToken : Option FBSDKAccessToken
  reauthentications : List Reauthentication
  issued : List String
  accepted : List String
  calls : List HandlerCall

namespace Logins

def invoke (s : Logins) (id : ℕ) (result : Option FBSDKLoginManagerLoginResult)
    (error : Option NSError) : Logins :=
  { s with
    handlers := Function.update s.handlers id false
    calls := if s.handlers id then s.calls ++ [⟨id, result, error, s.currentAccessToken⟩]
      else s.calls }

/-- What a login that gives no token tells its handler. -/
def Refused (result : Option FBSDKLoginManagerLoginResult) (error : Option NSError) : Prop :=
  (result = none ∧ ∃ e, error = some e) ∨
    (∃ declined, result = some ⟨none, true, none, declined⟩) ∧ error = none

def granting (token : FBSDKAccessToken) (granted : Finset String)
    (declined : Option (Finset String)) : Option FBSDKLoginManagerLoginResult :=
  some ⟨some token, false, some granted, declined⟩

def dropped (deletes : Bool) (s : Logins) : Option String :=
  if deletes then none else s.expectedChallenge

/-- `deletes` tells whether the keychain lets go of a challenge, and `answer` whose a token
was found to be. -/
inductive Act (deletes : Bool) (answer : Option (Reauthentication × Option String)) :
    Logins → Logins → Prop
  | made (s : Logins) (handler : Bool) : Act deletes answer s { s with
      handlers := Function.update s.handlers s.created handler
      created := s.created + 1 }
  | issued (s : Logins) (challenge : String) (stored : Bool) : Act deletes answer s { s with
      expectedChallenge := if stored then some challenge else s.expectedChallenge
      issued := s.issued ++ [challenge] }
  | dropped (s : Logins) : Act deletes answer s { s with expectedChallenge := s.dropped deletes }
  | refused (s : Logins) (id : ℕ) {result error} (h : Refused result error) :
      Act deletes answer s (s.invoke id result error)
  | took (s : Logins) (id : ℕ) {challenge : String} (token : FBSDKAccessToken)
      (granted : Finset String) (declined : Option (Finset String))
      (h : s.expectedChallenge = some challenge) (first : s.currentAccessToken = none) :
      Act deletes answer s (invoke { s with
        expectedChallenge := s.dropped deletes
        accepted := s.accepted ++ [challenge]
        currentAccessToken := some token } id (granting token granted declined) none)
  | asked (s : Logins) {challenge : String} {current : FBSDKAccessToken} (r : Reauthentication)
      (h : s.expectedChallenge = some challenge) (again : s.currentAccessToken = some current)
      (user : r.currentUserID = current.userID) : Act deletes answer s { s with
        expectedChallenge := s.dropped deletes
        accepted := s.accepted ++ [challenge]
        reauthentications := s.reauthentications ++ [r] }
  | validated (s : Logins) {r : Reauthentication} {userID : String}
      (waits : r ∈ s.reauthentications) (found : answer = some (r, some userID))
      (same : r.currentUserID = some userID) : Act deletes answer s (invoke { s with
        reauthentications := s.reauthentications.erase r
        currentAccessToken := some r.token } r.id
        (granting r.token r.grantedPermissions r.declinedPermissions) none)
  | rejected (s : Logins) {r : Reauthentication} (waits : r ∈ s.reauthentications) :
      Act deletes answer s { s with reauthentications := s.reauthentications.erase r }

end Logins

namespace FacebookLogin

variable (login : FacebookLogin) {deletes : Bool} {answer : Option (Reauthentication × Option String)}
  {id : ℕ} {env : LoginEnvironment}

def logins : Logins where
  handlers id := (login.managers id).handler
  created := login.created
  expectedChallenge := login.expectedChallenge
  currentAccessToken := login.currentAccessToken
  reauthentications := login.reauthentications
  issued := login.issued
  accepted := login.accepted
  calls := login.calls

theorem setManager_handlers (id : ℕ) (m : FBSDKLoginManager) :
    (login.setManager id m).logins.handlers = Function.update login.logins.handlers id m.handler := by
  funext other
  unfold logins setManager
  dsimp only
  by_cases h : other = id
  · rw [h, Function.update_self, Function.update_self]
  · rw [Function.update_of_ne h, Function.update_of_ne h]

theorem setManager_logins (id : ℕ) (m : FBSDKLoginManager)
    (h : m.handler = (login.managers id).handler) : (login.setManager id m).logins = login.logins := by
  have hhandlers := login.setManager_handlers id m
  have hself : login.logins.handlers id = (login.managers id).handler := rfl
  rw [h, ← hself, Function.update_eq_self] at hhandlers
  have hrest : (login.setManager id m).logins =
    { login.logins with handlers := (login.setManager id m).logins.handlers } := rfl
  rw [hrest, hhandlers]

@[simp] theorem setState_logins (id : ℕ) (state : FBSDKLoginManagerState) :
    (login.setState id state).logins = login.logins := login.setManager_logins id _ rfl

@[simp] theorem setUsedSFAuthSession_logins (id : ℕ) (used : Bool) :
    (login.setUsedSFAuthSession id used).logins = login.logins := login.setManager_logins id _ rfl

def Chain (deletes : Bool) (answer : Option (Reauthentication × Option String))
    (a b : FacebookLogin) : Prop := ReflTransGen (Logins.Act deletes answer) a.logins b.logins

namespace Chain

variable {a b c : FacebookLogin}

theorem of_eq (h : b.logins = a.logins) : Chain deletes answer a b := by
  rw [Chain, h]

theorem of_act (h : Logins.Act deletes answer a.logins b.logins) : Chain deletes answer a b :=
  .single h

theorem trans (h : Chain deletes answer a b) (h' : Chain deletes answer b c) :
    Chain deletes answer a c := ReflTransGen.trans h h'

end Chain

theorem invokeHandler_logins (id : ℕ) (result : Option FBSDKLoginManagerLoginResult)
    (error : Option NSError) :
    (login.invokeHandler id result error).logins = login.logins.invoke id result error := by
  rw [Logins.invoke, ← login.setManager_handlers id { login.managers id with
    state := .idle
    handler := false }]
  rfl

theorem refused_chain {result error} (h : Logins.Refused result error) :
    Chain deletes answer login (login.invokeHandler id result error) := by
  refine .of_act ?_
  rw [invokeHandler_logins]
  exact .refused _ id h

theorem refused_error (e : NSError) : Logins.Refused none (some e) := Or.inl ⟨rfl, e, rfl⟩

theorem refused_cancelled (declined : Option (Finset String)) :
    Logins.Refused (some ⟨none, true, none, declined⟩) none := Or.inr ⟨⟨declined, rfl⟩, rfl⟩

theorem handleImplicitCancelOfLogIn_chain :
    Chain deletes answer login (login.handleImplicitCancelOfLogIn id) :=
  login.refused_chain (refused_cancelled none)

theorem cancelIfPerformingLogin_chain :
    Chain deletes answer login (login.cancelIfPerformingLogin id) := by
  unfold cancelIfPerformingLogin
  split_ifs
  · exact login.handleImplicitCancelOfLogIn_chain
  · exact .of_eq rfl

theorem logInParameters_chain (challenge : String) (env : LoginEnvironment) :
    Chain deletes answer login (login.logInParameters challenge env) := by
  have hlogins : (login.logInParameters challenge env).logins = { login.logins with
      expectedChallenge := if env.stores then some challenge else login.logins.expectedChallenge
      issued := login.logins.issued ++ [challenge] } := by
    unfold logInParameters storeExpectedChallenge
    cases env.stores <;> rfl
  refine .of_act ?_
  rw [hlogins]
  exact .issued _ challenge env.stores

theorem logInCompletion_chain (didPerformLogIn : Bool) (error : Option NSError) :
    Chain deletes answer login (login.logInCompletion id didPerformLogIn error) := by
  unfold logInCompletion
  split_ifs
  · exact .of_eq (login.setState_logins id _)
  · split
    · exact login.refused_chain (refused_error _)
    · split_ifs
      · exact login.handleImplicitCancelOfLogIn_chain
      · exact login.refused_chain (refused_error _)

theorem openURLWithSafariViewController_chain :
    Chain deletes answer login (login.openURLWithSafariViewController id env) := by
  unfold openURLWithSafariViewController
  split_ifs
  · exact .of_eq rfl
  · exact .trans (.of_eq rfl) (logInCompletion_chain _ true none)
  · exact .of_eq rfl
  · exact .of_eq rfl

theorem performBrowserLogIn_chain :
    Chain deletes answer login (login.performBrowserLogIn id env) := by
  unfold performBrowserLogIn
  split
  · exact login.logInCompletion_chain false _
  · split_ifs
    · exact .trans (.of_eq (login.setUsedSFAuthSession_logins id true))
        (openURLWithSafariViewController_chain _)
    · exact .of_eq rfl

theorem logInWithBrowserBehavior_chain :
    Chain deletes answer login (login.logInWithBrowserBehavior id env) := by
  unfold logInWithBrowserBehavior
  refine (login.logInParameters_chain env.browserChallenge env).trans ?_
  exact .trans (.of_eq (setUsedSFAuthSession_logins _ id false)) (performBrowserLogIn_chain _)

theorem logInWithNativeBehavior_chain :
    Chain deletes answer login (login.logInWithNativeBehavior id env) := by
  unfold logInWithNativeBehavior
  dsimp only
  refine (login.logInParameters_chain env.challenge env).trans ?_
  refine .trans (.of_eq (setUsedSFAuthSession_logins _ id false)) ?_
  split_ifs
  · exact .of_eq rfl
  · exact logInWithBrowserBehavior_chain _
  · exact performBrowserLogIn_chain _

theorem makeManager_chain : Chain deletes answer login login.makeManager := by
  have hlogins : login.makeManager.logins = { login.logins with
      handlers := Function.update login.logins.handlers login.logins.created false
      created := login.logins.created + 1 } := by
    have hmade : login.makeManager.logins = { login.logins with
      handlers := (login.setManager login.created ⟨false, .idle, false, none⟩).logins.handlers
      created := login.logins.created + 1 } := rfl
    rw [hmade, setManager_handlers]
    rfl
  refine .of_act ?_
  rw [hlogins]
  exact .made _ false

/-- The manager of a tap starts at once: it is a new one. -/
theorem facebookAuthentication_chain :
    Chain deletes answer login (login.facebookAuthentication env) := by
  have hidle : (login.makeManager.managers login.created).state = .idle := by
    unfold makeManager setManager
    dsimp only
    rw [Function.update_self]
  unfold facebookAuthentication logInWithReadPermissions validateLoginStartState
  rw [hidle]
  dsimp only
  rw [if_pos rfl]
  unfold logInWithPermissions
  refine .trans ?_ (logInWithNativeBehavior_chain _)
  refine .of_act ?_
  set started := login.makeManager.setState login.created .start
  set armed := started.setManager login.created { started.managers login.created with
    handler := true
    requestedPermissions := some {"email"} }
  have hlogins : armed.logins = { login.logins with
      handlers := Function.update login.logins.handlers login.logins.created true
      created := login.logins.created + 1 } := by
    have hhandlers : armed.logins.handlers =
        Function.update login.logins.handlers login.logins.created true := by
      have hstarted : started.logins.handlers =
          Function.update login.logins.handlers login.logins.created false := by
        have hstate := congrArg Logins.handlers (login.makeManager.setState_logins login.created .start)
        exact hstate.trans (login.setManager_handlers login.created ⟨false, .idle, false, none⟩)
      have harmed := started.setManager_handlers login.created { started.managers login.created with
        handler := true
        requestedPermissions := some {"email"} }
      rw [hstarted] at harmed
      exact harmed.trans (Function.update_idem ..)
    rw [← hhandlers]
    rfl
  rw [hlogins]
  exact .made _ true

section Completion

variable {p : FBSDKLoginCompletionParameters}

theorem dropped_logins : (login.storeExpectedChallenge none env).logins =
    { login.logins with expectedChallenge := login.logins.dropped env.deletes } := by
  unfold storeExpectedChallenge Logins.dropped
  cases env.deletes <;> rfl

theorem dropped_chain : Chain env.deletes answer login (login.storeExpectedChallenge none env) := by
  refine .of_act ?_
  rw [dropped_logins]
  exact .dropped _

theorem challengePassed_cases (h : login.challengePassed p env = true) :
    ∃ challenge, login.expectedChallenge = some challenge ∧ p.challenge = some challenge := by
  unfold challengePassed loadExpectedChallenge at h
  rw [Bool.and_eq_true, decide_eq_true_eq] at h
  obtain ⟨challenge, hsome⟩ := Option.isSome_iff_exists.mp h.1
  refine ⟨challenge, ?_, h.2.symm.trans hsome⟩
  split_ifs at hsome
  exact hsome

theorem cancelled_chain (declined : Option (Finset String)) :
    Chain deletes answer login (login.cancelled id declined) :=
  login.refused_chain (refused_cancelled _)

/-- A completed login takes a token for the expected challenge only, at once if there is
none, and else once it is known whose it is. -/
theorem completeAuthentication_chain :
    Chain env.deletes answer login (login.completeAuthentication id p env) := by
  have hdropped : Chain env.deletes answer login (login.storeExpectedChallenge none env) :=
    login.dropped_chain
  unfold completeAuthentication
  dsimp only
  split
  · exact hdropped.trans (refused_chain _ (refused_error _))
  · exact hdropped.trans (cancelled_chain _ none)
  · split_ifs with hpassed hgranted
    · exact hdropped.trans (cancelled_chain _ _)
    · obtain ⟨challenge, hexpected, hchallenge⟩ := login.challengePassed_cases hpassed
      rw [hchallenge, Option.toList_some]
      split
      · next hcurrent =>
        refine .of_act ?_
        rw [invokeHandler_logins]
        unfold storeExpectedChallenge
        cases env.deletes with
        | true => exact .took login.logins id _ _ _ hexpected hcurrent
        | false => exact .took login.logins id _ _ _ hexpected hcurrent
      · next current hcurrent =>
        refine .of_act ?_
        unfold storeExpectedChallenge
        cases env.deletes with
        | true => exact .asked login.logins _ hexpected hcurrent rfl
        | false => exact .asked login.logins _ hexpected hcurrent rfl
    · exact hdropped.trans (refused_chain _ (refused_error _))

end Completion

section Events

theorem completeLogIn_chain (completer : FBSDKLoginURLCompleter) :
    Chain env.deletes answer login (login.completeLogIn id completer env) := by
  unfold completeLogIn
  split_ifs
  · exact login.logInWithBrowserBehavior_chain
  · exact .of_eq rfl
  · exact .of_eq rfl
  · exact login.completeAuthentication_chain

theorem managerOpenURL_chain (url : CallbackURL) :
    Chain env.deletes answer login (login.managerOpenURL id url env) := by
  unfold managerOpenURL
  split_ifs
  · exact login.completeLogIn_chain _
  · exact login.cancelIfPerformingLogin_chain

theorem completePendingOpenURL_chain (pending : Option ℕ) (url : CallbackURL) :
    Chain env.deletes answer login (login.completePendingOpenURL pending url env) := by
  unfold completePendingOpenURL
  split
  · exact .of_eq rfl
  · next id => exact managerOpenURL_chain { login with pendingURLOpen := none } url

theorem openURL_chain (url : CallbackURL) :
    Chain env.deletes answer login (login.openURL url env) := by
  unfold openURL
  split_ifs
  · exact .of_eq rfl
  · exact login.completePendingOpenURL_chain _ url

theorem safariViewControllerDidFinish_chain :
    Chain deletes answer login login.safariViewControllerDidFinish := by
  unfold safariViewControllerDidFinish
  split
  · exact .of_eq rfl
  · next id => exact cancelIfPerformingLogin_chain { login with pendingURLOpen := none }

theorem applicationDidBecomeActive_chain :
    Chain deletes answer login login.applicationDidBecomeActive := by
  unfold applicationDidBecomeActive
  split
  · exact .of_eq rfl
  · exact login.cancelIfPerformingLogin_chain

theorem openedURL_chain (opening : Opening) (success : Bool) :
    Chain deletes answer login (login.openedURL opening success env) := by
  unfold openedURL
  split
  · split_ifs
    · exact login.logInCompletion_chain true none
    · exact login.logInWithBrowserBehavior_chain
  · exact login.logInCompletion_chain success none
  · exact .of_eq rfl

theorem authenticationSessionEnded_chain (result : Except NSError CallbackURL) :
    Chain env.deletes answer login (login.authenticationSessionEnded id result env) := by
  unfold authenticationSessionEnded
  split
  · exact login.logInCompletion_chain false _
  · exact (login.logInCompletion_chain true none).trans (openURL_chain _ _)

theorem validated_chain {r : Reauthentication} {actualID : Option String}
    (h : r ∈ login.reauthentications) :
    Chain deletes (some (r, actualID)) login
      ({ login with reauthentications := login.reauthentications.erase r }.validated r actualID) := by
  unfold validated
  split_ifs with hsame
  · rw [Bool.and_eq_true, decide_eq_true_eq] at hsame
    obtain ⟨userID, huser⟩ := Option.isSome_iff_exists.mp hsame.1
    have hfound : some (r, actualID) = some (r, some userID) := by rw [← hsame.2, huser]
    refine .of_act ?_
    rw [invokeHandler_logins]
    exact .validated login.logins h hfound huser
  · refine .trans (.of_act ?_) (refused_chain _ (refused_error _))
    exact .rejected login.logins h

end Events

end FacebookLogin

namespace FacebookEvent

def deletes : FacebookEvent → Bool
  | .launchedURL _ env => env.deletes
  | .authenticationSessionEnded _ _ env => env.deletes
  | .openURL _ env => env.deletes
  | .safariViewControllerDismissed _ _ env => env.deletes
  | .gotMeAndPermissions _ _ _ env => env.deletes
  | _ => true

def answer : FacebookEvent → Option (Reauthentication × Option String)
  | .gotMe r actualID => some (r, actualID)
  | _ => none

end FacebookEvent

namespace FacebookLogin

theorem step_chain (a : FacebookLogin) (e : FacebookEvent) (b : FacebookLogin)
    (h : machine.step a e = some b) : Chain e.deletes e.answer a b := by
  have h : a.step e = some b := h
  unfold step at h
  cases e with
  | launchedURL url env =>
    dsimp only at h
    split_ifs at h
    obtain rfl := Option.some.inj h
    exact a.makeManager_chain.trans (managerOpenURL_chain _ url)
  | facebookAuthentication env =>
    obtain rfl := Option.some.inj h
    exact a.facebookAuthentication_chain
  | openedURL opening success env =>
    dsimp only at h
    split_ifs at h
    obtain rfl := Option.some.inj h
    exact openedURL_chain { a with openings := a.openings.erase opening } opening success
  | authenticationSessionEnded id result env =>
    dsimp only at h
    split_ifs at h
    obtain rfl := Option.some.inj h
    exact authenticationSessionEnded_chain
      { a with openings := a.openings.erase (.authenticationSession id) } result
  | openURL url env =>
    obtain rfl := Option.some.inj h
    exact a.openURL_chain url
  | safariViewControllerDismissed pending url env =>
    dsimp only at h
    split_ifs at h
    obtain rfl := Option.some.inj h
    exact completePendingOpenURL_chain { a with dismissals := a.dismissals.erase (pending, url) }
      pending url
  | safariViewControllerDidFinish =>
    dsimp only at h
    split_ifs at h
    obtain rfl := Option.some.inj h
    exact a.safariViewControllerDidFinish_chain
  | applicationDidBecomeActive =>
    dsimp only at h
    split_ifs at h
    obtain rfl := Option.some.inj h
    exact a.applicationDidBecomeActive_chain
  | attemptBrowserLogIn id env =>
    dsimp only at h
    split_ifs at h
    obtain rfl := Option.some.inj h
    exact logInWithBrowserBehavior_chain { a with fallbacks := a.fallbacks.erase id }
  | gotMeAndPermissions id parameters answer env =>
    dsimp only at h
    split_ifs at h
    obtain rfl := Option.some.inj h
    exact completeAuthentication_chain
      { a with graphRequests := a.graphRequests.erase (id, parameters) }
  | gotMe r actualID =>
    dsimp only at h
    split_ifs at h with hr
    obtain rfl := Option.some.inj h
    exact a.validated_chain hr

end FacebookLogin

end WhichStream.Facebook
