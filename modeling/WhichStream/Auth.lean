import Mathlib.Logic.Function.Basic
import WhichStream.Navigation

/-!
The session of FirebaseAuth and the attempts that the screens start on it. A request
is sent, answered by the service, and its completion then runs on the main thread;
the current user may change at any point between.
-/

namespace WhichStream

open EventMachine

structure User where
  uid : String
  isEmailVerified : Bool
  deriving DecidableEq, Repr

inductive AuthResult
  | user (user : User)
  | error
  deriving DecidableEq, Repr

inductive MailResult
  | sent
  | failed
  deriving DecidableEq, Repr

inductive Call
  | signIn
  | createUser
  deriving DecidableEq, Repr

inductive Effect
  | present (alert : Alert)
  | pushViewController (kind : Kind)
  | sendEmailVerification (user : User)
  deriving DecidableEq, Repr

-- The closure that `firebaseAuthentication` passes to `signIn(withEmail:password:)`.
-- `onStack` tells whether `self.navigationController` is there.
def signInCompletion (onStack : Bool) (currentUser : Option User) (result : AuthResult) :
    List Effect :=
  match currentUser with
  | some user =>
    if user.isEmailVerified then
      match result with
      | .user _ => if onStack then [.pushViewController .main] else []
      | .error => [.present .invalidCredentials]
    else [.present .verifyAccount]
  | none => []

-- `Auth.auth().currentUser?.sendEmailVerification`.
def sendEmailVerification (currentUser : Option User) : List Effect :=
  match currentUser with
  | some user => [.sendEmailVerification user]
  | none => []

def yesAction (currentUser : Option User) : List Effect := sendEmailVerification currentUser

def resendCompletion (emailError : MailResult) : List Effect :=
  match emailError with
  | .failed => [.present .resendFailed]
  | .sent => [.present .emailSent]

-- The closure that `sendEmail` passes to `createUser(withEmail:password:)`, and the one
-- that this passes on; `passInput` is the field's text when the latter runs.
def createUserCompletion (currentUser : Option User) : List Effect :=
  sendEmailVerification currentUser

def verificationCompletion (authResult : AuthResult) (emailError : MailResult) (passInput : Text) :
    List Effect :=
  match emailError with
  | .failed => [.present .sendFailed]
  | .sent =>
    match authResult with
    | .user _ => [.present .verifyEmail]
    | .error =>
      if passInput.count < 6 then [.present .invalidPassword] else [.present .signUpError]

def Call.completion (call : Call) (onStack : Bool) (currentUser : Option User)
    (result : AuthResult) : List Effect :=
  match call with
  | .signIn => signInCompletion onStack currentUser result
  | .createUser => createUserCompletion currentUser

def Call.mailCompletion (call : Call) (result : AuthResult) (emailError : MailResult)
    (passInput : Text) : List Effect :=
  match call with
  | .signIn => resendCompletion emailError
  | .createUser => verificationCompletion result emailError passInput

inductive Phase
  | waiting
  | answered (result : AuthResult)
  | ran (result : AuthResult) (onStack : Bool)
  deriving DecidableEq, Repr

inductive Mail
  | none
  | sent (user : User)
  | finished (user : User) (result : MailResult)
  | reported (user : User) (result : MailResult)
  deriving DecidableEq, Repr

structure Attempt where
  call : Call
  screen : ViewController
  email : Text
  password : Text
  phase : Phase
  presented : List Alert
  mail : Mail
  deriving DecidableEq, Repr

def Attempt.start (call : Call) (screen : ViewController) (email password : Text) : Attempt :=
  ⟨call, screen, email, password, .waiting, [], .none⟩

def Attempt.perform (a : Attempt) : Effect → Attempt
  | .present alert => { a with presented := alert :: a.presented }
  | .pushViewController _ => a
  | .sendEmailVerification user => { a with mail := .sent user }

-- The closure of attempt `k` that makes a request; `tap` is a tap that starts no attempt.
inductive Origin
  | tap
  | completion (k : ℕ)
  | yes (k : ℕ)
  | mailCompletion (k : ℕ)
  deriving DecidableEq, Repr

structure Auth where
  currentUser : Option User
  attempts : ℕ → Option Attempt
  started : ℕ
  log : List (Origin × Effect)

inductive AuthEvent
  | report (alert : Alert)
  | start (call : Call) (screen : ViewController) (email password : Text)
  | finished (k : ℕ) (result : AuthResult)
  | signedOut
  | completion (k : ℕ) (onStack : Bool)
  | tapYes (k : ℕ)
  | tapOK (k : ℕ)
  | mailFinished (k : ℕ) (result : MailResult)
  | mailCompletion (k : ℕ) (passInput : Text)

namespace Auth

def launch (session : Option User) : Auth := ⟨session, fun _ => none, 0, []⟩

-- `updateCurrentUser` runs for a success only, before the completion is queued.
def updateCurrentUser (currentUser : Option User) : AuthResult → Option User
  | .user user => some user
  | .error => currentUser

def setAttempt (auth : Auth) (k : ℕ) (a : Attempt) : Auth :=
  { auth with attempts := Function.update auth.attempts k (some a) }

def perform (auth : Auth) (origin : Origin) (k : ℕ) (a : Attempt) (effects : List Effect) : Auth :=
  { auth with
    attempts := Function.update auth.attempts k (some (effects.foldl Attempt.perform a))
    log := auth.log ++ effects.map (fun effect => (origin, effect)) }

def step (auth : Auth) : AuthEvent → Option Auth
  | .report alert => some { auth with log := auth.log ++ [(.tap, .present alert)] }
  | .start call screen email password =>
    some { auth.setAttempt auth.started (.start call screen email password) with
      started := auth.started + 1 }
  | .finished k result => (auth.attempts k).bind fun a =>
    match a.phase with
    | .waiting =>
      some { auth.setAttempt k { a with phase := .answered result } with
        currentUser := updateCurrentUser auth.currentUser result }
    | _ => none
  | .signedOut => some { auth with currentUser := none }
  | .completion k onStack => (auth.attempts k).bind fun a =>
    match a.phase with
    | .answered result =>
      some (auth.perform (.completion k) k { a with phase := .ran result onStack }
        (a.call.completion onStack auth.currentUser result))
    | _ => none
  | .tapYes k => (auth.attempts k).bind fun a =>
    if .verifyAccount ∈ a.presented then
      some (auth.perform (.yes k) k { a with presented := a.presented.erase .verifyAccount }
        (yesAction auth.currentUser))
    else none
  | .tapOK k => (auth.attempts k).bind fun a =>
    if .verifyEmail ∈ a.presented then
      some (auth.setAttempt k { a with presented := a.presented.erase .verifyEmail })
    else none
  | .mailFinished k result => (auth.attempts k).bind fun a =>
    match a.mail with
    | .sent user => some (auth.setAttempt k { a with mail := .finished user result })
    | _ => none
  | .mailCompletion k passInput => (auth.attempts k).bind fun a =>
    match a.phase, a.mail with
    | .ran result _, .finished user emailError =>
      some (auth.perform (.mailCompletion k) k { a with mail := .reported user emailError }
        (a.call.mailCompletion result emailError passInput))
    | _, _ => none

def machine : Machine Auth AuthEvent := ⟨step⟩

/-- What each event can do, with what it needs. -/
inductive Step (auth : Auth) : AuthEvent → Auth → Prop
  | report (alert) : Step auth (.report alert)
      { auth with log := auth.log ++ [(.tap, .present alert)] }
  | start (call screen email password) : Step auth (.start call screen email password)
      { auth.setAttempt auth.started (.start call screen email password) with
        started := auth.started + 1 }
  | finished {k a} (result) (found : auth.attempts k = some a) (waits : a.phase = .waiting) :
      Step auth (.finished k result)
        { auth.setAttempt k { a with phase := .answered result } with
          currentUser := updateCurrentUser auth.currentUser result }
  | signedOut : Step auth .signedOut { auth with currentUser := none }
  | completion {k a result} (onStack) (found : auth.attempts k = some a)
      (answered : a.phase = .answered result) : Step auth (.completion k onStack)
        (auth.perform (.completion k) k { a with phase := .ran result onStack }
          (a.call.completion onStack auth.currentUser result))
  | tapYes {k a} (found : auth.attempts k = some a) (asks : .verifyAccount ∈ a.presented) :
      Step auth (.tapYes k) (auth.perform (.yes k) k
        { a with presented := a.presented.erase .verifyAccount } (yesAction auth.currentUser))
  | tapOK {k a} (found : auth.attempts k = some a) (shows : .verifyEmail ∈ a.presented) :
      Step auth (.tapOK k)
        (auth.setAttempt k { a with presented := a.presented.erase .verifyEmail })
  | mailFinished {k a user} (result) (found : auth.attempts k = some a) (sent : a.mail = .sent user) :
      Step auth (.mailFinished k result) (auth.setAttempt k { a with mail := .finished user result })
  | mailCompletion {k a user result onStack emailError} (passInput)
      (found : auth.attempts k = some a) (ran : a.phase = .ran result onStack)
      (done : a.mail = .finished user emailError) : Step auth (.mailCompletion k passInput)
        (auth.perform (.mailCompletion k) k { a with mail := .reported user emailError }
          (a.call.mailCompletion result emailError passInput))

theorem step_cases {auth auth' : Auth} {e : AuthEvent} (h : auth.step e = some auth') :
    Step auth e auth' := by
  cases e with
  | report alert =>
    obtain rfl := Option.some.inj h
    exact .report alert
  | start call screen email password =>
    obtain rfl := Option.some.inj h
    exact .start call screen email password
  | signedOut =>
    obtain rfl := Option.some.inj h
    exact .signedOut
  | finished k result =>
    obtain ⟨a, ha, h⟩ := Option.bind_eq_some_iff.mp h
    cases hp : a.phase <;> simp only [hp, reduceCtorEq, Option.some.injEq] at h
    exact h ▸ .finished result ha hp
  | completion k onStack =>
    obtain ⟨a, ha, h⟩ := Option.bind_eq_some_iff.mp h
    cases hp : a.phase <;> simp only [hp, reduceCtorEq, Option.some.injEq] at h
    exact h ▸ .completion onStack ha hp
  | tapYes k =>
    obtain ⟨a, ha, h⟩ := Option.bind_eq_some_iff.mp h
    split_ifs at h with hp
    exact Option.some.inj h ▸ .tapYes ha hp
  | tapOK k =>
    obtain ⟨a, ha, h⟩ := Option.bind_eq_some_iff.mp h
    split_ifs at h with hp
    exact Option.some.inj h ▸ .tapOK ha hp
  | mailFinished k result =>
    obtain ⟨a, ha, h⟩ := Option.bind_eq_some_iff.mp h
    cases hm : a.mail <;> simp only [hm, reduceCtorEq, Option.some.injEq] at h
    exact h ▸ .mailFinished result ha hm
  | mailCompletion k passInput =>
    obtain ⟨a, ha, h⟩ := Option.bind_eq_some_iff.mp h
    split at h
    · next hp hm => exact Option.some.inj h ▸ .mailCompletion passInput ha hp hm
    · cases h

end Auth

end WhichStream
