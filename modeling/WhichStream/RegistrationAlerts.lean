import WhichStream.VerificationEmails

/-!
The alerts of a registration once its service calls have finished and been reported.
-/

namespace WhichStream

open EventMachine

/-- The alert that the results of an attempt ask for; `ownMail` is what became of the
e-mail to the account it created. -/
def registrationAlert (result : AuthResult) (ownMail : Option MailResult) (password : Text) :
    Option Alert :=
  match result with
  | .user _ => ownMail.map (fun emailError => match emailError with
    | .sent => .verifyEmail
    | .failed => .sendFailed)
  | .error => some (if password.count < 6 then .invalidPassword else .signUpError)

namespace Attempt

def ownMail (a : Attempt) : Option MailResult :=
  match a.phase, a.mail with
  | .ran (.user own) _, .reported user emailError =>
    if user.uid = own.uid then some emailError else none
  | _, _ => none

def Concluded (a : Attempt) (result : AuthResult) : Prop :=
  (∃ onStack, a.phase = .ran result onStack) ∧ (a.mail = .none ∨ a.mail.isReported = true)

end Attempt

def RegistrationSettled (v : AttemptView) : Prop :=
  ∀ a result, v.attempt = some a → a.call = .createUser → a.Concluded result →
    ∃ alert, registrationAlert result a.ownMail a.password = some alert ∧
      alerts v.requested = [alert]

def ReportFits (result : AuthResult) (user : User) (emailError : MailResult)
    (password passInput : Text) : Prop :=
  match result with
  | .user own => user.uid = own.uid
  | .error => emailError = .sent ∧ (passInput.count < 6 ↔ password.count < 6)

def RegistrationFits (app : App) : Event → Prop
  | .callback k => ∀ a, app.auth.attempts k = some a → a.call = .createUser →
      app.auth.currentUser ≠ none
  | .mailCallback k => ∀ a result onStack user emailError, app.auth.attempts k = some a →
      a.call = .createUser → a.phase = .ran result onStack → a.mail = .finished user emailError →
      ReportFits result user emailError a.password (app.forms a.screen.id).passInput
  | _ => True

theorem verificationCompletion_single (result : AuthResult) (emailError : MailResult)
    (passInput : Text) : ∃ alert,
      verificationCompletion result emailError passInput = [.present alert] := by
  cases emailError with
  | failed => exact ⟨.sendFailed, rfl⟩
  | sent =>
    cases result with
    | user own => exact ⟨.verifyEmail, rfl⟩
    | error =>
      unfold verificationCompletion
      split_ifs
      · exact ⟨.invalidPassword, rfl⟩
      · exact ⟨.signUpError, rfl⟩

theorem verificationCompletion_exact (result : AuthResult) (user : User) (emailError : MailResult)
    (password passInput : Text) (onStack : Bool) (a : Attempt) (hp : a.phase = .ran result onStack)
    (hm : a.mail = .reported user emailError) :
    (∃ alert, registrationAlert result a.ownMail password = some alert ∧
      verificationCompletion result emailError passInput = [.present alert]) ↔
    ReportFits result user emailError password passInput := by
  cases result with
  | user own =>
    by_cases hu : user.uid = own.uid
    · cases emailError <;>
        simp [registrationAlert, verificationCompletion, ReportFits, Attempt.ownMail, hp, hm, hu]
    · simp [registrationAlert, ReportFits, Attempt.ownMail, hp, hm, hu]
  | error =>
    cases emailError with
    | failed =>
      simp only [registrationAlert, verificationCompletion, ReportFits, reduceCtorEq, false_and,
        iff_false]
      split_ifs <;> simp
    | sent =>
      simp only [registrationAlert, verificationCompletion, ReportFits, true_and]
      by_cases hl : passInput.count < 6 <;> by_cases hs : password.count < 6 <;> simp [hl, hs]

section OneMove

variable {v v' : AttemptView} {currentUser : Option User} {x : AuthEvent} {a : Attempt}

theorem RegistrationSettled.of_unrun (h : v.outcome = none) : RegistrationSettled v := by
  rintro a result ha - ⟨⟨onStack, hp⟩, -⟩
  have ho : a.phase.outcome = none := by rw [← outcome_of_found ha, h]
  rw [hp] at ho
  cases ho

theorem RegistrationSettled.of_signIn (ha : v.attempt = some a) (hcall : a.call ≠ .createUser) :
    RegistrationSettled v := by
  intro b result hb hcall' _
  obtain rfl : a = b := Option.some.inj (ha.symm.trans hb)
  exact absurd hcall' hcall

theorem RegistrationSettled.of_running (ha : v.attempt = some a) (hnone : a.mail ≠ .none)
    (hrep : a.mail.isReported = false) : RegistrationSettled v := by
  rintro b result hb - ⟨-, hm⟩
  obtain rfl : a = b := Option.some.inj (ha.symm.trans hb)
  rcases hm with hm | hm
  · exact absurd hm hnone
  · rw [hrep] at hm
    cases hm

theorem RegistrationSettled.moves_other (hacc : Accounted v) (h : RegistrationSettled v)
    (hm : Auth.Moves currentUser v x v') (hc : ∀ k onStack, x ≠ .completion k onStack)
    (hmc : ∀ k passInput, x ≠ .mailCompletion k passInput) : RegistrationSettled v' := by
  cases hm with
  | start call screen email password fresh => exact .of_unrun rfl
  | finished k result found waits => exact .of_unrun rfl
  | completion k onStack found answered => exact absurd rfl (hc k onStack)
  | mailCompletion k passInput found ran done => exact absurd rfl (hmc k passInput)
  | @tapYes a k found asks =>
    have hcall : a.call ≠ .createUser := fun hcall => (hacc.registration a found hcall).2.2.1 asks
    exact .of_signIn rfl (by simpa using hcall)
  | @tapOK a k found shows =>
    rintro b result ⟨⟩ hcall hb
    exact h a result found hcall hb
  | mailFinished k result found sent => exact .of_running rfl (by simp) rfl

theorem foldl_sendEmail_mail (currentUser : Option User) (b : Attempt) (hb : b.mail = .none) :
    ((sendEmailVerification currentUser).foldl Attempt.perform b).mail =
      match currentUser with
      | some user => .sent user
      | none => .none := by
  cases currentUser with
  | none => exact hb
  | some user => rfl

theorem registrationSettled_completion_iff {k : ℕ} {onStack : Bool} {result : AuthResult}
    (hacc : Accounted v) (found : v.attempt = some a) (answered : a.phase = .answered result)
    (hm : Auth.Moves currentUser v (.completion k onStack) v') :
    RegistrationSettled v' ↔ (a.call = .createUser → currentUser ≠ none) := by
  have hv : v.outcome = none := by rw [outcome_of_found found, answered, Phase.outcome]
  obtain ⟨hc, hy, hmc, ha⟩ := hacc.unrun hv
  cases hm with
  | @completion a' result' _ _ found' answered' =>
    obtain rfl : a = a' := Option.some.inj (found.symm.trans found')
    obtain rfl : result = result' := Phase.answered.inj (answered.symm.trans answered')
    by_cases hcall : a.call = .createUser
    · have hmail := foldl_sendEmail_mail currentUser { a with phase := .ran result onStack }
        (ha a found).2
      have heff : a.call.completion onStack currentUser result = sendEmailVerification currentUser := by
        rw [hcall]
        rfl
      rw [heff]
      cases currentUser with
      | none =>
        constructor
        · intro hs
          obtain ⟨alert, -, halert⟩ := hs _ result rfl hcall ⟨⟨onStack, by simp⟩, Or.inl hmail⟩
          simp [AttemptView.requested, hc, hy, hmc, alerts, sendEmailVerification] at halert
        · exact fun hne => absurd rfl (hne hcall)
      | some user =>
        constructor
        · exact fun _ _ => by simp
        · intro _
          apply RegistrationSettled.of_running rfl
          · rw [hmail]
            simp
          · rw [hmail]
            rfl
    · constructor
      · exact fun _ h => absurd h hcall
      · intro _
        exact .of_signIn rfl (by simpa using hcall)

theorem registrationSettled_mail_iff {k : ℕ} {passInput : Text} {result : AuthResult} {user : User}
    {emailError : MailResult} {onStack : Bool} (hacc : Accounted v) (found : v.attempt = some a)
    (ran : a.phase = .ran result onStack) (done : a.mail = .finished user emailError)
    (hm : Auth.Moves currentUser v (.mailCompletion k passInput) v') :
    RegistrationSettled v' ↔
      (a.call = .createUser → ReportFits result user emailError a.password passInput) := by
  cases hm with
  | @mailCompletion a' user' result' onStack' emailError' _ _ found' ran' done' =>
    obtain rfl : a = a' := Option.some.inj (found.symm.trans found')
    obtain ⟨rfl, rfl⟩ : result = result' ∧ onStack = onStack' := by
      rw [ran] at ran'
      exact Phase.ran.inj ran'
    obtain ⟨rfl, rfl⟩ : user = user' ∧ emailError = emailError' := by
      rw [done] at done'
      exact Mail.finished.inj done'
    by_cases hcall : a.call = .createUser
    · obtain ⟨hc, hy, -, hmc⟩ := hacc.registration a found hcall
      have hmc' : v.mailCompletion = [] := hmc (by rw [done]; rfl)
      have heff : a.call.mailCompletion result emailError passInput =
          verificationCompletion result emailError passInput := by
        rw [hcall]
        rfl
      have hexact := verificationCompletion_exact result user emailError a.password passInput
        onStack { a with mail := .reported user emailError } ran rfl
      obtain ⟨alert, he⟩ := verificationCompletion_single result emailError passInput
      rw [he] at hexact heff
      rw [heff, ← hexact]
      have hreq : alerts (v.completion ++ v.yes ++ (v.mailCompletion ++ [.present alert])) =
          [alert] := by
        rw [hy, hmc', alerts_append, alerts_append, hc]
        rfl
      constructor
      · intro hs _
        obtain ⟨own, hown, hal⟩ := hs _ result rfl hcall ⟨⟨onStack, ran⟩, Or.inr rfl⟩
        obtain rfl : alert = own := by
          rw [AttemptView.requested, hreq] at hal
          exact List.singleton_inj.mp hal
        exact ⟨alert, hown, rfl⟩
      · intro hfit
        obtain ⟨own, hown, hal⟩ := hfit hcall
        obtain rfl : alert = own := by simpa using hal
        rintro b result' ⟨⟩ - ⟨⟨onStack', hp⟩, -⟩
        obtain ⟨rfl, rfl⟩ : result = result' ∧ onStack = onStack' :=
          Phase.ran.inj (ran.symm.trans hp)
        exact ⟨alert, hown, hreq⟩
    · constructor
      · exact fun _ h => absurd h hcall
      · intro _
        exact .of_signIn rfl (by simpa using hcall)

end OneMove

theorem registrationFits_other {app : App} {e : Event}
    (hc : ∀ k onStack, app.authEvent e ≠ some (.completion k onStack))
    (hmc : ∀ k passInput, app.authEvent e ≠ some (.mailCompletion k passInput)) :
    RegistrationFits app e := by
  cases e with
  | callback k =>
    intro a found _
    exact absurd (by simp [App.authEvent, found]) (hc k (app.onStack a))
  | mailCallback k =>
    intro a result onStack user emailError found _ _ _
    exact absurd (by simp [App.authEvent, found]) (hmc k (app.forms a.screen.id).passInput)
  | _ => trivial

section OneEvent

variable {app : App} {k : ℕ} {a : Attempt}

theorem registrationFits_callback_iff (found : app.auth.attempts k = some a) :
    RegistrationFits app (.callback k) ↔ (a.call = .createUser → app.auth.currentUser ≠ none) := by
  constructor
  · exact fun hfit hcall => hfit a found hcall
  · intro hfit b hb hcall
    obtain rfl : a = b := Option.some.inj (found.symm.trans hb)
    exact hfit hcall

theorem registrationFits_mail_iff {result : AuthResult} {onStack : Bool} {user : User}
    {emailError : MailResult} (found : app.auth.attempts k = some a)
    (ran : a.phase = .ran result onStack) (done : a.mail = .finished user emailError) :
    RegistrationFits app (.mailCallback k) ↔ (a.call = .createUser →
      ReportFits result user emailError a.password (app.forms a.screen.id).passInput) := by
  constructor
  · exact fun hfit hcall => hfit a result onStack user emailError found hcall ran done
  · intro hfit b result' onStack' user' emailError' hb hcall hp hmail
    obtain rfl : a = b := Option.some.inj (found.symm.trans hb)
    obtain ⟨rfl, rfl⟩ : result = result' ∧ onStack = onStack' :=
      Phase.ran.inj (ran.symm.trans hp)
    obtain ⟨rfl, rfl⟩ : user = user' ∧ emailError = emailError' :=
      Mail.finished.inj (done.symm.trans hmail)
    exact hfit hcall

end OneEvent

end WhichStream
