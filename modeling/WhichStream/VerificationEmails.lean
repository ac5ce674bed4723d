import WhichStream.AttemptRuns

/-!
To whom verification e-mails go. The recipient is the account signed in when the
request is made, which is a registration callback or a tap on Yes.
-/

namespace WhichStream

open EventMachine

namespace AttemptView

def Mailed (v : AttemptView) (user : User) : Prop := .sendEmailVerification user ∈ v.requested

-- `user` is the account that the attempt created or signed in.
def Owns (v : AttemptView) (user : User) : Prop :=
  ∃ own, v.result = some (.user own) ∧ own.uid = user.uid

def MailsOwner (v : AttemptView) : Prop := ∀ user, v.Mailed user → v.Owns user

end AttemptView

theorem mem_sendEmailVerification {currentUser : Option User} {user : User} :
    .sendEmailVerification user ∈ sendEmailVerification currentUser ↔ currentUser = some user := by
  cases currentUser with
  | none => simp [sendEmailVerification]
  | some u => simp [sendEmailVerification, eq_comm]

theorem signInCompletion_no_mail (onStack : Bool) (currentUser : Option User) (result : AuthResult)
    (user : User) :
    .sendEmailVerification user ∉ signInCompletion onStack currentUser result := by
  cases currentUser with
  | none => simp [signInCompletion]
  | some u =>
    unfold signInCompletion
    cases result <;> dsimp only <;> split_ifs <;> simp

theorem mailCompletion_no_mail (call : Call) (result : AuthResult) (emailError : MailResult)
    (passInput : Text) (user : User) :
    .sendEmailVerification user ∉ call.mailCompletion result emailError passInput := by
  cases call with
  | signIn => cases emailError <;> simp [Call.mailCompletion, resendCompletion]
  | createUser =>
    cases emailError <;> cases result <;> simp [Call.mailCompletion, verificationCompletion]
    split_ifs <;> simp

def AsksForMail (app : App) (e : Event) (k : ℕ) : Prop :=
  (e = .callback k ∧ ∃ a, app.auth.attempts k = some a ∧ a.call = .createUser) ∨ e = .tapYes k

-- `user` is the account that attempt `k` was answered with.
def AnsweredOwner (before : List Event) (k : ℕ) (user : User) : Prop :=
  ∃ own, .finished k (.user own) ∈ before ∧ own.uid = user.uid

def SessionOwned (session : Option User) (before : List Event) (app : App) (e : Event) : Prop :=
  ∀ k, AsksForMail app e k → ∀ user, App.sessionAfter session before = some user →
    AnsweredOwner before k user

theorem answeredOwner_iff {session : Option User} {before : List Event} {app : App}
    (h : App.Tracked session before app) (k : ℕ) (user : User) :
    AnsweredOwner before k user ↔ (app.auth.view k).Owns user := by
  simp only [AnsweredOwner, (h.recorded k).mem_iff]
  rfl

section OneMove

variable {v v' : AttemptView} {currentUser : Option User} {x : AuthEvent}

theorem Accounted.not_mailed (h : Accounted v) (hv : v.outcome = none) (user : User) :
    ¬ v.Mailed user := by
  obtain ⟨hc, hy, hmc, -⟩ := h.unrun hv
  simp [AttemptView.Mailed, AttemptView.requested, hc, hy, hmc]

def Sender (v : AttemptView) (x : AuthEvent) : Prop :=
  (∃ k onStack a, x = .completion k onStack ∧ v.attempt = some a ∧ a.call = .createUser) ∨
    ∃ k, x = .tapYes k

theorem moves_mailed (hm : Auth.Moves currentUser v x v') (user : User) :
    v'.Mailed user ↔ v.Mailed user ∨ (Sender v x ∧ currentUser = some user) := by
  unfold AttemptView.Mailed AttemptView.requested
  cases hm with
  | start call screen email password fresh => simp [Sender]
  | finished k result found waits => simp [Sender]
  | @completion a result k onStack found answered =>
    have hs : Sender v (.completion k onStack) ↔ a.call = .createUser := by
      simp [Sender, found]
    rw [hs]
    cases hcall : a.call with
    | signIn =>
      have hno := signInCompletion_no_mail onStack currentUser result user
      simp [Call.completion, hno]
    | createUser =>
      have hmem := @mem_sendEmailVerification currentUser user
      simp [Call.completion, createUserCompletion, hmem]
      tauto
  | @tapYes a k found asks =>
    have hmem := @mem_sendEmailVerification currentUser user
    simp [Sender, yesAction, hmem]
    tauto
  | tapOK k found shows => simp [Sender]
  | mailFinished k result found sent => simp [Sender]
  | @mailCompletion a own result onStack emailError k passInput found ran done =>
    have hno := mailCompletion_no_mail a.call result emailError passInput user
    simp [Sender, hno]

theorem sender_result (hacc : Accounted v) (hm : Auth.Moves currentUser v x v')
    (hs : Sender v x) : v.result ≠ none := by
  cases hm with
  | @completion a result k onStack found answered =>
    simp [AttemptView.result, found, answered, Phase.result]
  | @tapYes a k found asks =>
    apply result_ne_none_of_outcome
    rw [outcome_of_found found]
    exact hacc.outcome_ne_none found (Or.inl (List.ne_nil_of_mem asks))
  | _ => simp [Sender] at hs

theorem mailsOwner_moves_iff (hacc : Accounted v) (h : v.MailsOwner)
    (hm : Auth.Moves currentUser v x v') :
    v'.MailsOwner ↔ (Sender v x → ∀ user, currentUser = some user → v.Owns user) := by
  have same (hv : v.result ≠ none) (user : User) : v'.Owns user ↔ v.Owns user := by
    rw [AttemptView.Owns, hm.result_kept hv, AttemptView.Owns]
  constructor
  · intro hg hs user hu
    have hmail : v'.Mailed user := (moves_mailed hm user).mpr (Or.inr ⟨hs, hu⟩)
    exact (same (sender_result hacc hm hs) user).mp (hg user hmail)
  · intro hown user hmail
    rcases (moves_mailed hm user).mp hmail with hmail | ⟨hs, hu⟩
    · have hran : v.outcome ≠ none := fun hn => hacc.not_mailed hn user hmail
      exact (same (result_ne_none_of_outcome hran) user).mpr (h user hmail)
    · exact (same (sender_result hacc hm hs) user).mpr (hown hs user hu)

end OneMove

-- Whenever the app has called `sendEmailVerification`, it called it on the account of the
-- attempt whose closure made the call.
def MailsOwners (app : App) : Prop :=
  ∀ origin user, (origin, .sendEmailVerification user) ∈ app.auth.log →
    ∃ k, origin.attempt = some k ∧ (app.auth.view k).Owns user

theorem mailed_iff {auth : Auth} {k : ℕ} {user : User} : (auth.view k).Mailed user ↔
    ∃ origin, Origin.attempt origin = some k ∧ (origin, .sendEmailVerification user) ∈ auth.log := by
  simp only [AttemptView.Mailed, AttemptView.requested, Auth.view, List.mem_append,
    Auth.mem_requests]
  constructor
  · rintro ((hm | hm) | hm)
    · exact ⟨.completion k, rfl, hm⟩
    · exact ⟨.yes k, rfl, hm⟩
    · exact ⟨.mailCompletion k, rfl, hm⟩
  · rintro ⟨origin, ho, hm⟩
    cases origin with
    | tap => cases ho
    | completion j =>
      obtain rfl : j = k := Option.some.inj ho
      exact Or.inl (Or.inl hm)
    | yes j =>
      obtain rfl : j = k := Option.some.inj ho
      exact Or.inl (Or.inr hm)
    | mailCompletion j =>
      obtain rfl : j = k := Option.some.inj ho
      exact Or.inr hm

theorem mailsOwners_iff {session : Option User} {before : List Event} {app : App}
    (h : App.Tracked session before app) :
    MailsOwners app ↔ ∀ k, (app.auth.view k).MailsOwner := by
  constructor
  · intro hall k user hmail
    obtain ⟨origin, ho, hlog⟩ := mailed_iff.mp hmail
    obtain ⟨j, hj, hown⟩ := hall origin user hlog
    obtain rfl : j = k := Option.some.inj (hj.symm.trans ho)
    exact hown
  · intro hall origin user hlog
    cases hk : origin.attempt with
    | none =>
      have htap : origin = .tap := by cases origin <;> first | rfl | cases hk
      rw [htap] at hlog
      obtain ⟨alert, he⟩ := h.taps _ (Auth.mem_requests.mpr hlog)
      cases he
    | some k => exact ⟨k, rfl, hall k user (mailed_iff.mpr ⟨origin, hk, hlog⟩)⟩

theorem asksForMail_iff {app : App} {e : Event} {x : AuthEvent} {k : ℕ} (hx : app.Sends e x)
    (hk : x.subject app.auth = some k) (j : ℕ) :
    AsksForMail app e j ↔ j = k ∧ Sender (app.auth.view k) x := by
  cases hx with
  | @callback i a found =>
    obtain rfl : i = k := Option.some.inj hk
    constructor
    · rintro (⟨he, b, hb, hcall⟩ | he)
      · obtain rfl : i = j := Event.callback.inj he
        exact ⟨rfl, Or.inl ⟨i, _, b, rfl, hb, hcall⟩⟩
      · cases he
    · rintro ⟨rfl, ⟨_, _, b, -, hb, hcall⟩ | ⟨_, he⟩⟩
      · exact Or.inl ⟨rfl, b, hb, hcall⟩
      · cases he
  | tapYes i =>
    obtain rfl : i = k := Option.some.inj hk
    constructor
    · rintro (⟨he, -⟩ | he)
      · cases he
      · exact ⟨(Event.tapYes.inj he).symm, Or.inr ⟨i, rfl⟩⟩
    · rintro ⟨rfl, -⟩
      exact Or.inr rfl
  | _ => simp [AsksForMail, Sender]

theorem sessionOwned_iff {session : Option User} {before : List Event} {app : App} {e : Event}
    {x : AuthEvent} {k : ℕ} (h : App.Tracked session before app) (hx : app.Sends e x)
    (hk : x.subject app.auth = some k) : SessionOwned session before app e ↔
      (Sender (app.auth.view k) x → ∀ user, app.auth.currentUser = some user →
        (app.auth.view k).Owns user) := by
  simp only [SessionOwned, answeredOwner_iff h, h.session]
  constructor
  · intro hown hs
    exact hown k ((asksForMail_iff hx hk k).mpr ⟨rfl, hs⟩)
  · intro hown j hj
    obtain ⟨rfl, hs⟩ := (asksForMail_iff hx hk j).mp hj
    exact hown hs

theorem verification_emails_iff (session : Option User) (width : Width) (es : List Event) :
    App.machine.Throughout MailsOwners (App.launch session width) es ↔
      App.machine.Along (SessionOwned session) (App.launch session width) es := by
  rw [Machine.throughout_congr (I := App.Tracked session) (App.tracked_launch session width)
    (fun before app e app' h hu => h.step (App.step_stepped hu))
    (fun before app h => mailsOwners_iff h)]
  apply App.throughout_views_iff
  · intro k user hmail
    simp [AttemptView.Mailed, AttemptView.requested, Auth.view, Auth.requests, Auth.launch] at hmail
  · rintro before app e hnone k (⟨rfl, a, found, -⟩ | rfl)
    · have hsome := hnone (.completion k (app.onStack a)) (by simp [App.authEvent, found])
      cases hsome
    · cases hnone (.tapYes k) rfl
  · intro before app e x k v' h hx hk hgood hm
    rw [mailsOwner_moves_iff (h.accounted k) hgood hm]
    exact (sessionOwned_iff h (App.authEvent_sends hx) hk).symm

def refusedRegistration (t : Text) : List Event :=
  [.registerSegue, .form (.beginEditing .usernameInput), .form (.changeText t),
    .form (.beginEditing .emailInput), .form (.changeText t),
    .form (.beginEditing .passInput), .form (.changeText t),
    .form (.beginEditing .retypePassInput), .form (.changeText t), .form .endEditing,
    .form .register, .finished 0 .error, .callback 0]

theorem refused_registration_mails_session : ¬ ∀ (session : Option User) (width : Width)
    (es : List Event), App.machine.Throughout MailsOwners (App.launch session width) es := by
  intro h
  have hown := (h (some ⟨"a", true⟩) ⟨375, by decide⟩ (refusedRegistration [⟨['a']⟩])).last rfl
  obtain ⟨k, hk, own, hres, -⟩ := hown (.completion 0) ⟨"a", true⟩ (by decide)
  obtain rfl : 0 = k := Option.some.inj hk
  cases hres

end WhichStream
