import WhichStream.AttemptRuns

/-!
What the sign-in callbacks show. The callback is handed its attempt's result but asks
the session what to do, so it is right only when the two agree.
-/

namespace WhichStream

open EventMachine

def signInOutcome : AuthResult → Effect
  | .user user =>
    if user.isEmailVerified then .pushViewController .main else .present .verifyAccount
  | .error => .present .invalidCredentials

def SignInSettled (v : AttemptView) : Prop :=
  ∀ a result, v.attempt = some a → a.call = .signIn → a.phase = .ran result true →
    v.completion = [signInOutcome result]

-- What `isEmailVerified` of the current user must say for the callback to do it.
def AuthResult.expectsVerified : AuthResult → Bool
  | .user own => own.isEmailVerified
  | .error => true

def SessionFits (app : App) (e : Event) : Prop :=
  ∀ k a result, e = .callback k → app.auth.attempts k = some a → a.call = .signIn →
    a.phase = .answered result → app.onStack a = true →
    app.auth.currentUser.map User.isEmailVerified = some result.expectsVerified

theorem signInCompletion_exact (currentUser : Option User) (result : AuthResult) :
    signInCompletion true currentUser result = [signInOutcome result] ↔
      currentUser.map User.isEmailVerified = some result.expectsVerified := by
  cases currentUser with
  | none => simp [signInCompletion]
  | some user =>
    cases result with
    | error => cases h : user.isEmailVerified <;>
        simp [signInCompletion, signInOutcome, AuthResult.expectsVerified, h]
    | user own => cases h : user.isEmailVerified <;> cases ho : own.isEmailVerified <;>
        simp [signInCompletion, signInOutcome, AuthResult.expectsVerified, h, ho]

section OneMove

variable {v v' : AttemptView} {currentUser : Option User} {x : AuthEvent}

theorem SignInSettled.of_unrun (h : v.outcome = none) : SignInSettled v := by
  intro a result ha _ hp
  have ho : a.phase.outcome = none := by rw [← outcome_of_found ha, h]
  rw [hp] at ho
  cases ho

theorem SignInSettled.of_same {a b : Attempt} (h : SignInSettled v) (ha : v.attempt = some a)
    (hb : v'.attempt = some b) (hcall : b.call = a.call) (hphase : b.phase = a.phase)
    (hc : v'.completion = v.completion) : SignInSettled v' := by
  intro b' result hb' hcall' hphase'
  obtain rfl : b = b' := Option.some.inj (hb.symm.trans hb')
  rw [hc]
  exact h a result ha (hcall ▸ hcall') (hphase ▸ hphase')

theorem SignInSettled.moves_other (h : SignInSettled v) (hm : Auth.Moves currentUser v x v')
    (hx : ∀ k onStack, x ≠ .completion k onStack) : SignInSettled v' := by
  cases hm with
  | start call screen email password fresh => exact .of_unrun rfl
  | finished k result found waits => exact .of_unrun rfl
  | completion k onStack found answered => exact absurd rfl (hx k onStack)
  | tapYes k found asks =>
    exact h.of_same found rfl (by simp) (by simp) rfl
  | tapOK k found shows => exact h.of_same found rfl rfl rfl rfl
  | mailFinished k result found sent => exact h.of_same found rfl rfl rfl rfl
  | mailCompletion k passInput found ran done =>
    exact h.of_same found rfl (by simp) (by simp) rfl

theorem signInSettled_completion_iff {k : ℕ} {onStack : Bool} {a : Attempt} {result : AuthResult}
    (hacc : Accounted v) (found : v.attempt = some a) (answered : a.phase = .answered result)
    (hm : Auth.Moves currentUser v (.completion k onStack) v') :
    SignInSettled v' ↔ (a.call = .signIn → onStack = true →
      currentUser.map User.isEmailVerified = some result.expectsVerified) := by
  have hv : v.outcome = none := by rw [outcome_of_found found, answered, Phase.outcome]
  obtain ⟨hnone, -, -, -⟩ := hacc.unrun hv
  cases hm with
  | @completion a' result' _ _ found' answered' =>
    obtain rfl : a = a' := Option.some.inj (found.symm.trans found')
    obtain rfl : result = result' := by
      rw [answered] at answered'
      exact Phase.answered.inj answered'
    constructor
    · intro hs hcall hon
      have hc := hs _ result rfl (by simp [hcall]) (by simp [hon])
      rw [hnone, hcall, hon] at hc
      exact (signInCompletion_exact currentUser result).mp hc
    · rintro hfit b result' ⟨⟩ hcall hphase
      rw [Attempt.foldl_perform_call] at hcall
      rw [Attempt.foldl_perform_phase, Phase.ran.injEq] at hphase
      obtain ⟨rfl, rfl⟩ := hphase
      have hcall' : a.call = .signIn := hcall
      rw [hnone, hcall']
      exact (signInCompletion_exact currentUser result).mpr (hfit hcall' rfl)

end OneMove

theorem sessionFits_other {app : App} {e : Event}
    (h : ∀ k onStack, app.authEvent e ≠ some (.completion k onStack)) : SessionFits app e := by
  rintro k a result rfl ha - - -
  exact absurd (by simp [App.authEvent, ha]) (h k (app.onStack a))

theorem sessionFits_callback_iff {app : App} {k : ℕ} {a : Attempt} {result : AuthResult}
    (found : app.auth.attempts k = some a) (answered : a.phase = .answered result) :
    SessionFits app (.callback k) ↔ (a.call = .signIn → app.onStack a = true →
      app.auth.currentUser.map User.isEmailVerified = some result.expectsVerified) := by
  constructor
  · intro hfit hcall hon
    exact hfit k a result rfl found hcall answered hon
  · rintro hfit j b result' ⟨⟩ hb hcall hp hon
    obtain rfl : a = b := Option.some.inj (found.symm.trans hb)
    obtain rfl : result = result' := Phase.answered.inj (answered.symm.trans hp)
    exact hfit hcall hon

theorem sign_in_outcomes_iff (session : Option User) (width : Width) (es : List Event) :
    App.machine.Throughout (fun app => ∀ k, SignInSettled (app.auth.view k))
        (App.launch session width) es ↔
      App.machine.Along (fun _ app e => SessionFits app e) (App.launch session width) es := by
  apply App.throughout_views_iff (C := fun _ app e => SessionFits app e)
  · intro k
    exact .of_unrun rfl
  · intro before app e hnone
    apply sessionFits_other
    intro k onStack hx
    cases hnone _ hx
  · intro before app e x k v' h hx hk hgood hm
    by_cases hc : ∃ j onStack, x = .completion j onStack
    · obtain ⟨j, onStack, rfl⟩ := hc
      obtain rfl : j = k := Option.some.inj hk
      cases App.authEvent_sends hx with
      | @callback _ a found =>
        obtain ⟨result, answered⟩ := hm.answered found
        rw [signInSettled_completion_iff (h.accounted j) found answered hm,
          sessionFits_callback_iff found answered]
    · have hother : ∀ j onStack, x ≠ .completion j onStack := fun j onStack he => hc ⟨j, onStack, he⟩
      have hfits : SessionFits app e := by
        apply sessionFits_other
        intro j onStack he
        exact hother j onStack (Option.some.inj (hx.symm.trans he))
      exact ⟨fun _ => hfits, fun _ => hgood.moves_other hm hother⟩

def failedSignIn (t : Text) : List Event :=
  [.loginSegue, .editLogin .emailInput t, .editLogin .passInput t, .firebaseAuthentication,
    .finished 0 .error, .callback 0]

theorem failed_sign_in_shows_nothing : ¬ ∀ (session : Option User) (width : Width) (es : List Event),
    App.machine.Throughout (fun app => ∀ k, SignInSettled (app.auth.view k))
      (App.launch session width) es := by
  intro h
  have hs := (h none ⟨375, by decide⟩ (failedSignIn [⟨['a']⟩])).last rfl 0 _ .error rfl rfl rfl
  cases hs

end WhichStream
