import WhichStream.Auth

/-!
Each attempt seen on its own: what it has come to and what its closures have requested.
A step moves the view of at most one attempt, and what it moves it to depends on
that view and on the current user alone.
-/

namespace WhichStream

namespace Attempt

variable (a : Attempt) (effects : List Effect)

@[simp] theorem perform_call (e : Effect) : (a.perform e).call = a.call := by cases e <;> rfl

@[simp] theorem perform_phase (e : Effect) : (a.perform e).phase = a.phase := by cases e <;> rfl

@[simp] theorem foldl_perform_call : (effects.foldl perform a).call = a.call := by
  induction effects generalizing a with
  | nil => rfl
  | cons e effects ih => rw [List.foldl_cons, ih, perform_call]

@[simp] theorem foldl_perform_phase : (effects.foldl perform a).phase = a.phase := by
  induction effects generalizing a with
  | nil => rfl
  | cons e effects ih => rw [List.foldl_cons, ih, perform_phase]

theorem mem_foldl_presented (alert : Alert) : alert ∈ (effects.foldl perform a).presented ↔
    alert ∈ a.presented ∨ .present alert ∈ effects := by
  induction effects generalizing a with
  | nil => simp
  | cons e effects ih =>
    rw [List.foldl_cons, ih]
    cases e <;> simp [perform, or_assoc, or_left_comm]

end Attempt

def Origin.attempt : Origin → Option ℕ
  | .tap => none
  | .completion k => some k
  | .yes k => some k
  | .mailCompletion k => some k

structure AttemptView where
  attempt : Option Attempt
  completion : List Effect
  yes : List Effect
  mailCompletion : List Effect

def AuthEvent.subject (auth : Auth) : AuthEvent → Option ℕ
  | .report _ => none
  | .start _ _ _ _ => some auth.started
  | .finished k _ => some k
  | .signedOut => none
  | .completion k _ => some k
  | .tapYes k => some k
  | .tapOK k => some k
  | .mailFinished k _ => some k
  | .mailCompletion k _ => some k

namespace Auth

def requests (auth : Auth) (origin : Origin) : List Effect :=
  auth.log.filterMap (fun p => if p.1 = origin then some p.2 else none)

def view (auth : Auth) (k : ℕ) : AttemptView :=
  ⟨auth.attempts k, auth.requests (.completion k), auth.requests (.yes k),
    auth.requests (.mailCompletion k)⟩

def Numbered (auth : Auth) : Prop := ∀ k, auth.started ≤ k → auth.attempts k = none

inductive Moves (currentUser : Option User) (v : AttemptView) : AuthEvent → AttemptView → Prop
  | start (call screen email password) (fresh : v.attempt = none) :
      Moves currentUser v (.start call screen email password)
        { v with attempt := some (.start call screen email password) }
  | finished {a} (k result) (found : v.attempt = some a) (waits : a.phase = .waiting) :
      Moves currentUser v (.finished k result)
        { v with attempt := some { a with phase := .answered result } }
  | completion {a result} (k onStack) (found : v.attempt = some a)
      (answered : a.phase = .answered result) : Moves currentUser v (.completion k onStack)
        { v with
          attempt := some ((a.call.completion onStack currentUser result).foldl Attempt.perform
            { a with phase := .ran result onStack })
          completion := v.completion ++ a.call.completion onStack currentUser result }
  | tapYes {a} (k) (found : v.attempt = some a) (asks : .verifyAccount ∈ a.presented) :
      Moves currentUser v (.tapYes k)
        { v with
          attempt := some ((yesAction currentUser).foldl Attempt.perform
            { a with presented := a.presented.erase .verifyAccount })
          yes := v.yes ++ yesAction currentUser }
  | tapOK {a} (k) (found : v.attempt = some a) (shows : .verifyEmail ∈ a.presented) :
      Moves currentUser v (.tapOK k)
        { v with attempt := some { a with presented := a.presented.erase .verifyEmail } }
  | mailFinished {a user} (k result) (found : v.attempt = some a) (sent : a.mail = .sent user) :
      Moves currentUser v (.mailFinished k result)
        { v with attempt := some { a with mail := .finished user result } }
  | mailCompletion {a user result onStack emailError} (k passInput) (found : v.attempt = some a)
      (ran : a.phase = .ran result onStack) (done : a.mail = .finished user emailError) :
      Moves currentUser v (.mailCompletion k passInput)
        { v with
          attempt := some ((a.call.mailCompletion result emailError passInput).foldl
            Attempt.perform { a with mail := .reported user emailError })
          mailCompletion :=
            v.mailCompletion ++ a.call.mailCompletion result emailError passInput }

section Views

variable (auth : Auth) (k : ℕ) (a : Attempt) (effects : List Effect)

theorem requests_perform (origin o : Origin) : (auth.perform origin k a effects).requests o =
    auth.requests o ++ if origin = o then effects else [] := by
  rw [requests, requests, perform, List.filterMap_append, List.filterMap_map]
  congr 1
  split_ifs with h <;> simp [h]

theorem view_perform (origin : Origin) : (auth.perform origin k a effects).view k =
    { attempt := some (effects.foldl Attempt.perform a)
      completion := (auth.view k).completion ++ if origin = .completion k then effects else []
      yes := (auth.view k).yes ++ if origin = .yes k then effects else []
      mailCompletion :=
        (auth.view k).mailCompletion ++ if origin = .mailCompletion k then effects else [] } := by
  simp only [view, requests_perform]
  simp [perform]

theorem view_perform_other {origin : Origin} {j : ℕ} (ho : origin.attempt = some k) (h : j ≠ k) :
    (auth.perform origin k a effects).view j = auth.view j := by
  have hne : ∀ o : Origin, o.attempt = some j → origin ≠ o := by
    rintro o hj rfl
    exact h (Option.some.inj (hj.symm.trans ho))
  simp only [view, requests_perform, hne (.completion j) rfl, hne (.yes j) rfl,
    hne (.mailCompletion j) rfl, ↓reduceIte, List.append_nil]
  simp [perform, h]

theorem view_setAttempt :
    (auth.setAttempt k a).view k = { auth.view k with attempt := some a } := by
  simp [view, requests, setAttempt]

theorem view_setAttempt_other {j : ℕ} (h : j ≠ k) : (auth.setAttempt k a).view j = auth.view j := by
  simp [view, requests, setAttempt, h]

end Views

variable {auth auth' : Auth} {e : AuthEvent}

theorem Step.frame (h : Step auth e auth') {j : ℕ} (hj : e.subject auth ≠ some j) :
    auth'.view j = auth.view j := by
  have ne {k : ℕ} (hk : some k ≠ some j) : j ≠ k := fun he => hk (congrArg some he.symm)
  cases h with
  | report alert => simp [view, requests]
  | start call screen email password => exact view_setAttempt_other auth _ _ (ne hj)
  | finished result found waits => exact view_setAttempt_other auth _ _ (ne hj)
  | signedOut => rfl
  | completion onStack found answered => exact view_perform_other auth _ _ _ rfl (ne hj)
  | tapYes found asks => exact view_perform_other auth _ _ _ rfl (ne hj)
  | tapOK found shows => exact view_setAttempt_other auth _ _ (ne hj)
  | mailFinished result found sent => exact view_setAttempt_other auth _ _ (ne hj)
  | mailCompletion passInput found ran done => exact view_perform_other auth _ _ _ rfl (ne hj)

theorem Step.moves (h : Step auth e auth') (hn : auth.Numbered) {k : ℕ}
    (hk : e.subject auth = some k) : Moves auth.currentUser (auth.view k) e (auth'.view k) := by
  cases h with
  | report alert => cases hk
  | signedOut => cases hk
  | start call screen email password =>
    obtain rfl : auth.started = k := Option.some.inj hk
    have hv := view_setAttempt auth auth.started (.start call screen email password)
    exact hv ▸ .start call screen email password (hn _ le_rfl)
  | finished result found waits =>
    obtain rfl := Option.some.inj hk
    exact view_setAttempt auth _ _ ▸ .finished _ result found waits
  | tapOK found shows =>
    obtain rfl := Option.some.inj hk
    exact view_setAttempt auth _ _ ▸ .tapOK _ found shows
  | mailFinished result found sent =>
    obtain rfl := Option.some.inj hk
    exact view_setAttempt auth _ _ ▸ .mailFinished _ result found sent
  | @completion j a result onStack found answered =>
    obtain rfl : j = k := Option.some.inj hk
    have hm : Moves auth.currentUser (auth.view j) (.completion j onStack) _ :=
      .completion j onStack found answered
    rw [view_perform]
    simpa using hm
  | @tapYes j a found asks =>
    obtain rfl : j = k := Option.some.inj hk
    have hm : Moves auth.currentUser (auth.view j) (.tapYes j) _ := .tapYes j found asks
    rw [view_perform]
    simpa using hm
  | @mailCompletion j a user result onStack emailError passInput found ran done =>
    obtain rfl : j = k := Option.some.inj hk
    have hm : Moves auth.currentUser (auth.view j) (.mailCompletion j passInput) _ :=
      .mailCompletion j passInput found ran done
    rw [view_perform]
    simpa using hm

theorem Numbered.ne {k j : ℕ} {a : Attempt} (h : auth.Numbered) (found : auth.attempts k = some a)
    (hj : auth.started ≤ j) : j ≠ k := by
  rintro rfl
  rw [h j hj] at found
  cases found

theorem Step.numbered (h : Step auth e auth') (hn : auth.Numbered) : auth'.Numbered := by
  have update {k : ℕ} {a b : Attempt} (found : auth.attempts k = some a) :
      ∀ j, auth.started ≤ j → Function.update auth.attempts k (some b) j = none := by
    intro j hj
    rw [Function.update_of_ne (hn.ne found hj)]
    exact hn j hj
  cases h with
  | report alert => exact hn
  | signedOut => exact hn
  | start call screen email password =>
    intro j hj
    have hlt : auth.started < j := hj
    simp only [setAttempt, Function.update_of_ne hlt.ne']
    exact hn j hlt.le
  | finished result found waits => exact update found
  | completion onStack found answered => exact update found
  | tapYes found asks => exact update found
  | tapOK found shows => exact update found
  | mailFinished result found sent => exact update found
  | mailCompletion passInput found ran done => exact update found

theorem forall_views_iff {good : AttemptView → Prop} (h : Step auth e auth')
    (hall : ∀ k, good (auth.view k)) :
    (∀ k, good (auth'.view k)) ↔ ∀ k, e.subject auth = some k → good (auth'.view k) := by
  refine ⟨fun hg k _ => hg k, fun hg k => ?_⟩
  by_cases hk : e.subject auth = some k
  · exact hg k hk
  · rw [h.frame hk]
    exact hall k

end Auth

def Phase.result : Phase → Option AuthResult
  | .waiting => none
  | .answered result => some result
  | .ran result _ => some result

def Phase.outcome : Phase → Option (AuthResult × Bool)
  | .waiting => none
  | .answered _ => none
  | .ran result onStack => some (result, onStack)

def Mail.isReported : Mail → Bool
  | .reported _ _ => true
  | _ => false

def AttemptView.requested (v : AttemptView) : List Effect := v.completion ++ v.yes ++ v.mailCompletion

def AttemptView.result (v : AttemptView) : Option AuthResult :=
  v.attempt.bind (fun a => a.phase.result)

def AttemptView.outcome (v : AttemptView) : Option (AuthResult × Bool) :=
  v.attempt.bind (fun a => a.phase.outcome)

def alerts (effects : List Effect) : List Alert :=
  effects.filterMap (fun effect => match effect with
    | .present alert => some alert
    | _ => none)

@[simp] theorem alerts_append (xs ys : List Effect) : alerts (xs ++ ys) = alerts xs ++ alerts ys :=
  List.filterMap_append

theorem verifyAccount_not_mem_verification (result : AuthResult) (emailError : MailResult)
    (passInput : Text) :
    Effect.present .verifyAccount ∉ verificationCompletion result emailError passInput := by
  cases emailError <;> cases result <;> simp [verificationCompletion]
  split_ifs <;> simp

/-- Closures that have not run have requested nothing. -/
structure Accounted (v : AttemptView) : Prop where
  unrun : v.outcome = none → v.completion = [] ∧ v.yes = [] ∧ v.mailCompletion = [] ∧
    ∀ a, v.attempt = some a → a.presented = [] ∧ a.mail = .none
  registration : ∀ a, v.attempt = some a → a.call = .createUser →
    alerts v.completion = [] ∧ v.yes = [] ∧ .verifyAccount ∉ a.presented ∧
      (a.mail.isReported = false → v.mailCompletion = [])

theorem accounted_launch (session : Option User) (k : ℕ) :
    Accounted ((Auth.launch session).view k) :=
  ⟨fun _ => ⟨rfl, rfl, rfl, fun _ ha => by cases ha⟩, fun _ ha => by cases ha⟩

section Moves

variable {v v' : AttemptView} {currentUser : Option User} {e : AuthEvent} {a : Attempt}

theorem outcome_of_found (found : v.attempt = some a) : v.outcome = a.phase.outcome := by
  rw [AttemptView.outcome, found, Option.bind_some]

theorem result_of_found (found : v.attempt = some a) : v.result = a.phase.result := by
  rw [AttemptView.result, found, Option.bind_some]

theorem result_ne_none_of_outcome (h : v.outcome ≠ none) : v.result ≠ none := by
  unfold AttemptView.outcome at h
  unfold AttemptView.result
  cases ha : v.attempt with
  | none => simp [ha] at h
  | some a =>
    cases hp : a.phase <;> simp [ha, hp, Phase.outcome] at h
    simp [hp, Phase.result]

theorem Auth.Moves.result (hm : Auth.Moves currentUser v e v') :
    v'.result = match e with
      | .finished _ result => some result
      | _ => v.result := by
  cases hm with
  | start call screen email password fresh =>
    simp [AttemptView.result, fresh, Attempt.start, Phase.result]
  | finished k result found waits => rfl
  | completion k onStack found answered =>
    rw [result_of_found found, answered]
    simp [AttemptView.result, Phase.result]
  | tapYes k found asks =>
    rw [result_of_found found]
    simp [AttemptView.result]
  | tapOK k found shows => rw [result_of_found found]; rfl
  | mailFinished k result found sent => rw [result_of_found found]; rfl
  | mailCompletion k passInput found ran done =>
    rw [result_of_found found]
    simp [AttemptView.result]

theorem Auth.Moves.outcome (hm : Auth.Moves currentUser v e v') :
    v'.outcome = match e with
      | .completion _ onStack => v.result.map (fun result => (result, onStack))
      | _ => v.outcome := by
  cases hm with
  | start call screen email password fresh =>
    simp [AttemptView.outcome, fresh, Attempt.start, Phase.outcome]
  | finished k result found waits =>
    rw [outcome_of_found found, waits]
    rfl
  | completion k onStack found answered =>
    rw [result_of_found found, answered]
    simp [AttemptView.outcome, Phase.outcome, Phase.result]
  | tapYes k found asks =>
    rw [outcome_of_found found]
    simp [AttemptView.outcome]
  | tapOK k found shows => rw [outcome_of_found found]; rfl
  | mailFinished k result found sent => rw [outcome_of_found found]; rfl
  | mailCompletion k passInput found ran done =>
    rw [outcome_of_found found]
    simp [AttemptView.outcome]

theorem Auth.Moves.waits {k : ℕ} {onStack : Bool}
    (hm : Auth.Moves currentUser v (.completion k onStack) v') :
    v.outcome = none ∧ v.result ≠ none := by
  cases hm with
  | completion k onStack found answered =>
    rw [outcome_of_found found, result_of_found found, answered]
    exact ⟨rfl, by simp [Phase.result]⟩

theorem Auth.Moves.answered {k : ℕ} {onStack : Bool}
    (hm : Auth.Moves currentUser v (.completion k onStack) v') (found : v.attempt = some a) :
    ∃ result, a.phase = .answered result := by
  cases hm with
  | @completion b result k onStack found' answered =>
    obtain rfl : a = b := Option.some.inj (found.symm.trans found')
    exact ⟨result, answered⟩

theorem Auth.Moves.reports {k : ℕ} {passInput : Text}
    (hm : Auth.Moves currentUser v (.mailCompletion k passInput) v') (found : v.attempt = some a) :
    ∃ result onStack user emailError,
      a.phase = .ran result onStack ∧ a.mail = .finished user emailError := by
  cases hm with
  | @mailCompletion b user result onStack emailError k passInput found' ran done =>
    obtain rfl : a = b := Option.some.inj (found.symm.trans found')
    exact ⟨result, onStack, user, emailError, ran, done⟩

theorem Auth.Moves.unanswered {k : ℕ} {result : AuthResult}
    (hm : Auth.Moves currentUser v (.finished k result) v') : v.result = none := by
  cases hm with
  | finished k result found waits => rw [result_of_found found, waits, Phase.result]

theorem Auth.Moves.result_kept (hm : Auth.Moves currentUser v e v') (hv : v.result ≠ none) :
    v'.result = v.result := by
  have hr := hm.result
  cases e with
  | finished k result => exact absurd hm.unanswered hv
  | _ => exact hr

theorem Accounted.outcome_ne_none (h : Accounted v) (found : v.attempt = some a)
    (hp : a.presented ≠ [] ∨ a.mail ≠ .none) : a.phase.outcome ≠ none := by
  rw [← outcome_of_found found]
  intro hn
  obtain ⟨-, -, -, ha⟩ := h.unrun hn
  rcases hp with hp | hp
  · exact hp (ha a found).1
  · exact hp (ha a found).2

theorem Accounted.moves (h : Accounted v) (hm : Auth.Moves currentUser v e v') : Accounted v' := by
  cases hm with
  | start call screen email password fresh =>
    have hv : v.outcome = none := by simp [AttemptView.outcome, fresh]
    obtain ⟨hc, hy, hmc, -⟩ := h.unrun hv
    refine ⟨fun _ => ⟨hc, hy, hmc, ?_⟩, ?_⟩
    · rintro a ⟨⟩
      exact ⟨rfl, rfl⟩
    · rintro a ⟨⟩ -
      simp [hc, hy, hmc, alerts, Attempt.start]
  | @finished a k result found waits =>
    have hv : v.outcome = none := by rw [outcome_of_found found, waits, Phase.outcome]
    obtain ⟨hc, hy, hmc, ha⟩ := h.unrun hv
    refine ⟨fun _ => ⟨hc, hy, hmc, ?_⟩, ?_⟩
    · rintro b ⟨⟩
      exact ha a found
    · rintro b ⟨⟩ hcall
      exact h.registration a found hcall
  | @completion a result k onStack found answered =>
    have hv : v.outcome = none := by rw [outcome_of_found found, answered, Phase.outcome]
    obtain ⟨hc, hy, hmc, ha⟩ := h.unrun hv
    refine ⟨fun hn => ?_, ?_⟩
    · simp [AttemptView.outcome, Phase.outcome] at hn
    · rintro b ⟨⟩ hcall
      have hcall' : a.call = .createUser := by simpa using hcall
      rw [Attempt.mem_foldl_presented, (ha a found).1, hc, hcall']
      refine ⟨?_, hy, ?_, fun _ => hmc⟩ <;>
        cases currentUser <;>
          simp [Call.completion, createUserCompletion, sendEmailVerification, alerts]
  | @tapYes a k found asks =>
    have hran := h.outcome_ne_none found (Or.inl (List.ne_nil_of_mem asks))
    refine ⟨fun hn => ?_, ?_⟩
    · simp only [AttemptView.outcome, Option.bind_some, Attempt.foldl_perform_phase] at hn
      exact absurd hn hran
    · rintro b ⟨⟩ hcall
      have hcall' : a.call = .createUser := by simpa using hcall
      exact absurd asks (h.registration a found hcall').2.2.1
  | @tapOK a k found shows =>
    have hran := h.outcome_ne_none found (Or.inl (List.ne_nil_of_mem shows))
    refine ⟨fun hn => absurd hn hran, ?_⟩
    rintro b ⟨⟩ hcall
    obtain ⟨hc, hy, hva, hmc⟩ := h.registration a found hcall
    exact ⟨hc, hy, fun hm => hva (List.mem_of_mem_erase hm), hmc⟩
  | @mailFinished a user k result found sent =>
    have hran := h.outcome_ne_none found (Or.inr (by rw [sent]; simp))
    refine ⟨fun hn => absurd hn hran, ?_⟩
    rintro b ⟨⟩ hcall
    obtain ⟨hc, hy, hva, hmc⟩ := h.registration a found hcall
    exact ⟨hc, hy, hva, fun _ => hmc (by rw [sent]; rfl)⟩
  | @mailCompletion a user result onStack emailError k passInput found ran done =>
    have hran := h.outcome_ne_none found (Or.inr (by rw [done]; simp))
    refine ⟨fun hn => ?_, ?_⟩
    · simp only [AttemptView.outcome, Option.bind_some, Attempt.foldl_perform_phase] at hn
      exact absurd hn hran
    · rintro b ⟨⟩ hcall
      have hcall' : a.call = .createUser := by simpa using hcall
      obtain ⟨hc, hy, hva, -⟩ := h.registration a found hcall'
      refine ⟨hc, hy, ?_, ?_⟩
      · rw [Attempt.mem_foldl_presented, hcall']
        exact fun hm => hm.elim hva (verifyAccount_not_mem_verification _ _ _)
      · intro hr
        rw [hcall'] at hr
        cases emailError <;> cases result <;>
          simp [Call.mailCompletion, verificationCompletion, Attempt.perform, Mail.isReported] at hr
        split_ifs at hr <;> simp [Attempt.perform] at hr

end Moves

end WhichStream
