import WhichStream.App

/-!
What holds along every run of the app of its session and of its attempts, and how a
property of each attempt is told from the steps that move one.
-/

namespace WhichStream

open EventMachine

def Auth.sessionStep (currentUser : Option User) : AuthEvent → Option User
  | .finished _ result => Auth.updateCurrentUser currentUser result
  | .signedOut => none
  | _ => currentUser

theorem Auth.Step.currentUser {auth auth' : Auth} {e : AuthEvent} (h : Auth.Step auth e auth') :
    auth'.currentUser = Auth.sessionStep auth.currentUser e := by
  cases h <;> rfl

theorem Auth.Step.taps {auth auth' : Auth} {e : AuthEvent} (h : Auth.Step auth e auth')
    (ht : ∀ effect ∈ auth.requests .tap, ∃ alert, effect = .present alert) :
    ∀ effect ∈ auth'.requests .tap, ∃ alert, effect = .present alert := by
  intro effect he
  cases h with
  | report alert =>
    rw [Auth.requests, List.filterMap_append] at he
    rcases List.mem_append.mp he with he | he
    · exact ht effect he
    · exact ⟨alert, by simpa using he⟩
  | start call screen email password => exact ht effect he
  | finished result found waits => exact ht effect he
  | signedOut => exact ht effect he
  | tapOK found shows => exact ht effect he
  | mailFinished result found sent => exact ht effect he
  | completion onStack found answered =>
    rw [Auth.requests_perform] at he
    exact ht effect (by simpa using he)
  | tapYes found asks =>
    rw [Auth.requests_perform] at he
    exact ht effect (by simpa using he)
  | mailCompletion passInput found ran done =>
    rw [Auth.requests_perform] at he
    exact ht effect (by simpa using he)

theorem Auth.mem_requests {auth : Auth} {origin : Origin} {effect : Effect} :
    effect ∈ auth.requests origin ↔ (origin, effect) ∈ auth.log := by
  simp only [Auth.requests, List.mem_filterMap]
  constructor
  · rintro ⟨⟨o, x⟩, hm, hx⟩
    split_ifs at hx with ho
    obtain rfl : x = effect := Option.some.inj hx
    exact ho ▸ hm
  · intro hm
    exact ⟨_, hm, by simp⟩

def Event.finishes (k : ℕ) : Event → Bool
  | .finished j _ => j = k
  | _ => false

def Event.callsBack (k : ℕ) : Event → Bool
  | .callback j => j = k
  | _ => false

namespace App

def sessionStep (currentUser : Option User) : Event → Option User
  | .finished _ result => Auth.updateCurrentUser currentUser result
  | .signedOut => none
  | _ => currentUser

-- The account that the answers of the service leave signed in.
def sessionAfter (session : Option User) (es : List Event) : Option User :=
  es.foldl sessionStep session

theorem Sends.session {app : App} {e : Event} {x : AuthEvent} (h : app.Sends e x)
    (s : Option User) : Auth.sessionStep s x = sessionStep s e := by
  cases h <;> rfl

theorem silent_session {app : App} {e : Event} (h : app.authEvent e = none) (s : Option User) :
    sessionStep s e = s := by
  cases e <;> first | rfl | cases h

/-- The history holds the answer and the callback of attempt `k` once each, and only
when the attempt has them. -/
structure Recorded (before : List Event) (app : App) (k : ℕ) : Prop where
  answers : before.filter (Event.finishes k) =
    ((app.auth.view k).result.map (Event.finished k)).toList
  callbacks : before.filter (Event.callsBack k) =
    ((app.auth.view k).outcome.map (fun _ => Event.callback k)).toList

section Records

variable {before : List Event} {app app' : App} {e : Event} {k : ℕ}

theorem Recorded.step_other (h : Recorded before app k)
    (hr : (app'.auth.view k).result = (app.auth.view k).result)
    (ho : (app'.auth.view k).outcome = (app.auth.view k).outcome) (hf : e.finishes k = false)
    (hc : e.callsBack k = false) : Recorded (before ++ [e]) app' k := by
  constructor
  · rw [List.filter_append, hr, h.answers]
    simp [hf]
  · rw [List.filter_append, ho, h.callbacks]
    simp [hc]

theorem Sends.finishes_eq {x : AuthEvent} (h : app.Sends e x) (hk : x.subject app.auth ≠ some k) :
    e.finishes k = false ∧ e.callsBack k = false := by
  have ne {j : ℕ} (hj : some j ≠ some k) : j ≠ k := fun he => hj (congrArg some he)
  cases h with
  | finished j result => exact ⟨decide_eq_false (ne hk), rfl⟩
  | callback found => exact ⟨rfl, decide_eq_false (ne hk)⟩
  | _ => exact ⟨rfl, rfl⟩

theorem silent_finishes (ha : app.available e = true) (hnone : app.authEvent e = none) :
    e.finishes k = false ∧ e.callsBack k = false := by
  cases e with
  | finished j result => cases hnone
  | callback j =>
    have hsome : (app.auth.attempts j).isSome = true := ha
    rw [Option.map_eq_none_iff.mp hnone] at hsome
    cases hsome
  | _ => exact ⟨rfl, rfl⟩

theorem Recorded.step_self {x : AuthEvent} (h : Recorded before app k) (hx : app.Sends e x)
    (hk : x.subject app.auth = some k)
    (hm : Auth.Moves app.auth.currentUser (app.auth.view k) x (app'.auth.view k)) :
    Recorded (before ++ [e]) app' k := by
  have hres := hm.result
  have hout := hm.outcome
  cases hx with
  | finished j result =>
    obtain rfl : j = k := Option.some.inj hk
    have hnone := hm.unanswered
    constructor
    · rw [List.filter_append, h.answers, hnone, hres]
      simp [Event.finishes]
    · rw [List.filter_append, h.callbacks, hout]
      simp [Event.callsBack]
  | callback found =>
    obtain rfl := Option.some.inj hk
    obtain ⟨hwaits, hanswered⟩ := hm.waits
    obtain ⟨result, hr⟩ := Option.ne_none_iff_exists'.mp hanswered
    constructor
    · rw [List.filter_append, h.answers, hres]
      simp [Event.finishes]
    · rw [List.filter_append, h.callbacks, hwaits, hout, hr]
      simp [Event.callsBack]
  | _ => exact h.step_other hres hout rfl rfl

theorem recorded_step (hn : app.auth.Numbered) (h : ∀ k, Recorded before app k)
    (hs : Stepped app e app') (k : ℕ) : Recorded (before ++ [e]) app' k := by
  rcases hs.auth_cases with ⟨hnone, ha⟩ | ⟨x, hx, hstep⟩
  · obtain ⟨hf, hc⟩ := silent_finishes hs.available hnone
    exact (h k).step_other (by rw [ha]) (by rw [ha]) hf hc
  · have hsend := authEvent_sends hx
    by_cases hk : x.subject app.auth = some k
    · exact (h k).step_self hsend hk (hstep.moves hn hk)
    · obtain ⟨hf, hc⟩ := hsend.finishes_eq hk
      have hview := hstep.frame hk
      exact (h k).step_other (by rw [hview]) (by rw [hview]) hf hc

theorem Recorded.result_of_mem (h : Recorded before app k) {result : AuthResult}
    (hm : .finished k result ∈ before) : (app.auth.view k).result = some result := by
  have hfilter : .finished k result ∈ before.filter (Event.finishes k) :=
    List.mem_filter.mpr ⟨hm, by simp [Event.finishes]⟩
  rw [h.answers, Option.mem_toList, Option.map_eq_some_iff] at hfilter
  obtain ⟨own, hown, he⟩ := hfilter
  rw [hown, (Event.finished.inj he).2]

theorem Recorded.mem_iff (h : Recorded before app k) (result : AuthResult) :
    .finished k result ∈ before ↔ (app.auth.view k).result = some result := by
  constructor
  · exact h.result_of_mem
  · intro hr
    have hmem : Event.finished k result ∈ before.filter (Event.finishes k) := by
      rw [h.answers, hr]
      simp
    exact List.mem_of_mem_filter hmem

end Records

/-- What every run of the app keeps: the current user is the one the answers left,
attempts are numbered in order, and no closure requests anything before it runs. -/
structure Tracked (session : Option User) (before : List Event) (app : App) : Prop where
  session : app.auth.currentUser = sessionAfter session before
  numbered : app.auth.Numbered
  accounted : ∀ k, Accounted (app.auth.view k)
  taps : ∀ effect ∈ app.auth.requests .tap, ∃ alert, effect = .present alert
  recorded : ∀ k, Recorded before app k

theorem tracked_launch (session : Option User) (width : Width) :
    Tracked session [] (launch session width) :=
  ⟨rfl, fun _ _ => rfl, accounted_launch session, fun effect he => (by cases he), fun _ => ⟨rfl, rfl⟩⟩

theorem accounted_step {auth auth' : Auth} {e : AuthEvent} (h : Auth.Step auth e auth')
    (hn : auth.Numbered) (ha : ∀ k, Accounted (auth.view k)) (k : ℕ) : Accounted (auth'.view k) := by
  by_cases hk : e.subject auth = some k
  · exact (ha k).moves (h.moves hn hk)
  · rw [h.frame hk]
    exact ha k

theorem Tracked.step {session : Option User} {before : List Event} {app app' : App} {e : Event}
    (h : Tracked session before app) (hs : Stepped app e app') :
    Tracked session (before ++ [e]) app' := by
  have after : sessionAfter session (before ++ [e]) = sessionStep app.auth.currentUser e := by
    rw [sessionAfter, List.foldl_concat, h.session, sessionAfter]
  rcases hs.auth_cases with ⟨hn, ha⟩ | ⟨x, hx, hstep⟩
  · rw [silent_session hn] at after
    constructor
    · rw [ha, after]
    · exact ha ▸ h.numbered
    · exact ha ▸ h.accounted
    · exact ha ▸ h.taps
    · exact recorded_step h.numbered h.recorded hs
  · rw [← (authEvent_sends hx).session] at after
    constructor
    · rw [hstep.currentUser, after]
    · exact hstep.numbered h.numbered
    · exact accounted_step hstep h.numbered h.accounted
    · exact hstep.taps h.taps
    · exact recorded_step h.numbered h.recorded hs

theorem tracked {session : Option User} {width : Width} {es : List Event} {app : App}
    (h : machine.run (launch session width) es = some app) : Tracked session es app := by
  apply Machine.invariant (I := Tracked session) (tracked_launch session width) _ h
  intro before app e app' ht hu
  exact ht.step (step_stepped hu)

section Views

variable {session : Option User} {good : AttemptView → Prop}
  {C : List Event → App → Event → Prop}
  (fresh : ∀ k, good ((Auth.launch session).view k))
  (silent : ∀ before app e, (∀ x, app.authEvent e = some x → x.subject app.auth = none) →
    C before app e)
  (exact_at : ∀ before app e x k v', Tracked session before app → app.authEvent e = some x →
    x.subject app.auth = some k → good (app.auth.view k) →
    Auth.Moves app.auth.currentUser (app.auth.view k) x v' → (good v' ↔ C before app e))

include fresh silent exact_at

/-- A property of each attempt holds throughout a run exactly if a condition holds
before each step, once that is so for the attempt that a step moves. -/
theorem throughout_views_iff (width : Width) (es : List Event) :
    machine.Throughout (fun app => ∀ k, good (app.auth.view k)) (launch session width) es ↔
      machine.Along C (launch session width) es := by
  apply Machine.throughout_iff_along (I := Tracked session) (tracked_launch session width)
  · intro before app e app' h hu
    exact h.step (step_stepped hu)
  · exact fresh
  · intro before app e app' h hgood hu
    have hs := step_stepped hu
    rcases hs.auth_cases with ⟨hn, ha⟩ | ⟨x, hx, hstep⟩
    · rw [ha]
      have hc : C before app e := silent before app e (fun x hx => by rw [hn] at hx; cases hx)
      exact ⟨fun _ => hc, fun _ => hgood⟩
    · rw [Auth.forall_views_iff hstep hgood]
      cases hk : x.subject app.auth with
      | none =>
        have hc : C before app e := silent before app e (fun y hy => by
          rw [hx, Option.some.injEq] at hy
          exact hy ▸ hk)
        exact ⟨fun _ => hc, fun _ k h => by cases h⟩
      | some k =>
        have hm := hstep.moves h.numbered hk
        rw [← exact_at before app e x k _ h hx hk (hgood k) hm]
        exact ⟨fun hall => hall k rfl, fun hg j hj => Option.some.inj hj ▸ hg⟩

end Views

end App

end WhichStream
