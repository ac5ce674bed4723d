import WhichStream.Firebase.SessionContract

/-!
The session of the app's model takes every step of FirebaseAuth that honours the contract:
the screens may be verified against that session alone.
-/

namespace WhichStream.Firebase

open EventMachine

/-- The events of the app's session that stand for one of the abstract session; which screen
makes a call, with which texts, and whether it is still there later, is left open. -/
inductive Matches : AuthEvent → SessionEvent → Prop
  | start (call screen email password) : Matches (.start call screen email password) (.start call)
  | finished (k result) : Matches (.finished k result) (.answer k result)
  | signedOut : Matches .signedOut .signedOut
  | completion (k onStack) : Matches (.completion k onStack) (.callback k)

namespace Session

structure Related (S : Session) (auth : Auth) : Prop where
  currentUser : auth.currentUser = S.currentUser
  started : auth.started = S.started
  waiting : ∀ k ∈ S.waiting, ∃ a, auth.attempts k = some a ∧ a.phase = .waiting
  answered : ∀ p ∈ S.answered, ∃ a, auth.attempts p.1 = some a ∧ a.phase = .answered p.2
  nodup : (S.waiting ++ S.answered.map Prod.fst).Nodup
  bounded : ∀ k ∈ S.waiting ++ S.answered.map Prod.fst, k < S.started

theorem related_launch (session : Option User) : Related (launch session) (.launch session) :=
  ⟨rfl, rfl, (fun _ hk => by cases hk), (fun _ hp => by cases hp), List.nodup_nil,
    (fun _ hk => by cases hk)⟩

namespace Related

variable {S S' : Session} {auth : Auth} {k : ℕ} {result : AuthResult}

theorem ne_of_mem (h : Related S auth) (hk : k ∈ S.waiting) {p : ℕ × AuthResult}
    (hp : p ∈ S.answered) : p.1 ≠ k := by
  rintro rfl
  exact (List.disjoint_of_nodup_append h.nodup) hk (List.mem_map_of_mem hp)

/-- Setting the attempt of `k` leaves the others as they are. -/
theorem others {attempts : ℕ → Option Attempt} {a : Attempt} {phase : Phase} {j : ℕ} (hne : j ≠ k)
    (h : ∃ b, attempts j = some b ∧ b.phase = phase) :
    ∃ b, Function.update attempts k (some a) j = some b ∧ b.phase = phase := by
  rw [Function.update_of_ne hne]
  exact h

theorem start (h : Related S auth) (call : Call) (screen : ViewController) (email password : Text) :
    ∃ auth', auth.step (.start call screen email password) = some auth' ∧
      Related { S with started := S.started + 1, waiting := S.waiting ++ [S.started] } auth' := by
  refine ⟨_, rfl, h.currentUser, congrArg (· + 1) h.started, ?_, ?_, ?_, ?_⟩
  · intro k hk
    obtain hk | hk := List.mem_append.mp hk
    · have hlt := h.bounded k (List.mem_append_left _ hk)
      exact others (h.started ▸ hlt.ne) (h.waiting k hk)
    · obtain rfl := List.mem_singleton.mp hk
      rw [← h.started]
      exact ⟨.start call screen email password, Function.update_self .., rfl⟩
  · intro p hp
    have hlt := h.bounded p.1 (List.mem_append_right _ (List.mem_map_of_mem hp))
    exact others (h.started ▸ hlt.ne) (h.answered p hp)
  · have hfresh : S.started ∉ S.waiting ++ S.answered.map Prod.fst :=
      fun hk => (h.bounded _ hk).false
    have hcons := List.nodup_cons.mpr ⟨hfresh, h.nodup⟩
    rw [List.append_assoc, List.singleton_append]
    exact (List.perm_middle.nodup_iff).mpr hcons
  · intro k hk
    rw [List.append_assoc, List.singleton_append, List.mem_append, List.mem_cons] at hk
    obtain hk | rfl | hk := hk
    · exact (h.bounded k (List.mem_append_left _ hk)).trans (Nat.lt_succ_self _)
    · exact Nat.lt_succ_self _
    · exact (h.bounded k (List.mem_append_right _ hk)).trans (Nat.lt_succ_self _)

theorem finished (h : Related S auth) (hk : k ∈ S.waiting) (result : AuthResult) :
    ∃ auth', auth.step (.finished k result) = some auth' ∧ Related { S with
      currentUser := Auth.updateCurrentUser S.currentUser result
      waiting := S.waiting.erase k
      answered := S.answered ++ [(k, result)] } auth' := by
  obtain ⟨a, found, hphase⟩ := h.waiting k hk
  have hstep : auth.step (.finished k result) = some { auth.setAttempt k { a with
      phase := .answered result } with
      currentUser := Auth.updateCurrentUser auth.currentUser result } := by
    rw [Auth.step, found, Option.bind_some, hphase]
  refine ⟨_, hstep, ?_, h.started, ?_, ?_, ?_, ?_⟩
  · dsimp only
    rw [h.currentUser]
  · intro j hj
    have hnodup := (List.nodup_append.mp h.nodup).1
    have hne : j ≠ k := (hnodup.mem_erase_iff.mp hj).1
    exact others hne (h.waiting j (List.mem_of_mem_erase hj))
  · intro p hp
    obtain hp | hp := List.mem_append.mp hp
    · exact others (h.ne_of_mem hk hp) (h.answered p hp)
    · obtain rfl := List.mem_singleton.mp hp
      exact ⟨_, Function.update_self .., rfl⟩
  · rw [List.map_append, ← List.append_assoc]
    refine (List.perm_append_singleton k _).nodup_iff.mpr ?_
    have hperm : (k :: (S.waiting.erase k ++ S.answered.map Prod.fst)).Perm
        (S.waiting ++ S.answered.map Prod.fst) :=
      (List.perm_cons_erase hk).symm.append_right _
    exact hperm.nodup_iff.mpr h.nodup
  · intro j hj
    rw [List.map_append, List.mem_append, List.mem_append] at hj
    obtain hj | hj | hj := hj
    · exact h.bounded j (List.mem_append_left _ (List.mem_of_mem_erase hj))
    · exact h.bounded j (List.mem_append_right _ hj)
    · obtain rfl := List.mem_singleton.mp hj
      exact h.bounded _ (List.mem_append_left _ hk)

theorem completion (h : Related S auth) {rest : List (ℕ × AuthResult)}
    (hfirst : S.answered = (k, result) :: rest) (onStack : Bool) :
    ∃ auth', auth.step (.completion k onStack) = some auth' ∧
      Related { S with answered := rest } auth' := by
  obtain ⟨a, found, hphase⟩ := h.answered (k, result) (hfirst ▸ List.mem_cons_self)
  have hstep : auth.step (.completion k onStack) = some (auth.perform (.completion k) k
      { a with phase := .ran result onStack } (a.call.completion onStack auth.currentUser result)) := by
    rw [Auth.step, found, Option.bind_some, hphase]
  have hnodup := h.nodup
  rw [hfirst, List.map_cons] at hnodup
  have hcons := List.nodup_cons.mp (List.perm_middle.nodup_iff.mp hnodup)
  refine ⟨_, hstep, h.currentUser, h.started, ?_, ?_, hcons.2, ?_⟩
  · intro j hj
    have hne : j ≠ k := by
      rintro rfl
      exact hcons.1 (List.mem_append_left _ hj)
    exact others hne (h.waiting j hj)
  · intro p hp
    have hne : p.1 ≠ k := by
      rintro rfl
      exact hcons.1 (List.mem_append_right _ (List.mem_map.mpr ⟨p, hp, rfl⟩))
    exact others hne (h.answered p (hfirst ▸ List.mem_cons_of_mem _ hp))
  · intro j hj
    apply h.bounded j
    rw [hfirst, List.map_cons]
    obtain hj | hj := List.mem_append.mp hj
    · exact List.mem_append_left _ hj
    · exact List.mem_append_right _ (List.mem_cons_of_mem _ hj)

theorem step {d : SessionEvent} {e : AuthEvent} (h : Related S auth)
    (hd : machine.step S d = some S') (he : Matches e d) :
    ∃ auth', Auth.machine.step auth e = some auth' ∧ Related S' auth' := by
  have hcases := step_cases hd
  cases he with
  | start call screen email password =>
    cases hcases
    exact h.start call screen email password
  | finished k result =>
    cases hcases with
    | answer result waits => exact h.finished waits result
  | signedOut =>
    cases hcases
    exact ⟨_, rfl, rfl, h.started, h.waiting, h.answered, h.nodup, h.bounded⟩
  | completion k onStack =>
    cases hcases with
    | callback first => exact h.completion first onStack

theorem run {ds : List SessionEvent} {es : List AuthEvent} (h : Related S auth)
    (hds : machine.run S ds = some S') (hes : List.Forall₂ Matches es ds) :
    ∃ auth', Auth.machine.run auth es = some auth' ∧ Related S' auth' := by
  induction hes generalizing S auth with
  | nil =>
    obtain rfl : S = S' := by simpa using hds
    exact ⟨auth, rfl, h⟩
  | cons he _ ih =>
    obtain ⟨T, hT, hds⟩ := Option.bind_eq_some_iff.mp hds
    obtain ⟨auth₁, hauth₁, h₁⟩ := h.step hT he
    obtain ⟨auth', hauth', h'⟩ := ih h₁ hds
    exact ⟨auth', Option.bind_eq_some_iff.mpr ⟨auth₁, hauth₁, hauth'⟩, h'⟩

end Related

end Session

namespace FIRAuth

end FIRAuth

end WhichStream.Firebase
