import Mathlib.Data.List.Basic

/-!
Queues that run one task at a time, in the order in which the tasks came. A task that has
started holds the queue until it completes.
-/

namespace SerialTasks

structure SerialQueue (τ : Type*) where
  running : Option τ
  waiting : List τ

namespace SerialQueue

variable {τ : Type*}

def empty : SerialQueue τ := ⟨none, []⟩

def tasks (q : SerialQueue τ) : List τ := q.running.toList ++ q.waiting

def enqueue (q : SerialQueue τ) (t : τ) : SerialQueue τ := { q with waiting := q.waiting ++ [t] }

def start (q : SerialQueue τ) : Option (τ × SerialQueue τ) :=
  match q.running, q.waiting with
  | none, t :: ts => some (t, ⟨some t, ts⟩)
  | _, _ => none

def complete (q : SerialQueue τ) : Option (τ × SerialQueue τ) :=
  match q.running with
  | some t => some (t, ⟨none, q.waiting⟩)
  | none => none

variable {q q' : SerialQueue τ} {t : τ}

@[simp] theorem tasks_empty : (empty : SerialQueue τ).tasks = [] := rfl

@[simp] theorem tasks_enqueue (q : SerialQueue τ) (t : τ) : (q.enqueue t).tasks = q.tasks ++ [t] :=
  (List.append_assoc _ _ _).symm

theorem start_cases (h : q.start = some (t, q')) :
    q.running = none ∧ q.waiting = t :: q'.waiting ∧ q'.running = some t := by
  unfold start at h
  split at h
  · next u us hr hw =>
    obtain ⟨rfl, rfl⟩ := Prod.mk.inj (Option.some.inj h)
    exact ⟨hr, hw, rfl⟩
  · cases h

theorem complete_cases (h : q.complete = some (t, q')) :
    q.running = some t ∧ q'.running = none ∧ q'.waiting = q.waiting := by
  unfold complete at h
  split at h
  · next u hr =>
    obtain ⟨rfl, rfl⟩ := Prod.mk.inj (Option.some.inj h)
    exact ⟨hr, rfl, rfl⟩
  · cases h

theorem tasks_start (h : q.start = some (t, q')) : q'.tasks = q.tasks := by
  obtain ⟨hr, hw, hr'⟩ := start_cases h
  rw [tasks, tasks, hr, hw, hr']
  rfl

theorem tasks_complete (h : q.complete = some (t, q')) : q.tasks = t :: q'.tasks := by
  obtain ⟨hr, hr', hw⟩ := complete_cases h
  rw [tasks, tasks, hr, hr', hw]
  rfl

/-- How much work the tasks of a queue stand for, when one that runs stands for `w`. -/
def weight (w : ℕ) (q : SerialQueue τ) : ℕ :=
  w * q.running.toList.length + (w + 1) * q.waiting.length

theorem weight_enqueue (w : ℕ) (q : SerialQueue τ) (t : τ) :
    (q.enqueue t).weight w = q.weight w + (w + 1) := by
  simp only [weight, enqueue, List.length_append, List.length_singleton, Nat.mul_add, Nat.mul_one,
    Nat.add_assoc]

theorem weight_start (w : ℕ) (h : q.start = some (t, q')) : q.weight w = q'.weight w + 1 := by
  obtain ⟨hr, hw, hr'⟩ := start_cases h
  simp only [weight, hr, hw, hr', Option.toList_none, Option.toList_some, List.length_nil,
    List.length_cons, Nat.mul_add]
  omega

theorem weight_complete (w : ℕ) (h : q.complete = some (t, q')) : q.weight w = q'.weight w + w := by
  obtain ⟨hr, hr', hw⟩ := complete_cases h
  simp only [weight, hr, hr', hw, Option.toList_none, Option.toList_some, List.length_nil,
    List.length_singleton]
  omega

/-- A queue is never stuck: its next task can start, or the one that runs can complete. -/
theorem progress (h : q.tasks ≠ []) : q.start.isSome ∨ q.complete.isSome := by
  obtain ⟨running, waiting⟩ := q
  cases running with
  | some t => exact Or.inr rfl
  | none =>
    cases waiting with
    | nil => exact absurd rfl h
    | cons t ts => exact Or.inl rfl

end SerialQueue

end SerialTasks
