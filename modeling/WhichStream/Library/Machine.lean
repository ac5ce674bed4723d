import Mathlib.Data.List.Induction
import Mathlib.Data.List.Infix
import Mathlib.Logic.Relation

/-!
Deterministic machines driven by events. An event that the state does not
offer is refused, so a list of events is a run exactly when none is refused.
-/

namespace EventMachine

structure Machine (σ ε : Type*) where
  step : σ → ε → Option σ

namespace Machine

variable {σ ε : Type*} (M : Machine σ ε)

def run : σ → List ε → Option σ
  | s, [] => some s
  | s, e :: es => (M.step s e).bind (fun t => run t es)

/-- Every state that the events reach from `s`, and `s` itself, satisfies `P`. -/
def Throughout (P : σ → Prop) (s : σ) (es : List ε) : Prop :=
  ∀ before, before <+: es → ∀ t, M.run s before = some t → P t

/-- `T` holds of every step of the run: of the events before it, of the state it
leaves, of its event and of the state it enters. -/
def EachStep (T : List ε → σ → ε → σ → Prop) (s : σ) (es : List ε) : Prop :=
  ∀ before e, before ++ [e] <+: es →
    ∀ t u, M.run s before = some t → M.step t e = some u → T before t e u

def Along (C : List ε → σ → ε → Prop) (s : σ) (es : List ε) : Prop :=
  M.EachStep (fun before t e _ => C before t e) s es

@[simp] theorem run_nil (s : σ) : M.run s [] = some s := rfl

theorem run_append (s : σ) (es fs : List ε) :
    M.run s (es ++ fs) = (M.run s es).bind (fun t => M.run t fs) := by
  induction es generalizing s with
  | nil => rfl
  | cons e es ih => simp only [List.cons_append, run, ih, Option.bind_assoc]

theorem run_concat (s : σ) (es : List ε) (e : ε) :
    M.run s (es ++ [e]) = (M.run s es).bind (fun t => M.step t e) := by
  simp only [run_append, run, Option.bind_fun_some]

theorem run_concat_some {s u : σ} {es : List ε} {e : ε} :
    M.run s (es ++ [e]) = some u ↔ ∃ t, M.run s es = some t ∧ M.step t e = some u := by
  rw [run_concat, Option.bind_eq_some_iff]

variable {M}

section Invariants

variable {s : σ} {I : List ε → σ → Prop}
  (start : I [] s)
  (keep : ∀ before t e u, I before t → M.step t e = some u → I (before ++ [e]) u)

include start keep

theorem invariant {es : List ε} {t : σ} (h : M.run s es = some t) : I es t := by
  induction es using List.reverseRecOn generalizing t with
  | nil =>
    obtain rfl : s = t := by simpa using h
    exact start
  | append_singleton es e ih =>
    obtain ⟨u, hu, he⟩ := M.run_concat_some.mp h
    exact keep es u e t (ih hu) he

theorem eachStep_iff_along {T : List ε → σ → ε → σ → Prop} {C : List ε → σ → ε → Prop}
    (exact_at : ∀ before t e u, I before t → M.step t e = some u → (T before t e u ↔ C before t e))
    (es : List ε) : M.EachStep T s es ↔ M.Along C s es := by
  constructor
  · intro h before e hb t u ht hu
    exact (exact_at before t e u (invariant start keep ht) hu).mp (h before e hb t u ht hu)
  · intro h before e hb t u ht hu
    exact (exact_at before t e u (invariant start keep ht) hu).mpr (h before e hb t u ht hu)

/-- When a step from a good state is a good one into a good state exactly if `C`
holds before it, a whole run is good exactly if `C` holds before each of its steps. -/
theorem safe_iff_along {P : σ → Prop} {T : List ε → σ → ε → σ → Prop}
    {C : List ε → σ → ε → Prop} (good : P s)
    (exact_at : ∀ before t e u, I before t → P t → M.step t e = some u →
      (P u ∧ T before t e u ↔ C before t e))
    (es : List ε) : M.Throughout P s es ∧ M.EachStep T s es ↔ M.Along C s es := by
  constructor
  · rintro ⟨hP, hT⟩ before e hb t u ht hu
    have hPt : P t := hP before ((List.prefix_append _ _).trans hb) t ht
    have hPu : P u := hP _ hb u (M.run_concat_some.mpr ⟨t, ht, hu⟩)
    exact (exact_at before t e u (invariant start keep ht) hPt hu).mp ⟨hPu, hT before e hb t u ht hu⟩
  · intro hC
    have hP : M.Throughout P s es := by
      intro before hb
      induction before using List.reverseRecOn with
      | nil =>
        intro t ht
        obtain rfl : s = t := by simpa using ht
        exact good
      | append_singleton before e ih =>
        intro u hu
        obtain ⟨t, ht, he⟩ := M.run_concat_some.mp hu
        have hPt : P t := ih ((List.prefix_append _ _).trans hb) t ht
        exact ((exact_at before t e u (invariant start keep ht) hPt he).mpr
          (hC before e hb t u ht he)).1
    refine ⟨hP, ?_⟩
    intro before e hb t u ht hu
    have hPt : P t := hP before ((List.prefix_append _ _).trans hb) t ht
    exact ((exact_at before t e u (invariant start keep ht) hPt hu).mpr (hC before e hb t u ht hu)).2

theorem throughout_congr {P Q : σ → Prop} (same : ∀ before t, I before t → (P t ↔ Q t))
    (es : List ε) : M.Throughout P s es ↔ M.Throughout Q s es := by
  constructor
  · intro h before hb t ht
    exact (same before t (invariant start keep ht)).mp (h before hb t ht)
  · intro h before hb t ht
    exact (same before t (invariant start keep ht)).mpr (h before hb t ht)

theorem throughout_iff_along {P : σ → Prop} {C : List ε → σ → ε → Prop} (good : P s)
    (exact_at : ∀ before t e u, I before t → P t → M.step t e = some u → (P u ↔ C before t e))
    (es : List ε) : M.Throughout P s es ↔ M.Along C s es := by
  have h := safe_iff_along start keep (T := fun _ _ _ _ => True) good
    (fun before t e u hI hP hu => by rw [and_true]; exact exact_at before t e u hI hP hu) es
  rw [← h]
  exact ⟨fun hP => ⟨hP, fun _ _ _ _ _ _ _ => trivial⟩, fun hP => hP.1⟩

end Invariants

/-- As `throughout_iff_along`, with an invariant that the steps from good states keep. -/
theorem throughout_iff_along_of_good {s : σ} {I : List ε → σ → Prop} {P : σ → Prop}
    {C : List ε → σ → ε → Prop} (start : I [] s) (good : P s)
    (exact_at : ∀ before t e u, I before t → P t → M.step t e = some u →
      I (before ++ [e]) u ∧ (P u ↔ C before t e))
    (es : List ε) : M.Throughout P s es ↔ M.Along C s es := by
  have hall : (∀ before t e u, before ++ [e] <+: es → M.run s before = some t →
      M.step t e = some u → I before t → P t → P u) →
      ∀ before, before <+: es → ∀ t, M.run s before = some t → I before t ∧ P t := by
    intro hP before hb
    induction before using List.reverseRecOn with
    | nil =>
      intro t ht
      obtain rfl : s = t := by simpa using ht
      exact ⟨start, good⟩
    | append_singleton before e ih =>
      intro u hu
      obtain ⟨t, ht, he⟩ := M.run_concat_some.mp hu
      obtain ⟨hI, hPt⟩ := ih ((List.prefix_append _ _).trans hb) t ht
      exact ⟨(exact_at before t e u hI hPt he).1, hP before t e u hb ht he hI hPt⟩
  constructor
  · intro h before e hb t u ht hu
    have hgood := hall (fun before t e u hb ht hu _ _ => h _ hb u (M.run_concat_some.mpr ⟨t, ht, hu⟩))
    obtain ⟨hI, hP⟩ := hgood before ((List.prefix_append _ _).trans hb) t ht
    exact (exact_at before t e u hI hP hu).2.mp (h _ hb u (M.run_concat_some.mpr ⟨t, ht, hu⟩))
  · intro h before hb t ht
    refine (hall ?_ before hb t ht).2
    intro before t e u hb ht hu hI hP
    exact (exact_at before t e u hI hP hu).2.mpr (h before e hb t u ht hu)

theorem Throughout.last {P : σ → Prop} {s t : σ} {es : List ε} (h : M.Throughout P s es)
    (ht : M.run s es = some t) : P t :=
  h es List.prefix_rfl t ht

/-- An invariant that only the steps meeting `C` keep holds along the runs whose steps do. -/
theorem Along.invariant {s : σ} {C : List ε → σ → ε → Prop} {I : List ε → σ → Prop} {es : List ε}
    (hC : M.Along C s es) (start : I [] s)
    (keep : ∀ before t e u, I before t → C before t e → M.step t e = some u → I (before ++ [e]) u)
    {t : σ} (h : M.run s es = some t) : I es t := by
  have hall : ∀ before, before <+: es → ∀ t, M.run s before = some t → I before t := by
    intro before hb
    induction before using List.reverseRecOn with
    | nil =>
      intro t ht
      obtain rfl : s = t := by simpa using ht
      exact start
    | append_singleton before e ih =>
      intro u hu
      obtain ⟨t, ht, he⟩ := M.run_concat_some.mp hu
      exact keep before t e u (ih ((List.prefix_append _ _).trans hb) t ht) (hC before e hb t u ht he) he
  exact hall es List.prefix_rfl t h

/-- What every step of a run adds to a list, the run adds in order. -/
theorem ledger {α : Type*} {f : σ → List α} {added : ε → List α}
    (step : ∀ s e t, M.step s e = some t → f t = f s ++ added e)
    {s t : σ} {es : List ε} (h : M.run s es = some t) : f t = f s ++ es.flatMap added := by
  induction es using List.reverseRecOn generalizing t with
  | nil =>
    obtain rfl : s = t := by simpa using h
    exact (List.append_nil _).symm
  | append_singleton es e ih =>
    obtain ⟨u, hu, he⟩ := M.run_concat_some.mp h
    rw [step u e t he, ih hu, List.flatMap_append, List.flatMap_singleton, List.append_assoc]

section Actions

variable {α : Type*} {f : σ → α} {A : ε → α → α → Prop}

/-- When each step is, seen through `f`, a chain of actions, a run keeps what the actions of
its events keep. -/
theorem invariant_of_actions {I : α → Prop} {C : ε → Prop}
    (chain : ∀ s e t, M.step s e = some t → Relation.ReflTransGen (A e) (f s) (f t))
    (keep : ∀ e a b, C e → A e a b → I a → I b) {s t : σ} {es : List ε} (hC : ∀ e ∈ es, C e)
    (start : I (f s)) (h : M.run s es = some t) : I (f t) := by
  induction es using List.reverseRecOn generalizing t with
  | nil =>
    obtain rfl : s = t := by simpa using h
    exact start
  | append_singleton es e ih =>
    obtain ⟨u, hu, he⟩ := M.run_concat_some.mp h
    have hIu : I (f u) := ih (fun d hd => hC d (List.mem_append_left _ hd)) hu
    have hCe : C e := hC e (List.mem_append_right _ (List.mem_singleton_self e))
    have hchain := chain u e t he
    generalize f t = b at hchain ⊢
    induction hchain with
    | refl => exact hIu
    | tail _ hact ih => exact keep e _ _ hCe hact ih

end Actions

section Reading

variable {δ : Type*}

/-- The machine run by inputs that its events are read from; unreadable inputs are refused. -/
def reading (M : Machine σ ε) (read : δ → Option ε) : Machine σ δ :=
  ⟨fun s d => (read d).bind (M.step s)⟩

theorem reading_step {read : δ → Option ε} {s t : σ} {d : δ} :
    (M.reading read).step s d = some t ↔ ∃ e, read d = some e ∧ M.step s e = some t :=
  Option.bind_eq_some_iff

/-- A run by inputs is a run by the events read from them. -/
theorem reading_run {read : δ → Option ε} {s t : σ} {ds : List δ}
    (h : (M.reading read).run s ds = some t) :
    ∃ es, List.Forall₂ (fun d e => read d = some e) ds es ∧ M.run s es = some t := by
  induction ds generalizing s with
  | nil => exact ⟨[], .nil, h⟩
  | cons d ds ih =>
    obtain ⟨u, hu, hrest⟩ := Option.bind_eq_some_iff.mp h
    obtain ⟨e, he, hstep⟩ := reading_step.mp hu
    obtain ⟨es, hes, hrun⟩ := ih hrest
    refine ⟨e :: es, .cons he hes, ?_⟩
    rw [run, hstep, Option.bind_some, hrun]

end Reading

section Simulation

variable {τ δ : Type*} {N : Machine τ δ} {f : σ → τ}

/-- Seen through `f`, a machine runs as `N` does once each of its steps is a step of `N`
or changes nothing that `f` shows. -/
theorem simulates (matched : ∀ s e t, M.step s e = some t →
      f t = f s ∨ ∃ d, N.step (f s) d = some (f t))
    {s t : σ} {es : List ε} (h : M.run s es = some t) : ∃ ds, N.run (f s) ds = some (f t) := by
  induction es using List.reverseRecOn generalizing t with
  | nil =>
    obtain rfl : s = t := by simpa using h
    exact ⟨[], rfl⟩
  | append_singleton es e ih =>
    obtain ⟨u, hu, he⟩ := M.run_concat_some.mp h
    obtain ⟨ds, hds⟩ := ih hu
    rcases matched u e t he with hsame | ⟨d, hd⟩
    · rw [hsame]
      exact ⟨ds, hds⟩
    · exact ⟨ds ++ [d], N.run_concat_some.mpr ⟨f u, hds, hd⟩⟩

/-- A run whose steps all meet `C` follows the function `next` of the events once each
such step does. -/
theorem Along.refines {α : Type*} {R : σ → α → Prop} {next : α → ε → α} {a : α} {s t : σ}
    {C : List ε → σ → ε → Prop} {es : List ε} (hC : M.Along C s es) (start : R s a)
    (matched : ∀ before t e u b, R t b → C before t e → M.step t e = some u → R u (next b e))
    (h : M.run s es = some t) : R t (es.foldl next a) := by
  induction es using List.reverseRecOn generalizing t with
  | nil =>
    obtain rfl : s = t := by simpa using h
    exact start
  | append_singleton es e ih =>
    obtain ⟨u, hu, he⟩ := M.run_concat_some.mp h
    have hbefore : M.Along C s es := by
      intro before x hb
      exact hC before x (hb.trans (List.prefix_append _ _))
    rw [List.foldl_concat]
    exact matched es u e t _ (ih hbefore hu) (hC es e List.prefix_rfl u t hu he) he

end Simulation

end Machine

end EventMachine
