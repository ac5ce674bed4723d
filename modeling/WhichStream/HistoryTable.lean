import Mathlib.Data.Rat.Defs
import WhichStream.Library.Machine
import WhichStream.UIKit

/-!
The table of `MainViewController`. UIKit recycles body cells with the subviews they
were given; the header cell has no reuse identifier and never enters the pool.
-/

namespace WhichStream.HistoryTable

open EventMachine

structure UILabel where
  x : ℚ
  y : ℚ
  width : ℚ
  height : ℚ
  text : String
  textColor : UIColor
  fontSize : Option ℕ
  deriving DecidableEq, Repr

structure UITableViewCell where
  backgroundColor : Option UIColor
  width : ℚ
  labels : List UILabel
  isUserInteractionEnabled : Bool
  deriving DecidableEq, Repr

-- UIKit gives a new cell this frame until the table lays it out.
def newCell : UITableViewCell := ⟨none, 320, [], true⟩

def UITableViewCell.addSubview (cell : UITableViewCell) (label : UILabel) : UITableViewCell :=
  { cell with labels := cell.labels ++ [label] }

def headerLabel (cellWidth : ℚ) : UILabel := ⟨10, 0, cellWidth - 10, 40, "History", .white, some 25⟩

def bodyLabel : UILabel := ⟨100, 20, 50, 20, "Test", .white, none⟩

-- `tableView(_:cellForRowAt:)`, given the cell that `dequeueReusableCell` hands out.
def cellForRowAt (dequeued : UITableViewCell) (row : ℕ) : UITableViewCell :=
  let cell := { dequeued with backgroundColor := some .clear }
  if row = 0 then
    let headerCell := { newCell with backgroundColor := some .clear }
    { headerCell.addSubview (headerLabel cell.width) with isUserInteractionEnabled := false }
  else cell.addSubview bodyLabel

def rowText (row : ℕ) : String := if row = 0 then "History" else "Test"

structure Table where
  pool : List UITableViewCell
  displayed : List UITableViewCell

def Table.empty : Table := ⟨[], []⟩

inductive TableEvent
  | request (row pick : ℕ)
  | recycle (index : ℕ) (width : ℚ)

def dequeueReusableCell (t : Table) (pick : ℕ) : Option (UITableViewCell × List UITableViewCell) :=
  match t.pool with
  | [] => some (newCell, [])
  | c :: cs => ((c :: cs)[pick]?).map (fun cell => (cell, (c :: cs).eraseIdx pick))

def answer (t : Table) (row pick : ℕ) : Option UITableViewCell :=
  (dequeueReusableCell t pick).map (fun p => cellForRowAt p.1 row)

def step (t : Table) : TableEvent → Option Table
  | .request row pick => (dequeueReusableCell t pick).map (fun p =>
      { pool := p.2
        displayed := if row = 0 then t.displayed else t.displayed ++ [cellForRowAt p.1 row] })
  | .recycle index width => (t.displayed[index]?).map (fun cell =>
      { pool := t.pool ++ [{ cell with width := width }]
        displayed := t.displayed.eraseIdx index })

def machine : Machine Table TableEvent := ⟨step⟩

def AnswersRight (t : Table) (e : TableEvent) : Prop :=
  match e with
  | .request row pick => ∀ cell ∈ answer t row pick, cell.labels.map (·.text) = [rowText row]
  | .recycle _ _ => True

def BodyFromEmptyPool (t : Table) (e : TableEvent) : Prop :=
  match e with
  | .request row _ => row ≠ 0 → t.pool = []
  | .recycle _ _ => True

/-- A cell that has been a body cell keeps one label for each time it was handed out. -/
def Labelled (cell : UITableViewCell) : Prop :=
  ∃ n, cell.labels = List.replicate (n + 1) bodyLabel

def Inv (t : Table) : Prop := ∀ cell ∈ t.pool ++ t.displayed, Labelled cell

theorem dequeue_cases {t : Table} {pick : ℕ} {p : UITableViewCell × List UITableViewCell}
    (h : dequeueReusableCell t pick = some p) :
    (t.pool = [] ∧ p = (newCell, [])) ∨ (p.1 ∈ t.pool ∧ p.2 = t.pool.eraseIdx pick) := by
  unfold dequeueReusableCell at h
  split at h
  · next hp => exact Or.inl ⟨hp, (Option.some.inj h).symm⟩
  · next c cs hp =>
    obtain ⟨cell, hc, rfl⟩ := Option.map_eq_some_iff.mp h
    rw [hp]
    exact Or.inr ⟨List.mem_of_getElem? hc, rfl⟩

theorem addSubview_labelled {cell : UITableViewCell} (h : cell.labels = [] ∨ Labelled cell) :
    Labelled (cell.addSubview bodyLabel) := by
  rcases h with h | ⟨n, h⟩
  · exact ⟨0, by simp [UITableViewCell.addSubview, h]⟩
  · exact ⟨n + 1, by rw [UITableViewCell.addSubview, h]; exact List.replicate_succ'.symm⟩

theorem cellForRowAt_labelled {t : Table} (h : Inv t) {pick row : ℕ}
    {p : UITableViewCell × List UITableViewCell} (hp : dequeueReusableCell t pick = some p)
    (hr : row ≠ 0) : Labelled (cellForRowAt p.1 row) := by
  rw [cellForRowAt, if_neg hr]
  apply addSubview_labelled
  rcases dequeue_cases hp with ⟨-, rfl⟩ | ⟨hm, -⟩
  · exact Or.inl rfl
  · exact Or.inr (h p.1 (List.mem_append_left _ hm))

theorem dequeue_pool {t : Table} {pick : ℕ} {p : UITableViewCell × List UITableViewCell}
    (hp : dequeueReusableCell t pick = some p) : ∀ cell ∈ p.2, cell ∈ t.pool := by
  intro cell hc
  rcases dequeue_cases hp with ⟨-, rfl⟩ | ⟨-, hp2⟩
  · simp at hc
  · rw [hp2] at hc
    exact List.mem_of_mem_eraseIdx hc

theorem inv_step {t u : Table} {e : TableEvent} (h : Inv t) (hu : machine.step t e = some u) :
    Inv u := by
  intro cell hc
  cases e with
  | request row pick =>
    obtain ⟨p, hp, rfl⟩ := Option.map_eq_some_iff.mp hu
    simp only [List.mem_append] at hc
    rcases hc with hc | hc
    · exact h cell (List.mem_append_left _ (dequeue_pool hp cell hc))
    · split_ifs at hc with hr
      · exact h cell (List.mem_append_right _ hc)
      · rcases List.mem_append.mp hc with hc | hc
        · exact h cell (List.mem_append_right _ hc)
        · rw [List.mem_singleton.mp hc]
          exact cellForRowAt_labelled h hp hr
  | recycle index width =>
    obtain ⟨old, ho, rfl⟩ := Option.map_eq_some_iff.mp hu
    simp only [List.mem_append, List.mem_singleton] at hc
    rcases hc with (hc | rfl) | hc
    · exact h cell (List.mem_append_left _ hc)
    · exact h old (List.mem_append_right _ (List.mem_of_getElem? ho))
    · exact h cell (List.mem_append_right _ (List.mem_of_mem_eraseIdx hc))

theorem answer_header {t : Table} {pick : ℕ} : AnswersRight t (.request 0 pick) := by
  intro cell hc
  obtain ⟨p, -, rfl⟩ := Option.map_eq_some_iff.mp hc
  rfl

theorem answer_exact {t u : Table} {e : TableEvent} (h : Inv t) (hu : machine.step t e = some u) :
    AnswersRight t e ↔ BodyFromEmptyPool t e := by
  cases e with
  | recycle index width => exact Iff.rfl
  | request row pick =>
    by_cases hr : row = 0
    · subst hr
      exact ⟨fun _ h0 => absurd rfl h0, fun _ => answer_header⟩
    · obtain ⟨p, hp, -⟩ := Option.map_eq_some_iff.mp hu
      have ha : answer t row pick =
          some ({ p.1 with backgroundColor := some .clear }.addSubview bodyLabel) := by
        simp [answer, hp, cellForRowAt, hr]
      simp only [AnswersRight, BodyFromEmptyPool, ha, Option.mem_some_iff, forall_eq', rowText, hr,
        ↓reduceIte, ne_eq, not_false_eq_true, forall_const]
      rcases dequeue_cases hp with ⟨hpool, rfl⟩ | ⟨hm, -⟩
      · exact ⟨fun _ => hpool, fun _ => rfl⟩
      · obtain ⟨n, hn⟩ := h p.1 (List.mem_append_left _ hm)
        constructor
        · intro hl
          have := congrArg List.length hl
          simp [UITableViewCell.addSubview, hn] at this
        · intro hpool
          simp [hpool] at hm

theorem history_rows_iff (es : List TableEvent) :
    machine.EachStep (fun _ t e _ => AnswersRight t e) Table.empty es ↔
      machine.Along (fun _ t e => BodyFromEmptyPool t e) Table.empty es :=
  Machine.eachStep_iff_along (I := fun _ t => Inv t) (T := fun _ t e _ => AnswersRight t e)
    (C := fun _ t e => BodyFromEmptyPool t e) (by simp [Inv, Table.empty])
    (fun _ _ _ _ h hu => inv_step h hu) (fun _ _ _ _ h hu => answer_exact h hu) es

theorem recycled_cell_repeats_label :
    ¬ ∀ es : List TableEvent, machine.EachStep (fun _ t e _ => AnswersRight t e) Table.empty es := by
  intro h
  have hr := h [.request 1 0, .recycle 0 375, .request 2 0] [.request 1 0, .recycle 0 375]
    (.request 2 0) List.prefix_rfl _ _ rfl rfl
  have hl := congrArg List.length (hr _ rfl)
  exact absurd hl (by decide)

end WhichStream.HistoryTable
