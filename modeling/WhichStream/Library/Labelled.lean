import Mathlib.Data.List.DropRight
import Mathlib.Tactic.SplitIfs

/-!
Messages that may carry a label: what stands before the first separator, and the rest after
it, both trimmed. A message without a separator is its own label.
-/

namespace LabelledMessages

variable {α : Type*} (space : α → Bool)

def trim (xs : List α) : List α := (xs.dropWhile space).rdropWhile space

structure Trimmed (xs : List α) : Prop where
  first : ∀ x ∈ xs.head?, space x = false
  last : ∀ x ∈ xs.getLast?, space x = false

variable {space} {xs label before after : List α}

theorem dropWhile_spaces (h : ∀ x ∈ before, space x = true) :
    (before ++ xs).dropWhile space = xs.dropWhile space := by
  induction before with
  | nil => rfl
  | cons x before ih =>
    have hx := h x List.mem_cons_self
    simp only [List.cons_append, List.dropWhile_cons, hx, if_true]
    exact ih (fun y hy => h y (List.mem_cons_of_mem x hy))

theorem dropWhile_first (h : ∀ x ∈ xs.head?, space x = false) : xs.dropWhile space = xs := by
  cases xs with
  | nil => rfl
  | cons x xs => simp [h x rfl]

theorem rdropWhile_spaces (h : ∀ x ∈ after, space x = true) :
    (xs ++ after).rdropWhile space = xs.rdropWhile space := by
  induction after using List.reverseRecOn with
  | nil => simp
  | append_singleton after x ih =>
    rw [← List.append_assoc, List.rdropWhile_concat_pos _ _ _ (h x (by simp))]
    exact ih (fun y hy => h y (by simp [hy]))

theorem rdropWhile_last (h : ∀ x ∈ xs.getLast?, space x = false) : xs.rdropWhile space = xs := by
  apply List.rdropWhile_eq_self_iff.mpr
  intro hne
  simp [h _ (List.getLast?_eq_some_getLast hne)]

theorem trim_padded (hlabel : Trimmed space label) (hne : label ≠ [])
    (hbefore : ∀ x ∈ before, space x = true) (hafter : ∀ x ∈ after, space x = true) :
    trim space (before ++ label ++ after) = label := by
  have hfirst : ∀ x ∈ (label ++ after).head?, space x = false := by
    intro x hx
    apply hlabel.first
    cases label with
    | nil => exact absurd rfl hne
    | cons y label => exact hx
  unfold trim
  rw [List.append_assoc, dropWhile_spaces hbefore, dropWhile_first hfirst, rdropWhile_spaces hafter,
    rdropWhile_last hlabel.last]

/-- What trims to a label is the label between spaces. -/
theorem trim_eq_iff (hlabel : Trimmed space label) (hne : label ≠ []) :
    trim space xs = label ↔ ∃ before after, xs = before ++ label ++ after ∧
      (∀ x ∈ before, space x = true) ∧ ∀ x ∈ after, space x = true := by
  constructor
  · intro h
    refine ⟨xs.takeWhile space, (xs.dropWhile space).rtakeWhile space, ?_, ?_, ?_⟩
    · rw [← h, trim, List.append_assoc, List.rdropWhile_append_rtakeWhile,
        List.takeWhile_append_dropWhile]
    · intro x hx
      exact List.mem_takeWhile_imp hx
    · intro x hx
      exact List.mem_rtakeWhile_imp hx
  · rintro ⟨before, after, rfl, hbefore, hafter⟩
    exact trim_padded hlabel hne hbefore hafter

section Labels

variable [DecidableEq α] (space) (separator : α)

def split (xs : List α) : List α × Option (List α) :=
  if separator ∈ xs then
    (trim space (xs.takeWhile (fun x => x ≠ separator)),
      some (trim space (xs.dropWhile (fun x => x ≠ separator)).tail))
  else (xs, none)

/-- The message is the label, or the label among spaces, a separator and a detail. -/
def Says (xs label : List α) : Prop :=
  xs = label ∨ ∃ before after detail, xs = before ++ label ++ after ++ separator :: detail ∧
    (∀ x ∈ before, space x = true) ∧ ∀ x ∈ after, space x = true

variable {space separator}

theorem takeWhile_separator {detail : List α} (h : separator ∉ xs) :
    (xs ++ separator :: detail).takeWhile (fun x => x ≠ separator) = xs := by
  induction xs with
  | nil => simp
  | cons x xs ih =>
    have hne : x ≠ separator := fun he => h (he ▸ List.mem_cons_self)
    have hrest := ih (fun hm => h (List.mem_cons_of_mem x hm))
    simpa [hne] using hrest

theorem dropWhile_separator {detail : List α} (h : separator ∉ xs) :
    (xs ++ separator :: detail).dropWhile (fun x => x ≠ separator) = separator :: detail := by
  induction xs with
  | nil => simp
  | cons x xs ih =>
    have hne : x ≠ separator := fun he => h (he ▸ List.mem_cons_self)
    have hrest := ih (fun hm => h (List.mem_cons_of_mem x hm))
    simpa [hne] using hrest

theorem split_separated {detail : List α} (h : separator ∉ xs) :
    split space separator (xs ++ separator :: detail) =
      (trim space xs, some (trim space detail)) := by
  rw [split, if_pos (by simp), takeWhile_separator h, dropWhile_separator h, List.tail_cons]

theorem split_whole (h : separator ∉ xs) : split space separator xs = (xs, none) := if_neg h

theorem exists_separated (h : separator ∈ xs) :
    ∃ first detail, xs = first ++ separator :: detail ∧ separator ∉ first := by
  induction xs with
  | nil => cases h
  | cons x xs ih =>
    by_cases hx : x = separator
    · exact ⟨[], xs, by rw [hx, List.nil_append], List.not_mem_nil⟩
    · obtain ⟨first, detail, rfl, hfirst⟩ := ih (List.mem_of_ne_of_mem (Ne.symm hx) h)
      exact ⟨x :: first, detail, rfl, by simp [Ne.symm hx, hfirst]⟩

/-- A message is read under a label exactly if it says it. -/
theorem split_label_iff (hspace : space separator = false) (hlabel : Trimmed space label)
    (hne : label ≠ []) (hsep : separator ∉ label) :
    (split space separator xs).1 = label ↔ Says space separator xs label := by
  by_cases hmem : separator ∈ xs
  · obtain ⟨first, detail, rfl, hfirst⟩ := exists_separated hmem
    rw [split_separated hfirst]
    constructor
    · intro h
      obtain ⟨before, after, rfl, hbefore, hafter⟩ := (trim_eq_iff hlabel hne).mp h
      exact Or.inr ⟨before, after, detail, rfl, hbefore, hafter⟩
    · rintro (h | ⟨before, after, detail', h, hbefore, hafter⟩)
      · rw [h] at hmem
        exact absurd hmem hsep
      · have hnot : separator ∉ before ++ label ++ after := by
          simp only [List.mem_append, not_or]
          refine ⟨⟨fun hm => ?_, hsep⟩, fun hm => ?_⟩
          · rw [hbefore _ hm] at hspace
            cases hspace
          · rw [hafter _ hm] at hspace
            cases hspace
        have hfirsts : first = before ++ label ++ after := by
          have htake := congrArg (List.takeWhile (fun x => x ≠ separator)) h
          rwa [takeWhile_separator hfirst, takeWhile_separator hnot] at htake
        rw [hfirsts]
        exact trim_padded hlabel hne hbefore hafter
  · rw [split_whole hmem]
    constructor
    · exact Or.inl
    · rintro (h | ⟨before, after, detail, h, -⟩)
      · exact h
      · exact absurd (by simp [h]) hmem

/-- A message without a detail is the bare label. -/
theorem split_bare_iff (hsep : separator ∉ label) :
    split space separator xs = (label, none) ↔ xs = label := by
  constructor
  · intro h
    unfold split at h
    split_ifs at h
    · cases congrArg Prod.snd h
    · exact congrArg Prod.fst h
  · rintro rfl
    exact split_whole hsep

end Labels

end LabelledMessages
