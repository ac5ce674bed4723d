import Mathlib.Data.Set.Insert

/-!
A value kept under a stamp in a place that may refuse to change, with a copy of the stamp in
a second place. The value counts while the stamps agree, so it can always be taken back, and
is lost with the second place.
-/

namespace StampedCells

structure Cell (κ α : Type*) where
  item : Option (κ × α)
  stamp : Option κ

namespace Cell

variable {κ α : Type*} (c : Cell κ α) {fresh : κ} {a : α} {taken : Bool}

def value [DecidableEq κ] : Option α :=
  c.item.bind fun p => if c.stamp = some p.1 then some p.2 else none

-- The stamp in use is kept; `taken` tells whether the first place takes the value.
def put (fresh : κ) (a : α) (taken : Bool) : Cell κ α :=
  ⟨if taken then some (c.stamp.getD fresh, a) else c.item, some (c.stamp.getD fresh)⟩

def clear (taken : Bool) : Cell κ α := ⟨if taken then none else c.item, none⟩

def unstamped : Cell κ α := ⟨c.item, none⟩

structure Within (used : Set κ) (c : Cell κ α) : Prop where
  item : ∀ p ∈ c.item, p.1 ∈ used
  stamp : ∀ k ∈ c.stamp, k ∈ used

section Values

variable [DecidableEq κ]

@[simp] theorem value_clear : (c.clear taken).value = none := by
  cases h : c.item <;> cases taken <;> simp [value, clear, h]

@[simp] theorem value_unstamped : c.unstamped.value = none := by
  cases h : c.item <;> simp [value, unstamped, h]

/-- A value that is not taken leaves the one before, also where a new stamp is made. -/
theorem value_put (h : c.stamp = none → ∀ p ∈ c.item, p.1 ≠ fresh) :
    (c.put fresh a taken).value = if taken then some a else c.value := by
  cases taken with
  | true => simp [value, put]
  | false =>
    cases hitem : c.item with
    | none => simp [value, put, hitem]
    | some p =>
      cases hstamp : c.stamp with
      | none =>
        have hne : fresh ≠ p.1 := (h hstamp p hitem).symm
        simp [value, put, hitem, hstamp, hne]
      | some k => simp [value, put, hitem, hstamp]

end Values

namespace Within

variable {c} {used more : Set κ}

theorem mono (h : c.Within used) (hmore : used ⊆ more) : c.Within more :=
  ⟨fun p hp => hmore (h.item p hp), fun k hk => hmore (h.stamp k hk)⟩

theorem clear (h : c.Within used) : (c.clear taken).Within used := by
  refine ⟨?_, fun k hk => by cases hk⟩
  intro p hp
  cases taken with
  | true => cases hp
  | false => exact h.item p hp

theorem unstamped (h : c.Within used) : c.unstamped.Within used :=
  ⟨h.item, fun k hk => by cases hk⟩

theorem put (h : c.Within used) : (c.put fresh a taken).Within (insert fresh used) := by
  have hstamp : c.stamp.getD fresh ∈ insert fresh used := by
    cases hs : c.stamp with
    | none => exact Set.mem_insert fresh used
    | some k => exact Set.mem_insert_of_mem fresh (h.stamp k hs)
  refine ⟨?_, ?_⟩
  · intro p hp
    cases taken with
    | true =>
      obtain rfl := Option.some.inj hp
      exact hstamp
    | false => exact Set.mem_insert_of_mem fresh (h.item p hp)
  · intro k hk
    obtain rfl := Option.some.inj hk
    exact hstamp

end Within

end Cell

end StampedCells
