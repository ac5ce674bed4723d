import Mathlib.Data.Finset.Card
import Mathlib.Data.List.Basic
import Mathlib.Data.List.Count

/-!
Stacks, top last, whose elements carry keys. Selecting the key of the top does
nothing; selecting another key drops the lowest element with that key and puts
a new one on top.
-/

namespace KeyedStack

variable {α κ : Type*}

section RootedStacks

variable {key : α → κ} {r : κ} {l : List α} {a : α}

/-- The bottom element, and no other, has the key `r`. -/
def Rooted (key : α → κ) (r : κ) (l : List α) : Prop :=
  ∃ root rest, l = root :: rest ∧ key root = r ∧ ∀ a ∈ rest, key a ≠ r

theorem Rooted.bottom (h : Rooted key r l) : l.head?.map key = some r := by
  obtain ⟨root, rest, rfl, hr, -⟩ := h
  rw [List.head?_cons, Option.map_some, hr]

theorem Rooted.concat (h : Rooted key r l) (ha : key a ≠ r) : Rooted key r (l ++ [a]) := by
  obtain ⟨root, rest, rfl, hr, hrest⟩ := h
  refine ⟨root, rest ++ [a], rfl, hr, fun b hb => ?_⟩
  rcases List.mem_append.mp hb with hb | hb
  · exact hrest b hb
  · rw [List.mem_singleton.mp hb]
    exact ha

theorem Rooted.dropLast (h : Rooted key r l) (hl : 1 < l.length) : Rooted key r l.dropLast := by
  obtain ⟨root, rest, rfl, hr, hrest⟩ := h
  have hne : rest ≠ [] := by
    rintro rfl
    simp at hl
  exact ⟨root, rest.dropLast, List.dropLast_cons_of_ne_nil hne, hr,
    fun b hb => hrest b (List.mem_of_mem_dropLast hb)⟩

theorem Rooted.eq_singleton (h : Rooted key r l) (ht : l.getLast?.map key = some r) :
    ∃ root, l = [root] ∧ key root = r := by
  obtain ⟨root, rest, rfl, hr, hrest⟩ := h
  rcases List.eq_nil_or_concat rest with rfl | ⟨before, b, rfl⟩
  · exact ⟨root, rfl, hr⟩
  · have hb : key b ≠ r := hrest b (by simp)
    rw [List.concat_eq_append, ← List.cons_append, List.getLast?_concat, Option.map_some,
      Option.some.injEq] at ht
    exact absurd ht hb

end RootedStacks

variable [DecidableEq κ]

theorem filter_eraseP_of_disjoint (p q : α → Bool) (l : List α) (h : ∀ a, p a → ¬ q a) :
    (l.eraseP p).filter q = l.filter q := by
  rcases List.exists_or_eq_self_of_eraseP p l with he | ⟨a, l₁, l₂, -, ha, hl, he⟩
  · rw [he]
  · have hq : q a = false := by simpa using h a ha
    rw [he, hl]
    simp [hq]

theorem countP_eraseP_self (p : α → Bool) (l : List α) :
    (l.eraseP p).countP p = l.countP p - 1 := by
  rcases List.exists_or_eq_self_of_eraseP p l with he | ⟨a, l₁, l₂, -, ha, hl, he⟩
  · rw [he]
    have hn : l.countP p = 0 := List.countP_eq_zero.mpr (List.eraseP_eq_self_iff.mp he)
    omega
  · rw [he, hl]
    simp only [List.countP_append, List.countP_cons, ha, ↓reduceIte]
    omega

theorem length_eraseP_add (p : α → Bool) (l : List α) :
    (l.eraseP p).length + (if l.countP p = 0 then 0 else 1) = l.length := by
  rcases List.exists_or_eq_self_of_eraseP p l with he | ⟨a, l₁, l₂, -, ha, hl, he⟩
  · rw [he, if_pos (List.countP_eq_zero.mpr (List.eraseP_eq_self_iff.mp he)), Nat.add_zero]
  · rw [he, hl]
    simp [ha, Nat.add_assoc]

theorem card_filter_concat (p : κ → Bool) (ks : List κ) (k : κ) :
    ((ks ++ [k]).filter p).toFinset.card =
      (ks.filter p).toFinset.card + (if p k ∧ k ∉ ks then 1 else 0) := by
  rw [List.filter_append, List.toFinset_append]
  by_cases hp : p k
  · have hs : ([k].filter p).toFinset = {k} := by simp [hp]
    rw [hs]
    by_cases hm : k ∈ ks
    · rw [Finset.union_eq_left.mpr (by simp [hp, hm]), if_neg (by simp [hm]), Nat.add_zero]
    · rw [Finset.card_union_of_disjoint (by simp [hm]), if_pos ⟨hp, hm⟩, Finset.card_singleton]
  · simp [hp]

variable (key : α → κ) (old : List α)

def keyed (k : κ) (a : α) : Bool := key a = k

/-- `old` are the elements that no new element may be. -/
inductive Selects : List α → κ → List α → Prop
  | keep {l t k} (atTop : l.getLast? = some t) (same : key t = k) : Selects l k l
  | renew {l t k x} (atTop : l.getLast? = some t) (other : key t ≠ k) (new : key x = k)
      (fresh : x ∉ l ∧ x ∉ old) : Selects l k (l.eraseP (keyed key k) ++ [x])

inductive SelectsAll (start : List α) : List κ → List α → Prop
  | nil : SelectsAll start [] start
  | snoc {ks l k l'} (before : SelectsAll start ks l) (last : Selects key old l k l') :
      SelectsAll start (ks ++ [k]) l'

variable {key old}

theorem keyed_disjoint {j k : κ} (h : j ≠ k) (a : α) (ha : keyed key k a = true) :
    ¬ keyed key j a = true := by
  simp only [keyed, decide_eq_true_eq] at ha ⊢
  exact fun hj => h (hj.symm.trans ha)

section OneSelection

variable {l l' : List α} {k : κ}

theorem Selects.filter (h : Selects key old l k l') (q : α → Bool) (hq : ∀ a, key a = k → ¬ q a) :
    l'.filter q = l.filter q := by
  cases h with
  | keep atTop same => rfl
  | @renew _ t x atTop other new fresh =>
    have hx : q x = false := by simpa using hq x new
    have hd : ∀ a, keyed key k a → ¬ q a := fun a ha => hq a (by simpa [keyed] using ha)
    simp [filter_eraseP_of_disjoint _ q l hd, hx]

theorem Selects.top (h : Selects key old l k l') : l'.getLast?.map key = some k := by
  cases h with
  | keep atTop same => simp [atTop, same]
  | renew atTop other new fresh => simp [new]

theorem Selects.count_other (h : Selects key old l k l') {j : κ} (hj : j ≠ k) :
    l'.countP (keyed key j) = l.countP (keyed key j) := by
  have hd : ∀ a, key a = k → ¬ keyed key j a = true :=
    fun a ha => keyed_disjoint hj a (by simp [keyed, ha])
  rw [List.countP_eq_length_filter, List.countP_eq_length_filter, h.filter _ hd]

theorem Selects.count_self (h : Selects key old l k l') :
    l'.countP (keyed key k) = max 1 (l.countP (keyed key k)) := by
  cases h with
  | @keep t _ atTop same =>
    have hpos : 0 < l.countP (keyed key k) :=
      List.countP_pos_iff.mpr ⟨t, List.mem_of_getLast? atTop, by simp [keyed, same]⟩
    omega
  | @renew _ t x atTop other new fresh =>
    have hx : keyed key k x = true := by simp [keyed, new]
    simp only [List.countP_append, countP_eraseP_self, List.countP_singleton, hx, ↓reduceIte]
    omega

theorem Selects.length (h : Selects key old l k l') :
    l'.length = l.length + (if l.countP (keyed key k) = 0 then 1 else 0) := by
  cases h with
  | @keep t _ atTop same =>
    have hpos : 0 < l.countP (keyed key k) :=
      List.countP_pos_iff.mpr ⟨t, List.mem_of_getLast? atTop, by simp [keyed, same]⟩
    rw [if_neg (by omega), Nat.add_zero]
  | renew atTop other new fresh =>
    have hl := length_eraseP_add (keyed key k) l
    rw [List.length_append, List.length_singleton]
    split_ifs at hl ⊢ <;> omega

theorem Selects.survivors [DecidableEq α] (h : Selects key old l k l') :
    (l'.filter (· ∈ old)).Sublist (l.filter (· ∈ old)) := by
  cases h with
  | keep atTop same => exact List.Sublist.refl _
  | renew atTop other new fresh =>
    simpa [fresh.2] using List.eraseP_sublist.filter (fun a => decide (a ∈ old))

theorem Rooted.selects {r : κ} (h : Rooted key r l) (hk : k ≠ r) (hs : Selects key old l k l') :
    Rooted key r l' := by
  cases hs with
  | keep atTop same => exact h
  | renew atTop other new fresh =>
    obtain ⟨root, rest, rfl, hr, hrest⟩ := h
    have hroot : ¬ keyed key k root = true := by
      simp only [keyed, decide_eq_true_eq, hr]
      exact fun he => hk he.symm
    rw [List.eraseP_cons_of_neg hroot]
    have hkept : Rooted key r (root :: rest.eraseP (keyed key k)) :=
      ⟨root, _, rfl, hr, fun b hb => hrest b (List.mem_of_mem_eraseP hb)⟩
    exact hkept.concat (new ▸ hk)

end OneSelection

section ManySelections

variable {start l : List α} {ks : List κ}

theorem SelectsAll.filter (h : SelectsAll key old start ks l) (q : α → Bool)
    (hq : ∀ a, key a ∈ ks → ¬ q a) : l.filter q = start.filter q := by
  induction h with
  | nil => rfl
  | snoc before last ih =>
    rw [last.filter q (fun a ha => hq a (by simp [ha]))]
    exact ih (fun a ha => hq a (by simp [ha]))

theorem SelectsAll.survivors [DecidableEq α] (h : SelectsAll key old start ks l) :
    (l.filter (· ∈ old)).Sublist (start.filter (· ∈ old)) := by
  induction h with
  | nil => exact List.Sublist.refl _
  | snoc before last ih => exact last.survivors.trans ih

theorem SelectsAll.top (h : SelectsAll key old start ks l) (k : κ) (hk : ks.getLast? = some k) :
    l.getLast?.map key = some k := by
  cases h with
  | nil => simp at hk
  | snoc before last =>
    rw [List.getLast?_concat, Option.some.injEq] at hk
    exact hk ▸ last.top

theorem SelectsAll.count (h : SelectsAll key old start ks l) (j : κ) :
    l.countP (keyed key j) =
      if j ∈ ks then max 1 (start.countP (keyed key j)) else start.countP (keyed key j) := by
  induction h with
  | nil => simp
  | @snoc ks l k l' before last ih =>
    by_cases hj : j = k
    · subst hj
      rw [last.count_self, ih]
      split_ifs <;> simp_all
    · rw [last.count_other hj, ih]
      simp [hj]

/-- The stack grows once for each key selected that it did not hold at the start. -/
theorem SelectsAll.length (h : SelectsAll key old start ks l) :
    l.length = start.length + (ks.filter (fun k => start.countP (keyed key k) = 0)).toFinset.card := by
  induction h with
  | nil => simp
  | @snoc ks l k l' before last ih =>
    rw [last.length, ih, card_filter_concat, before.count k, Nat.add_assoc]
    simp only [decide_eq_true_eq]
    congr 2
    by_cases hm : k ∈ ks <;> simp [hm]

end ManySelections

end KeyedStack
