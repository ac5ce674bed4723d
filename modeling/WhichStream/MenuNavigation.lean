import WhichStream.Navigation

namespace WhichStream.Navigation

open KeyedStack

def entry : PageKey → Navigation → ViewController → Navigation
  | .mainVC => toFeedVC
  | .sharingVC => toSharingVC

theorem entry_eq (key : PageKey) : entry key = toPage key := by
  cases key <;> rfl

-- A choice is handled by the `AppDefaults` of the screen on top.
def choose (nav : Navigation) (key : PageKey) : Navigation :=
  match nav.top with
  | none => nav
  | some vc => entry key nav vc

def chooseAll (nav : Navigation) (keys : List PageKey) : Navigation := keys.foldl choose nav

def ofKind (kind : Kind) (nav : Navigation) : List ViewController :=
  nav.viewControllers.filter (keyed ViewController.kind kind)

structure Chosen (nav : Navigation) (key : PageKey) (nav' : Navigation) : Prop where
  same : nav.top.map ViewController.kind = some key.kind → nav'.viewControllers = nav.viewControllers
  other : nav.top.map ViewController.kind ≠ some key.kind → ∃ vc, vc.kind = key.kind ∧
    vc ∉ nav.viewControllers ∧
    nav'.viewControllers = nav.viewControllers.eraseP (keyed ViewController.kind key.kind) ++ [vc]

theorem mem_of_top {nav : Navigation} {vc : ViewController} (h : nav.top = some vc) :
    vc ∈ nav.viewControllers :=
  List.mem_of_getLast? h

theorem fresh_not_mem {nav nav₀ : Navigation} (h : nav₀.nextId ≤ nav.nextId) (kind : Kind) :
    (⟨nav.nextId, kind⟩ : ViewController) ∉ nav₀.viewControllers :=
  fun hm => absurd (nav₀.allocated _ hm) (Nat.not_lt.mpr h)

theorem PageKey.kind_injective : Function.Injective PageKey.kind := by
  intro a b h
  cases a <;> cases b <;> first | rfl | exact absurd h (by decide)

section OneChoice

variable {nav nav₀ : Navigation} {vc : ViewController} {own : PageKey}

theorem choose_eq (h : nav.top = some vc) (key : PageKey) : nav.choose key = toPage key nav vc := by
  simp only [choose, h, entry_eq]

theorem choose_nextId (h : nav.top = some vc) (hk : vc.kind = own.kind) (key : PageKey) :
    nav.nextId ≤ (nav.choose key).nextId := by
  rw [choose_eq h]
  rcases toPage_cases key (mem_of_top h) hk with ⟨-, -, hn⟩ | ⟨-, -, hn⟩ <;> omega

theorem choose_selects (h : nav.top = some vc) (hk : vc.kind = own.kind)
    (hn : nav₀.nextId ≤ nav.nextId) (key : PageKey) :
    Selects ViewController.kind nav₀.viewControllers nav.viewControllers key.kind
      (nav.choose key).viewControllers := by
  rw [choose_eq h]
  rcases toPage_cases key (mem_of_top h) hk with ⟨rfl, hs, -⟩ | ⟨hne, hs, -⟩
  · rw [hs]
    exact .keep h hk
  · rw [hs]
    refine .renew h ?_ rfl ⟨fresh_not_mem le_rfl _, fresh_not_mem hn _⟩
    exact fun he => hne (PageKey.kind_injective (hk.symm.trans he))

theorem choose_chosen (h : nav.top = some vc) (hk : vc.kind = own.kind) (key : PageKey) :
    Chosen nav key (nav.choose key) := by
  rw [choose_eq h]
  rcases toPage_cases key (mem_of_top h) hk with ⟨rfl, hs, -⟩ | ⟨hne, hs, -⟩
  · exact ⟨fun _ => hs, fun hne => absurd (by rw [h, ← hk]; rfl) hne⟩
  · constructor
    · intro he
      rw [h, Option.map_some, Option.some.injEq, hk] at he
      exact absurd (PageKey.kind_injective he) hne
    · exact fun _ => ⟨_, rfl, fresh_not_mem le_rfl _, hs⟩

end OneChoice

section ManyChoices

variable {nav : Navigation}

structure Choosing (nav₀ : Navigation) (keys : List PageKey) (nav : Navigation) : Prop where
  menu : ∃ vc own, nav.top = some vc ∧ vc.kind = PageKey.kind own
  ids : nav₀.nextId ≤ nav.nextId
  selects : SelectsAll ViewController.kind nav₀.viewControllers nav₀.viewControllers
    (keys.map PageKey.kind) nav.viewControllers

theorem top_kind_of_selects {nav nav' : Navigation} {old : List ViewController} {key : PageKey}
    (h : Selects ViewController.kind old nav.viewControllers key.kind nav'.viewControllers) :
    ∃ vc own, nav'.top = some vc ∧ vc.kind = PageKey.kind own := by
  obtain ⟨vc, hvc, hk⟩ := Option.map_eq_some_iff.mp h.top
  exact ⟨vc, key, hvc, hk⟩

theorem choosing_step {nav₀ : Navigation} {keys : List PageKey} (h : Choosing nav₀ keys nav)
    (key : PageKey) : Choosing nav₀ (keys ++ [key]) (nav.choose key) := by
  obtain ⟨vc, own, ht, hk⟩ := h.menu
  have hs := choose_selects ht hk h.ids key
  refine ⟨top_kind_of_selects hs, h.ids.trans (choose_nextId ht hk key), ?_⟩
  rw [List.map_append]
  exact .snoc h.selects hs

theorem chooseAll_choosing {vc : ViewController} {own : PageKey} (ht : nav.top = some vc)
    (hk : vc.kind = own.kind) (keys : List PageKey) : Choosing nav keys (nav.chooseAll keys) := by
  induction keys using List.reverseRecOn with
  | nil => exact ⟨⟨vc, own, ht, hk⟩, le_rfl, .nil⟩
  | append_singleton keys key ih =>
    rw [chooseAll, List.foldl_concat]
    exact choosing_step ih key

-- Of the two kinds that can be chosen the one on top is present, so at most one is absent.
theorem absent_card {own : PageKey} {p : Kind → Bool} (hp : p own.kind = false)
    (keys : List PageKey) :
    ((keys.map PageKey.kind).filter p).toFinset.card =
      if ∃ key ∈ keys, p key.kind = true then 1 else 0 := by
  split_ifs with h
  · obtain ⟨key, hm, hk⟩ := h
    rw [Finset.card_eq_one]
    refine ⟨key.kind, Finset.ext (fun k => ?_)⟩
    simp only [List.mem_toFinset, List.mem_filter, List.mem_map, Finset.mem_singleton]
    constructor
    · rintro ⟨⟨key', -, rfl⟩, hk'⟩
      cases own <;> cases key <;> cases key' <;> simp_all
    · rintro rfl
      exact ⟨⟨key, hm, rfl⟩, hk⟩
  · rw [Finset.card_eq_zero, List.toFinset_eq_empty_iff, List.filter_eq_nil_iff]
    intro k hk hpk
    obtain ⟨key, hm, rfl⟩ := List.mem_map.mp hk
    exact h ⟨key, hm, hpk⟩

end ManyChoices

theorem menu_choices (nav : Navigation) (top : ViewController) (htop : nav.top = some top)
    (hmenu : top.kind = .main ∨ top.kind = .sharing) (keys : List PageKey) :
    (∀ before key, before ++ [key] <+: keys →
      Chosen (nav.chooseAll before) key (nav.chooseAll (before ++ [key]))) ∧
    (nav.chooseAll keys).viewControllers.filter (fun vc => vc.kind ≠ .main ∧ vc.kind ≠ .sharing) =
      nav.viewControllers.filter (fun vc => vc.kind ≠ .main ∧ vc.kind ≠ .sharing) ∧
    ((nav.chooseAll keys).viewControllers.filter (· ∈ nav.viewControllers)).Sublist
      nav.viewControllers ∧
    (∀ key, keys.getLast? = some key →
      (nav.chooseAll keys).top.map ViewController.kind = some key.kind) ∧
    (∀ kind, (ofKind kind (nav.chooseAll keys)).length ≤ max 1 (ofKind kind nav).length) ∧
    (nav.chooseAll keys).viewControllers.length = nav.viewControllers.length +
      if ∃ key ∈ keys, ofKind key.kind nav = [] then 1 else 0 := by
  obtain ⟨own, hown⟩ : ∃ own, top.kind = PageKey.kind own := by
    rcases hmenu with h | h
    · exact ⟨.mainVC, h⟩
    · exact ⟨.sharingVC, h⟩
  have hall := chooseAll_choosing htop hown keys
  have chosen_kinds : ∀ k ∈ keys.map PageKey.kind, k = .main ∨ k = .sharing := by
    intro k hk
    obtain ⟨key, -, rfl⟩ := List.mem_map.mp hk
    cases key
    · exact Or.inl rfl
    · exact Or.inr rfl
  refine ⟨?_, ?_, ?_, ?_, ?_, ?_⟩
  · intro before key hb
    obtain ⟨vc, own', ht, hk⟩ := (chooseAll_choosing htop hown before).menu
    rw [chooseAll, chooseAll, List.foldl_concat]
    exact choose_chosen ht hk key
  · refine hall.selects.filter _ (fun vc hvc => ?_)
    rcases chosen_kinds _ hvc with h | h <;> simp [h]
  · exact hall.selects.survivors.trans List.filter_sublist
  · intro key hkey
    exact hall.selects.top key.kind (by rw [List.getLast?_map, hkey]; rfl)
  · intro kind
    have hc := hall.selects.count kind
    simp only [ofKind, ← List.countP_eq_length_filter]
    split_ifs at hc <;> omega
  · have habsent : decide (nav.viewControllers.countP (keyed ViewController.kind own.kind) = 0) =
        false := by
      rw [decide_eq_false_iff_not, List.countP_eq_zero]
      exact fun h => h top (mem_of_top htop) (by simp [keyed, hown])
    rw [hall.selects.length, absent_card habsent]
    simp only [ofKind, decide_eq_true_eq, List.countP_eq_zero, List.filter_eq_nil_iff]

theorem guest_menu_choices :
    (((launch ⟨375, by decide⟩).pushViewController .main).chooseAll
      [.sharingVC, .mainVC, .mainVC, .sharingVC]).viewControllers.length = 3 := by
  have h := menu_choices ((launch ⟨375, by decide⟩).pushViewController .main) ⟨1, .main⟩ rfl (Or.inl rfl)
    [.sharingVC, .mainVC, .mainVC, .sharingVC]
  exact h.2.2.2.2.2

end WhichStream.Navigation
