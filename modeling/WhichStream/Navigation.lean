import Mathlib.Data.List.Induction
import Mathlib.Logic.Function.Basic
import WhichStream.AppDefaults
import WhichStream.Library.KeyedStack

/-!
The navigation controller with the screens on its stack, top last. Screens are
references: the `AppDefaults` that a screen's `viewDidLoad` makes are kept by its identity.
-/

namespace WhichStream

open KeyedStack

inductive Kind
  | intro
  | login
  | register
  | forgotPass
  | main
  | sharing
  deriving DecidableEq, Repr

structure ViewController where
  id : ℕ
  kind : Kind
  deriving DecidableEq, Repr

def PageKey.kind : PageKey → Kind
  | .mainVC => .main
  | .sharingVC => .sharing

def Kind.pageKey : Kind → Option PageKey
  | .main => some .mainVC
  | .sharing => some .sharingVC
  | _ => none

theorem Kind.pageKey_eq_some {kind : Kind} {key : PageKey} :
    kind.pageKey = some key ↔ kind = key.kind := by
  cases kind <;> cases key <;> simp [Kind.pageKey, PageKey.kind]

-- The other screens make an empty `AppDefaults()`, which no navigation reads.
def viewDidLoad (kind : Kind) (width : Width) : Option AppDefaults :=
  kind.pageKey.map (fun key => (AppDefaults.load width key).layoutSubviews width)

@[simp] theorem viewDidLoad_currentVC (kind : Kind) (width : Width) :
    (viewDidLoad kind width).map AppDefaults.currentVC = kind.pageKey := by
  cases kind <;> rfl

structure Navigation where
  viewControllers : List ViewController
  appDefaults : ℕ → Option AppDefaults
  nextId : ℕ
  width : Width
  allocated : ∀ vc ∈ viewControllers, vc.id < nextId
  distinct : (viewControllers.map ViewController.id).Nodup
  named : ∀ vc ∈ viewControllers, (appDefaults vc.id).map AppDefaults.currentVC = vc.kind.pageKey

namespace Navigation

def launch (width : Width) : Navigation where
  viewControllers := [⟨0, .intro⟩]
  appDefaults := fun _ => none
  nextId := 1
  width := width
  allocated := by simp
  distinct := by simp
  named := by simp [Kind.pageKey]

def top (nav : Navigation) : Option ViewController := nav.viewControllers.getLast?

theorem ne_of_allocated {nav : Navigation} {vc : ViewController} (h : vc ∈ nav.viewControllers) :
    vc.id ≠ nav.nextId :=
  Nat.ne_of_lt (nav.allocated vc h)

def pushViewController (nav : Navigation) (kind : Kind) : Navigation where
  viewControllers := nav.viewControllers ++ [⟨nav.nextId, kind⟩]
  appDefaults := Function.update nav.appDefaults nav.nextId (viewDidLoad kind nav.width)
  nextId := nav.nextId + 1
  width := nav.width
  allocated := by
    intro vc hvc
    rcases List.mem_append.mp hvc with hvc | hvc
    · exact Nat.lt_succ_of_lt (nav.allocated vc hvc)
    · rw [List.mem_singleton.mp hvc]
      exact Nat.lt_succ_self _
  distinct := by
    rw [List.map_append, List.map_singleton, ← List.concat_eq_append, List.nodup_concat]
    refine ⟨fun hm => ?_, nav.distinct⟩
    obtain ⟨vc, hvc, he⟩ := List.mem_map.mp hm
    exact ne_of_allocated hvc he
  named := by
    intro vc hvc
    rcases List.mem_append.mp hvc with hvc | hvc
    · rw [Function.update_of_ne (ne_of_allocated hvc)]
      exact nav.named vc hvc
    · rw [List.mem_singleton.mp hvc]
      simp

-- The setter `viewControllers = vcs`, for screens that are on the stack in that order.
def setViewControllers (nav : Navigation) (vcs : List ViewController)
    (h : vcs.Sublist nav.viewControllers) : Navigation where
  viewControllers := vcs
  appDefaults := nav.appDefaults
  nextId := nav.nextId
  width := nav.width
  allocated := fun vc hvc => nav.allocated vc (h.subset hvc)
  distinct := nav.distinct.sublist (h.map _)
  named := fun vc hvc => nav.named vc (h.subset hvc)

def popViewController (nav : Navigation) : Navigation :=
  if nav.viewControllers.length ≤ 1 then nav
  else nav.setViewControllers nav.viewControllers.dropLast (List.dropLast_sublist _)

def modifyDefaults (nav : Navigation) (id : ℕ) (f : AppDefaults → AppDefaults)
    (hf : ∀ d, (f d).currentVC = d.currentVC) : Navigation where
  viewControllers := nav.viewControllers
  appDefaults := Function.update nav.appDefaults id ((nav.appDefaults id).map f)
  nextId := nav.nextId
  width := nav.width
  allocated := nav.allocated
  distinct := nav.distinct
  named := by
    intro vc hvc
    rw [← nav.named vc hvc]
    by_cases he : vc.id = id
    · subst he
      rw [Function.update_self, Option.map_map]
      exact congrArg (fun g => Option.map g _) (funext hf)
    · rw [Function.update_of_ne he]

-- The loop of `removeFromStack(kind:)`: `rest` is what the copy still has to offer from
-- `index` on, the result what `viewControllers` is reassigned to, if it is.
def removeLoop (kind : Kind) :
    List ViewController → ℕ → List ViewController → Option (List ViewController)
  | [], _, _ => none
  | vc :: rest, index, vcs =>
    if vc.kind = kind then some (vcs.eraseIdx index) else removeLoop kind rest (index + 1) vcs

theorem removeLoop_eq (kind : Kind) (before rest : List ViewController) :
    removeLoop kind rest before.length (before ++ rest) =
      if rest.any (keyed ViewController.kind kind) then
        some (before ++ rest.eraseP (keyed ViewController.kind kind)) else none := by
  induction rest generalizing before with
  | nil => rfl
  | cons vc rest ih =>
    rw [removeLoop]
    by_cases hk : vc.kind = kind
    · simp [hk, keyed, List.eraseIdx_append_of_length_le]
    · have hs := ih (before ++ [vc])
      rw [List.length_append, List.length_singleton, List.append_assoc, List.singleton_append] at hs
      rw [if_neg hk, hs]
      simp [hk, keyed]

theorem removeLoop_some {kind : Kind} {vcs r : List ViewController}
    (h : removeLoop kind vcs 0 vcs = some r) : r = vcs.eraseP (keyed ViewController.kind kind) := by
  have hs := removeLoop_eq kind [] vcs
  rw [List.length_nil, List.nil_append, h] at hs
  split_ifs at hs
  exact Option.some.inj hs

theorem removeLoop_none {kind : Kind} {vcs : List ViewController}
    (h : removeLoop kind vcs 0 vcs = none) : vcs.eraseP (keyed ViewController.kind kind) = vcs := by
  have hs := removeLoop_eq kind [] vcs
  rw [List.length_nil, List.nil_append, h] at hs
  split_ifs at hs with ha
  exact List.eraseP_of_forall_not (by simpa using ha)

def removeFromStack (nav : Navigation) (kind : Kind) : Navigation :=
  match h : removeLoop kind nav.viewControllers 0 nav.viewControllers with
  | some vcs => nav.setViewControllers vcs (removeLoop_some h ▸ List.eraseP_sublist)
  | none => nav

def isInStack (nav : Navigation) (newVC : PageKey) : Navigation := nav.removeFromStack newVC.kind

-- `toFeedVC` and `toSharingVC` of the `AppDefaults` that the screen `vc` holds.
def toPage (key : PageKey) (nav : Navigation) (vc : ViewController) : Navigation :=
  match nav.appDefaults vc.id with
  | none => nav
  | some d =>
    if d.currentVC ≠ key then (nav.isInStack key).pushViewController key.kind
    else nav.modifyDefaults vc.id AppDefaults.dismissMenuIfVisible
      AppDefaults.dismissMenuIfVisible_currentVC

def toFeedVC : Navigation → ViewController → Navigation := toPage .mainVC

def toSharingVC : Navigation → ViewController → Navigation := toPage .sharingVC

section Stacks

variable (nav : Navigation) (kind : Kind)

@[simp] theorem push_viewControllers : (nav.pushViewController kind).viewControllers =
    nav.viewControllers ++ [⟨nav.nextId, kind⟩] := rfl

@[simp] theorem push_nextId : (nav.pushViewController kind).nextId = nav.nextId + 1 := rfl

theorem pop_viewControllers : nav.popViewController.viewControllers =
    if nav.viewControllers.length ≤ 1 then nav.viewControllers
    else nav.viewControllers.dropLast := by
  unfold popViewController
  split_ifs <;> rfl

@[simp] theorem modifyDefaults_viewControllers (id : ℕ) (f : AppDefaults → AppDefaults)
    (hf : ∀ d, (f d).currentVC = d.currentVC) :
    (nav.modifyDefaults id f hf).viewControllers = nav.viewControllers := rfl

@[simp] theorem modifyDefaults_nextId (id : ℕ) (f : AppDefaults → AppDefaults)
    (hf : ∀ d, (f d).currentVC = d.currentVC) :
    (nav.modifyDefaults id f hf).nextId = nav.nextId := rfl

@[simp] theorem removeFromStack_viewControllers : (nav.removeFromStack kind).viewControllers =
    nav.viewControllers.eraseP (keyed ViewController.kind kind) := by
  unfold removeFromStack
  split
  · next vcs h => exact removeLoop_some h
  · next h => exact (removeLoop_none h).symm

@[simp] theorem removeFromStack_nextId : (nav.removeFromStack kind).nextId = nav.nextId := by
  unfold removeFromStack
  split <;> rfl

end Stacks

/-- Every sequence of screens is the stack of some navigation. -/
theorem exists_of_kinds (width : Width) (kinds : List Kind) :
    ∃ nav : Navigation, nav.viewControllers.map ViewController.kind = kinds := by
  induction kinds using List.reverseRecOn with
  | nil => exact ⟨(launch width).setViewControllers [] (List.nil_sublist _), rfl⟩
  | append_singleton kinds kind ih =>
    obtain ⟨nav, hnav⟩ := ih
    refine ⟨nav.pushViewController kind, ?_⟩
    rw [push_viewControllers, List.map_append, hnav, List.map_singleton]

theorem currentVC_of_mem {nav : Navigation} {vc : ViewController} {key : PageKey}
    (h : vc ∈ nav.viewControllers) (hk : vc.kind = key.kind) :
    ∃ d, nav.appDefaults vc.id = some d ∧ d.currentVC = key := by
  have hn := nav.named vc h
  rw [Kind.pageKey_eq_some.mpr hk] at hn
  exact Option.map_eq_some_iff.mp hn

theorem toPage_cases {nav : Navigation} {vc : ViewController} {own : PageKey} (key : PageKey)
    (h : vc ∈ nav.viewControllers) (hk : vc.kind = own.kind) :
    (own = key ∧ (toPage key nav vc).viewControllers = nav.viewControllers ∧
        (toPage key nav vc).nextId = nav.nextId) ∨
      (own ≠ key ∧ (toPage key nav vc).viewControllers =
          nav.viewControllers.eraseP (keyed ViewController.kind key.kind) ++ [⟨nav.nextId, key.kind⟩] ∧
        (toPage key nav vc).nextId = nav.nextId + 1) := by
  obtain ⟨d, hd, hc⟩ := currentVC_of_mem h hk
  unfold toPage
  rw [hd]
  by_cases he : own = key
  · subst he
    simp [hc]
  · simp [hc, he, isInStack]

end Navigation

end WhichStream
