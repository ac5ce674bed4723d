import Mathlib.Data.List.Induction
import Mathlib.Data.ZMod.Basic
import Mathlib.Tactic.Ring

/-!
What two screens keep for themselves: the social network that `SharingViewController`
shows, and the shift of `RegisterViewController` above the keyboard.
-/

namespace WhichStream

def socialNets : List String := ["Twitter", "Facebook", "Instagram", "Snapchat"]

structure SocialNet where
  socialIndex : ℕ
  socNetLbl : String
  inRange : socialIndex < socialNets.length
  shown : socialNets[socialIndex]? = some socNetLbl

inductive SharingTap
  | next
  | previous
  deriving DecidableEq, Repr

namespace SocialNet

def select (i : ℕ) (h : i < socialNets.length) : SocialNet :=
  ⟨i, socialNets[i], h, List.getElem?_eq_getElem h⟩

def loaded : SocialNet := select 0 (by decide)

def onNext (s : SocialNet) : SocialNet :=
  if h : s.socialIndex = socialNets.length - 1 then select 0 (by decide)
  else select (s.socialIndex + 1) (by have hr := s.inRange; omega)

def onPrevious (s : SocialNet) : SocialNet :=
  if s.socialIndex = 0 then select (socialNets.length - 1) (by decide)
  else select (s.socialIndex - 1) (by have hr := s.inRange; omega)

def tap (s : SocialNet) : SharingTap → SocialNet
  | .next => s.onNext
  | .previous => s.onPrevious

/-- The networks stand in a circle. -/
def position (s : SocialNet) : ZMod socialNets.length := s.socialIndex

theorem position_injective : Function.Injective position := by
  rintro ⟨i, a, hi, ha⟩ ⟨j, b, hj, hb⟩ h
  have hval : i = j := by
    have hij : ((i : ZMod socialNets.length)).val = ((j : ZMod socialNets.length)).val :=
      congrArg ZMod.val h
    rwa [ZMod.val_cast_of_lt hi, ZMod.val_cast_of_lt hj] at hij
  subst hval
  obtain rfl : a = b := Option.some.inj (ha.symm.trans hb)
  rfl

theorem onNext_position (s : SocialNet) : s.onNext.position = s.position + 1 := by
  unfold onNext
  split_ifs with h
  · have hn : s.socialIndex + 1 = socialNets.length := by
      have hr := s.inRange
      omega
    have hcast : ((s.socialIndex + 1 : ℕ) : ZMod socialNets.length) = 0 := by
      rw [hn, ZMod.natCast_self]
    rw [Nat.cast_add, Nat.cast_one] at hcast
    exact Nat.cast_zero.trans hcast.symm
  · exact Nat.cast_succ s.socialIndex

theorem onPrevious_position (s : SocialNet) : s.onPrevious.position = s.position - 1 := by
  unfold onPrevious
  split_ifs with h
  · have hlast : ((socialNets.length - 1 : ℕ) : ZMod socialNets.length) = 0 - 1 := by
      rw [Nat.cast_sub (by decide), ZMod.natCast_self, Nat.cast_one]
    have hzero : s.position = 0 := by rw [position, h, Nat.cast_zero]
    rw [hzero]
    exact hlast
  · have hpos : 1 ≤ s.socialIndex := Nat.one_le_iff_ne_zero.mpr h
    exact (Nat.cast_sub hpos).trans (by rw [Nat.cast_one]; rfl)

theorem onPrevious_onNext (s : SocialNet) : s.onNext.onPrevious = s := by
  apply position_injective
  rw [onPrevious_position, onNext_position, add_sub_cancel_right]

theorem onNext_onPrevious (s : SocialNet) : s.onPrevious.onNext = s := by
  apply position_injective
  rw [onNext_position, onPrevious_position, sub_add_cancel]

/-- The network shown depends on how often each arrow was tapped, not on the order. -/
theorem taps_position (s : SocialNet) (taps : List SharingTap) :
    (taps.foldl tap s).position =
      s.position + (taps.count .next : ZMod _) - (taps.count .previous : ZMod _) := by
  induction taps using List.reverseRecOn with
  | nil => simp
  | append_singleton taps t ih =>
    rw [List.foldl_concat]
    cases t with
    | next =>
      have hnext : [SharingTap.next].count .next = 1 := rfl
      have hprevious : [SharingTap.next].count .previous = 0 := rfl
      rw [tap, onNext_position, ih, List.count_append, List.count_append, hnext, hprevious]
      push_cast
      ring
    | previous =>
      have hnext : [SharingTap.previous].count .next = 0 := rfl
      have hprevious : [SharingTap.previous].count .previous = 1 := rfl
      rw [tap, onPrevious_position, ih, List.count_append, List.count_append, hnext, hprevious]
      push_cast
      ring

theorem taps_order (s : SocialNet) {taps others : List SharingTap} (h : taps.Perm others) :
    taps.foldl tap s = others.foldl tap s := by
  apply position_injective
  rw [taps_position, taps_position, h.count_eq, h.count_eq]

end SocialNet

inductive KeyboardNotification
  | keyboardWillShow
  | keyboardWillHide
  deriving DecidableEq, Repr

-- `containerView` starts at the top of the screen.
structure Container where
  viewMoved : Bool
  originY : ℤ
  placed : originY = if viewMoved then -150 else 0

namespace Container

def loaded : Container := ⟨false, 0, rfl⟩

def keyboardWillShow (c : Container) : Container :=
  if h : c.viewMoved ≠ true then
    { viewMoved := true
      originY := c.originY - 150
      placed := by simp [c.placed, h] }
  else c

def keyboardWillHide (c : Container) : Container :=
  if h : c.viewMoved = true then
    { viewMoved := false
      originY := c.originY + 150
      placed := by simp [c.placed, h] }
  else c

def notify (c : Container) : KeyboardNotification → Container
  | .keyboardWillShow => c.keyboardWillShow
  | .keyboardWillHide => c.keyboardWillHide

theorem notify_viewMoved (c : Container) (n : KeyboardNotification) :
    (c.notify n).viewMoved = decide (n = .keyboardWillShow) := by
  cases n with
  | keyboardWillShow =>
    rw [notify, keyboardWillShow]
    split_ifs with h
    · rfl
    · simpa using h
  | keyboardWillHide =>
    rw [notify, keyboardWillHide]
    split_ifs with h
    · rfl
    · simpa using h

/-- Shifts never add up: the last notification alone decides where the screen stands. -/
theorem notifications_originY (c : Container) (ns : List KeyboardNotification)
    (n : KeyboardNotification) : ((ns ++ [n]).foldl notify c).originY =
      if n = .keyboardWillShow then -150 else 0 := by
  rw [List.foldl_concat, Container.placed, notify_viewMoved]
  simp

end Container

end WhichStream
