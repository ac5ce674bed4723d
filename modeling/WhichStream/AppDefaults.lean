import Mathlib.Algebra.Order.Ring.Rat
import Mathlib.Tactic.Linarith
import WhichStream.Library.Machine
import WhichStream.UIKit

namespace WhichStream

abbrev Width := {w : ℚ // 0 < w}

inductive PageKey
  | mainVC
  | sharingVC
  deriving DecidableEq, Repr

structure AppDefaults where
  sideMenuLeftAnchorConstraint : NSLayoutConstraint
  sideMenuButtonRightAnchorConstraint : NSLayoutConstraint
  cancelsTouchesInView : Bool
  maxX : ℚ
  currentVC : PageKey
  sideMenuCenterX : ℚ
  sideMenuButton : UIButton
  deriving DecidableEq, Repr

namespace AppDefaults

def barsTitle : String := "\u2261"

def closeTitle : String := "x"

-- `init(viewController:currentVC:)`, `setupViewContainerFor` and `setupSideMenuFor`, which
-- `viewDidLoad` calls in one go; `maxX` is `view.frame.maxX` at that moment.
def load (maxX : ℚ) (currentVC : PageKey) : AppDefaults where
  sideMenuLeftAnchorConstraint := ⟨0, true⟩
  sideMenuButtonRightAnchorConstraint := ⟨-10, true⟩
  cancelsTouchesInView := true
  maxX := maxX
  currentVC := currentVC
  sideMenuCenterX := 100
  sideMenuButton := ⟨barsTitle, .white, 0⟩

-- The menu is 200 points wide and the button 35.
def layoutSubviews (d : AppDefaults) (width : ℚ) : AppDefaults :=
  { d with
    sideMenuCenterX :=
      if d.sideMenuLeftAnchorConstraint.isActive then
        width + d.sideMenuLeftAnchorConstraint.constant + 100
      else d.sideMenuCenterX
    sideMenuButton := { d.sideMenuButton with
      centerX :=
        if d.sideMenuButtonRightAnchorConstraint.isActive then
          width + d.sideMenuButtonRightAnchorConstraint.constant - 35 / 2
        else d.sideMenuButton.centerX } }

def dismissMenuIfVisible (d : AppDefaults) : AppDefaults :=
  if d.sideMenuCenterX < d.maxX then
    { d with
      cancelsTouchesInView := true
      sideMenuCenterX := d.sideMenuCenterX + 200
      sideMenuButton := ⟨barsTitle, .white, d.sideMenuButton.centerX + 130⟩
      sideMenuLeftAnchorConstraint := ⟨0, true⟩
      sideMenuButtonRightAnchorConstraint := ⟨-10, true⟩ }
  else { d with cancelsTouchesInView := false }

def triggerMenu (d : AppDefaults) : AppDefaults :=
  if d.sideMenuCenterX > d.maxX then
    { d with
      sideMenuCenterX := d.sideMenuCenterX - 200
      sideMenuButton := ⟨closeTitle, .black, d.sideMenuButton.centerX - 130⟩
      sideMenuLeftAnchorConstraint := ⟨-200, true⟩
      sideMenuButtonRightAnchorConstraint :=
        ⟨d.sideMenuButtonRightAnchorConstraint.constant - 130, true⟩ }
  else d.dismissMenuIfVisible

@[simp] theorem layoutSubviews_currentVC (d : AppDefaults) (w : ℚ) :
    (d.layoutSubviews w).currentVC = d.currentVC := rfl

@[simp] theorem dismissMenuIfVisible_currentVC (d : AppDefaults) :
    d.dismissMenuIfVisible.currentVC = d.currentVC := by
  unfold dismissMenuIfVisible
  split_ifs <;> rfl

@[simp] theorem triggerMenu_currentVC (d : AppDefaults) :
    d.triggerMenu.currentVC = d.currentVC := by
  unfold triggerMenu
  split_ifs <;> simp

@[simp] theorem layoutSubviews_maxX (d : AppDefaults) (w : ℚ) :
    (d.layoutSubviews w).maxX = d.maxX := rfl

@[simp] theorem dismissMenuIfVisible_maxX (d : AppDefaults) :
    d.dismissMenuIfVisible.maxX = d.maxX := by
  unfold dismissMenuIfVisible
  split_ifs <;> rfl

@[simp] theorem triggerMenu_maxX (d : AppDefaults) : d.triggerMenu.maxX = d.maxX := by
  unfold triggerMenu
  split_ifs <;> simp

end AppDefaults

end WhichStream
