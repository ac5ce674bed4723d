import WhichStream.AppDefaults

/-!
Runs of a loaded screen with a side menu. Whether the menu is open is not stored:
`triggerMenu` infers it from the side of `maxX` on which the menu's centre lies.
-/

namespace WhichStream.SideMenu

open AppDefaults EventMachine

inductive MenuEvent
  | menuButton
  | container
  | layout (width : Width)

def step (d : AppDefaults) : MenuEvent → Option AppDefaults
  | .menuButton => some d.triggerMenu
  | .container => some d.dismissMenuIfVisible
  | .layout width => some (d.layoutSubviews width)

def machine : Machine AppDefaults MenuEvent := ⟨step⟩

def loaded (maxX : Width) (key : PageKey) : AppDefaults := (load maxX key).layoutSubviews maxX

def Closed (d : AppDefaults) : Prop :=
  d.sideMenuLeftAnchorConstraint.constant = 0 ∧
    d.sideMenuButtonRightAnchorConstraint.constant = -10 ∧ d.sideMenuButton.title = barsTitle

def Opened (d : AppDefaults) : Prop :=
  d.sideMenuLeftAnchorConstraint.constant = -200 ∧
    d.sideMenuButtonRightAnchorConstraint.constant = -140 ∧ d.sideMenuButton.title = closeTitle

def Consistent (d : AppDefaults) : Prop := Xor (Closed d) (Opened d)

def Switches (d : AppDefaults) (e : MenuEvent) (u : AppDefaults) : Prop :=
  match e with
  | .menuButton => (Closed d → Opened u) ∧ (Opened d → Closed u)
  | .container => Closed u
  | .layout _ => (Closed d → Closed u) ∧ (Opened d → Opened u)

-- The centre lies on the side of `maxX` that the configuration stands for.
def InferredRightly (d : AppDefaults) (e : MenuEvent) : Prop :=
  match e with
  | .menuButton => (Closed d → d.maxX < d.sideMenuCenterX) ∧ (Opened d → d.sideMenuCenterX < d.maxX)
  | .container => Opened d → d.sideMenuCenterX < d.maxX
  | .layout _ => True

theorem Closed.not_opened {d : AppDefaults} (h : Closed d) : ¬ Opened d := by
  intro ho
  have hl : (0 : ℚ) = -200 := h.1.symm.trans ho.1
  norm_num at hl

theorem Opened.not_closed {d : AppDefaults} (h : Opened d) : ¬ Closed d :=
  fun hc => hc.not_opened h

theorem consistent_iff {d : AppDefaults} : Consistent d ↔ Closed d ∨ Opened d := by
  constructor
  · rintro (⟨hc, -⟩ | ⟨ho, -⟩)
    · exact Or.inl hc
    · exact Or.inr ho
  · rintro (hc | ho)
    · exact Or.inl ⟨hc, hc.not_opened⟩
    · exact Or.inr ⟨ho, ho.not_closed⟩

section Transitions

variable {d : AppDefaults}

theorem dismiss_closes (h : d.sideMenuCenterX < d.maxX) : Closed d.dismissMenuIfVisible := by
  simp [dismissMenuIfVisible, h, Closed]

theorem dismiss_closed (h : Closed d) : Closed d.dismissMenuIfVisible := by
  unfold dismissMenuIfVisible
  split_ifs
  · simp [Closed]
  · exact h

theorem dismiss_opened_iff (h : Opened d) :
    Closed d.dismissMenuIfVisible ↔ d.sideMenuCenterX < d.maxX := by
  refine ⟨fun hc => ?_, dismiss_closes⟩
  by_contra hlt
  rw [dismissMenuIfVisible, if_neg hlt] at hc
  exact hc.not_opened h

theorem trigger_of_right (h : d.maxX < d.sideMenuCenterX) :
    d.triggerMenu.sideMenuLeftAnchorConstraint.constant = -200 ∧
      d.triggerMenu.sideMenuButtonRightAnchorConstraint.constant =
        d.sideMenuButtonRightAnchorConstraint.constant - 130 ∧
      d.triggerMenu.sideMenuButton.title = closeTitle := by
  simp [triggerMenu, h]

theorem trigger_closed_iff (h : Closed d) :
    Opened d.triggerMenu ↔ d.maxX < d.sideMenuCenterX := by
  constructor
  · intro ho
    by_contra hlt
    rw [triggerMenu, if_neg hlt] at ho
    exact ho.not_closed (dismiss_closed h)
  · intro hlt
    obtain ⟨hl, hr, ht⟩ := trigger_of_right hlt
    exact ⟨hl, by rw [hr, h.2.1]; norm_num, ht⟩

/-- Opening an open menu moves its button a further 130 points. -/
theorem trigger_opened_drifts (h : Opened d) (hlt : d.maxX < d.sideMenuCenterX) :
    ¬ Consistent d.triggerMenu := by
  obtain ⟨hl, hr, -⟩ := trigger_of_right hlt
  rw [h.2.1] at hr
  rw [consistent_iff]
  rintro (hc | ho)
  · have := hl.symm.trans hc.1
    norm_num at this
  · have := hr.symm.trans ho.2.1
    norm_num at this

theorem trigger_opened_iff (h : Opened d) :
    Closed d.triggerMenu ↔ d.sideMenuCenterX < d.maxX := by
  by_cases hlt : d.maxX < d.sideMenuCenterX
  · refine ⟨fun hc => ?_, fun hc => absurd hlt hc.le.not_gt⟩
    exact absurd (consistent_iff.mpr (Or.inl hc)) (trigger_opened_drifts h hlt)
  · rw [triggerMenu, if_neg hlt]
    exact dismiss_opened_iff h

theorem layout_closed_iff (w : ℚ) : Closed (d.layoutSubviews w) ↔ Closed d := Iff.rfl

theorem layout_opened_iff (w : ℚ) : Opened (d.layoutSubviews w) ↔ Opened d := Iff.rfl

end Transitions

theorem step_exact {d u : AppDefaults} {e : MenuEvent} (hd : Consistent d)
    (h : machine.step d e = some u) :
    Consistent u ∧ Switches d e u ↔ InferredRightly d e := by
  have hu : step d e = some u := h
  rw [consistent_iff] at hd ⊢
  cases e with
  | menuButton =>
    obtain rfl : d.triggerMenu = u := Option.some.inj hu
    rcases hd with hc | ho
    · simp only [Switches, InferredRightly, hc, hc.not_opened, trigger_closed_iff hc, forall_const,
        false_implies, and_true]
      exact ⟨fun hs => hs.2, fun hs => ⟨Or.inr hs, hs⟩⟩
    · simp only [Switches, InferredRightly, ho, ho.not_closed, trigger_opened_iff ho, forall_const,
        false_implies, true_and]
      exact ⟨fun hs => hs.2, fun hs => ⟨Or.inl hs, hs⟩⟩
  | container =>
    obtain rfl : d.dismissMenuIfVisible = u := Option.some.inj hu
    rcases hd with hc | ho
    · simp only [Switches, InferredRightly, hc.not_opened, false_implies, iff_true]
      exact ⟨Or.inl (dismiss_closed hc), dismiss_closed hc⟩
    · simp only [Switches, InferredRightly, ho, forall_const]
      rw [dismiss_opened_iff ho]
      exact ⟨fun hs => hs.2, fun hs => ⟨Or.inl hs, hs⟩⟩
  | layout w =>
    obtain rfl : d.layoutSubviews w = u := Option.some.inj hu
    simp only [Switches, InferredRightly, layout_closed_iff, layout_opened_iff, iff_true]
    exact ⟨hd, id, id⟩

theorem loaded_closed (maxX : Width) (key : PageKey) : Closed (loaded maxX key) :=
  ⟨rfl, rfl, rfl⟩

theorem menu_consistent_iff (maxX : Width) (key : PageKey) (es : List MenuEvent) :
    machine.Throughout Consistent (loaded maxX key) es ∧
        machine.EachStep (fun _ d e u => Switches d e u) (loaded maxX key) es ↔
      machine.Along (fun _ d e => InferredRightly d e) (loaded maxX key) es :=
  Machine.safe_iff_along (I := fun _ _ => True) (T := fun _ d e u => Switches d e u)
    (C := fun _ d e => InferredRightly d e) trivial (fun _ _ _ _ _ _ => trivial)
    (consistent_iff.mpr (Or.inl (loaded_closed maxX key)))
    (fun _ _ _ _ _ hd hu => step_exact hd hu) es

theorem rotated_open_menu_drifts : ¬ ∀ (maxX : Width) (key : PageKey) (es : List MenuEvent),
    machine.Throughout Consistent (loaded maxX key) es ∧
      machine.EachStep (fun _ d e u => Switches d e u) (loaded maxX key) es := by
  intro h
  have hrun := (h ⟨375, by decide⟩ .mainVC
    [.menuButton, .layout ⟨667, by decide⟩, .menuButton]).1.last rfl
  simp [consistent_iff, Closed, Opened, loaded, load, layoutSubviews, triggerMenu] at hrun
  norm_num at hrun

section Refinement

inductive Menu
  | closed
  | opened
  deriving DecidableEq, Repr

/-- What a side menu is for, whatever the widths. -/
def Menu.after : Menu → MenuEvent → Menu
  | .closed, .menuButton => .opened
  | .opened, .menuButton => .closed
  | _, .container => .closed
  | menu, .layout _ => menu

def Shows (d : AppDefaults) : Menu → Prop
  | .closed => Closed d
  | .opened => Opened d

theorem Shows.consistent {d : AppDefaults} {menu : Menu} (h : Shows d menu) : Consistent d := by
  cases menu with
  | closed => exact consistent_iff.mpr (Or.inl h)
  | opened => exact consistent_iff.mpr (Or.inr h)

theorem Shows.step {d u : AppDefaults} {menu : Menu} {e : MenuEvent} (h : Shows d menu)
    (he : InferredRightly d e) (hu : machine.step d e = some u) : Shows u (menu.after e) := by
  have hs : Switches d e u := ((step_exact h.consistent hu).mpr he).2
  cases e with
  | menuButton =>
    cases menu with
    | closed => exact hs.1 h
    | opened => exact hs.2 h
  | container => cases menu <;> exact hs
  | layout w =>
    cases menu with
    | closed => exact hs.1 h
    | opened => exact hs.2 h

theorem run_shows {maxX : Width} {key : PageKey} {es : List MenuEvent} {d : AppDefaults}
    (h : machine.Along (fun _ d e => InferredRightly d e) (loaded maxX key) es)
    (hd : machine.run (loaded maxX key) es = some d) : Shows d (es.foldl Menu.after .closed) := by
  apply h.refines (loaded_closed maxX key) _ hd
  intro before t e u menu hshows he hu
  exact hshows.step he hu

end Refinement

section NearWidths

def Placed (d : AppDefaults) : Prop :=
  ∃ w : ℚ, |w - d.maxX| < 100 ∧ d.sideMenuCenterX = w + d.sideMenuLeftAnchorConstraint.constant + 100

structure Settled (maxX : ℚ) (d : AppDefaults) : Prop where
  captured : d.maxX = maxX
  consistent : Consistent d
  active : d.sideMenuLeftAnchorConstraint.isActive = true
  placed : Placed d

def LaidOutNear (maxX : ℚ) : MenuEvent → Prop
  | .menuButton => True
  | .container => True
  | .layout w => |(w : ℚ) - maxX| < 100

theorem Placed.right_of_closed {d : AppDefaults} (h : Placed d) (hc : Closed d) :
    d.maxX < d.sideMenuCenterX := by
  obtain ⟨w, hw, hx⟩ := h
  rw [hx, hc.1]
  linarith [(abs_lt.mp hw).1]

theorem Placed.left_of_opened {d : AppDefaults} (h : Placed d) (ho : Opened d) :
    d.sideMenuCenterX < d.maxX := by
  obtain ⟨w, hw, hx⟩ := h
  rw [hx, ho.1]
  linarith [(abs_lt.mp hw).2]

theorem Placed.infers {d : AppDefaults} (h : Placed d) (e : MenuEvent) : InferredRightly d e := by
  cases e with
  | menuButton => exact ⟨h.right_of_closed, h.left_of_opened⟩
  | container => exact h.left_of_opened
  | layout w => trivial

theorem Placed.trigger_closed {d : AppDefaults} (h : Placed d) (hc : Closed d) :
    Placed d.triggerMenu := by
  have hlt := h.right_of_closed hc
  obtain ⟨w, hw, hx⟩ := h
  refine ⟨w, by simpa using hw, ?_⟩
  rw [triggerMenu, if_pos hlt]
  change d.sideMenuCenterX - 200 = w + -200 + 100
  linarith [hc.1]

theorem Placed.dismiss {d : AppDefaults} (h : Placed d) (hd : Consistent d) :
    Placed d.dismissMenuIfVisible := by
  rcases consistent_iff.mp hd with hc | ho
  · have hlt := h.right_of_closed hc
    rwa [dismissMenuIfVisible, if_neg hlt.le.not_gt]
  · have hlt := h.left_of_opened ho
    obtain ⟨w, hw, hx⟩ := h
    refine ⟨w, by simpa using hw, ?_⟩
    rw [dismissMenuIfVisible, if_pos hlt]
    change d.sideMenuCenterX + 200 = w + 0 + 100
    linarith [ho.1]

theorem Placed.trigger_opened {d : AppDefaults} (h : Placed d) (ho : Opened d) :
    Placed d.triggerMenu := by
  have hlt := h.left_of_opened ho
  rw [triggerMenu, if_neg hlt.le.not_gt]
  exact h.dismiss (consistent_iff.mpr (Or.inr ho))

theorem dismiss_active {d : AppDefaults} (h : d.sideMenuLeftAnchorConstraint.isActive = true) :
    d.dismissMenuIfVisible.sideMenuLeftAnchorConstraint.isActive = true := by
  unfold dismissMenuIfVisible
  split_ifs
  · rfl
  · exact h

theorem trigger_active {d : AppDefaults} (h : d.sideMenuLeftAnchorConstraint.isActive = true) :
    d.triggerMenu.sideMenuLeftAnchorConstraint.isActive = true := by
  unfold triggerMenu
  split_ifs
  · rfl
  · exact dismiss_active h

theorem Settled.step {maxX : ℚ} {d u : AppDefaults} {e : MenuEvent} (h : Settled maxX d)
    (he : LaidOutNear maxX e) (hu : machine.step d e = some u) : Settled maxX u := by
  have hcons : Consistent u := ((step_exact h.consistent hu).mpr (h.placed.infers e)).1
  cases e with
  | menuButton =>
    obtain rfl : d.triggerMenu = u := Option.some.inj hu
    refine ⟨by simpa using h.captured, hcons, trigger_active h.active, ?_⟩
    rcases consistent_iff.mp h.consistent with hc | ho
    · exact h.placed.trigger_closed hc
    · exact h.placed.trigger_opened ho
  | container =>
    obtain rfl : d.dismissMenuIfVisible = u := Option.some.inj hu
    exact ⟨by simpa using h.captured, hcons, dismiss_active h.active, h.placed.dismiss h.consistent⟩
  | layout w =>
    obtain rfl : d.layoutSubviews w = u := Option.some.inj hu
    refine ⟨by simpa using h.captured, hcons, h.active, w, ?_, ?_⟩
    · rw [layoutSubviews_maxX, h.captured]
      exact he
    · simp [layoutSubviews, h.active]

theorem loaded_settled (maxX : Width) (key : PageKey) : Settled maxX (loaded maxX key) := by
  refine ⟨rfl, consistent_iff.mpr (Or.inl (loaded_closed maxX key)), rfl, maxX, ?_, ?_⟩
  · simp [loaded, load]
  · simp [loaded, load, layoutSubviews]

theorem infers_of_near (maxX : Width) (key : PageKey) (es : List MenuEvent)
    (h : ∀ e ∈ es, LaidOutNear maxX e) :
    machine.Along (fun _ d e => InferredRightly d e) (loaded maxX key) es := by
  intro before e hb d u hd hu
  have hs : (∀ e ∈ before, LaidOutNear maxX e) → Settled maxX d :=
    Machine.invariant (I := fun before d => (∀ e ∈ before, LaidOutNear maxX e) → Settled maxX d)
      (fun _ => loaded_settled maxX key)
      (fun before d e u ih hu hn =>
        (ih (fun e he => hn e (by simp [he]))).step (hn e (by simp)) hu) hd
  refine (hs (fun e he => h e ?_)).placed.infers e
  exact hb.subset (List.mem_append_left _ he)

end NearWidths

end WhichStream.SideMenu
