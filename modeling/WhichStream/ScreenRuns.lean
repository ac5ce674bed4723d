import WhichStream.App
import WhichStream.RegistrationGate
import WhichStream.SideMenu

/-!
Each screen of the app behaves as it does on its own: its form runs as the form of a
registration screen, and its menu as the menu of a loaded screen.
-/

namespace WhichStream

open EventMachine

-- The form is filled in field by field.
def Event.registering (t password : Text) : List Event :=
  [.registerSegue, .form (.beginEditing .usernameInput), .form (.changeText t),
    .form (.beginEditing .emailInput), .form (.changeText t),
    .form (.beginEditing .passInput), .form (.changeText password),
    .form (.beginEditing .retypePassInput), .form (.changeText password), .form .endEditing]

namespace App

variable {session : Option User} {width : Width} {es : List Event} {app app' : App} {e : Event}

section Forms

theorem form_step (h : Stepped app e app') (id : ℕ) : app'.forms id = app.forms id ∨
    ∃ fe, RegisterForm.machine.step (app.forms id) fe = some (app'.forms id) := by
  have hf := h.forms
  cases e with
  | form fe =>
    obtain ⟨vc, -, hform⟩ := Option.bind_eq_some_iff.mp hf
    obtain ⟨form, hstep, hupdate⟩ := Option.map_eq_some_iff.mp hform
    rw [← hupdate]
    by_cases hid : id = vc.id
    · right
      subst hid
      rw [Function.update_self]
      exact ⟨fe, hstep⟩
    · left
      rw [Function.update_of_ne hid]
  | _ =>
    left
    exact congrFun (Option.some.inj hf).symm id

theorem form_runs (h : machine.run (launch session width) es = some app) (id : ℕ) :
    ∃ fs, RegisterForm.machine.run .loaded fs = some (app.forms id) := by
  apply Machine.simulates (f := fun app : App => app.forms id) _ h
  intro s e t hu
  exact form_step (step_stepped hu) id

theorem form_stale (h : machine.run (launch session width) es = some app) (id : ℕ) :
    (app.forms id).Stale := by
  obtain ⟨fs, hfs⟩ := form_runs h id
  exact Machine.invariant (I := fun _ form => RegisterForm.Stale form) RegisterForm.loaded_stale
    (fun _ _ _ _ hs hu => hs.step hu) hfs

/-- A tap on Register in the app sends a form that obeys the rules exactly if the field
under edit is in order. -/
theorem submission_exact (h : machine.run (launch session width) es = some app)
    {vc : ViewController} {email password : Text}
    (hsend : app.sendEmail vc = .start .createUser vc email password) :
    (app.forms vc.id).FormRules email password ↔ (app.forms vc.id).EditedInOrder := by
  have hstale := form_stale h vc.id
  unfold sendEmail RegisterForm.sendEmail at hsend
  by_cases hg : (app.forms vc.id).gateOpen = true
  · rw [if_pos hg] at hsend
    obtain ⟨-, -, rfl, rfl⟩ := AuthEvent.start.inj hsend
    exact RegisterForm.rules_iff_editedInOrder hstale hg
  · rw [if_neg hg] at hsend
    cases hsend

theorem registering_submission : ∃ app : App,
    app.sendEmail ⟨1, .register⟩ = .start .createUser ⟨1, .register⟩ [⟨['a']⟩] [⟨['b']⟩] ∧
      ((app.forms 1).FormRules [⟨['a']⟩] [⟨['b']⟩] ↔ (app.forms 1).EditedInOrder) := by
  have h : ((machine.run (launch none ⟨375, by decide⟩) (Event.registering [⟨['a']⟩] [⟨['b']⟩])).map
      (fun app => app.sendEmail ⟨1, .register⟩)) =
        some (.start .createUser ⟨1, .register⟩ [⟨['a']⟩] [⟨['b']⟩]) := by
    rfl
  obtain ⟨app, happ, hsend⟩ := Option.map_eq_some_iff.mp h
  exact ⟨app, hsend, submission_exact happ hsend⟩

end Forms

end App

namespace Navigation

/-- A screen's menu is as it was, or the screen has just been loaded. -/
def MenuKept (nav nav' : Navigation) : Prop :=
  ∀ id, nav'.appDefaults id = nav.appDefaults id ∨
    ∃ kind, nav'.appDefaults id = viewDidLoad kind nav.width

section Kept

variable {nav nav' nav'' : Navigation}

theorem MenuKept.refl (nav : Navigation) : MenuKept nav nav := fun _ => Or.inl rfl

theorem MenuKept.trans (h : MenuKept nav nav') (h' : MenuKept nav' nav'')
    (hw : nav'.width = nav.width) : MenuKept nav nav'' := by
  intro id
  rcases h' id with hid | hid
  · rw [hid]
    exact h id
  · right
    rw [← hw]
    exact hid

theorem push_menuKept (nav : Navigation) (kind : Kind) :
    MenuKept nav (nav.pushViewController kind) := by
  intro id
  by_cases hid : id = nav.nextId
  · right
    subst hid
    exact ⟨kind, Function.update_self _ _ _⟩
  · left
    exact Function.update_of_ne hid _ _

theorem pop_appDefaults (nav : Navigation) : nav.popViewController.appDefaults = nav.appDefaults := by
  unfold popViewController
  split_ifs <;> rfl

theorem removeFromStack_appDefaults (nav : Navigation) (kind : Kind) :
    (nav.removeFromStack kind).appDefaults = nav.appDefaults := by
  unfold removeFromStack
  split <;> rfl

theorem removeFromStack_width (nav : Navigation) (kind : Kind) :
    (nav.removeFromStack kind).width = nav.width := by
  unfold removeFromStack
  split <;> rfl

theorem pop_width (nav : Navigation) : nav.popViewController.width = nav.width := by
  unfold popViewController
  split_ifs <;> rfl

theorem toPage_width (nav : Navigation) (key : PageKey) (vc : ViewController) :
    (toPage key nav vc).width = nav.width := by
  unfold toPage
  split
  · rfl
  · split_ifs
    · exact removeFromStack_width nav key.kind
    · rfl

theorem choose_width (nav : Navigation) (key : PageKey) : (nav.choose key).width = nav.width := by
  unfold choose
  split
  · rfl
  · rw [entry_eq]
    exact toPage_width nav key _

theorem perform_menuKept (nav : Navigation) (effect : Effect) : MenuKept nav (nav.perform effect) := by
  cases effect with
  | pushViewController kind => exact push_menuKept nav kind
  | present alert => exact .refl nav
  | sendEmailVerification user => exact .refl nav

theorem perform_width (nav : Navigation) (effect : Effect) : (nav.perform effect).width = nav.width := by
  cases effect <;> rfl

theorem foldl_perform_width (nav : Navigation) (effects : List Effect) :
    (effects.foldl perform nav).width = nav.width := by
  induction effects generalizing nav with
  | nil => rfl
  | cons effect effects ih => rw [List.foldl_cons, ih, perform_width]

theorem foldl_perform_menuKept (nav : Navigation) (effects : List Effect) :
    MenuKept nav (effects.foldl perform nav) := by
  induction effects generalizing nav with
  | nil => exact .refl nav
  | cons effect effects ih =>
    rw [List.foldl_cons]
    exact (perform_menuKept nav effect).trans (ih _) (perform_width nav effect)

end Kept

section Moves

variable {nav nav' : Navigation} {m : Option SideMenu.MenuEvent}

/-- Beyond that, the menu of a screen may take the step `m`. -/
def MenuMoves (m : Option SideMenu.MenuEvent) (nav nav' : Navigation) : Prop :=
  ∀ id, nav'.appDefaults id = nav.appDefaults id ∨
    (∃ kind, nav'.appDefaults id = viewDidLoad kind nav.width) ∨
    ∃ x d, m = some x ∧ nav.appDefaults id = some d ∧
      nav'.appDefaults id = SideMenu.machine.step d x

theorem MenuKept.moves (h : MenuKept nav nav') : MenuMoves m nav nav' := by
  intro id
  rcases h id with hid | hid
  · exact Or.inl hid
  · exact Or.inr (Or.inl hid)

theorem modifyDefaults_cases (nav : Navigation) (id : ℕ) (f : AppDefaults → AppDefaults)
    (hf : ∀ d, (f d).currentVC = d.currentVC) (j : ℕ) :
    (nav.modifyDefaults id f hf).appDefaults j = nav.appDefaults j ∨
      ∃ d, nav.appDefaults j = some d ∧ (nav.modifyDefaults id f hf).appDefaults j = some (f d) := by
  by_cases hj : j = id
  · subst hj
    have hself : (nav.modifyDefaults j f hf).appDefaults j = (nav.appDefaults j).map f :=
      Function.update_self _ _ _
    rw [hself]
    cases nav.appDefaults j with
    | none => exact Or.inl rfl
    | some d => exact Or.inr ⟨d, rfl, rfl⟩
  · left
    exact Function.update_of_ne hj _ _

theorem modifyDefaults_moves (nav : Navigation) (id : ℕ) {f : AppDefaults → AppDefaults}
    (hf : ∀ d, (f d).currentVC = d.currentVC) {x : SideMenu.MenuEvent}
    (hx : ∀ d, SideMenu.machine.step d x = some (f d)) :
    MenuMoves (some x) nav (nav.modifyDefaults id f hf) := by
  intro j
  rcases modifyDefaults_cases nav id f hf j with hj | ⟨d, hd, hj⟩
  · exact Or.inl hj
  · exact Or.inr (Or.inr ⟨x, d, rfl, hd, hj.trans (hx d).symm⟩)

theorem onMenu_moves (nav : Navigation) {f : AppDefaults → AppDefaults}
    (hf : ∀ d, (f d).currentVC = d.currentVC) {x : SideMenu.MenuEvent}
    (hx : ∀ d, SideMenu.machine.step d x = some (f d)) :
    MenuMoves (some x) nav (nav.onMenu f hf) := by
  unfold onMenu
  split
  · exact modifyDefaults_moves nav _ hf hx
  · exact (MenuKept.refl nav).moves

theorem layoutTop_moves (nav : Navigation) (w : Width) :
    MenuMoves (some (.layout w)) nav (nav.layoutTop w) := by
  intro j
  unfold layoutTop
  dsimp only
  split
  · next vc _ =>
    rcases modifyDefaults_cases { nav with width := w } vc.id (fun d => d.layoutSubviews w)
      (fun d => d.layoutSubviews_currentVC w) j with hj | ⟨d, hd, hj⟩
    · exact Or.inl hj
    · exact Or.inr (Or.inr ⟨.layout w, d, rfl, hd, hj⟩)
  · exact Or.inl rfl

theorem onMenu_width (nav : Navigation) (f : AppDefaults → AppDefaults)
    (hf : ∀ d, (f d).currentVC = d.currentVC) : (nav.onMenu f hf).width = nav.width := by
  unfold onMenu
  split <;> rfl

theorem layoutTop_width (nav : Navigation) (w : Width) : (nav.layoutTop w).width = w := by
  unfold layoutTop
  dsimp only
  split <;> rfl

theorem removePush_menuKept (nav : Navigation) (kind new : Kind) :
    MenuKept nav ((nav.removeFromStack kind).pushViewController new) := by
  have hremove : MenuKept nav (nav.removeFromStack kind) := by
    intro id
    rw [removeFromStack_appDefaults]
    exact Or.inl rfl
  exact hremove.trans (push_menuKept _ new) (removeFromStack_width nav kind)

theorem choose_moves (nav : Navigation) (key : PageKey) :
    MenuMoves (some .container) nav (nav.choose key) := by
  unfold choose
  split
  · exact (MenuKept.refl nav).moves
  · next vc _ =>
    rw [entry_eq]
    unfold toPage
    split
    · exact (MenuKept.refl nav).moves
    · split_ifs
      · exact (removePush_menuKept nav key.kind key.kind).moves
      · exact modifyDefaults_moves nav vc.id _ (fun _ => rfl)

end Moves

end Navigation

namespace App

variable {session : Option User} {width : Width} {es : List Event} {app app' : App} {e : Event}

def menuEvent : Event → Option SideMenu.MenuEvent
  | .triggerMenu => some .menuButton
  | .dismissMenuIfVisible => some .container
  | .toFeedVC => some .container
  | .toSharingVC => some .container
  | .layout w => some (.layout w)
  | _ => none

def widthAfter (app : App) : Event → Width
  | .layout w => w
  | _ => app.nav.width

theorem menu_moves (h : Stepped app e app') :
    Navigation.MenuMoves (menuEvent e) app.nav app'.nav := by
  have hstay : Navigation.MenuKept app.nav app.nav := .refl app.nav
  have hpop : Navigation.MenuKept app.nav app.nav.popViewController := by
    intro id
    rw [Navigation.pop_appDefaults]
    exact Or.inl rfl
  rw [h.nav]
  cases e with
  | loginSegue => exact (Navigation.push_menuKept _ _).moves
  | registerSegue => exact (Navigation.push_menuKept _ _).moves
  | guestSegue => exact (Navigation.push_menuKept _ _).moves
  | forgotPassSegue => exact (Navigation.push_menuKept _ _).moves
  | dismissView => exact hpop.moves
  | toFeedVC => exact Navigation.choose_moves app.nav .mainVC
  | toSharingVC => exact Navigation.choose_moves app.nav .sharingVC
  | triggerMenu => exact Navigation.onMenu_moves app.nav _ (fun _ => rfl)
  | dismissMenuIfVisible => exact Navigation.onMenu_moves app.nav _ (fun _ => rfl)
  | layout w => exact Navigation.layoutTop_moves app.nav w
  | callback k => exact (Navigation.foldl_perform_menuKept app.nav _).moves
  | tapOK k =>
    unfold navAfter
    dsimp only
    split
    · split_ifs
      · exact hpop.moves
      · exact hstay.moves
    · exact hstay.moves
  | _ => exact hstay.moves

theorem step_width (h : Stepped app e app') : app'.nav.width = app.widthAfter e := by
  rw [h.nav]
  cases e with
  | dismissView => exact Navigation.pop_width app.nav
  | toFeedVC => exact Navigation.choose_width app.nav .mainVC
  | toSharingVC => exact Navigation.choose_width app.nav .sharingVC
  | triggerMenu => exact Navigation.onMenu_width app.nav _ _
  | dismissMenuIfVisible => exact Navigation.onMenu_width app.nav _ _
  | layout w => exact Navigation.layoutTop_width app.nav w
  | callback k => exact Navigation.foldl_perform_width app.nav _
  | tapOK k =>
    unfold navAfter
    dsimp only
    split
    · split_ifs
      · exact Navigation.pop_width app.nav
      · rfl
    · rfl
  | _ => rfl

theorem viewDidLoad_eq_some {kind : Kind} {w : Width} {d : AppDefaults}
    (h : viewDidLoad kind w = some d) : ∃ key, d = SideMenu.loaded w key := by
  obtain ⟨key, -, rfl⟩ := Option.map_eq_some_iff.mp h
  exact ⟨key, rfl⟩

section NearWidths

-- The window has been within 50 points of `width`, so within 100 of every `maxX`.
structure NearWidth (width : Width) (app : App) : Prop where
  window : |(app.nav.width : ℚ) - width| < 50
  menus : ∀ id d, app.nav.appDefaults id = some d →
    ∃ maxX : Width, |(maxX : ℚ) - width| < 50 ∧ SideMenu.Settled maxX d

theorem laidOutNear {maxX : Width} {x : SideMenu.MenuEvent} (hmax : |(maxX : ℚ) - width| < 50)
    (he : menuEvent e = some x) (hw : ∀ w : Width, e = .layout w → |(w : ℚ) - width| < 50) :
    SideMenu.LaidOutNear maxX x := by
  cases x with
  | menuButton => trivial
  | container => trivial
  | layout w =>
    have hlayout : e = .layout w := by
      cases e <;> simp [menuEvent] at he
      rw [he]
    have hclose := abs_lt.mp (hw w hlayout)
    have hcaptured := abs_lt.mp hmax
    apply abs_lt.mpr
    constructor
    · linarith [hclose.1, hcaptured.2]
    · linarith [hclose.2, hcaptured.1]

theorem NearWidth.step (h : NearWidth width app) (hs : Stepped app e app')
    (hw : ∀ w : Width, e = .layout w → |(w : ℚ) - width| < 50) : NearWidth width app' := by
  constructor
  · rw [step_width hs]
    cases e with
    | layout w => exact hw w rfl
    | _ => exact h.window
  · intro id d hd
    rcases menu_moves hs id with hid | ⟨kind, hid⟩ | ⟨x, old, hx, hold, hid⟩
    · exact h.menus id d (hid ▸ hd)
    · obtain ⟨key, rfl⟩ := viewDidLoad_eq_some (hid ▸ hd)
      exact ⟨app.nav.width, h.window, SideMenu.loaded_settled _ key⟩
    · obtain ⟨maxX, hmax, hsettled⟩ := h.menus id old hold
      have hnear := laidOutNear hmax hx hw
      exact ⟨maxX, hmax, hsettled.step hnear (hid ▸ hd)⟩

/-- While the window keeps within 50 points of its first width, every menu of the app is open
or closed as drawn. -/
theorem menus_consistent (h : machine.run (launch session width) es = some app)
    (hw : ∀ w : Width, .layout w ∈ es → |(w : ℚ) - width| < 50) (id : ℕ) (d : AppDefaults)
    (hd : app.nav.appDefaults id = some d) : SideMenu.Consistent d := by
  have hnear : (∀ w : Width, .layout w ∈ es → |(w : ℚ) - width| < 50) → NearWidth width app := by
    apply Machine.invariant (I := fun before (app : App) =>
      (∀ w : Width, .layout w ∈ before → |(w : ℚ) - width| < 50) → NearWidth width app) _ _ h
    · intro _
      refine ⟨by simp [launch, Navigation.launch], ?_⟩
      intro id d hd
      cases hd
    · intro before app e app' ih hu hall
      have hbefore := ih (fun w hm => hall w (List.mem_append_left _ hm))
      exact hbefore.step (step_stepped hu) (fun w he => hall w (by simp [he]))
  obtain ⟨maxX, -, hsettled⟩ := (hnear hw).menus id d hd
  exact hsettled.consistent

theorem guest_menu_consistent : ∃ d : AppDefaults,
    d.sideMenuButton.title = AppDefaults.closeTitle ∧ SideMenu.Consistent d := by
  have h : ((machine.run (launch none ⟨375, by decide⟩)
      [.guestSegue, .layout ⟨400, by decide⟩, .triggerMenu]).bind
        (fun app => app.nav.appDefaults 1)).map (fun d => d.sideMenuButton.title) =
          some AppDefaults.closeTitle := by
    decide +kernel
  obtain ⟨d, hd, htitle⟩ := Option.map_eq_some_iff.mp h
  obtain ⟨app, happ, hmenu⟩ := Option.bind_eq_some_iff.mp hd
  refine ⟨d, htitle, menus_consistent happ ?_ 1 d hmenu⟩
  intro w hw
  obtain rfl : w = ⟨400, by decide⟩ := by simpa using hw
  norm_num

end NearWidths

end App

end WhichStream
