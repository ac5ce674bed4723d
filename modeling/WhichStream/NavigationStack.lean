import WhichStream.AttemptRuns

/-!
The navigation stack along runs of the app. The taps keep one screen of each kind with
a menu; a sign-in callback pushes `MainViewController` without looking for an older one.
-/

namespace WhichStream

open EventMachine KeyedStack

structure WellStacked (nav : Navigation) : Prop where
  bottom : nav.viewControllers.head?.map ViewController.kind = some .intro
  main : (nav.ofKind .main).length ≤ 1
  sharing : (nav.ofKind .sharing).length ≤ 1

namespace App

def EntersMain (app : App) (k : ℕ) : Prop :=
  ∃ a own user, app.auth.attempts k = some a ∧ a.call = .signIn ∧ a.phase = .answered (.user own) ∧
    app.onStack a = true ∧ app.auth.currentUser = some user ∧ user.isEmailVerified = true

def EntersOnce (app : App) (e : Event) : Prop :=
  ∀ k, e = .callback k → app.EntersMain k → app.nav.ofKind .main = []

/-- What the other events can make of the stack. -/
inductive Restacks (app : App) : List ViewController → Prop
  | stay : Restacks app app.nav.viewControllers
  | segue {kind} (top : app.topKind = some .intro)
      (entry : kind = .login ∨ kind = .register ∨ kind = .main) :
      Restacks app (app.nav.pushViewController kind).viewControllers
  | forgotPass (top : app.topKind = some .login) :
      Restacks app (app.nav.pushViewController .forgotPass).viewControllers
  | back (two : 1 < app.nav.viewControllers.length) : Restacks app app.nav.viewControllers.dropLast
  | menu {vc own} (key : PageKey) (top : app.nav.top = some vc) (page : vc.kind = PageKey.kind own) :
      Restacks app (app.nav.choose key).viewControllers

end App

namespace Navigation

variable (nav : Navigation)

theorem ofKind_length (kind : Kind) :
    (nav.ofKind kind).length = nav.viewControllers.countP (keyed ViewController.kind kind) := by
  rw [ofKind, List.countP_eq_length_filter]

theorem onMenu_viewControllers (f : AppDefaults → AppDefaults)
    (hf : ∀ d, (f d).currentVC = d.currentVC) :
    (nav.onMenu f hf).viewControllers = nav.viewControllers := by
  unfold onMenu
  split <;> rfl

theorem layoutTop_viewControllers (width : Width) :
    (nav.layoutTop width).viewControllers = nav.viewControllers := by
  unfold layoutTop
  dsimp only
  split <;> rfl

end Navigation

namespace App

variable {app : App}

theorem restacks_pop : app.Restacks app.nav.popViewController.viewControllers := by
  rw [Navigation.pop_viewControllers]
  split_ifs with hl
  · exact .stay
  · exact .back (by omega)

theorem restacks_choose (key : PageKey) (h : app.topKind = some .main ∨ app.topKind = some .sharing) :
    app.Restacks (app.nav.choose key).viewControllers := by
  rcases h with h | h
  · obtain ⟨vc, htop, hk⟩ := Option.map_eq_some_iff.mp h
    exact @Restacks.menu app vc .mainVC key htop hk
  · obtain ⟨vc, htop, hk⟩ := Option.map_eq_some_iff.mp h
    exact @Restacks.menu app vc .sharingVC key htop hk

theorem restacks_of_available {e : Event} (ha : app.available e = true)
    (hc : ∀ k, e ≠ .callback k) : app.Restacks (app.navAfter e).viewControllers := by
  cases e with
  | callback k => exact absurd rfl (hc k)
  | loginSegue => exact .segue (by simpa [available] using ha) (Or.inl rfl)
  | registerSegue => exact .segue (by simpa [available] using ha) (Or.inr (Or.inl rfl))
  | guestSegue => exact .segue (by simpa [available] using ha) (Or.inr (Or.inr rfl))
  | forgotPassSegue => exact .forgotPass (by simpa [available] using ha)
  | dismissView => exact restacks_pop
  | toFeedVC => exact restacks_choose .mainVC (by simpa [available] using ha)
  | toSharingVC => exact restacks_choose .sharingVC (by simpa [available] using ha)
  | triggerMenu =>
    rw [navAfter, Navigation.onMenu_viewControllers]
    exact .stay
  | dismissMenuIfVisible =>
    rw [navAfter, Navigation.onMenu_viewControllers]
    exact .stay
  | layout width =>
    rw [navAfter, Navigation.layoutTop_viewControllers]
    exact .stay
  | tapOK k =>
    unfold navAfter
    dsimp only
    split
    · split_ifs
      · exact restacks_pop
      · exact .stay
    · exact .stay
  | _ => exact .stay

theorem Restacks.rooted {vcs : List ViewController} (h : app.Restacks vcs)
    (hr : Rooted ViewController.kind .intro app.nav.viewControllers) :
    Rooted ViewController.kind .intro vcs := by
  cases h with
  | stay => exact hr
  | segue top entry =>
    apply hr.concat
    rcases entry with rfl | rfl | rfl <;> simp
  | forgotPass top =>
    apply hr.concat
    simp
  | back two => exact hr.dropLast two
  | menu key top page =>
    apply hr.selects _ (Navigation.choose_selects top page le_rfl key)
    cases key <;> simp [PageKey.kind]

def atMostOne (vcs : List ViewController) : Prop :=
  ∀ key : PageKey, vcs.countP (keyed ViewController.kind key.kind) ≤ 1

theorem wellStacked_iff {nav : Navigation}
    (hr : Rooted ViewController.kind .intro nav.viewControllers) :
    WellStacked nav ↔ atMostOne nav.viewControllers := by
  constructor
  · rintro ⟨-, hmain, hsharing⟩ key
    cases key with
    | mainVC => exact nav.ofKind_length .main ▸ hmain
    | sharingVC => exact nav.ofKind_length .sharing ▸ hsharing
  · intro h
    refine ⟨hr.bottom, ?_, ?_⟩
    · rw [nav.ofKind_length]
      exact h .mainVC
    · rw [nav.ofKind_length]
      exact h .sharingVC

section Counts

variable (vcs : List ViewController) (id : ℕ) (kind : Kind)

theorem count_push_self :
    (vcs ++ [(⟨id, kind⟩ : ViewController)]).countP (keyed ViewController.kind kind) =
    vcs.countP (keyed ViewController.kind kind) + 1 := by
  simp [keyed]

theorem count_push_other {other : Kind} (h : kind ≠ other) :
    (vcs ++ [(⟨id, kind⟩ : ViewController)]).countP (keyed ViewController.kind other) =
      vcs.countP (keyed ViewController.kind other) := by
  simp [keyed, h]

end Counts

theorem Restacks.atMostOne {vcs : List ViewController} (h : app.Restacks vcs)
    (hr : Rooted ViewController.kind .intro app.nav.viewControllers)
    (ho : App.atMostOne app.nav.viewControllers) : App.atMostOne vcs := by
  intro page
  cases h with
  | stay => exact ho page
  | segue top entry =>
    obtain ⟨root, hroot, hk⟩ := hr.eq_singleton (by simpa [topKind, Navigation.top] using top)
    have hzero : ([root] : List ViewController).countP (keyed ViewController.kind page.kind) = 0 := by
      cases page <;> simp [keyed, hk, PageKey.kind]
    rw [Navigation.push_viewControllers, hroot, List.countP_append, hzero, Nat.zero_add]
    exact List.countP_le_length
  | forgotPass top =>
    rw [Navigation.push_viewControllers, count_push_other _ _ _ (by cases page <;> simp [PageKey.kind])]
    exact ho page
  | back two => exact (List.dropLast_sublist _).countP_le.trans (ho page)
  | menu key top own =>
    have hs := Navigation.choose_selects top own le_rfl key
    have hone := ho page
    by_cases hp : page.kind = key.kind
    · have hc := hs.count_self
      rw [hp] at hone ⊢
      omega
    · have hc := hs.count_other hp
      omega

section Callbacks

theorem callback_enters {k : ℕ} (h : app.EntersMain k) :
    (app.navAfter (.callback k)).viewControllers =
      app.nav.viewControllers ++ [⟨app.nav.nextId, .main⟩] := by
  obtain ⟨a, own, user, found, hcall, answered, hon, hu, hv⟩ := h
  simp [navAfter, callbackEffects, found, answered, hcall, Call.completion, hon, hu,
    signInCompletion, hv, Navigation.perform]

theorem signInCompletion_push {onStack : Bool} {currentUser : Option User} {result : AuthResult}
    {kind : Kind} (h : .pushViewController kind ∈ signInCompletion onStack currentUser result) :
    onStack = true ∧ (∃ own, result = .user own) ∧
      ∃ user, currentUser = some user ∧ user.isEmailVerified = true := by
  unfold signInCompletion at h
  cases currentUser with
  | none => simp at h
  | some user =>
    cases hv : user.isEmailVerified with
    | false => simp [hv] at h
    | true =>
      cases result with
      | error => simp [hv] at h
      | user own =>
        cases onStack with
        | false => simp [hv] at h
        | true => exact ⟨rfl, ⟨own, rfl⟩, user, rfl, hv⟩

theorem callbackEffects_push {k : ℕ} {kind : Kind}
    (h : .pushViewController kind ∈ app.callbackEffects k) : app.EntersMain k := by
  unfold callbackEffects at h
  split at h
  · cases h
  · next a found =>
    split at h
    · next result answered =>
      cases hcall : a.call with
      | signIn =>
        rw [hcall] at h
        obtain ⟨hon, ⟨own, rfl⟩, user, hu, hv⟩ := signInCompletion_push h
        exact ⟨a, own, user, found, hcall, answered, hon, hu, hv⟩
      | createUser =>
        rw [hcall] at h
        cases hu : app.auth.currentUser <;>
          simp [hu, Call.completion, createUserCompletion, sendEmailVerification] at h
    · cases h

theorem foldl_perform_of_no_push {effects : List Effect} (nav : Navigation)
    (h : ∀ kind, .pushViewController kind ∉ effects) : effects.foldl Navigation.perform nav = nav := by
  induction effects with
  | nil => rfl
  | cons effect effects ih =>
    rw [List.foldl_cons]
    cases effect with
    | pushViewController kind => exact absurd List.mem_cons_self (h kind)
    | present alert => exact ih (fun kind hk => h kind (List.mem_cons_of_mem _ hk))
    | sendEmailVerification user => exact ih (fun kind hk => h kind (List.mem_cons_of_mem _ hk))

theorem callback_stays {k : ℕ} (h : ¬ app.EntersMain k) :
    (app.navAfter (.callback k)).viewControllers = app.nav.viewControllers := by
  rw [navAfter, foldl_perform_of_no_push]
  exact fun kind hk => h (callbackEffects_push hk)

end Callbacks

theorem step_rooted {app app' : App} {e : Event} (h : Stepped app e app')
    (hr : Rooted ViewController.kind .intro app.nav.viewControllers) :
    Rooted ViewController.kind .intro app'.nav.viewControllers := by
  rw [h.nav]
  by_cases hc : ∃ k, e = .callback k
  · obtain ⟨k, rfl⟩ := hc
    by_cases hm : app.EntersMain k
    · rw [callback_enters hm]
      exact hr.concat (by simp)
    · rw [callback_stays hm]
      exact hr
  · exact (restacks_of_available h.available (fun k he => hc ⟨k, he⟩)).rooted hr

theorem step_wellStacked_iff {app app' : App} {e : Event} (h : Stepped app e app')
    (hr : Rooted ViewController.kind .intro app.nav.viewControllers) (hw : WellStacked app.nav) :
    WellStacked app'.nav ↔ app.EntersOnce e := by
  rw [wellStacked_iff (step_rooted h hr), h.nav]
  have ho := (wellStacked_iff hr).mp hw
  by_cases hc : ∃ k, e = .callback k
  · obtain ⟨k, rfl⟩ := hc
    by_cases hm : app.EntersMain k
    · have hm0 : app.nav.ofKind .main = [] ↔ app.nav.viewControllers.countP
          (keyed ViewController.kind .main) = 0 := by
        rw [← List.length_eq_zero_iff, app.nav.ofKind_length]
      rw [callback_enters hm]
      constructor
      · intro hone j _ _
        have hmain : _ ≤ 1 := hone .mainVC
        rw [PageKey.kind, count_push_self] at hmain
        rw [hm0]
        omega
      · intro henters page
        have hzero := hm0.mp (henters k rfl hm)
        cases page with
        | mainVC => rw [PageKey.kind, count_push_self, hzero]
        | sharingVC =>
          rw [count_push_other _ _ _ (by simp [PageKey.kind])]
          exact ho .sharingVC
    · rw [callback_stays hm]
      refine ⟨fun _ j hj hm' => ?_, fun _ => ho⟩
      obtain rfl : k = j := Event.callback.inj hj
      exact absurd hm' hm
  · have hs := (restacks_of_available h.available (fun k he => hc ⟨k, he⟩)).atMostOne hr ho
    exact ⟨fun _ k he => absurd ⟨k, he⟩ hc, fun _ => hs⟩

end App

theorem navigation_stack_iff (session : Option User) (width : Width) (es : List Event) :
    App.machine.Throughout (fun app => WellStacked app.nav) (App.launch session width) es ↔
      App.machine.Along (fun _ app e => app.EntersOnce e) (App.launch session width) es := by
  have start : Rooted ViewController.kind .intro (App.launch session width).nav.viewControllers :=
    ⟨⟨0, .intro⟩, [], rfl, rfl, by simp⟩
  have good : WellStacked (App.launch session width).nav := ⟨rfl, Nat.zero_le 1, Nat.zero_le 1⟩
  apply Machine.throughout_iff_along
    (I := fun _ (app : App) => Rooted ViewController.kind .intro app.nav.viewControllers)
    start _ good
  · intro before app e app' hr hw hu
    exact App.step_wellStacked_iff (App.step_stepped hu) hr hw
  · intro before app e app' hr hu
    exact App.step_rooted (App.step_stepped hu) hr

def loginTappedTwice (t : Text) (user : User) : List Event :=
  [.loginSegue, .editLogin .emailInput t, .editLogin .passInput t, .firebaseAuthentication,
    .firebaseAuthentication, .finished 0 (.user user), .finished 1 (.user user), .callback 0,
    .callback 1]

theorem login_tapped_twice_stacks_main : ¬ ∀ (session : Option User) (width : Width)
    (es : List Event), App.machine.Throughout (fun app => WellStacked app.nav)
      (App.launch session width) es := by
  intro h
  have hw := (h none ⟨375, by decide⟩ (loginTappedTwice [⟨['a']⟩] ⟨"a", true⟩)).last rfl
  exact absurd hw.main (by decide)

end WhichStream
