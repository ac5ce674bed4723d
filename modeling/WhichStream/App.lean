import WhichStream.AttemptViews
import WhichStream.MenuNavigation
import WhichStream.RegisterForm

/-!
The whole app: taps on the screen on top, answers of the service, and closures that
run on the main thread, in any order.
-/

namespace WhichStream

open EventMachine

inductive LoginField
  | emailInput
  | passInput
  deriving DecidableEq, Repr

structure LoginForm where
  emailInput : Text
  passInput : Text
  deriving DecidableEq, Repr

def LoginForm.setText (login : LoginForm) (field : LoginField) (t : Text) : LoginForm :=
  match field with
  | .emailInput => { login with emailInput := t }
  | .passInput => { login with passInput := t }

-- The fields of a screen are those of its identity; a screen not yet made has fresh ones.
structure App where
  nav : Navigation
  auth : Auth
  logins : ℕ → LoginForm
  forms : ℕ → RegisterForm

inductive Event
  | loginSegue
  | registerSegue
  | guestSegue
  | forgotPassSegue
  | dismissView
  | editLogin (field : LoginField) (t : Text)
  | firebaseAuthentication
  | form (e : FormEvent)
  | toFeedVC
  | toSharingVC
  | triggerMenu
  | dismissMenuIfVisible
  | layout (width : Width)
  | finished (k : ℕ) (result : AuthResult)
  | signedOut
  | callback (k : ℕ)
  | tapYes (k : ℕ)
  | tapOK (k : ℕ)
  | mailFinished (k : ℕ) (result : MailResult)
  | mailCallback (k : ℕ)

def Navigation.perform (nav : Navigation) : Effect → Navigation
  | .pushViewController kind => nav.pushViewController kind
  | .present _ => nav
  | .sendEmailVerification _ => nav

def Navigation.layoutTop (nav : Navigation) (width : Width) : Navigation :=
  let nav := { nav with width := width }
  match nav.top with
  | some vc => nav.modifyDefaults vc.id (fun d => d.layoutSubviews width)
      (fun d => d.layoutSubviews_currentVC width)
  | none => nav

def Navigation.onMenu (nav : Navigation) (f : AppDefaults → AppDefaults)
    (hf : ∀ d, (f d).currentVC = d.currentVC) : Navigation :=
  match nav.top with
  | some vc => nav.modifyDefaults vc.id f hf
  | none => nav

namespace App

def launch (session : Option User) (width : Width) : App :=
  ⟨.launch width, .launch session, fun _ => ⟨[], []⟩, fun _ => .loaded⟩

def topKind (app : App) : Option Kind := app.nav.top.map ViewController.kind

-- A tap needs the screen that offers it on top; answers and closures need no screen.
def available (app : App) : Event → Bool
  | .loginSegue | .registerSegue | .guestSegue => app.topKind = some .intro
  | .firebaseAuthentication | .forgotPassSegue | .editLogin _ _ => app.topKind = some .login
  | .form _ => app.topKind = some .register
  | .dismissView => app.topKind = some .login || app.topKind = some .register ||
      app.topKind = some .forgotPass
  | .toFeedVC | .toSharingVC | .triggerMenu | .dismissMenuIfVisible =>
    app.topKind = some .main || app.topKind = some .sharing
  | .callback k | .mailCallback k => (app.auth.attempts k).isSome
  | _ => true

def firebaseAuthentication (app : App) (vc : ViewController) : AuthEvent :=
  let login := app.logins vc.id
  if login.emailInput = [] || login.passInput = [] then .report .typeCredentials
  else .start .signIn vc login.emailInput login.passInput

def sendEmail (app : App) (vc : ViewController) : AuthEvent :=
  match (app.forms vc.id).sendEmail with
  | .createUser email password => .start .createUser vc email password
  | .present alert => .report alert

-- Whether `self.navigationController` is there for the closures of attempt `a`.
def onStack (app : App) (a : Attempt) : Bool := a.screen ∈ app.nav.viewControllers

def authEvent (app : App) : Event → Option AuthEvent
  | .firebaseAuthentication => app.nav.top.map app.firebaseAuthentication
  | .form .register => app.nav.top.map app.sendEmail
  | .finished k result => some (.finished k result)
  | .signedOut => some .signedOut
  | .callback k => (app.auth.attempts k).map (fun a => .completion k (app.onStack a))
  | .tapYes k => some (.tapYes k)
  | .tapOK k => some (.tapOK k)
  | .mailFinished k result => some (.mailFinished k result)
  | .mailCallback k => (app.auth.attempts k).map
      (fun a => .mailCompletion k (app.forms a.screen.id).passInput)
  | _ => none

def authAfter (app : App) (e : Event) : Option Auth :=
  match app.authEvent e with
  | some x => app.auth.step x
  | none => some app.auth

def callbackEffects (app : App) (k : ℕ) : List Effect :=
  match app.auth.attempts k with
  | none => []
  | some a =>
    match a.phase with
    | .answered result => a.call.completion (app.onStack a) app.auth.currentUser result
    | _ => []

def navAfter (app : App) : Event → Navigation
  | .loginSegue => app.nav.pushViewController .login
  | .registerSegue => app.nav.pushViewController .register
  | .guestSegue => app.nav.pushViewController .main
  | .forgotPassSegue => app.nav.pushViewController .forgotPass
  | .dismissView => app.nav.popViewController
  | .toFeedVC => app.nav.choose .mainVC
  | .toSharingVC => app.nav.choose .sharingVC
  | .triggerMenu => app.nav.onMenu AppDefaults.triggerMenu AppDefaults.triggerMenu_currentVC
  | .dismissMenuIfVisible => app.nav.onMenu AppDefaults.dismissMenuIfVisible
      AppDefaults.dismissMenuIfVisible_currentVC
  | .layout width => app.nav.layoutTop width
  | .callback k => (app.callbackEffects k).foldl Navigation.perform app.nav
  | .tapOK k =>
    match app.auth.attempts k with
    | some a => if app.onStack a then app.nav.popViewController else app.nav
    | none => app.nav
  | _ => app.nav

def loginsAfter (app : App) : Event → ℕ → LoginForm
  | .editLogin field t =>
    match app.nav.top with
    | some vc => Function.update app.logins vc.id ((app.logins vc.id).setText field t)
    | none => app.logins
  | _ => app.logins

def formsAfter (app : App) : Event → Option (ℕ → RegisterForm)
  | .form e => app.nav.top.bind (fun vc =>
      ((app.forms vc.id).step e).map (fun form => Function.update app.forms vc.id form))
  | _ => some app.forms

def step (app : App) (e : Event) : Option App :=
  if app.available e then
    (app.authAfter e).bind (fun auth => (app.formsAfter e).map (fun forms =>
      { nav := app.navAfter e, auth := auth, logins := app.loginsAfter e, forms := forms }))
  else none

def machine : Machine App Event := ⟨step⟩

/-- What each event asks of the session, with what it needs. -/
inductive Sends (app : App) : Event → AuthEvent → Prop
  | typeCredentials {vc} (top : app.nav.top = some vc)
      (empty : (app.logins vc.id).emailInput = [] ∨ (app.logins vc.id).passInput = []) :
      Sends app .firebaseAuthentication (.report .typeCredentials)
  | signIn {vc} (top : app.nav.top = some vc)
      (filled : (app.logins vc.id).emailInput ≠ [] ∧ (app.logins vc.id).passInput ≠ []) :
      Sends app .firebaseAuthentication
        (.start .signIn vc (app.logins vc.id).emailInput (app.logins vc.id).passInput)
  | unableToRegister {vc} (top : app.nav.top = some vc)
      (shut : (app.forms vc.id).gateOpen = false) :
      Sends app (.form .register) (.report .unableToRegister)
  | createUser {vc} (top : app.nav.top = some vc) (green : (app.forms vc.id).gateOpen = true) :
      Sends app (.form .register)
        (.start .createUser vc (app.forms vc.id).emailInput (app.forms vc.id).passInput)
  | finished (k result) : Sends app (.finished k result) (.finished k result)
  | signedOut : Sends app .signedOut .signedOut
  | callback {k a} (found : app.auth.attempts k = some a) :
      Sends app (.callback k) (.completion k (app.onStack a))
  | tapYes (k) : Sends app (.tapYes k) (.tapYes k)
  | tapOK (k) : Sends app (.tapOK k) (.tapOK k)
  | mailFinished (k result) : Sends app (.mailFinished k result) (.mailFinished k result)
  | mailCallback {k a} (found : app.auth.attempts k = some a) :
      Sends app (.mailCallback k) (.mailCompletion k (app.forms a.screen.id).passInput)

theorem authEvent_sends {app : App} {e : Event} {x : AuthEvent} (h : app.authEvent e = some x) :
    app.Sends e x := by
  cases e with
  | firebaseAuthentication =>
    obtain ⟨vc, htop, rfl⟩ := Option.map_eq_some_iff.mp h
    unfold firebaseAuthentication
    dsimp only
    split_ifs with hempty
    · exact .typeCredentials htop (by simpa using hempty)
    · exact .signIn htop (by simpa using hempty)
  | form fe =>
    cases fe with
    | register =>
      obtain ⟨vc, htop, rfl⟩ := Option.map_eq_some_iff.mp h
      unfold sendEmail RegisterForm.sendEmail
      by_cases hg : (app.forms vc.id).gateOpen = true
      · rw [if_pos hg]
        exact .createUser htop hg
      · rw [if_neg hg]
        exact .unableToRegister htop (by simpa using hg)
    | _ => cases h
  | callback k =>
    obtain ⟨a, found, rfl⟩ := Option.map_eq_some_iff.mp h
    exact .callback found
  | mailCallback k =>
    obtain ⟨a, found, rfl⟩ := Option.map_eq_some_iff.mp h
    exact .mailCallback found
  | finished k result => exact Option.some.inj h ▸ .finished k result
  | signedOut => exact Option.some.inj h ▸ .signedOut
  | tapYes k => exact Option.some.inj h ▸ .tapYes k
  | tapOK k => exact Option.some.inj h ▸ .tapOK k
  | mailFinished k result => exact Option.some.inj h ▸ .mailFinished k result
  | _ => cases h

structure Stepped (app : App) (e : Event) (app' : App) : Prop where
  available : app.available e = true
  auth : app.authAfter e = some app'.auth
  forms : app.formsAfter e = some app'.forms
  nav : app'.nav = app.navAfter e
  logins : app'.logins = app.loginsAfter e

theorem step_stepped {app app' : App} {e : Event} (h : machine.step app e = some app') :
    Stepped app e app' := by
  have hs : app.step e = some app' := h
  unfold step at hs
  split_ifs at hs with ha
  obtain ⟨auth, hauth, hs⟩ := Option.bind_eq_some_iff.mp hs
  obtain ⟨forms, hforms, rfl⟩ := Option.map_eq_some_iff.mp hs
  exact ⟨ha, hauth, hforms, rfl, rfl⟩

theorem Stepped.auth_cases {app app' : App} {e : Event} (h : Stepped app e app') :
    (app.authEvent e = none ∧ app'.auth = app.auth) ∨
      ∃ x, app.authEvent e = some x ∧ Auth.Step app.auth x app'.auth := by
  have ha := h.auth
  unfold authAfter at ha
  split at ha
  · next x hx => exact Or.inr ⟨x, hx, Auth.step_cases ha⟩
  · next hx => exact Or.inl ⟨hx, (Option.some.inj ha).symm⟩

end App

end WhichStream
