import WhichStream.RegistrationAlerts
import WhichStream.SignInOutcomes

/-!
Attempts and the history of a run: every answer and every callback of an attempt is one
event, and an attempt whose account stays signed in is treated by its own result.
-/

namespace WhichStream

open EventMachine

def Event.resetsSession : Event → Bool
  | .finished _ (.user _) => true
  | .signedOut => true
  | _ => false

-- The login screen is filled in and the service signs `own` in.
def Event.signingIn (own : User) : List Event :=
  [.loginSegue, .editLogin .emailInput [⟨['a']⟩], .editLogin .passInput [⟨['a']⟩],
    .firebaseAuthentication, .finished 0 (.user own)]

namespace App

variable {session : Option User} {width : Width} {before es : List Event} {app app' : App}
  {e : Event} {k : ℕ}

section Undisturbed

-- Since attempt `k` succeeded no other answer has changed the session.
def Undisturbed (before : List Event) (k : ℕ) : Prop :=
  ∃ earlier own later, before = earlier ++ .finished k (.user own) :: later ∧
    ∀ e ∈ later, e.resetsSession = false

def UsesSession (e : Event) (k : ℕ) : Prop := e = .callback k ∨ e = .tapYes k

theorem sessionStep_quiet (he : e.resetsSession = false) (s : Option User) : sessionStep s e = s := by
  cases e with
  | finished k result =>
    cases result with
    | user own => cases he
    | error => rfl
  | signedOut => cases he
  | _ => rfl

theorem foldl_quiet {later : List Event} (h : ∀ e ∈ later, e.resetsSession = false)
    (s : Option User) : later.foldl sessionStep s = s := by
  induction later with
  | nil => rfl
  | cons e later ih =>
    rw [List.foldl_cons, sessionStep_quiet (h e List.mem_cons_self)]
    exact ih (fun f hf => h f (List.mem_cons_of_mem _ hf))

theorem Undisturbed.signedIn (h : Undisturbed before k) (session : Option User) :
    ∃ own, .finished k (.user own) ∈ before ∧ sessionAfter session before = some own := by
  obtain ⟨earlier, own, later, rfl, hquiet⟩ := h
  refine ⟨own, by simp, ?_⟩
  rw [sessionAfter, List.foldl_append, List.foldl_cons, foldl_quiet hquiet]
  rfl

theorem sessionFits_of_undisturbed (ht : Tracked session before app)
    (h : ∀ k, UsesSession e k → Undisturbed before k) :
    SessionFits app e := by
  rintro k a result rfl found - answered -
  obtain ⟨own, hown, hsession⟩ := (h k (Or.inl rfl)).signedIn session
  have hanswer : (app.auth.view k).result = some (.user own) := (ht.recorded k).result_of_mem hown
  have hresult : (app.auth.view k).result = some result := by
    rw [result_of_found (v := app.auth.view k) found, answered, Phase.result]
  obtain rfl : result = .user own := Option.some.inj (hresult.symm.trans hanswer)
  rw [ht.session, hsession]
  rfl

theorem sessionOwned_of_undisturbed (h : ∀ k, UsesSession e k → Undisturbed before k) :
    SessionOwned session before app e := by
  intro k hasks user huser
  have huses : UsesSession e k := by
    rcases hasks with ⟨he, -⟩ | he
    · exact Or.inl he
    · exact Or.inr he
  obtain ⟨own, hown, hsession⟩ := (h k huses).signedIn session
  obtain rfl : own = user := Option.some.inj (hsession.symm.trans huser)
  exact ⟨own, hown, rfl⟩

end Undisturbed

end App

end WhichStream
