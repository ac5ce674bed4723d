import WhichStream.RegisterForm

/-!
What the colours let through: after completed editing sessions exactly the forms
that obey the rules, and while a field is being edited also others.
-/

namespace WhichStream.RegisterForm

open EventMachine

def CallsCreateUser (form : RegisterForm) : Prop :=
  ∃ email password, form.sendEmail = .createUser email password

theorem callsCreateUser_iff (form : RegisterForm) : form.CallsCreateUser ↔ form.gateOpen = true := by
  unfold CallsCreateUser sendEmail
  split_ifs with hg <;> simp [hg]

section Sessions

theorem session_mirrors {form : RegisterForm} (h : Mirrors form form.text) (s : Field × Text) :
    Mirrors (form.editingSession s) (form.editingSession s).text := by
  obtain ⟨f, t⟩ := s
  have hset : Mirrors (form.setText f t) form.text := by
    cases f <;> exact ⟨h.username, h.email, h.password, h.retype⟩
  have hend := hset.didEndEditing (f := f) (fun g hg => (setText_text_other form f t hg).symm)
  rw [editingSession, didEndEditing_text]
  exact hend

theorem sessions_mirror (sessions : List (Field × Text)) :
    Mirrors (sessions.foldl editingSession loaded) (sessions.foldl editingSession loaded).text := by
  induction sessions using List.reverseRecOn with
  | nil => exact loaded_mirrors
  | append_singleton sessions s ih =>
    rw [List.foldl_concat]
    exact session_mirrors ih s

def sessionEvents (s : Field × Text) : List FormEvent :=
  [.beginEditing s.1, .changeText s.2, .endEditing]

theorem session_firstResponder (form : RegisterForm) (s : Field × Text) :
    (form.editingSession s).firstResponder = form.firstResponder := by
  simp [editingSession]

theorem session_run {form : RegisterForm} (h : form.firstResponder = none) (s : Field × Text) :
    machine.run form (sessionEvents s) = some (form.editingSession s) := by
  obtain ⟨f, t⟩ := s
  cases f <;>
    simp [Machine.run, machine, step, sessionEvents, h, resignFirstResponder, editingSession,
      setText, textFieldDidEndEditing]

theorem sessions_run {form : RegisterForm} (h : form.firstResponder = none)
    (sessions : List (Field × Text)) :
    machine.run form (sessions.flatMap sessionEvents) =
      some (sessions.foldl editingSession form) := by
  induction sessions generalizing form with
  | nil => rfl
  | cons s sessions ih =>
    have hnone : (form.editingSession s).firstResponder = none := by rw [session_firstResponder, h]
    rw [List.flatMap_cons, Machine.run_append, session_run h, Option.bind_some, List.foldl_cons]
    exact ih hnone

theorem completed_sessions_gate (sessions : List (Field × Text)) :
    Mirrors (sessions.foldl editingSession loaded) (sessions.foldl editingSession loaded).text ∧
      ((sessions.foldl editingSession loaded).CallsCreateUser ↔
        (sessions.foldl editingSession loaded).usernameInput ≠ [] ∧
        (sessions.foldl editingSession loaded).emailInput ≠ [] ∧
        (sessions.foldl editingSession loaded).retypePassInput ≠ [] ∧
        (sessions.foldl editingSession loaded).retypePassInput =
          (sessions.foldl editingSession loaded).passInput) ∧
      ∀ others : List (Field × Text),
        (others.foldl editingSession loaded).text = (sessions.foldl editingSession loaded).text →
        ((others.foldl editingSession loaded).CallsCreateUser ↔
          (sessions.foldl editingSession loaded).CallsCreateUser) := by
  have hm := sessions_mirror sessions
  refine ⟨hm, ?_, ?_⟩
  · rw [callsCreateUser_iff, gateOpen_iff hm]
    rfl
  · intro others ht
    rw [callsCreateUser_iff, callsCreateUser_iff, gateOpen_iff hm,
      gateOpen_iff (sessions_mirror others), ht]

end Sessions

section Runs

def FormRules (form : RegisterForm) (email password : Text) : Prop :=
  form.usernameInput ≠ [] ∧ email ≠ [] ∧ password ≠ [] ∧ form.retypePassInput = password

def SubmitsByRules (form : RegisterForm) (e : FormEvent) : Prop :=
  e = .register → ∀ email password, form.sendEmail = .createUser email password →
    form.FormRules email password

-- The field being edited, if there is one, is in order as it stands.
def EditedInOrder (form : RegisterForm) : Prop :=
  match form.firstResponder with
  | none => True
  | some .usernameInput => form.usernameInput ≠ []
  | some .emailInput => form.emailInput ≠ []
  | some .passInput => form.passInput = form.retypePassInput
  | some .retypePassInput => form.retypePassInput = form.passInput

def TapsInOrder (form : RegisterForm) (e : FormEvent) : Prop :=
  e = .register → form.gateOpen = true → form.EditedInOrder

/-- Only the field being edited can hold a text that the colours do not show. -/
def Stale (form : RegisterForm) : Prop :=
  ∃ c, Mirrors form c ∧ ∀ g, form.firstResponder ≠ some g → c g = form.text g

theorem loaded_stale : loaded.Stale := ⟨loaded.text, loaded_mirrors, fun _ _ => rfl⟩

theorem Stale.resign {form : RegisterForm} (h : form.Stale) :
    Mirrors form.resignFirstResponder form.text := by
  obtain ⟨c, hm, hc⟩ := h
  unfold resignFirstResponder
  split
  · next hn =>
    have he : c = form.text := funext (fun g => hc g (by simp [hn]))
    exact he ▸ hm
  · next f hf =>
    have hend := hm.didEndEditing (f := f) (fun g hg => hc g (by simp [hf, hg.symm]))
    exact ⟨hend.username, hend.email, hend.password, hend.retype⟩

theorem Stale.step {form form' : RegisterForm} {e : FormEvent} (h : form.Stale)
    (hu : machine.step form e = some form') : form'.Stale := by
  cases e with
  | beginEditing f =>
    have hr := h.resign
    obtain rfl | rfl : form = form' ∨
        { form.resignFirstResponder with firstResponder := some f } = form' := by
      simp only [machine, RegisterForm.step] at hu
      split_ifs at hu with hf
      · exact Or.inl (Option.some.inj hu)
      · exact Or.inr (Option.some.inj hu)
    · exact h
    · refine ⟨form.text, ⟨hr.username, hr.email, hr.password, hr.retype⟩, fun g _ => ?_⟩
      rw [← resign_text]
      cases g <;> rfl
  | changeText t =>
    obtain ⟨f, hf, rfl⟩ := Option.map_eq_some_iff.mp hu
    obtain ⟨c, hm, hc⟩ := h
    refine ⟨c, ?_, fun g hg => ?_⟩
    · cases f <;> exact ⟨hm.username, hm.email, hm.password, hm.retype⟩
    · rw [setText_firstResponder] at hg
      rw [setText_text_other form f t (fun he => hg (by rw [he, hf]))]
      exact hc g hg
  | endEditing =>
    obtain ⟨f, -, rfl⟩ := Option.map_eq_some_iff.mp hu
    exact ⟨form.text, h.resign, fun g _ => by rw [resign_text]⟩
  | register =>
    obtain rfl : form = form' := Option.some.inj hu
    exact h

theorem rules_iff_editedInOrder {form : RegisterForm} (h : form.Stale)
    (hg : form.gateOpen = true) :
    form.FormRules form.emailInput form.passInput ↔ form.EditedInOrder := by
  obtain ⟨c, hm, hc⟩ := h
  obtain ⟨hu, he, hr, hp⟩ := (gateOpen_iff hm).mp hg
  have live : ∀ g, form.firstResponder ≠ some g → form.text g = c g := fun g hn => (hc g hn).symm
  unfold FormRules EditedInOrder
  have lu := live .usernameInput
  have le := live .emailInput
  have lp := live .passInput
  have lr := live .retypePassInput
  simp only [text] at lu le lp lr
  cases hf : form.firstResponder with
  | none =>
    simp only [hf, ne_eq, reduceCtorEq, not_false_eq_true, forall_const] at lu le lp lr
    simp only [iff_true, lu, le, lp, lr]
    exact ⟨hu, he, hp ▸ hr, hp⟩
  | some f =>
    cases f <;>
      simp only [hf, ne_eq, Option.some.injEq, reduceCtorEq, not_false_eq_true, forall_const,
        not_true_eq_false, false_implies] at lu le lp lr ⊢
    · simp only [le, lp, lr]
      exact ⟨fun h => h.1, fun h => ⟨h, he, hp ▸ hr, hp⟩⟩
    · simp only [lu, lp, lr]
      exact ⟨fun h => h.2.1, fun h => ⟨hu, h, hp ▸ hr, hp⟩⟩
    · simp only [lu, le, lr]
      exact ⟨fun h => h.2.2.2.symm, fun h => ⟨hu, he, h ▸ hr, h.symm⟩⟩
    · simp only [lu, le, lp]
      exact ⟨fun h => h.2.2.2, fun h => ⟨hu, he, hp ▸ hr, h⟩⟩

theorem submits_exact {form : RegisterForm} (h : form.Stale) (e : FormEvent) :
    form.SubmitsByRules e ↔ form.TapsInOrder e := by
  unfold SubmitsByRules TapsInOrder
  refine imp_congr_right (fun _ => ?_)
  unfold sendEmail
  split_ifs with hg
  · simp only [SendEmail.createUser.injEq, hg, forall_const]
    rw [← rules_iff_editedInOrder h hg]
    exact ⟨fun hs => hs _ _ ⟨rfl, rfl⟩, fun hs email password he => he.1 ▸ he.2 ▸ hs⟩
  · simp [hg]

theorem registration_rules_iff (es : List FormEvent) :
    machine.EachStep (fun _ form e _ => form.SubmitsByRules e) loaded es ↔
      machine.Along (fun _ form e => form.TapsInOrder e) loaded es :=
  Machine.eachStep_iff_along (I := fun _ form => Stale form)
    (T := fun _ form e _ => SubmitsByRules form e) (C := fun _ form e => TapsInOrder form e)
    loaded_stale (fun _ _ _ _ h hu => h.step hu) (fun _ _ e _ h _ => submits_exact h e) es

def passwordUnderEdit (t : Text) : List FormEvent :=
  [.beginEditing .usernameInput, .changeText t, .beginEditing .emailInput, .changeText t,
    .beginEditing .passInput, .changeText t, .beginEditing .retypePassInput, .changeText t,
    .beginEditing .passInput, .changeText []]

theorem password_under_edit_submitted : ¬ ∀ es : List FormEvent,
    machine.EachStep (fun _ form e _ => form.SubmitsByRules e) loaded es := by
  intro h
  have hs := h (passwordUnderEdit [⟨['a']⟩] ++ [.register]) (passwordUnderEdit [⟨['a']⟩]) .register
    List.prefix_rfl _ _ rfl rfl rfl _ _ rfl
  exact hs.2.2.1 rfl

end Runs

end WhichStream.RegisterForm
