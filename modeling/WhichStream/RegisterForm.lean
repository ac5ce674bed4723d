import Mathlib.Data.List.Basic
import WhichStream.Library.Machine
import WhichStream.UIKit

/-!
The form of `RegisterViewController`: four text fields, and four indicators whose
colours are refreshed only when a field stops being edited.
-/

namespace WhichStream

open EventMachine

inductive Field
  | usernameInput
  | emailInput
  | passInput
  | retypePassInput
  deriving DecidableEq, Repr

structure Indicator where
  backgroundColor : UIColor
  isHidden : Bool
  deriving DecidableEq, Repr

structure RegisterForm where
  usernameInput : Text
  emailInput : Text
  passInput : Text
  retypePassInput : Text
  usernameValid : Indicator
  emailValid : Indicator
  passValid : Indicator
  retypeValid : Indicator
  firstResponder : Option Field
  deriving DecidableEq, Repr

inductive SendEmail
  | createUser (email password : Text)
  | present (alert : Alert)
  deriving DecidableEq, Repr

namespace RegisterForm

-- `setupLayout`.
def loaded : RegisterForm :=
  ⟨[], [], [], [], ⟨.red, true⟩, ⟨.red, true⟩, ⟨.red, true⟩, ⟨.red, true⟩, none⟩

def text (form : RegisterForm) : Field → Text
  | .usernameInput => form.usernameInput
  | .emailInput => form.emailInput
  | .passInput => form.passInput
  | .retypePassInput => form.retypePassInput

def setText (form : RegisterForm) (field : Field) (t : Text) : RegisterForm :=
  match field with
  | .usernameInput => { form with usernameInput := t }
  | .emailInput => { form with emailInput := t }
  | .passInput => { form with passInput := t }
  | .retypePassInput => { form with retypePassInput := t }

def filledIndicator (t : Text) : Indicator :=
  if !t.isEmpty then ⟨.green, false⟩ else ⟨.red, false⟩

def textFieldDidEndEditing (form : RegisterForm) (textField : Field) : RegisterForm :=
  match textField with
  | .usernameInput => { form with usernameValid := filledIndicator form.usernameInput }
  | .emailInput => { form with emailValid := filledIndicator form.emailInput }
  | .passInput =>
    { form with
      passValid := filledIndicator form.passInput
      retypeValid := { form.retypeValid with
        backgroundColor :=
          if form.retypePassInput = form.passInput && !form.retypePassInput.isEmpty then .green
          else .red } }
  | .retypePassInput =>
    { form with
      retypeValid :=
        if !form.retypePassInput.isEmpty then
          if form.retypePassInput = form.passInput then ⟨.green, false⟩ else ⟨.red, false⟩
        else ⟨.red, false⟩ }

def gateOpen (form : RegisterForm) : Bool :=
  form.usernameValid.backgroundColor = .green && form.emailValid.backgroundColor = .green &&
    form.retypeValid.backgroundColor = .green

def sendEmail (form : RegisterForm) : SendEmail :=
  if form.gateOpen then .createUser form.emailInput form.passInput else .present .unableToRegister

def resignFirstResponder (form : RegisterForm) : RegisterForm :=
  match form.firstResponder with
  | none => form
  | some field => { form.textFieldDidEndEditing field with firstResponder := none }

def editingSession (form : RegisterForm) (s : Field × Text) : RegisterForm :=
  (form.setText s.1 s.2).textFieldDidEndEditing s.1

end RegisterForm

inductive FormEvent
  | beginEditing (field : Field)
  | changeText (t : Text)
  | endEditing
  | register

namespace RegisterForm

def step (form : RegisterForm) : FormEvent → Option RegisterForm
  | .beginEditing field =>
    if form.firstResponder = some field then some form
    else some { form.resignFirstResponder with firstResponder := some field }
  | .changeText t => form.firstResponder.map (fun field => form.setText field t)
  | .endEditing => form.firstResponder.map (fun _ => form.resignFirstResponder)
  | .register => some form

def machine : Machine RegisterForm FormEvent := ⟨step⟩

section Texts

variable (form : RegisterForm) (f : Field) (t : Text)

theorem setText_text_other {g : Field} (h : g ≠ f) : (form.setText f t).text g = form.text g := by
  cases f <;> cases g <;> first | rfl | exact absurd rfl h

@[simp] theorem setText_firstResponder :
    (form.setText f t).firstResponder = form.firstResponder := by
  cases f <;> rfl

@[simp] theorem didEndEditing_text : (form.textFieldDidEndEditing f).text = form.text := by
  funext g
  cases f <;> cases g <;> rfl

@[simp] theorem didEndEditing_firstResponder :
    (form.textFieldDidEndEditing f).firstResponder = form.firstResponder := by
  cases f <;> rfl

@[simp] theorem resign_text : form.resignFirstResponder.text = form.text := by
  unfold resignFirstResponder
  split
  · rfl
  · exact didEndEditing_text form _

end Texts

/-- The colours are those of the texts `c`: what each field held when it was last left. -/
structure Mirrors (form : RegisterForm) (c : Field → Text) : Prop where
  username : form.usernameValid.backgroundColor = .green ↔ c .usernameInput ≠ []
  email : form.emailValid.backgroundColor = .green ↔ c .emailInput ≠ []
  password : form.passValid.backgroundColor = .green ↔ c .passInput ≠ []
  retype : form.retypeValid.backgroundColor = .green ↔
    c .retypePassInput ≠ [] ∧ c .retypePassInput = c .passInput

theorem loaded_mirrors : Mirrors loaded loaded.text := by
  constructor <;> simp [loaded, text]

theorem filledIndicator_green (t : Text) :
    (filledIndicator t).backgroundColor = .green ↔ t ≠ [] := by
  cases t <;> simp [filledIndicator]

theorem Mirrors.didEndEditing {form : RegisterForm} {c : Field → Text} {f : Field}
    (h : Mirrors form c) (hc : ∀ g, g ≠ f → c g = form.text g) :
    Mirrors (form.textFieldDidEndEditing f) form.text := by
  obtain ⟨hu, he, hp, hr⟩ := h
  cases f with
  | usernameInput =>
    rw [hc .emailInput (by decide)] at he
    rw [hc .passInput (by decide)] at hp hr
    rw [hc .retypePassInput (by decide)] at hr
    exact ⟨filledIndicator_green _, he, hp, hr⟩
  | emailInput =>
    rw [hc .usernameInput (by decide)] at hu
    rw [hc .passInput (by decide)] at hp hr
    rw [hc .retypePassInput (by decide)] at hr
    exact ⟨hu, filledIndicator_green _, hp, hr⟩
  | passInput =>
    rw [hc .usernameInput (by decide)] at hu
    rw [hc .emailInput (by decide)] at he
    refine ⟨hu, he, filledIndicator_green _, ?_⟩
    simp only [textFieldDidEndEditing, text]
    split_ifs with hg
    · simpa [and_comm] using hg
    · simpa [and_comm] using hg
  | retypePassInput =>
    rw [hc .usernameInput (by decide)] at hu
    rw [hc .emailInput (by decide)] at he
    rw [hc .passInput (by decide)] at hp
    refine ⟨hu, he, hp, ?_⟩
    simp only [textFieldDidEndEditing, text]
    split_ifs with hn hm
    · simpa [hm] using hn
    · simp [hm]
    · have he : form.retypePassInput = [] := by simpa using hn
      simp [he]

theorem gateOpen_iff {form : RegisterForm} {c : Field → Text} (h : Mirrors form c) :
    form.gateOpen = true ↔ c .usernameInput ≠ [] ∧ c .emailInput ≠ [] ∧
      c .retypePassInput ≠ [] ∧ c .retypePassInput = c .passInput := by
  simp only [gateOpen, Bool.and_eq_true, decide_eq_true_eq, h.username, h.email, h.retype, and_assoc]

end RegisterForm

end WhichStream
