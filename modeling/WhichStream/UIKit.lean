import Mathlib.Data.Rat.Defs

/-!
What the screens use of UIKit and of Swift's strings. A `Character` is a grapheme
cluster, given by the scalars of its canonical decomposition, so that equality of
texts is Swift's and `count` counts what Swift counts.
-/

namespace WhichStream

structure Character where
  scalars : List Char
  deriving DecidableEq, Repr

abbrev Text := List Character

def Text.count (t : Text) : ℕ := t.length

inductive UIColor
  | clear
  | red
  | green
  | white
  | black
  deriving DecidableEq, Repr

structure NSLayoutConstraint where
  constant : ℚ
  isActive : Bool
  deriving DecidableEq, Repr

structure UIButton where
  title : String
  titleColor : UIColor
  centerX : ℚ
  deriving DecidableEq, Repr

inductive Alert
  | typeCredentials
  | invalidCredentials
  | verifyAccount
  | resendFailed
  | emailSent
  | sendFailed
  | verifyEmail
  | invalidPassword
  | signUpError
  | unableToRegister
  deriving DecidableEq, Repr

def Alert.title : Alert → String
  | .typeCredentials => "Error"
  | .invalidCredentials => "Error"
  | .verifyAccount => "Verify your account"
  | .resendFailed => "Error"
  | .emailSent => "Email Sent"
  | .sendFailed => "Error"
  | .verifyEmail => "Verify your email"
  | .invalidPassword => "Invalid Password"
  | .signUpError => "Error signing up"
  | .unableToRegister => "Unable to Register"

def Alert.message : Alert → String
  | .typeCredentials => "Please type in your email and password"
  | .invalidCredentials => "Invalid email or password. Please check your input and try again"
  | .verifyAccount => "Would you like us to send you the verification email again?"
  | .resendFailed => "Failed to send the verification email. Please try logging in again and we will try sending you a verification email."
  | .emailSent => "We have sent you a verification email. Check your inbox and spam folder; if you don't receive the email, try logging in again and we will send you a new verification email."
  | .sendFailed => "Failed to send the verification email. Try logging in and we will try sending you a verification email again."
  | .verifyEmail => "We have just sent you an email. Please verify your email address to start using Wh!ch"
  | .invalidPassword => "Passwords must be at least 6 characters long"
  | .signUpError => "An error has occurred. Please check your internet connection and try again"
  | .unableToRegister => "One or more fields are invalid. Please check your input and try again."

theorem Alert.texts_injective : Function.Injective (fun a : Alert => (a.title, a.message)) := by
  intro a b h
  have ht : a.title = b.title := congrArg Prod.fst h
  have hm : a.message = b.message := congrArg Prod.snd h
  cases a <;> cases b <;> simp only [Alert.title, String.reduceEq] at ht ⊢
  all_goals simp [Alert.message] at hm

end WhichStream
