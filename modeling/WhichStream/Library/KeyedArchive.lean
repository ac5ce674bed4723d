import Mathlib.Data.Rat.Init
import Mathlib.Tactic.SplitIfs

/-!
Archives of values under keys. An absent value is written as a null, which a reader tells
from a key that was never written only by asking for the key.
-/

namespace KeyedArchives

inductive Coded
  | null
  | bool (b : Bool)
  | string (s : String)
  | url (s : String)
  | date (d : ℚ)
  | object (fields : List (String × Coded))
  | dictionary (entries : List (String × Coded))

abbrev Archive := List (String × Coded)

class Codable (α : Type*) where
  encode : α → Coded
  decode : Coded → Option α
  decode_encode : ∀ a, decode (encode a) = some a
  decode_null : decode .null = none

export Codable (encode decode decode_encode decode_null)

attribute [simp] decode_encode decode_null

instance : Codable String where
  encode := .string
  decode
    | .string s => some s
    | _ => none
  decode_encode _ := rfl
  decode_null := rfl

instance : Codable ℚ where
  encode := .date
  decode
    | .date d => some d
    | _ => none
  decode_encode _ := rfl
  decode_null := rfl

structure NSURL where
  absoluteString : String
  deriving DecidableEq, Repr

instance : Codable NSURL where
  encode u := .url u.absoluteString
  decode
    | .url s => some ⟨s⟩
    | _ => none
  decode_encode _ := rfl
  decode_null := rfl

section Dictionaries

variable {α : Type*} [Codable α]

def decodeEntry (entry : String × Coded) : Option (String × α) :=
  (decode entry.2).map (fun a => (entry.1, a))

theorem decodeEntries (entries : List (String × α)) :
    (entries.map (fun entry => (entry.1, encode entry.2))).mapM decodeEntry = some entries := by
  induction entries with
  | nil => rfl
  | cons entry entries ih =>
    rw [List.map_cons, List.mapM_cons, ih]
    simp [decodeEntry]

instance : Codable (List (String × α)) where
  encode entries := .dictionary (entries.map (fun entry => (entry.1, encode entry.2)))
  decode
    | .dictionary entries => entries.mapM decodeEntry
    | _ => none
  decode_encode := decodeEntries
  decode_null := rfl

end Dictionaries

instance : Codable Archive where
  encode := .object
  decode
    | .object fields => some fields
    | _ => none
  decode_encode _ := rfl
  decode_null := rfl

namespace Archive

variable {α : Type*} [Codable α]

def containsValueForKey (a : Archive) (key : String) : Bool := (a.lookup key).isSome

def decodeObject (a : Archive) (key : String) : Option α := (a.lookup key).bind decode

def decodeBool (a : Archive) (key : String) : Bool :=
  match a.lookup key with
  | some (.bool b) => b
  | _ => false

def encodeObject (a : Archive) (v : Option α) (key : String) : Archive :=
  (key, (v.map encode).getD .null) :: a

def encodeBool (a : Archive) (b : Bool) (key : String) : Archive := (key, .bool b) :: a

-- The archive of a writer that did not know of `key`.
def without (a : Archive) (key : String) : Archive := a.filter (fun entry => entry.1 != key)

@[simp] theorem decodeObject_encodeObject (a : Archive) (v : Option α) (key : String) :
    (a.encodeObject v key).decodeObject key = v := by
  unfold decodeObject encodeObject
  rw [List.lookup_cons_self]
  cases v <;> simp

@[simp] theorem decodeBool_encodeBool (a : Archive) (b : Bool) (key : String) :
    (a.encodeBool b key).decodeBool key = b := by
  unfold decodeBool encodeBool
  rw [List.lookup_cons_self]

@[simp] theorem containsValueForKey_encodeBool (a : Archive) (b : Bool) (key : String) :
    (a.encodeBool b key).containsValueForKey key = true := by
  unfold containsValueForKey encodeBool
  rw [List.lookup_cons_self]
  rfl

section OtherKeys

variable {key other : String} (h : other ≠ key)

include h

theorem lookup_cons_ne (a : Archive) (c : Coded) :
    List.lookup other ((key, c) :: a) = List.lookup other a := by
  rw [List.lookup_cons, beq_eq_false_iff_ne.mpr h]

@[simp] theorem decodeObject_encodeObject_ne {β : Type*} [Codable β] (a : Archive) (v : Option β) :
    (a.encodeObject v key).decodeObject other = (a.decodeObject other : Option α) :=
  congrArg (fun c => Option.bind c decode) (lookup_cons_ne h a _)

@[simp] theorem decodeObject_encodeBool (a : Archive) (b : Bool) :
    (a.encodeBool b key).decodeObject other = (a.decodeObject other : Option α) :=
  congrArg (fun c => Option.bind c decode) (lookup_cons_ne h a _)

@[simp] theorem decodeBool_encodeObject (a : Archive) (v : Option α) :
    (a.encodeObject v key).decodeBool other = a.decodeBool other := by
  unfold decodeBool encodeObject
  rw [lookup_cons_ne h]

@[simp] theorem decodeBool_encodeBool_ne (a : Archive) (b : Bool) :
    (a.encodeBool b key).decodeBool other = a.decodeBool other := by
  unfold decodeBool encodeBool
  rw [lookup_cons_ne h]

@[simp] theorem containsValueForKey_encodeObject (a : Archive) (v : Option α) :
    (a.encodeObject v key).containsValueForKey other = a.containsValueForKey other :=
  congrArg Option.isSome (lookup_cons_ne h a _)

@[simp] theorem containsValueForKey_encodeBool_ne (a : Archive) (b : Bool) :
    (a.encodeBool b key).containsValueForKey other = a.containsValueForKey other :=
  congrArg Option.isSome (lookup_cons_ne h a _)

theorem lookup_without (a : Archive) : (a.without key).lookup other = a.lookup other := by
  induction a with
  | nil => rfl
  | cons entry a ih =>
    unfold without at ih ⊢
    rw [List.filter_cons]
    split_ifs with hkey
    · rw [List.lookup_cons, List.lookup_cons, ih]
    · obtain ⟨k, c⟩ := entry
      obtain rfl : k = key := by simpa using hkey
      rw [ih, lookup_cons_ne h]

@[simp] theorem decodeObject_without (a : Archive) :
    (a.without key).decodeObject other = (a.decodeObject other : Option α) :=
  congrArg (fun c => Option.bind c decode) (lookup_without h a)

@[simp] theorem decodeBool_without (a : Archive) :
    (a.without key).decodeBool other = a.decodeBool other := by
  unfold decodeBool
  rw [lookup_without h]

end OtherKeys

@[simp] theorem containsValueForKey_without (a : Archive) (key : String) :
    (a.without key).containsValueForKey key = false := by
  induction a with
  | nil => rfl
  | cons entry a ih =>
    unfold without containsValueForKey at ih ⊢
    rw [List.filter_cons]
    split_ifs with hkey
    · obtain ⟨k, c⟩ := entry
      have hne : key ≠ k := fun h => by simp [h] at hkey
      rw [lookup_cons_ne hne, ih]
    · exact ih

end Archive

end KeyedArchives
