import Mathlib.Tactic.NormNum
import Mathlib.Data.Int.Notation

/-!
# JSON documents

What a document holds is read by kind, and a structure is read from it field by field: from an object
by the names of the fields, or from an array by their places, as derived decoders do. A field may be
required or have a default; a document with one field twice, or an array that is too long, is no
structure. `mapM_written` is the law of round trips through lists.
-/

set_option autoImplicit false

namespace MichiServer.Logic

/-- A JSON document. A number is an integer or, with the bits of its value, a float. -/
inductive Json where
  | null
  | bool (b : Bool)
  | number (n : ℤ)
  | float (bits : UInt64)
  | string (s : String)
  | array (elements : List Json)
  | object (members : List (String × Json))

namespace Json

variable {α β : Type}

/-- The member of an object under a name. -/
def get (name : String) : Json → Option Json
  | .object members => (members.find? fun m => m.1 = name).map Prod.snd
  | _ => none

def asArray : Json → Option (List Json)
  | .array elements => some elements
  | _ => none

def asStr : Json → Option String
  | .string s => some s
  | _ => none

def asBool : Json → Option Bool
  | .bool b => some b
  | _ => none

/-- An integer of 64 bits without a sign. -/
def asU64 : Json → Option ℕ
  | .number n => if 0 ≤ n ∧ n < 2 ^ 64 then some n.toNat else none
  | _ => none

/-- What a document decodes to. -/
abbrev Decoder (α : Type) := Json → Option α

def u32 : Decoder UInt32
  | .number n => if 0 ≤ n ∧ n < 2 ^ 32 then some (.ofNat n.toNat) else none
  | _ => none

def u8 : Decoder UInt8
  | .number n => if 0 ≤ n ∧ n < 2 ^ 8 then some (.ofNat n.toNat) else none
  | _ => none

/-- Every element decodes. -/
def list (decode : Decoder α) : Decoder (List α)
  | .array elements => elements.mapM decode
  | _ => none

/-- What a document has for a field: nothing is also an answer. -/
def field (place : ℕ) (name : String) : Json → Option (Option Json)
  | .array elements => some elements[place]?
  | .object members =>
    match members.filter fun m => m.1 = name with
    | [] => some none
    | [m] => some (some m.2)
    | _ => none
  | _ => none

/-- A field that has to be there. -/
def required (place : ℕ) (name : String) (decode : Decoder α) (j : Json) : Option α :=
  (j.field place name).bind fun v => v.bind decode

/-- A field that may be left out. -/
def defaulted (place : ℕ) (name : String) (decode : Decoder α) (default : α) (j : Json) : Option α :=
  (j.field place name).bind fun v =>
    match v with
    | some v => decode v
    | none => some default

/-- An array has no more elements than the structure has fields. -/
def fits (count : ℕ) : Json → Bool
  | .array elements => elements.length ≤ count
  | _ => true

@[simp] theorem u32_toNat (n : UInt32) : u32 (.number n.toNat) = some n := by
  have hlt : (n.toNat : ℤ) < 2 ^ 32 := by exact_mod_cast n.toNat_lt
  rw [u32, if_pos ⟨Int.natCast_nonneg _, hlt⟩, Int.toNat_natCast, UInt32.ofNat_toNat]

@[simp] theorem u8_toNat (n : UInt8) : u8 (.number n.toNat) = some n := by
  have hlt : (n.toNat : ℤ) < 2 ^ 8 := by exact_mod_cast n.toNat_lt
  rw [u8, if_pos ⟨Int.natCast_nonneg _, hlt⟩, Int.toNat_natCast, UInt8.ofNat_toNat]

@[simp] theorem asStr_string (s : String) : asStr (.string s) = some s := rfl

/-- Values that decode one by one decode as a list. -/
theorem mapM_written {decode : β → Option α} {write : α → β} (h : ∀ a, decode (write a) = some a)
    (as : List α) : (as.map write).mapM decode = some as := by
  induction as with
  | nil => rfl
  | cons a as ih =>
    rw [List.map_cons, List.mapM_cons, h, ih]
    rfl

theorem list_written {decode : Decoder α} {write : α → Json} (h : ∀ a, decode (write a) = some a)
    (as : List α) : list decode (.array (as.map write)) = some as :=
  mapM_written h as

end Json

end MichiServer.Logic
