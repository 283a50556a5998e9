import Mathlib.Data.Nat.Notation
import Mathlib.Data.List.Basic

/-!
# Strings as the standard library searches and cuts them

The methods of `str` that the model needs, on the characters of a `String`, and its bytes.
-/

namespace MichiServer.Text

/-- What stands before and after the first occurrence, as `find` finds it. -/
def splitAtFirst (pat : List Char) : List Char → Option (List Char × List Char)
  | [] => if pat.isEmpty then some ([], []) else none
  | c :: rest =>
    if pat.isPrefixOf (c :: rest) then some ([], (c :: rest).drop pat.length)
    else (splitAtFirst pat rest).map fun r => (c :: r.1, r.2)

def contains (s pat : String) : Bool := (splitAtFirst pat.toList s.toList).isSome

def startsWith (s pat : String) : Bool := pat.toList.isPrefixOf s.toList

def endsWith (s pat : String) : Bool := pat.toList.isSuffixOf s.toList

def stripPrefix (s pat : String) : Option String :=
  if startsWith s pat then some (String.ofList (s.toList.drop pat.toList.length)) else none

/-- `char::isWhitespace`: the characters with the property White_Space. -/
def isWhitespace (c : Char) : Bool :=
  let n := c.toNat
  (9 ≤ n && n ≤ 13) || n == 0x20 || n == 0x85 || n == 0xA0 || n == 0x1680 ||
    (0x2000 ≤ n && n ≤ 0x200A) || n == 0x2028 || n == 0x2029 || n == 0x202F || n == 0x205F ||
    n == 0x3000

def trim (s : String) : String :=
  String.ofList ((s.toList.dropWhile isWhitespace).reverse.dropWhile isWhitespace).reverse

def eqIgnoreAsciiCase (s t : String) : Bool :=
  s.toList.map Char.toLower == t.toList.map Char.toLower

def asBytes (s : String) : List UInt8 := s.toUTF8.data.toList

def fromUtf8 (bytes : List UInt8) : Option String := String.fromUTF8? ⟨bytes.toArray⟩

def replacement : Char := '\uFFFD'

def isContinuation (b : UInt8) : Bool := b ≥ 0x80 && b ≤ 0xBF

/-- The second byte of a character of three or four bytes, by its first. -/
def secondByteOk (b₀ b₁ : UInt8) : Bool :=
  if b₀ == 0xE0 then b₁ ≥ 0xA0 && b₁ ≤ 0xBF
  else if b₀ == 0xED then b₁ ≥ 0x80 && b₁ ≤ 0x9F
  else if b₀ == 0xF0 then b₁ ≥ 0x90 && b₁ ≤ 0xBF
  else if b₀ == 0xF4 then b₁ ≥ 0x80 && b₁ ≤ 0x8F
  else isContinuation b₁

def continuationBits (b : UInt8) : ℕ := b.toNat % 64

/-- The first character of some bytes and how many bytes it takes. Where they are not well formed the
longest part that could begin a character is taken for one replacement. -/
def decodeFirst (b₀ : UInt8) (rest : List UInt8) : Char × ℕ :=
  if b₀ < 0x80 then (Char.ofNat b₀.toNat, 1)
  else if b₀ ≥ 0xC2 && b₀ ≤ 0xDF then
    match rest with
    | b₁ :: _ =>
      if isContinuation b₁ then (Char.ofNat (b₀.toNat % 32 * 64 + continuationBits b₁), 2)
      else (replacement, 1)
    | [] => (replacement, 1)
  else if b₀ ≥ 0xE0 && b₀ ≤ 0xEF then
    match rest with
    | b₁ :: rest =>
      if !secondByteOk b₀ b₁ then (replacement, 1)
      else
        match rest with
        | b₂ :: _ =>
          if isContinuation b₂ then
            (Char.ofNat ((b₀.toNat % 16 * 64 + continuationBits b₁) * 64 + continuationBits b₂), 3)
          else (replacement, 2)
        | [] => (replacement, 2)
    | [] => (replacement, 1)
  else if b₀ ≥ 0xF0 && b₀ ≤ 0xF4 then
    match rest with
    | b₁ :: rest =>
      if !secondByteOk b₀ b₁ then (replacement, 1)
      else
        match rest with
        | b₂ :: rest =>
          if !isContinuation b₂ then (replacement, 2)
          else
            match rest with
            | b₃ :: _ =>
              if isContinuation b₃ then
                (Char.ofNat (((b₀.toNat % 8 * 64 + continuationBits b₁) * 64 +
                  continuationBits b₂) * 64 + continuationBits b₃), 4)
              else (replacement, 3)
            | [] => (replacement, 3)
        | [] => (replacement, 2)
    | [] => (replacement, 1)
  else (replacement, 1)

/-- The characters of bytes that need not be well formed; the first argument is at least their
number. -/
def decodeLossy : ℕ → List UInt8 → List Char
  | 0, _ => []
  | _, [] => []
  | n + 1, b :: rest =>
    let (c, len) := decodeFirst b rest
    c :: decodeLossy n (rest.drop (len - 1))

def fromUtf8Lossy (bytes : List UInt8) : String :=
  match fromUtf8 bytes with
  | some s => s
  | none => String.ofList (decodeLossy bytes.length bytes)

theorem stripPrefix_append (pat s : String) : stripPrefix (pat ++ s) pat = some s := by
  simp [stripPrefix, startsWith]

theorem fromUtf8_asBytes (s : String) : fromUtf8 (asBytes s) = some s := by
  have hbytes : (⟨(asBytes s).toArray⟩ : ByteArray) = s.toByteArray := by
    simp [asBytes]
  rw [fromUtf8, hbytes, String.fromUTF8?, dif_pos s.isValidUTF8]
  rfl

theorem fromUtf8Lossy_asBytes (s : String) : fromUtf8Lossy (asBytes s) = s := by
  rw [fromUtf8Lossy, fromUtf8_asBytes]

theorem asBytes_inj {s t : String} (h : asBytes s = asBytes t) : s = t := by
  grind [fromUtf8_asBytes]

theorem asBytes_of_ascii {chars : List Char} (h : ∀ c ∈ chars, c.utf8Size = 1) :
    asBytes (String.ofList chars) = chars.map fun c => c.val.toUInt8 := by
  have hencode : chars.flatMap String.utf8EncodeChar = chars.map fun c => c.val.toUInt8 := by
    induction chars with
    | nil => rfl
    | cons c rest ih =>
      rw [List.forall_mem_cons] at h
      rw [List.flatMap_cons, List.map_cons, String.utf8EncodeChar_eq_singleton h.1, ih h.2]
      rfl
  rw [← hencode]
  simp [asBytes, List.utf8Encode]

theorem eqIgnoreAsciiCase_refl (s : String) : eqIgnoreAsciiCase s s = true := by
  simp [eqIgnoreAsciiCase]

theorem eqIgnoreAsciiCase_trans {s t u : String} (hst : eqIgnoreAsciiCase s t = true)
    (htu : eqIgnoreAsciiCase t u = true) : eqIgnoreAsciiCase s u = true := by
  grind [eqIgnoreAsciiCase]

theorem isDigit_of_mem_toString {n : ℕ} {c : Char} (h : c ∈ (toString n).toList) :
    c.isDigit = true := by
  rw [Nat.toString_eq_ofList_toDigits, String.toList_ofList] at h
  exact Nat.isDigit_of_mem_toDigits (by decide) (by decide) h

theorem toString_inj {m n : ℕ} : (toString m).toList = (toString n).toList ↔ m = n := by
  constructor
  · intro h
    rw [Nat.toString_eq_ofList_toDigits, Nat.toString_eq_ofList_toDigits, String.toList_ofList,
      String.toList_ofList] at h
    rw [← Nat.ofDigitChars_ten_toDigits (n := m), h, Nat.ofDigitChars_ten_toDigits]
  · exact fun h => by rw [h]

end MichiServer.Text
