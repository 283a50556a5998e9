import MichiServer.Text.Str

/-!
# What decoding keeps of ASCII

Bytes that need not be well formed are decoded to a text with the same ASCII in the same order: each
ASCII byte is its character, and what stands between two of them is other characters
(`shadows_lossy`). So a text says where one ASCII byte follows another (`Shadows.follows`).
-/

namespace MichiServer.Text

/-- The characters are what a decoding of the bytes gives that takes ASCII for itself. -/
inductive Shadows : List UInt8 → List Char → Prop
  | nil : Shadows [] []
  | ascii (b : UInt8) {bytes : List UInt8} {chars : List Char} :
      b < 0x80 → Shadows bytes chars → Shadows (b :: bytes) (Char.ofNat b.toNat :: chars)
  | other (b : UInt8) (more : List UInt8) (c : Char) {bytes : List UInt8} {chars : List Char} :
      (∀ d ∈ b :: more, 0x80 ≤ d) → c.toNat = 0 ∨ 0x80 ≤ c.toNat →
      Shadows bytes chars → Shadows (b :: more ++ bytes) (c :: chars)

/-! ## Well-formed text -/

theorem utf8EncodeChar_high {c : Char} (h : c.utf8Size ≠ 1) :
    ∃ b more, String.utf8EncodeChar c = b :: more ∧ ∀ d ∈ b :: more, 0x80 ≤ d := by
  have hhigh : ∀ x y : UInt8, 0x80 ≤ y → 0x80 ≤ x ||| y :=
    fun x y hy => UInt8.le_trans hy UInt8.right_le_or
  have hpos := c.utf8Size_pos
  have hle := c.utf8Size_le_four
  obtain h2 | h3 | h4 : c.utf8Size = 2 ∨ c.utf8Size = 3 ∨ c.utf8Size = 4 := by omega
  · refine ⟨_, _, String.utf8EncodeChar_eq_cons_cons h2, ?_⟩
    grind
  · refine ⟨_, _, String.utf8EncodeChar_eq_cons_cons_cons h3, ?_⟩
    grind
  · refine ⟨_, _, String.utf8EncodeChar_eq_cons_cons_cons_cons h4, ?_⟩
    grind

theorem utf8Size_eq_one_iff (c : Char) : c.utf8Size = 1 ↔ c.toNat < 0x80 := by
  rw [Char.utf8Size_eq_one_iff, UInt32.le_iff_toNat_le]
  exact Nat.lt_succ_iff.symm

theorem shadows_utf8 (chars : List Char) : Shadows (chars.flatMap String.utf8EncodeChar) chars := by
  induction chars with
  | nil => exact .nil
  | cons c rest ih =>
    rw [List.flatMap_cons]
    by_cases h : c.utf8Size = 1
    · have hlow := (utf8Size_eq_one_iff c).mp h
      have hval : c.val.toUInt8.toNat = c.toNat := by
        rw [UInt32.toNat_toUInt8]
        exact Nat.mod_eq_of_lt (Nat.lt_trans hlow (by decide))
      have hchar : Char.ofNat c.val.toUInt8.toNat = c := by rw [hval, Char.ofNat_toNat]
      rw [String.utf8EncodeChar_eq_singleton h]
      have hshadow := Shadows.ascii c.val.toUInt8 (UInt8.lt_iff_toNat_lt.mpr (hval ▸ hlow)) ih
      rwa [hchar] at hshadow
    · obtain ⟨b, more, hbytes, hhigh⟩ := utf8EncodeChar_high h
      rw [hbytes]
      refine .other b more c hhigh (.inr ?_) ih
      rw [utf8Size_eq_one_iff] at h
      omega

theorem asBytes_eq_flatMap (s : String) :
    asBytes s = s.toList.flatMap String.utf8EncodeChar := by
  rw [asBytes, String.toUTF8]
  conv_lhs => rw [← String.ofList_toList (s := s), String.toByteArray_ofList]
  simp [List.utf8Encode]

theorem asBytes_append (s t : String) : asBytes (s ++ t) = asBytes s ++ asBytes t := by
  simp [asBytes_eq_flatMap]

theorem eq_asBytes_of_fromUtf8 {bytes : List UInt8} {s : String} (h : fromUtf8 bytes = some s) :
    bytes = asBytes s := by
  rw [fromUtf8, String.fromUTF8?] at h
  split at h
  next hvalid =>
    have htext : s.toByteArray = ⟨bytes.toArray⟩ := by rw [← Option.some.inj h]; rfl
    exact (congrArg (fun a => a.data.toList) htext).symm
  · cases h

theorem ofNat_mem_of_mem_asBytes {b : UInt8} (hb : b < 0x80) {s : String} (h : b ∈ asBytes s) :
    Char.ofNat b.toNat ∈ s.toList := by
  rw [asBytes_eq_flatMap, List.mem_flatMap] at h
  obtain ⟨c, hc, hmem⟩ := h
  by_cases hsize : c.utf8Size = 1
  · have hlow := (utf8Size_eq_one_iff c).mp hsize
    rw [String.utf8EncodeChar_eq_singleton hsize, List.mem_singleton] at hmem
    have hval : c.val.toUInt8.toNat = c.toNat := by
      rw [UInt32.toNat_toUInt8]
      exact Nat.mod_eq_of_lt (Nat.lt_trans hlow (by decide))
    rwa [hmem, hval, Char.ofNat_toNat]
  · grind [utf8EncodeChar_high]

/-! ## Text that need not be well formed -/

theorem toNat_ofNat_of_high {n : ℕ} (h : 0x80 ≤ n) :
    (Char.ofNat n).toNat = 0 ∨ 0x80 ≤ (Char.ofNat n).toNat := by
  by_cases hvalid : n.isValidChar
  · right
    rwa [Char.ofNat, dif_pos hvalid]
  · left
    rw [Char.ofNat, dif_neg hvalid]
    rfl

theorem high_of_continuation {b : UInt8} (h : isContinuation b = true) : 0x80 ≤ b := by
  grind [isContinuation]

/-- A second byte that is right is not one of ASCII. -/
theorem high_of_second_byte {b₀ b₁ : UInt8} (h : secondByteOk b₀ b₁ = true) :
    0x80 ≤ b₁ ∧ (b₀ = 0xE0 → 32 ≤ continuationBits b₁) ∧
      (b₀ = 0xF0 → 16 ≤ continuationBits b₁) := by
  have hrange : ∀ lo hi : UInt8, (decide (b₁ ≥ lo) && decide (b₁ ≤ hi)) = true →
      lo.toNat ≤ b₁.toNat ∧ b₁.toNat ≤ hi.toNat := by
    intro lo hi hb
    rw [Bool.and_eq_true, decide_eq_true_eq, decide_eq_true_eq] at hb
    exact ⟨UInt8.le_iff_toNat_le.mp hb.1, UInt8.le_iff_toNat_le.mp hb.2⟩
  simp only [UInt8.le_iff_toNat_le, continuationBits, UInt8.reduceToNat]
  unfold secondByteOk at h
  split at h
  next heq =>
    grind
  next hE0 =>
    split at h
    next heq =>
      grind
    · split at h
      next heq =>
        grind
      next hF0 =>
        have hnot : b₀ ≠ 0xE0 ∧ b₀ ≠ 0xF0 := ⟨by simpa using hE0, by simpa using hF0⟩
        refine ⟨?_, fun hf => absurd hf hnot.1, fun hf => absurd hf hnot.2⟩
        split at h
        · exact (hrange _ _ h).1
        · exact (hrange _ _ h).1

theorem decodeFirst_ascii {b : UInt8} (h : b < 0x80) (rest : List UInt8) :
    decodeFirst b rest = (Char.ofNat b.toNat, 1) := by
  unfold decodeFirst
  rw [if_pos h]

/-- What is decoded of a byte outside ASCII is outside ASCII. -/
theorem decodeFirst_high {b : UInt8} (h : 0x80 ≤ b) (rest : List UInt8) :
    ((decodeFirst b rest).1.toNat = 0 ∨ 0x80 ≤ (decodeFirst b rest).1.toNat) ∧
      ∀ d ∈ rest.take ((decodeFirst b rest).2 - 1), 0x80 ≤ d := by
  have hreplacement : replacement.toNat = 0 ∨ 0x80 ≤ replacement.toNat := .inr (by decide)
  unfold decodeFirst
  rw [if_neg (UInt8.not_lt.mpr h)]
  split
  next h2 =>
    cases rest with
    | nil => exact ⟨hreplacement, by simp⟩
    | cons b₁ rest =>
      simp only
      split
      next h₁ =>
        simp only [Bool.and_eq_true, decide_eq_true_eq, ge_iff_le, UInt8.le_iff_toNat_le,
          UInt8.reduceToNat] at h2
        refine ⟨toNat_ofNat_of_high (by omega), ?_⟩
        simpa using high_of_continuation h₁
      · exact ⟨hreplacement, by simp⟩
  · split
    next h3 =>
      simp only [Bool.and_eq_true, decide_eq_true_eq, ge_iff_le, UInt8.le_iff_toNat_le,
        UInt8.reduceToNat] at h3
      cases rest with
      | nil => exact ⟨hreplacement, by simp⟩
      | cons b₁ rest =>
        simp only
        split
        · exact ⟨hreplacement, by simp⟩
        next h₁ =>
          rw [Bool.not_eq_true, Bool.not_eq_false'] at h₁
          obtain ⟨hhigh, hE0, -⟩ := high_of_second_byte h₁
          cases rest with
          | nil => exact ⟨hreplacement, by simpa using hhigh⟩
          | cons b₂ rest =>
            simp only
            split
            next h₂ =>
              have hvalue : 0x80 ≤ (b.toNat % 16 * 64 + continuationBits b₁) * 64 +
                  continuationBits b₂ := by
                by_cases hb : b = 0xE0
                · have hbits := hE0 hb
                  omega
                · have hne : b.toNat ≠ 0xE0 := fun heq => hb (UInt8.toNat_inj.mp heq)
                  omega
              grind [toNat_ofNat_of_high, high_of_continuation]
            · exact ⟨hreplacement, by simpa using hhigh⟩
    · split
      next h4 =>
        simp only [Bool.and_eq_true, decide_eq_true_eq, ge_iff_le, UInt8.le_iff_toNat_le,
          UInt8.reduceToNat] at h4
        cases rest with
        | nil => exact ⟨hreplacement, by simp⟩
        | cons b₁ rest =>
          simp only
          split
          · exact ⟨hreplacement, by simp⟩
          next h₁ =>
            rw [Bool.not_eq_true, Bool.not_eq_false'] at h₁
            obtain ⟨hhigh, -, hF0⟩ := high_of_second_byte h₁
            cases rest with
            | nil => exact ⟨hreplacement, by simpa using hhigh⟩
            | cons b₂ rest =>
              simp only
              split
              · exact ⟨hreplacement, by simpa using hhigh⟩
              next h₂ =>
                rw [Bool.not_eq_true, Bool.not_eq_false'] at h₂
                have hboth := And.intro hhigh (high_of_continuation h₂)
                cases rest with
                | nil => exact ⟨hreplacement, by simpa using hboth⟩
                | cons b₃ rest =>
                  simp only
                  split
                  next h₃ =>
                    have hvalue : 0x80 ≤ ((b.toNat % 8 * 64 + continuationBits b₁) * 64 +
                        continuationBits b₂) * 64 + continuationBits b₃ := by
                      by_cases hb : b = 0xF0
                      · have hbits := hF0 hb
                        omega
                      · have hne : b.toNat ≠ 0xF0 := fun heq => hb (UInt8.toNat_inj.mp heq)
                        omega
                    grind [toNat_ofNat_of_high, high_of_continuation]
                  · exact ⟨hreplacement, by simpa using hboth⟩
      · exact ⟨hreplacement, by simp⟩

/-- The text shows the ASCII of the bytes, in its order. -/
theorem shadows_decodeLossy (n : ℕ) (bytes : List UInt8) (h : bytes.length ≤ n) :
    Shadows bytes (decodeLossy n bytes) := by
  induction n generalizing bytes with
  | zero =>
    rw [List.length_eq_zero_iff.mp (Nat.le_zero.mp h)]
    exact .nil
  | succ n ih =>
    cases bytes with
    | nil => exact .nil
    | cons b rest =>
      rw [List.length_cons] at h
      have hrest : ∀ k, Shadows (rest.drop k) (decodeLossy n (rest.drop k)) := by
        intro k
        apply ih
        rw [List.length_drop]
        omega
      by_cases hb : b < 0x80
      · have hshadow := Shadows.ascii b hb (hrest 0)
        grind [decodeLossy, decodeFirst_ascii]
      · obtain ⟨hchar, hbytes⟩ := decodeFirst_high (UInt8.not_lt.mp hb) rest
        have hshadow := Shadows.other b _ _ (List.forall_mem_cons.mpr ⟨UInt8.not_lt.mp hb, hbytes⟩)
          hchar (hrest ((decodeFirst b rest).2 - 1))
        rwa [List.cons_append, List.take_append_drop] at hshadow

theorem shadows_lossy (bytes : List UInt8) : Shadows bytes (fromUtf8Lossy bytes).toList := by
  unfold fromUtf8Lossy
  split
  next s h =>
    rw [eq_asBytes_of_fromUtf8 h, asBytes_eq_flatMap]
    exact shadows_utf8 s.toList
  · simp [shadows_decodeLossy]

/-! ## One byte after another -/

def follows {α : Type} [DecidableEq α] (x y : α) : List α → ℕ
  | [] => 0
  | a :: rest => (if a = x ∧ rest.head? = some y then 1 else 0) + follows x y rest

theorem follows_append {α : Type} [DecidableEq α] (x y : α) (front back : List α) :
    follows x y (front ++ back) = follows x y front + follows x y back +
      if front.getLast? = some x ∧ back.head? = some y then 1 else 0 := by
  induction front with
  | nil => simp [follows]
  | cons a rest ih =>
    cases rest with
    | nil =>
      grind [follows]
    | cons b more =>
      grind [follows]

theorem follows_of_not_mem {α : Type} [DecidableEq α] {x : α} (y : α) {items : List α}
    (h : x ∉ items) : follows x y items = 0 := by
  induction items with
  | nil => rfl
  | cons a rest ih =>
    grind [follows]

section

variable {x y : UInt8}

theorem ofNat_toNat_eq_iff {b : UInt8} (hb : b < 0x80) (hx : x < 0x80) :
    Char.ofNat b.toNat = Char.ofNat x.toNat ↔ b = x := by
  have hvalid : ∀ d : UInt8, d < 0x80 → (Char.ofNat d.toNat).toNat = d.toNat := by
    intro d hd
    have hlt : d.toNat < 0x80 := UInt8.lt_iff_toNat_lt.mp hd
    rw [Char.ofNat, dif_pos (.inl (by omega))]
    rfl
  constructor
  · intro h
    have hnat := congrArg Char.toNat h
    rw [hvalid b hb, hvalid x hx] at hnat
    exact UInt8.toNat_inj.mp hnat
  · rintro rfl
    rfl

theorem other_ne {c : Char} (hc : c.toNat = 0 ∨ 0x80 ≤ c.toNat) (hx : x < 0x80) (hx0 : x ≠ 0) :
    c ≠ Char.ofNat x.toNat := by
  rintro rfl
  have hlt : x.toNat < 0x80 := UInt8.lt_iff_toNat_lt.mp hx
  have hpos : x.toNat ≠ 0 := fun h => hx0 (UInt8.toNat_inj.mp h)
  have hnat : (Char.ofNat x.toNat).toNat = x.toNat := by
    rw [Char.ofNat, dif_pos (.inl (by omega))]
    rfl
  omega

theorem Shadows.head {bytes : List UInt8} {chars : List Char} (h : Shadows bytes chars)
    (hy : y < 0x80) (hy0 : y ≠ 0) :
    bytes.head? = some y ↔ chars.head? = some (Char.ofNat y.toNat) := by
  cases h with
  | nil => simp
  | ascii b hb _ => simp [ofNat_toNat_eq_iff hb hy]
  | other b more c hhigh hc _ =>
    have hb : b ≠ y := by
      rintro rfl
      exact UInt8.not_lt.mpr (hhigh b List.mem_cons_self) hy
    simp [hb, other_ne hc hy hy0]

theorem follows_high {high : List UInt8} (h : ∀ d ∈ high, 0x80 ≤ d) (hx : x < 0x80)
    (bytes : List UInt8) : follows x y (high ++ bytes) = follows x y bytes := by
  induction high with
  | nil => rfl
  | cons b rest ih =>
    rw [List.forall_mem_cons] at h
    grind [follows]

theorem Shadows.follows {bytes : List UInt8} {chars : List Char} (h : Shadows bytes chars)
    (hx : x < 0x80) (hx0 : x ≠ 0) (hy : y < 0x80) (hy0 : y ≠ 0) :
    Text.follows (Char.ofNat x.toNat) (Char.ofNat y.toNat) chars = Text.follows x y bytes := by
  induction h with
  | nil => rfl
  | ascii b hb hrest ih =>
    simp only [Text.follows, ofNat_toNat_eq_iff hb hx, hrest.head hy hy0, ih]
  | other b more c hhigh hc hrest ih =>
    grind [follows_high, Text.follows, other_ne]

end

end MichiServer.Text
