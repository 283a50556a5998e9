import Mathlib
import MichiServer.Text.Str

/-!
# White space around a text

`trim` cuts the white space at the two ends of a text. What is left is determined by any character that
is not white space: on its left the text loses what it begins with, on its right what it ends with
(`trimChars_append_cons`).
-/

namespace MichiServer.Text

section

section

def Blank (l : List Char) : Prop := ∀ c ∈ l, isWhitespace c = true

instance (l : List Char) : Decidable (Blank l) := inferInstanceAs (Decidable (∀ c ∈ l, _))

def trimStart (l : List Char) : List Char := l.dropWhile isWhitespace

def trimEnd (l : List Char) : List Char := l.rdropWhile isWhitespace

def trimChars (l : List Char) : List Char := trimEnd (trimStart l)

theorem trim_eq (s : String) : trim s = String.ofList (trimChars s.toList) := rfl

theorem toList_trim (s : String) : (trim s).toList = trimChars s.toList := by
  rw [trim_eq, String.toList_ofList]

variable {a b front back l : List Char} {c : Char}

theorem Blank.append (ha : Blank a) (hb : Blank b) : Blank (a ++ b) :=
  fun c hc => (List.mem_append.mp hc).elim (ha c) (hb c)

theorem blank_nil : Blank [] := by simp [Blank]

/-! ## The two ends -/

theorem trimStart_append_cons (hc : isWhitespace c = false) :
    trimStart (a ++ c :: b) = trimStart a ++ c :: b := by
  have hstop : (c :: b).dropWhile isWhitespace = c :: b := List.dropWhile_cons_of_neg (by simp [hc])
  rw [trimStart, List.dropWhile_append, hstop]
  simp [trimStart]

theorem trimEnd_append_cons (hc : isWhitespace c = false) :
    trimEnd (a ++ c :: b) = a ++ c :: trimEnd b := by
  have hback := trimStart_append_cons (a := b.reverse) (b := a.reverse) hc
  simp only [trimStart] at hback
  simp [trimEnd, List.rdropWhile, hback]

theorem exists_trimStart (l : List Char) : ∃ front, Blank front ∧ l = front ++ trimStart l := by
  refine ⟨l.takeWhile isWhitespace, fun c hc => List.mem_takeWhile_imp hc, ?_⟩
  exact List.takeWhile_append_dropWhile.symm

theorem exists_trimEnd (l : List Char) : ∃ back, Blank back ∧ l = trimEnd l ++ back := by
  refine ⟨l.rtakeWhile isWhitespace, fun c hc => List.mem_rtakeWhile_imp hc, ?_⟩
  exact List.rdropWhile_append_rtakeWhile.symm

theorem exists_trimChars (l : List Char) :
    ∃ front back, Blank front ∧ Blank back ∧ l = front ++ trimChars l ++ back := by
  obtain ⟨front, hfront, hl⟩ := exists_trimStart l
  obtain ⟨back, hback, hmid⟩ := exists_trimEnd (trimStart l)
  grind [trimChars]

theorem trimStart_of_blank (hfront : Blank front) : trimStart (front ++ l) = trimStart l :=
  List.dropWhile_append_of_pos hfront

theorem trimEnd_of_blank (hback : Blank back) : trimEnd (l ++ back) = trimEnd l := by
  rw [trimEnd, List.rdropWhile, List.reverse_append, List.dropWhile_append_of_pos]
  · rfl
  · exact fun c hc => hback c (List.mem_reverse.mp hc)

/-! ## The whole -/

theorem trimChars_eq_nil_iff : trimChars l = [] ↔ Blank l := by
  constructor
  · intro h
    obtain ⟨front, back, hfront, hback, hl⟩ := exists_trimChars l
    rw [h, List.append_nil] at hl
    rw [hl]
    exact hfront.append hback
  · intro h
    rw [trimChars, trimStart, List.dropWhile_eq_nil_iff.mpr h]
    rfl

theorem trimChars_append_cons (hc : isWhitespace c = false) :
    trimChars (a ++ c :: b) = trimStart a ++ c :: trimEnd b := by
  rw [trimChars, trimStart_append_cons hc, trimEnd_append_cons hc]

theorem exists_solid (h : ¬ Blank l) : ∃ a c b, l = a ++ c :: b ∧ isWhitespace c = false := by
  simp only [Blank, not_forall, Bool.not_eq_true] at h
  obtain ⟨c, hmem, hc⟩ := h
  obtain ⟨a, b, rfl⟩ := List.append_of_mem hmem
  exact ⟨a, c, b, rfl, hc⟩

@[simp] theorem trimChars_of_blank_left (hfront : Blank front) :
    trimChars (front ++ l) = trimChars l := by
  rw [trimChars, trimStart_of_blank hfront]
  rfl

@[simp] theorem trimChars_of_blank_right (hback : Blank back) :
    trimChars (l ++ back) = trimChars l := by
  by_cases hl : Blank l
  · rw [trimChars_eq_nil_iff.mpr hl, trimChars_eq_nil_iff.mpr (hl.append hback)]
  · grind [exists_solid, trimChars_append_cons, trimEnd_of_blank]

theorem trimChars_trimStart (l : List Char) : trimChars (trimStart l) = trimChars l := by
  obtain ⟨front, hfront, hl⟩ := exists_trimStart l
  conv_rhs => rw [hl, trimChars_of_blank_left hfront]

theorem trimChars_trimEnd (l : List Char) : trimChars (trimEnd l) = trimChars l := by
  obtain ⟨back, hback, hl⟩ := exists_trimEnd l
  conv_rhs => rw [hl, trimChars_of_blank_right hback]

theorem trimChars_trimChars (l : List Char) : trimChars (trimChars l) = trimChars l := by
  conv_lhs => rw [trimChars.eq_def l, trimChars_trimEnd, trimChars_trimStart]

theorem trimChars_of_solid (h : ∀ c ∈ l, isWhitespace c = false) : trimChars l = l := by
  have hnot : ∀ c ∈ l, ¬ isWhitespace c = true := fun c hc => by simp [h c hc]
  have hstart : trimStart l = l := by
    cases l with
    | nil => rfl
    | cons c rest => exact List.dropWhile_cons_of_neg (hnot c List.mem_cons_self)
  rw [trimChars, hstart, trimEnd, List.rdropWhile_eq_self_iff]
  exact fun hne => hnot _ (List.getLast_mem hne)

/-- A text is trimmed already where it is not blank at its ends. -/
theorem trimChars_eq_self_iff : trimChars l = l ↔
    (∀ c ∈ l.head?, isWhitespace c = false) ∧ ∀ c ∈ l.getLast?, isWhitespace c = false := by
  constructor
  · intro h
    constructor
    · intro c hc
      have hstart : trimStart l = l := by
        have hlength := congrArg List.length h
        have hle := (List.rdropWhile_prefix isWhitespace (trimStart l)).length_le
        exact (List.dropWhile_suffix isWhitespace).eq_of_length_le (hlength ▸ hle)
      have hhead := List.head?_dropWhile_not isWhitespace l
      rw [← trimStart, hstart, hc] at hhead
      exact hhead
    · intro c hc
      obtain ⟨hne, hlast⟩ := List.mem_getLast?_eq_getLast hc
      have hnot := List.rdropWhile_last_not isWhitespace (trimStart l)
      grind [trimEnd, trimChars]
  · rintro ⟨hhead, hlast⟩
    have hstart : trimStart l = l := by
      cases l with
      | nil => rfl
      | cons c rest => exact List.dropWhile_cons_of_neg (by simp [hhead c rfl])
    rw [trimChars, hstart, trimEnd, List.rdropWhile_eq_self_iff]
    intro hne
    simp [hlast _ (List.getLast?_eq_some_getLast hne)]

end

/-!
## Unsigned integers in decimal

What `str::parse` reads as an unsigned integer: decimal digits, after a plus sign if there is one, of a
value that the type can hold.
-/

def digits (l : List Char) : Option ℕ :=
  if l.isEmpty || !l.all Char.isDigit then none else some (Nat.ofDigitChars 10 l 0)

def parseUint (bits : ℕ) (l : List Char) : Option ℕ :=
  (digits (if l.head? = some '+' then l.drop 1 else l)).filter fun n => n < 2 ^ bits

structure Decimal (digits : List Char) (n : ℕ) : Prop where
  nonempty : digits ≠ []
  all_digits : ∀ c ∈ digits, c.isDigit = true
  value : Nat.ofDigitChars 10 digits 0 = n

variable {bits n : ℕ} {l : List Char}

theorem digits_eq_some_iff : digits l = some n ↔ Decimal l n := by
  unfold digits
  split
  next hbad =>
    refine iff_of_false (by simp) fun h => ?_
    have hdigits := List.all_eq_true.mpr h.all_digits
    simp [h.nonempty, hdigits] at hbad
  next hok =>
    simp only [Bool.or_eq_true, List.isEmpty_iff, Bool.not_eq_true', not_or, Bool.not_eq_false,
      List.all_eq_true] at hok
    exact ⟨fun h => ⟨hok.1, hok.2, Option.some.inj h⟩, fun h => congrArg some h.value⟩

theorem parseUint_eq_some_iff (hsign : '+' ∉ l) :
    parseUint bits l = some n ↔ Decimal l n ∧ n < 2 ^ bits := by
  have hhead : l.head? ≠ some '+' := fun h => hsign (List.mem_of_mem_head? h)
  rw [parseUint, if_neg hhead, Option.filter_eq_some_iff, digits_eq_some_iff, decide_eq_true_eq]

theorem parseUint_lt (h : parseUint bits l = some n) : n < 2 ^ bits :=
  of_decide_eq_true (Option.filter_eq_some_iff.mp h).2

theorem isDigit_plus : '+'.isDigit = false := by decide

theorem Decimal.no_sign (h : Decimal l n) : '+' ∉ l := by
  intro hmem
  have hdigit := h.all_digits '+' hmem
  simp [isDigit_plus] at hdigit

theorem Decimal.parseUint (h : Decimal l n) (hlt : n < 2 ^ bits) : parseUint bits l = some n :=
  (parseUint_eq_some_iff h.no_sign).mpr ⟨h, hlt⟩

theorem solid_of_isDigit {c : Char} (h : c.isDigit = true) : isWhitespace c = false := by
  have hrange : 48 ≤ c.toNat ∧ c.toNat ≤ 57 := Char.isDigit_iff_toNat.mp h
  grind [isWhitespace]

theorem Decimal.trimChars (h : Decimal l n) : trimChars l = l :=
  trimChars_of_solid fun c hc => solid_of_isDigit (h.all_digits c hc)

theorem decimal_toString (n : ℕ) : Decimal (toString n).toList n where
  nonempty := by
    simp
  all_digits := fun _ hc => isDigit_of_mem_toString hc
  value := by
    simp

end

/-!
## The lines of a text

`str::lines`: a line ends at a newline, which is taken off with a carriage return in front of it. The
last line need not be ended.
-/

/-- `splitInclusive`, at a character: each piece but the last ends with it. -/
def splitInclusive (c : Char) : List Char → List (List Char)
  | [] => []
  | d :: rest =>
    if d = c then [d] :: splitInclusive c rest
    else
      match splitInclusive c rest with
      | [] => [[d]]
      | piece :: pieces => (d :: piece) :: pieces

/-- The end of a line, taken off: a newline, and a carriage return in front of it. -/
def stripLineEnd (piece : List Char) : List Char :=
  if piece.getLast? = some '\n' then
    let line := piece.dropLast
    if line.getLast? = some '\r' then line.dropLast else line
  else piece

def lines (s : String) : List String :=
  (splitInclusive '\n' s.toList).map fun piece => String.ofList (stripLineEnd piece)

variable {c : Char} {piece line rest : List Char}

theorem splitInclusive_append (h : c ∉ line) (rest : List Char) :
    splitInclusive c (line ++ c :: rest) = (line ++ [c]) :: splitInclusive c rest := by
  induction line with
  | nil => simp [splitInclusive]
  | cons d line ih =>
    grind [splitInclusive]

/-- A piece holds the separator at its end only. -/
theorem notMem_dropLast_of_mem_splitInclusive {l : List Char} (h : piece ∈ splitInclusive c l) :
    c ∉ piece.dropLast := by
  induction l generalizing piece with
  | nil => simp [splitInclusive] at h
  | cons d rest ih =>
    rw [splitInclusive] at h
    split at h
    · grind
    · rename_i hd
      cases hpieces : splitInclusive c rest with
      | nil =>
        grind
      | cons first others =>
        rw [hpieces] at h ih
        rcases List.mem_cons.mp h with rfl | hother
        · have hfirst := ih List.mem_cons_self
          cases first with
          | nil => simp
          | cons e first => simp [Ne.symm hd, hfirst]
        · exact ih (List.mem_cons_of_mem _ hother)

theorem newline_notMem_of_mem_lines {s l : String} (h : l ∈ lines s) : '\n' ∉ l.toList := by
  obtain ⟨piece, hpiece, rfl⟩ := List.mem_map.mp h
  have hinner := notMem_dropLast_of_mem_splitInclusive hpiece
  rw [String.toList_ofList, stripLineEnd]
  split
  · dsimp only
    split
    · exact fun hmem => hinner (List.dropLast_subset _ hmem)
    · exact hinner
  · rename_i hlast
    intro hmem
    rcases List.eq_nil_or_concat piece with rfl | ⟨front, d, rfl⟩
    · simp at hmem
    · grind

theorem lines_append_newline {l : String} (h : '\n' ∉ l.toList) (hreturn : l.toList.getLast? ≠ some '\r')
    (rest : String) : lines (l ++ "\n" ++ rest) = l :: lines rest := by
  have hpieces : (l ++ "\n" ++ rest).toList = l.toList ++ '\n' :: rest.toList := by simp
  rw [lines, hpieces, splitInclusive_append h, List.map_cons, stripLineEnd]
  simp [hreturn, lines]

end MichiServer.Text
