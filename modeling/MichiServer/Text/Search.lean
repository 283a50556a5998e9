import Mathlib.Data.List.Infix
import MichiServer.Text.Str

/-!
# Occurrences in a text

`splitAtFirst` cuts a text at the first occurrence of a pattern. What it finds is determined by where
the pattern occurs: it finds one exactly when there is one, with nothing in front that would end an
earlier one, and what follows a text does not move an occurrence found inside it.
-/

namespace MichiServer.Text

variable {pat l a b : List Char}

@[simp] theorem splitAtFirst_nil_left (l : List Char) : splitAtFirst [] l = some ([], l) := by
  cases l <;> simp [splitAtFirst]

theorem eq_of_splitAtFirst (h : splitAtFirst pat l = some (a, b)) : l = a ++ pat ++ b := by
  induction l generalizing a with
  | nil =>
    grind [splitAtFirst]
  | cons c rest ih =>
    rw [splitAtFirst] at h
    split at h
    · rename_i hfront
      obtain ⟨rfl, rfl⟩ : [] = a ∧ (c :: rest).drop pat.length = b := by simpa using h
      obtain ⟨t, ht⟩ := List.isPrefixOf_iff_prefix.mp hfront
      rw [← ht, List.drop_left]
      rfl
    · obtain ⟨⟨a', b'⟩, hrest, heq⟩ := Option.map_eq_some_iff.mp h
      grind

theorem splitAtFirst_of_occurs (pat a' b' : List Char) :
    ∃ a b, splitAtFirst pat (a' ++ pat ++ b') = some (a, b) ∧ a <+: a' := by
  induction a' with
  | nil =>
    refine ⟨[], b', ?_, List.nil_prefix⟩
    cases hpat : [] ++ pat ++ b' with
    | nil => simp_all [splitAtFirst]
    | cons c rest =>
      grind [splitAtFirst]
  | cons c a' ih =>
    grind [splitAtFirst]

theorem splitAtFirst_eq_none_iff : splitAtFirst pat l = none ↔ ¬ pat <:+: l := by
  constructor
  · rintro h ⟨a', b', rfl⟩
    obtain ⟨a, b, hfound, -⟩ := splitAtFirst_of_occurs pat a' b'
    rw [h] at hfound
    cases hfound
  · intro h
    cases hfound : splitAtFirst pat l with
    | none => rfl
    | some r => exact absurd ⟨r.1, r.2, (eq_of_splitAtFirst hfound).symm⟩ h

/-- More text behind does not move the first place. -/
theorem splitAtFirst_append (h : splitAtFirst pat l = some (a, b)) (rest : List Char) :
    splitAtFirst pat (l ++ rest) = some (a, b ++ rest) := by
  induction l generalizing a with
  | nil =>
    grind [splitAtFirst, splitAtFirst_nil_left]
  | cons c l ih =>
    rw [splitAtFirst] at h
    rw [List.cons_append, splitAtFirst, ← List.cons_append]
    split at h
    · grind
    · rename_i hnot
      obtain ⟨⟨a', b'⟩, hrest, heq⟩ := Option.map_eq_some_iff.mp h
      obtain ⟨rfl, rfl⟩ : c :: a' = a ∧ b' = b := by simpa using heq
      -- the pattern is no longer than the text it is found in, so it stands no earlier in a longer one
      have hlength : pat.length ≤ (c :: l).length := by
        rw [eq_of_splitAtFirst hrest]
        simp only [List.length_cons, List.length_append]
        omega
      rw [if_neg, ih hrest]
      · rfl
      · intro hfront
        exact hnot (List.isPrefixOf_iff_prefix.mpr (List.prefix_of_prefix_length_le
          (List.isPrefixOf_iff_prefix.mp hfront) (List.prefix_append (c :: l) rest) hlength))

/-- The first place of a character. -/
theorem splitAtFirst_singleton_iff {c : Char} :
    splitAtFirst [c] l = some (a, b) ↔ l = a ++ c :: b ∧ c ∉ a := by
  constructor
  · intro h
    have hl : l = a ++ c :: b := by simpa using eq_of_splitAtFirst h
    refine ⟨hl, fun hmem => ?_⟩
    obtain ⟨a₁, a₂, rfl⟩ := List.append_of_mem hmem
    obtain ⟨a', b', hfound, hle⟩ := splitAtFirst_of_occurs [c] a₁ (a₂ ++ c :: b)
    have hsame : l = a₁ ++ [c] ++ (a₂ ++ c :: b) := by simp [hl]
    rw [← hsame, h, Option.some.injEq, Prod.mk.injEq] at hfound
    have hlength := hle.length_le
    grind
  · rintro ⟨rfl, hnot⟩
    obtain ⟨a', b', hfound, t, rfl⟩ := splitAtFirst_of_occurs [c] a b
    have heq := eq_of_splitAtFirst hfound
    simp only [List.append_assoc, List.singleton_append, List.append_cancel_left_eq] at heq hfound
    cases t with
    | nil =>
      obtain rfl := (List.cons.inj heq).2
      simpa using hfound
    | cons d t =>
      grind

theorem stripPrefix_eq_some_iff {s pat rest : String} :
    stripPrefix s pat = some rest ↔ s.toList = pat.toList ++ rest.toList := by
  simp only [stripPrefix, startsWith, Option.ite_none_right_eq_some, List.isPrefixOf_iff_prefix,
    Option.some.injEq]
  constructor
  · rintro ⟨⟨t, ht⟩, rfl⟩
    rw [String.toList_ofList, ← ht, List.drop_left]
  · intro h
    refine ⟨⟨rest.toList, h.symm⟩, ?_⟩
    rw [h, List.drop_left, String.ofList_toList]

theorem contains_iff (s pat : String) : contains s pat = true ↔ pat.toList <:+: s.toList := by
  rw [contains, Option.isSome_iff_ne_none, ne_eq, splitAtFirst_eq_none_iff, not_not]

theorem contains_of_part {s pat part : String} (hpart : contains pat part = true)
    (h : contains s pat = true) : contains s part = true := by
  rw [contains_iff] at hpart h ⊢
  exact hpart.trans h

/-- The first occurrence of the first pattern, of the second behind it, and so on: the text in front of
the last of them, and what follows it. -/
def seek : List (List Char) → List Char → Option (List Char × List Char)
  | [], _ => none
  | [pat], l => splitAtFirst pat l
  | pat :: pats, l => (splitAtFirst pat l).bind fun r => seek pats r.2

def HoldsInTurn : List (List Char) → List Char → Prop
  | [], _ => True
  | pat :: pats, l => ∃ a b, l = a ++ pat ++ b ∧ HoldsInTurn pats b

variable {pats : List (List Char)}

theorem seek_cons {pat : List Char} (h : pats ≠ []) (l : List Char) :
    seek (pat :: pats) l = (splitAtFirst pat l).bind fun r => seek pats r.2 := by
  cases pats with
  | nil => exact absurd rfl h
  | cons first others => rfl

theorem HoldsInTurn.prepend (front : List Char) (h : HoldsInTurn pats l) :
    HoldsInTurn pats (front ++ l) := by
  cases pats with
  | nil => trivial
  | cons pat pats =>
    obtain ⟨a, b, rfl, hb⟩ := h
    exact ⟨front ++ a, b, by simp, hb⟩

theorem HoldsInTurn.append (h : HoldsInTurn pats l) (back : List Char) :
    HoldsInTurn pats (l ++ back) := by
  induction pats generalizing l with
  | nil => trivial
  | cons pat pats ih =>
    obtain ⟨a, b, rfl, hb⟩ := h
    exact ⟨a, b ++ back, by simp, ih hb⟩

theorem seek_append (h : seek pats l = some (a, b)) (rest : List Char) :
    seek pats (l ++ rest) = some (a, b ++ rest) := by
  induction pats generalizing l with
  | nil => cases h
  | cons pat pats ih =>
    cases pats with
    | nil => exact splitAtFirst_append h rest
    | cons next others =>
      rw [seek_cons (by simp), Option.bind_eq_some_iff] at h ⊢
      obtain ⟨⟨front, behind⟩, hfound, hseek⟩ := h
      exact ⟨(front, behind ++ rest), splitAtFirst_append hfound rest, ih hseek⟩

theorem holdsInTurn_of_seek (h : seek pats l = some (a, b)) :
    ∃ front, l = front ++ b ∧ HoldsInTurn pats front := by
  induction pats generalizing l with
  | nil => cases h
  | cons pat pats ih =>
    cases pats with
    | nil => exact ⟨a ++ pat, eq_of_splitAtFirst h, a, [], by simp, trivial⟩
    | cons next others =>
      rw [seek_cons (by simp), Option.bind_eq_some_iff] at h
      obtain ⟨⟨front, behind⟩, hfound, hseek⟩ := h
      obtain ⟨middle, hbehind, hholds⟩ := ih hseek
      obtain rfl : behind = middle ++ b := hbehind
      exact ⟨front ++ pat ++ middle, by rw [eq_of_splitAtFirst hfound]; simp, front, middle, rfl, hholds⟩

/-- The patterns are found where the text holds them in turn. -/
theorem exists_seek_iff (hne : pats ≠ []) :
    (∃ r, seek pats l = some r) ↔ HoldsInTurn pats l := by
  induction pats generalizing l with
  | nil => exact absurd rfl hne
  | cons pat pats ih =>
    constructor
    · rintro ⟨⟨a, b⟩, h⟩
      obtain ⟨front, rfl, hholds⟩ := holdsInTurn_of_seek h
      exact hholds.append b
    · rintro ⟨a', b', rfl, hb'⟩
      obtain ⟨a, b, hfound, t, rfl⟩ := splitAtFirst_of_occurs pat a' b'
      cases pats with
      | nil => exact ⟨_, hfound⟩
      | cons next others =>
        -- what follows the first occurrence ends with what follows this one
        have hbehind : (t ++ pat) ++ b' = pat ++ b := by
          have heq := eq_of_splitAtFirst hfound
          simpa using heq
        have hb : b = (t ++ pat).drop pat.length ++ b' := by
          rw [← List.drop_append_of_le_length (by simp), hbehind, List.drop_left]
        have hholds : HoldsInTurn (next :: others) b := hb ▸ hb'.prepend _
        grind [seek_cons]

theorem seek_within_iff (hne : pats ≠ []) {inside outside : List Char} :
    (∀ r ∈ seek pats (inside ++ outside), outside <:+ r.2) ↔
      HoldsInTurn pats inside ∨ ¬ HoldsInTurn pats (inside ++ outside) := by
  constructor
  · intro h
    by_cases hholds : HoldsInTurn pats (inside ++ outside)
    · obtain ⟨⟨a, b⟩, hfound⟩ := (exists_seek_iff hne).mpr hholds
      obtain ⟨back, rfl⟩ : outside <:+ b := h _ hfound
      obtain ⟨front, hfront, hin⟩ := holdsInTurn_of_seek hfound
      rw [← List.append_assoc, List.append_cancel_right_eq] at hfront
      exact .inl (hfront ▸ hin.append back)
    · exact .inr hholds
  · rintro (hin | hnot) r hr
    · obtain ⟨⟨a, b⟩, hfound⟩ := (exists_seek_iff hne).mpr hin
      have hwhole := seek_append hfound outside
      grind
    · exact absurd ((exists_seek_iff hne).mp ⟨r, hr⟩) hnot

end MichiServer.Text
