import Mathlib.Data.List.Infix
import MichiServer.Text.Str

/-!
# Patterns of LIKE

What `text LIKE pattern` says in SQLite: a `%` of the pattern stands for any text, a `_` for any
character, and every other character for itself, where the case of the letters of ASCII plays no part.
A pattern between two `%` is found anywhere in a text.
-/

namespace MichiServer.Text

def like : List Char → List Char → Bool
  | [], text => text.isEmpty
  | '%' :: pattern, text => text.tails.any (like pattern)
  | _ :: _, [] => false
  | c :: pattern, d :: text => (c == '_' || c.toLower == d.toLower) && like pattern text

inductive Reads : List Char → List Char → Prop
  | nil : Reads [] []
  | any {pattern text : List Char} (skipped : List Char) (h : Reads pattern text) :
    Reads ('%' :: pattern) (skipped ++ text)
  | one {c : Char} {pattern text : List Char} (d : Char) (hc : c = '_') (h : Reads pattern text) :
    Reads (c :: pattern) (d :: text)
  | letter {c d : Char} {pattern text : List Char} (hc : c ≠ '%') (hcd : c.toLower = d.toLower)
      (h : Reads pattern text) :
    Reads (c :: pattern) (d :: text)

variable {pattern text : List Char}

theorem not_reads_nil {c : Char} (hc : c ≠ '%') : ¬ Reads (c :: pattern) [] := by
  intro h
  generalize htext : [] = whole at h
  cases h with
  | any => exact hc rfl
  | one => exact nomatch htext
  | letter => exact nomatch htext

/-- The match of a pattern, as it is read. -/
theorem like_iff : like pattern text = true ↔ Reads pattern text := by
  induction pattern generalizing text with
  | nil =>
    rw [like, List.isEmpty_iff]
    constructor
    · rintro rfl
      exact .nil
    · rintro ⟨⟩
      rfl
  | cons c pattern ih =>
    by_cases hc : c = '%'
    · subst hc
      rw [like, List.any_eq_true]
      constructor
      · rintro ⟨rest, hrest, hlike⟩
        obtain ⟨skipped, rfl⟩ := (List.mem_tails _ _).mp hrest
        exact .any skipped (ih.mp hlike)
      · intro h
        cases h with
        | any skipped h => exact ⟨_, (List.mem_tails _ _).mpr ⟨skipped, rfl⟩, ih.mpr h⟩
        | one d hc => exact absurd hc (by decide)
        | letter hc => exact absurd rfl hc
    · cases text with
      | nil =>
        grind [like.eq_3, not_reads_nil]
      | cons d text =>
        rw [like.eq_4 _ _ _ _ fun h => hc h, Bool.and_eq_true, Bool.or_eq_true, beq_iff_eq, beq_iff_eq,
          ih]
        constructor
        · rintro ⟨rfl | hcd, h⟩
          · exact .one d rfl h
          · exact .letter hc hcd h
        · intro h
          generalize htext : d :: text = whole at h
          cases h with
          | any skipped h => exact absurd rfl hc
          | one d' hc h =>
            grind
          | letter _ hcd h =>
            grind

/-- A pattern in two parts is read part by part. -/
theorem reads_append {p q : List Char} : Reads (p ++ q) text ↔
    ∃ a b, text = a ++ b ∧ Reads p a ∧ Reads q b := by
  constructor
  · intro h
    induction p generalizing text with
    | nil => exact ⟨[], text, rfl, .nil, h⟩
    | cons c p ih =>
      rw [List.cons_append] at h
      cases h with
      | any skipped h =>
        obtain ⟨a, b, rfl, ha, hb⟩ := ih h
        exact ⟨skipped ++ a, b, (List.append_assoc _ _ _).symm, .any skipped ha, hb⟩
      | one d hc h =>
        obtain ⟨a, b, rfl, ha, hb⟩ := ih h
        exact ⟨d :: a, b, rfl, .one d hc ha, hb⟩
      | letter hc hcd h =>
        obtain ⟨a, b, rfl, ha, hb⟩ := ih h
        exact ⟨_ :: a, b, rfl, .letter hc hcd ha, hb⟩
  · rintro ⟨a, b, rfl, ha, hb⟩
    induction ha with
    | nil => exact hb
    | any skipped _ ih =>
      rw [List.append_assoc]
      exact .any skipped ih
    | one d hc _ ih => exact .one d hc ih
    | letter hc hcd _ ih => exact .letter hc hcd ih

theorem reads_percent : Reads ['%'] text := by
  simpa using Reads.any text .nil

theorem like_percent_iff : like ('%' :: pattern ++ ['%']) text = true ↔
    ∃ part, Reads pattern part ∧ part <:+: text := by
  rw [like_iff, List.cons_append]
  constructor
  · intro h
    cases h with
    | any skipped h =>
      obtain ⟨part, rest, rfl, hpart, -⟩ := reads_append.mp h
      exact ⟨part, hpart, skipped, rest, List.append_assoc _ _ _⟩
    | one d hc => exact absurd hc (by decide)
    | letter hc => exact absurd rfl hc
  · rintro ⟨part, hpart, skipped, rest, rfl⟩
    rw [List.append_assoc]
    exact .any skipped (reads_append.mpr ⟨part, rest, rfl, hpart, reads_percent⟩)

end MichiServer.Text
