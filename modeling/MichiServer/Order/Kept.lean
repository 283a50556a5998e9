import Mathlib.Data.List.Basic
import Mathlib.Data.List.Nodup

/-!
# Places in a list some of whose entries are dropped

`filterMap` keeps the entries that have a value, in order. An entry that is kept moves forward by the
number of dropped ones before it, so an index into the whole list points elsewhere in what is kept,
unless nothing before it was dropped.
-/

set_option autoImplicit false

namespace MichiServer.Order

variable {α β : Type} {f : α → Option β} {l : List α} {i : ℕ} {a : α} {b : β}

/-- How many entries before a place are kept. -/
def keptBefore (f : α → Option β) (l : List α) (i : ℕ) : ℕ := ((l.take i).filterMap f).length

theorem keptBefore_le : keptBefore f l i ≤ i :=
  Nat.le_trans (List.length_filterMap_le f _) (List.length_take_le i l)

/-- What is kept, around a kept entry. -/
theorem filterMap_eq (h : l[i]? = some a) (hf : f a = some b) :
    l.filterMap f = (l.take i).filterMap f ++ b :: (l.drop (i + 1)).filterMap f := by
  obtain ⟨hlt, rfl⟩ := List.getElem?_eq_some_iff.mp h
  conv_lhs => rw [← List.take_append_drop i l, List.drop_eq_getElem_cons hlt]
  rw [List.filterMap_append, List.filterMap_cons, hf]

/-- A kept entry is at the place that counts the kept entries before it. -/
theorem getElem?_keptBefore (h : l[i]? = some a) (hf : f a = some b) :
    (l.filterMap f)[keptBefore f l i]? = some b := by
  rw [filterMap_eq h hf]
  simp [keptBefore]

/-- Nothing before the place is dropped. -/
theorem keptBefore_eq_iff (hi : i ≤ l.length) :
    keptBefore f l i = i ↔ ∀ x ∈ l.take i, (f x).isSome := by
  have hlength : (l.take i).length = i := by simp [hi]
  rw [keptBefore, ← List.filterMap_length_eq_length, hlength]

/-- The old index, bounded by what is kept, is the new place of a kept entry exactly if nothing before
the entry is dropped, or nothing after it is kept. -/
theorem clamped_eq_keptBefore_iff (h : l[i]? = some a) (hf : f a = some b) :
    min i ((l.filterMap f).length - 1) = keptBefore f l i ↔
      (∀ x ∈ l.take i, (f x).isSome) ∨ ∀ x ∈ l.drop (i + 1), f x = none := by
  have hi : i ≤ l.length := Nat.le_of_lt (List.getElem?_eq_some_iff.mp h).1
  have hle : keptBefore f l i ≤ i := keptBefore_le
  have hlength : (l.filterMap f).length =
      keptBefore f l i + ((l.drop (i + 1)).filterMap f).length + 1 := by
    rw [filterMap_eq h hf]
    simp [keptBefore, Nat.add_assoc]
  rw [← keptBefore_eq_iff hi, ← List.filterMap_eq_nil_iff, ← List.length_eq_zero_iff, hlength]
  omega

/-- Where what is kept has no repetition, an entry is found at one place only. -/
theorem clamped_iff {id : Type} {key : β → id} (hnodup : ((l.filterMap f).map key).Nodup)
    (h : l[i]? = some a) (hf : f a = some b) :
    (∃ c, (l.filterMap f)[min i ((l.filterMap f).length - 1)]? = some c ∧ key c = key b) ↔
      (∀ x ∈ l.take i, (f x).isSome) ∨ ∀ x ∈ l.drop (i + 1), f x = none := by
  rw [← clamped_eq_keptBefore_iff h hf]
  have hb : (l.filterMap f)[keptBefore f l i]? = some b := getElem?_keptBefore h hf
  constructor
  · rintro ⟨c, hc, hkey⟩
    refine (List.getElem?_inj ?_ hnodup).mp ?_
    · rw [List.length_map]
      exact (List.getElem?_eq_some_iff.mp hc).1
    · grind
  · intro heq
    exact ⟨b, heq ▸ hb, rfl⟩

end MichiServer.Order
