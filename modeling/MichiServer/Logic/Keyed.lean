import Mathlib.Data.List.Nodup

/-!
# Lists of records with a key

A list of records in which no two have the same key: a record is looked up by its key, and is the
only one that has it.
-/

set_option autoImplicit false

namespace MichiServer.Logic.Keyed

variable {Row Key : Type} {key : Row → Key} {rows : List Row} {row other : Row}

/-- Two records with one key are one record. -/
theorem eq_of_key (h : (rows.map key).Nodup) (hrow : row ∈ rows) (hother : other ∈ rows)
    (hkey : key row = key other) : row = other :=
  List.inj_on_of_nodup_map h hrow hother hkey

/-- The look up of a key finds the record that has it. -/
theorem find_eq_some_iff [DecidableEq Key] (h : (rows.map key).Nodup) {k : Key} :
    rows.find? (fun r => key r = k) = some row ↔ row ∈ rows ∧ key row = k := by
  constructor
  · grind
  · intro ⟨hrow, hkey⟩
    have hsome : (rows.find? fun r => key r = k).isSome := by
      rw [List.find?_isSome]
      exact ⟨row, hrow, by simpa using hkey⟩
    obtain ⟨found, hfound⟩ := Option.isSome_iff_exists.mp hsome
    grind [eq_of_key]

/-- A key that some record has is found. -/
theorem find_isSome [DecidableEq Key] {k : Key} (h : k ∈ rows.map key) :
    (rows.find? fun r => key r = k).isSome := by
  grind

/-- A record that takes the place of those with its key is found under it. -/
theorem find_upsert_self [DecidableEq Key] :
    (rows.filter (fun r => key r ≠ key row) ++ [row]).find? (fun r => key r = key row) = some row := by
  grind

/-- The records under the other keys are found as before. -/
theorem find_upsert_of_ne [DecidableEq Key] {k : Key} (hne : k ≠ key row) :
    (rows.filter (fun r => key r ≠ key row) ++ [row]).find? (fun r => key r = k) =
      rows.find? fun r => key r = k := by
  grind

/-- A map that keeps the keys gives the same records exactly when it keeps each. -/
theorem map_perm_self_iff (h : (rows.map key).Nodup) {f : Row → Row} (hf : ∀ r, key (f r) = key r) :
    (rows.map f).Perm rows ↔ ∀ r ∈ rows, f r = r := by
  constructor
  · grind [eq_of_key]
  · intro hall
    rw [List.map_congr_left hall, List.map_id']

/-- The same records with the keys in the same order are the same list. -/
theorem eq_of_perm_of_map_eq {rows' : List Row} (h : (rows.map key).Nodup) (hperm : rows'.Perm rows)
    (hkeys : rows'.map key = rows.map key) : rows' = rows := by
  apply List.ext_getElem?
  intro i
  have hget := congrArg (fun l => l[i]?) hkeys
  simp only [List.getElem?_map] at hget
  cases hleft : rows'[i]? with
  | none =>
    grind
  | some a =>
    cases hright : rows[i]? with
    | none => simp [hleft, hright] at hget
    | some b =>
      simp only [hleft, hright, Option.map_some, Option.some.injEq] at hget
      have ha : a ∈ rows := hperm.mem_iff.mp (List.mem_of_getElem? hleft)
      rw [eq_of_key h ha (List.mem_of_getElem? hright) hget]

end MichiServer.Logic.Keyed
