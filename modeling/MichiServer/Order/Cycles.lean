import Mathlib.Data.List.Range
import Mathlib.Data.List.Perm.Basic

/-!
# A cursor in a reordered sequence

A sequence of `len` items is visited in an order of its indices, a permutation of `0..len`, and a
cursor remembers a place in that order together with the index found there. Keeping both is
redundant, and the redundancy is the invariant: the index is the one the order has at the place.

Two moves keep it. `WellFormed.seek` goes to another place of the same order and reads the index
there; `WellFormed.laid_out` takes a new order and a place at which it has the wanted index.
-/

set_option autoImplicit false

namespace MichiServer.Order

section

/-- A place in an order of `len` items, and the index the holder believes to be there. -/
structure Cursor where
  len : ℕ
  order : List ℕ
  pos : ℕ
  index : ℕ

/-- The order visits every index once; a non-empty one has an entry at the place, the index. -/
structure Cursor.WellFormed (c : Cursor) : Prop where
  perm : c.order.Perm (List.range c.len)
  index_eq : 0 < c.len → c.order[c.pos]? = some c.index

namespace Cursor

variable {c : Cursor}

/-- The place of a non-empty order is inside it. -/
theorem WellFormed.pos_lt (h : c.WellFormed) (hne : 0 < c.len) : c.pos < c.order.length :=
  (List.getElem?_eq_some_iff.mp (h.index_eq hne)).1

/-- Every entry of the order is an index of the sequence. -/
theorem WellFormed.lt_len_of_getElem? (h : c.WellFormed) {pos i : ℕ} (hi : c.order[pos]? = some i) :
    i < c.len :=
  List.mem_range.mp (h.perm.mem_iff.mp (List.mem_of_getElem? hi))

theorem WellFormed.index_lt (h : c.WellFormed) (hne : 0 < c.len) : c.index < c.len :=
  h.lt_len_of_getElem? (h.index_eq hne)

/-- Every index of the sequence has its place in the order. -/
theorem WellFormed.exists_place (h : c.WellFormed) {i : ℕ} (hi : i < c.len) :
    ∃ pos, c.order.idxOf? i = some pos ∧ c.order[pos]? = some i := by
  have hmem : i ∈ c.order := h.perm.mem_iff.mpr (List.mem_range.mpr hi)
  cases hp : c.order.idxOf? i with
  | none => exact absurd hmem (List.idxOf?_eq_none_iff.mp hp)
  | some pos =>
    obtain ⟨hlt, heq, _⟩ := List.idxOf?_eq_some_iff.mp hp
    exact ⟨pos, rfl, List.getElem?_eq_some_iff.mpr ⟨hlt, heq⟩⟩

/-- Going to another place of the same order, and reading the index there. -/
theorem WellFormed.seek (h : c.WellFormed) {pos i : ℕ} (hi : c.order[pos]? = some i) :
    WellFormed ⟨c.len, c.order, pos, i⟩ :=
  ⟨h.perm, fun _ => hi⟩

/-- Taking a new order, at a place where it has the wanted index. -/
theorem WellFormed.laid_out {len pos i : ℕ} {order : List ℕ} (hperm : order.Perm (List.range len))
    (hi : 0 < len → order[pos]? = some i) : WellFormed ⟨len, order, pos, i⟩ :=
  ⟨hperm, hi⟩

/-- An empty sequence has one well-formed order, whatever place and index go with it. -/
theorem WellFormed.empty (pos i : ℕ) : WellFormed ⟨0, [], pos, i⟩ :=
  ⟨List.Perm.refl _, fun h => absurd h (Nat.lt_irrefl 0)⟩

/-- The natural order, at the index itself. -/
theorem WellFormed.natural {len i : ℕ} (hi : i < len) :
    WellFormed ⟨len, List.range len, i, i⟩ :=
  .laid_out (List.Perm.refl _) fun _ => by
    grind

end Cursor

variable {α : Type} {l l' : List α} {i j : ℕ}

/-- The list with its entries at two indices exchanged, `none` when one of them is out of bounds. -/
def swap? (l : List α) (i j : ℕ) : Option (List α) := do
  let x ← l[i]?
  let y ← l[j]?
  pure ((l.set i y).set j x)

/-- Two indices in bounds can be exchanged; the result is a permutation, and the entry of the second
index is now at the first. -/
theorem exists_swap? (hi : i < l.length) (hj : j < l.length) :
    ∃ l', swap? l i j = some l' ∧ l'.Perm l ∧ l'[i]? = l[j]? := by
  refine ⟨(l.set i l[j]).set j l[i], ?_, List.set_set_perm hi hj, ?_⟩
  · simp only [swap?, List.getElem?_eq_getElem hi, List.getElem?_eq_getElem hj]
    rfl
  · grind

end

/-!
## Cycles of a reordered sequence

A cursor that moves forward visits the rest of its order and then, at the front of another order, begins
a new cycle. When no cycle begins with the index the one before has ended with, the walk visits every
index once a cycle, and never the same one twice in a row.
-/

namespace Cursor

/-- One move forward: to the next place or, past the last one, to the front of another order, which does
not begin with the index just left. -/
inductive Advances (c : Cursor) : Cursor → Prop
  | next {index : ℕ} (there : c.order[c.pos + 1]? = some index) :
      Advances c ⟨c.len, c.order, c.pos + 1, index⟩
  | again {order : List ℕ} {index : ℕ} (last : c.order.length ≤ c.pos + 1)
      (perm : order.Perm (List.range c.len)) (front : order[0]? = some index)
      (other : index ≠ c.index) : Advances c ⟨c.len, order, 0, index⟩

/-- The indices of a walk: the cursor's own, and those it moves on to. -/
inductive Visits : Cursor → List ℕ → Prop
  | rest (c : Cursor) : Visits c [c.index]
  | move {c c' : Cursor} {indices : List ℕ} (moved : c.Advances c') (after : Visits c' indices) :
      Visits c (c.index :: indices)

variable {c c' : Cursor} {indices : List ℕ}

theorem Advances.len_eq (h : c.Advances c') : c'.len = c.len := by
  cases h <;> rfl

theorem Advances.wellFormed (h : c.Advances c') (hwell : c.WellFormed) : c'.WellFormed := by
  cases h with
  | next there => exact hwell.seek there
  | again last perm front other => exact .laid_out perm fun _ => front

theorem WellFormed.length_order (h : c.WellFormed) : c.order.length = c.len := by
  rw [h.perm.length_eq, List.length_range]

/-- The indices of two neighbouring places differ, and so do those around the end of a cycle. -/
theorem Advances.index_ne (h : c.Advances c') (hwell : c.WellFormed) (hne : 0 < c.len) :
    c.index ≠ c'.index := by
  cases h with
  | again last perm front other => exact other.symm
  | @next index there =>
    intro (hsame : c.index = index)
    have hnodup : c.order.Nodup := hwell.perm.nodup_iff.mpr List.nodup_range
    have hhere := hwell.index_eq hne
    rw [hsame, ← there] at hhere
    have hlt := hwell.pos_lt hne
    have hplace : c.pos = c.pos + 1 := (List.getElem?_inj hlt hnodup).mp hhere
    omega

/-- A walk begins with the rest of the cursor's own order. -/
theorem Visits.take_prefix (h : c.Visits indices) (hwell : c.WellFormed) (hne : 0 < c.len) :
    indices.take (c.len - c.pos) <+: c.order.drop c.pos := by
  have hcons : ∀ c : Cursor, c.WellFormed → 0 < c.len →
      c.order.drop c.pos = c.index :: c.order.drop (c.pos + 1) ∧ c.pos < c.len := by
    intro c hwell hne
    have hlt := hwell.pos_lt hne
    have hindex := hwell.index_eq hne
    rw [List.getElem?_eq_getElem hlt] at hindex
    rw [List.drop_eq_getElem_cons hlt, Option.some.inj hindex]
    exact ⟨rfl, hwell.length_order ▸ hlt⟩
  induction h with
  | rest c =>
    obtain ⟨hdrop, hlt⟩ := hcons c hwell hne
    rw [hdrop, List.take_of_length_le (by simp; omega)]
    exact ⟨_, rfl⟩
  | @move c c' indices moved after ih =>
    obtain ⟨hdrop, hlt⟩ := hcons c hwell hne
    obtain ⟨left, hleft⟩ : ∃ left, c.len - c.pos = left + 1 := ⟨c.len - c.pos - 1, by omega⟩
    rw [hdrop, hleft, List.take_succ_cons]
    refine List.prefix_cons_inj _ |>.mpr ?_
    have hprefix := ih (moved.wellFormed hwell) (moved.len_eq ▸ hne)
    cases moved with
    | next there =>
      grind
    | again last =>
      -- nothing is left of the old order
      rw [hwell.length_order] at last
      have hnone : left = 0 := by omega
      rw [hnone, List.take_zero]
      exact List.nil_prefix

/-- **Every cycle of a walk visits every index once**: the one that the cursor begins and those after. -/
theorem Visits.cycle (h : c.Visits indices) (hwell : c.WellFormed) (hne : 0 < c.len) {k : ℕ}
    (hbegins : (c.pos + k) % c.len = 0) (hwhole : k + c.len ≤ indices.length) :
    ((indices.drop k).take c.len).Perm (List.range c.len) := by
  induction k generalizing c indices with
  | zero =>
    have hlt : c.pos < c.len := hwell.length_order ▸ hwell.pos_lt hne
    have hfront : c.pos = 0 := by
      rw [Nat.add_zero, Nat.mod_eq_of_lt hlt] at hbegins
      exact hbegins
    have hprefix := h.take_prefix hwell hne
    rw [hfront, Nat.sub_zero, List.drop_zero] at hprefix
    have hlength : (indices.take c.len).length = c.order.length := by
      rw [List.length_take, hwell.length_order]
      omega
    rw [List.drop_zero, hprefix.eq_of_length hlength]
    exact hwell.perm
  | succ k ih =>
    cases h with
    | rest => simp at hwhole; omega
    | @move _ c' rest moved after =>
      have hlt : c.pos < c.len := hwell.length_order ▸ hwell.pos_lt hne
      have hbegins' : (c'.pos + k) % c'.len = 0 := by
        cases moved with
        | next there => rw [← hbegins]; congr 1; show c.pos + 1 + k = _; omega
        | again last =>
          rw [hwell.length_order] at last
          have hsplit : c.pos + (k + 1) = k + c.len := by omega
          rw [hsplit, Nat.add_mod_right] at hbegins
          show (0 + k) % c.len = 0
          rw [Nat.zero_add, hbegins]
      rw [List.drop_succ_cons, ← moved.len_eq]
      rw [List.length_cons] at hwhole
      have hlen := moved.len_eq
      exact ih after (moved.wellFormed hwell) (hlen ▸ hne) hbegins' (by omega)

/-- **No index is visited twice in a row.** -/
theorem Visits.isChain (h : c.Visits indices) (hwell : c.WellFormed) (hne : 0 < c.len) :
    indices.IsChain (· ≠ ·) := by
  induction h with
  | rest c => exact List.isChain_singleton _
  | @move c c' indices moved after ih =>
    have hrest := ih (moved.wellFormed hwell) (moved.len_eq ▸ hne)
    have hdiffers := moved.index_ne hwell hne
    cases after with
    | rest => exact List.isChain_pair.mpr hdiffers
    | move moved' after' => exact List.isChain_cons_cons.mpr ⟨hdiffers, hrest⟩

end Cursor

end MichiServer.Order
