import Mathlib.Data.List.Basic
import Mathlib.Logic.Basic

/-!
# Keep or adopt

A replica holds one value and is offered others: it keeps what it holds when the relation `wins`
says so, and adopts the offer otherwise. Folding that rule over a delivery order is the whole of
last-writer-wins replication, and the question is always the same one: does the value a replica
settles on depend on the order of delivery, or on how often a value was delivered?

`settle_converges_iff` answers it for an arbitrary asymmetric relation, with no appeal to
transitivity: every delivery of a set of values settles alike exactly when the set has a value that
wins against all the others, and the starting value does not already win against that one.
-/

set_option autoImplicit false

namespace MichiServer.Order

variable {α : Type*}

/-- Keep the current value when it wins, adopt the offered one otherwise. -/
def adopt (wins : α → α → Bool) (current offered : α) : α :=
  if wins current offered then current else offered

/-- The value a replica holds after the offers were delivered in this order. -/
def settle (wins : α → α → Bool) (start : α) (offers : List α) : α :=
  offers.foldl (adopt wins) start

/-- A delivery of a finite set: every value at least once, in any order, nothing else. -/
def Delivers (values offers : List α) : Prop := ∀ x, x ∈ offers ↔ x ∈ values

/-- Every delivery of the values settles on one and the same value. -/
def Converges (wins : α → α → Bool) (start : α) (values : List α) : Prop :=
  ∀ first second, Delivers values first → Delivers values second →
    settle wins start first = settle wins start second

/-- `w` is one of the values or wins against every other one. -/
def Dominates (wins : α → α → Bool) (w : α) (values : List α) : Prop :=
  ∀ m ∈ values, m = w ∨ wins w m = true

variable {wins : α → α → Bool} {start current offered w : α} {values offers : List α}

@[simp]
theorem settle_nil : settle wins start ([] : List α) = start := rfl

@[simp]
theorem settle_cons :
    settle wins start (offered :: offers) = settle wins (adopt wins start offered) offers := rfl

theorem settle_append (first second : List α) :
    settle wins start (first ++ second) = settle wins (settle wins start first) second :=
  List.foldl_append

theorem adopt_of_wins (h : wins current offered = true) : adopt wins current offered = current :=
  if_pos h

theorem adopt_of_not_wins (h : ¬ wins current offered = true) :
    adopt wins current offered = offered :=
  if_neg h

theorem adopt_self : adopt wins current current = current := by
  unfold adopt
  split <;> rfl

/-- What one offer leaves is one of the two values. -/
theorem adopt_mem (wins : α → α → Bool) (current offered : α) :
    adopt wins current offered = current ∨ adopt wins current offered = offered := by
  unfold adopt
  split
  · exact .inl rfl
  · exact .inr rfl

/-- Settling ends on the starting value or on an offered one. -/
theorem settle_mem (wins : α → α → Bool) (start : α) (offers : List α) :
    settle wins start offers = start ∨ settle wins start offers ∈ offers := by
  induction offers generalizing start with
  | nil => exact .inl rfl
  | cons x rest ih =>
    grind [settle_cons, adopt, adopt_mem]

/-- A dominating value stays, whatever is still delivered. -/
theorem settle_of_dominates (h : Dominates wins w offers) : settle wins w offers = w := by
  induction offers with
  | nil => rfl
  | cons x rest ih =>
    have hx : adopt wins w x = w := by
      rcases h x List.mem_cons_self with rfl | hw
      · exact adopt_self
      · exact adopt_of_wins hw
    rw [settle_cons, hx]
    exact ih fun m hm => h m (List.mem_cons_of_mem x hm)

/-- A dominating value is reached from every value that does not win against it, as soon as it is
delivered. -/
theorem settle_reaches (asymm : ∀ a b, wins a b = true → ¬ wins b a = true)
    (hdom : Dominates wins w offers) (hmem : w ∈ offers) (hcur : ¬ wins current w = true) :
    settle wins current offers = w := by
  induction offers generalizing current with
  | nil => exact absurd hmem List.not_mem_nil
  | cons x rest ih =>
    have hrest : Dominates wins w rest := fun m hm => hdom m (List.mem_cons_of_mem x hm)
    rw [settle_cons]
    by_cases hxw : x = w
    · subst hxw
      rw [adopt_of_not_wins hcur]
      exact settle_of_dominates hrest
    · have hmem' : w ∈ rest := (List.mem_cons.mp hmem).resolve_left fun h => hxw h.symm
      have hx : ¬ wins x w = true := asymm _ _ ((hdom x List.mem_cons_self).resolve_left hxw)
      grind [adopt_mem]

theorem Dominates.of_delivers (h : Dominates wins w values) (hd : Delivers values offers) :
    Dominates wins w offers := fun m hm => h m ((hd m).mp hm)

/-- Every value is delivered once more at the end: a value every delivery settles on dominates. -/
theorem Converges.dominates (h : Converges wins start values) :
    Dominates wins (settle wins start values) values := by
  intro m hm
  have hd : Delivers values (values ++ [m]) := fun x => by
    grind
  have heq := h (values ++ [m]) values hd fun _ => Iff.rfl
  rw [settle_append, settle_cons, settle_nil] at heq
  grind [settle, adopt_of_not_wins]

/-- Deliver the winner first, when the starting value still wins against it: it is lost. -/
theorem Converges.start_yields (h : Converges wins start values)
    (hmem : settle wins start values ∈ values) (hne : settle wins start values ≠ start) :
    ¬ wins start (settle wins start values) = true := by
  classical
  intro hwin
  generalize hw : settle wins start values = w at hmem hne hwin
  have hd : Delivers values (w :: values.filter (· ≠ w)) := fun x => by
    grind
  have heq := h _ values hd fun _ => Iff.rfl
  grind [settle_cons, adopt_of_wins, settle_mem]

/-- **When delivery order does not matter.** For an asymmetric relation, every delivery of the
values settles alike exactly when the starting value dominates them, or one of them dominates them
and the starting value does not win against it. -/
theorem settle_converges_iff (asymm : ∀ a b, wins a b = true → ¬ wins b a = true) :
    Converges wins start values ↔
      Dominates wins start values ∨
        ∃ w ∈ values, ¬ wins start w = true ∧ Dominates wins w values := by
  constructor
  · intro h
    by_cases hstart : settle wins start values = start
    · exact .inl (hstart ▸ h.dominates)
    · have hmem := (settle_mem wins start values).resolve_left hstart
      exact .inr ⟨_, hmem, h.start_yields hmem hstart, h.dominates⟩
  · rintro (hdom | ⟨w, hmem, hstart, hdom⟩) first second h1 h2
    · rw [settle_of_dominates (hdom.of_delivers h1), settle_of_dominates (hdom.of_delivers h2)]
    · rw [settle_reaches asymm (hdom.of_delivers h1) ((h1 w).mpr hmem) hstart,
        settle_reaches asymm (hdom.of_delivers h2) ((h2 w).mpr hmem) hstart]

end MichiServer.Order
