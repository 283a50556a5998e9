import Mathlib.Logic.Function.Basic
import MichiServer.Interleave.Pool

/-!
# Pools over a world of cells

A world that is a cell for each key, and tasks each of which keeps to the cell of its key. What one cell
owes its tasks is said of one cell; `CellPreserved.preserved` lifts it to the pool over all of them.
-/

set_option autoImplicit false

namespace MichiServer.Interleave

/-- The tasks of one cell: which cell a task keeps to, how it goes on there, what the background does. -/
structure CellMachine (Call Task Env Tick Key Cell : Type) where
  enter : Call → Task
  key : Task → Key
  step : Task → Env → Cell → List Task × Cell
  tick : Tick → Key × (Cell → Cell)

/-- An invariant of a cell, of each task with its cell, and of each two tasks of one cell. -/
structure CellInvariant (Task Cell : Type) where
  Inv : Cell → Prop
  Good : Task → Cell → Prop
  Apart : Task → Task → Prop
  apart_symm : ∀ t u, Apart t u → Apart u t

variable {Call Task Env Tick Key Cell : Type} [DecidableEq Key]

namespace CellMachine

variable (m : CellMachine Call Task Env Tick Key Cell)

/-- The machine over all cells. -/
def machine : Machine Call Task Env Tick (Key → Cell) where
  enter := m.enter
  step t env w :=
    let r := m.step t env (w (m.key t))
    (r.1, Function.update w (m.key t) r.2)
  tick t w := Function.update w (m.tick t).1 ((m.tick t).2 (w (m.tick t).1))

/-- The invariant over all cells. -/
def invariant (I : CellInvariant Task Cell) : Invariant Task (Key → Cell) where
  Inv w := ∀ k, I.Inv (w k)
  Good t w := I.Good t (w (m.key t))
  Apart t u := m.key t = m.key u → I.Apart t u
  apart_symm t u h hkey := I.apart_symm t u (h hkey.symm)

/-- What each kind of move owes the invariant of one cell. -/
structure Preserved (I : CellInvariant Task Cell) (Allowed : Task → Env → Prop) : Prop where
  enter : ∀ c cell, I.Inv cell → I.Good (m.enter c) cell ∧ ∀ u, I.Apart (m.enter c) u
  key : ∀ t env cell, ∀ t' ∈ (m.step t env cell).1, m.key t' = m.key t
  self : ∀ t env cell, Allowed t env → I.Inv cell → I.Good t cell →
    I.Inv (m.step t env cell).2 ∧ (∀ t' ∈ (m.step t env cell).1, I.Good t' (m.step t env cell).2) ∧
      (m.step t env cell).1.Pairwise I.Apart
  other : ∀ t env cell u, Allowed t env → I.Inv cell → I.Good t cell → I.Good u cell → I.Apart t u →
    I.Good u (m.step t env cell).2 ∧ ∀ t' ∈ (m.step t env cell).1, I.Apart t' u
  tick : ∀ t cell, I.Inv cell →
    I.Inv ((m.tick t).2 cell) ∧ ∀ u, I.Good u cell → I.Good u ((m.tick t).2 cell)

/-- A step meets what its task allows. -/
def Allows (Allowed : Task → Env → Prop) (p : Pool Task (Key → Cell)) : PoolMove Call Env Tick → Prop
  | .act i env => ∀ t ∈ p.tasks[i]?, Allowed t env
  | _ => True

variable {m} {I : CellInvariant Task Cell} {Allowed : Task → Env → Prop}

/-- **From one cell to all.** -/
theorem Preserved.preserved (h : m.Preserved I Allowed) :
    (m.invariant I).Preserved m.machine (Allows Allowed) where
  enter c w hw := ⟨(h.enter c _ (hw _)).1, fun u _ => (h.enter c _ (hw (m.key (m.enter c)))).2 u⟩
  self p i env t ht hallowed hw hgood := by
    obtain ⟨hinv, hnext, hapart⟩ := h.self t env _ (hallowed t ht) (hw (m.key t)) hgood
    refine ⟨fun k => ?_, fun t' ht' => ?_, ?_⟩
    · by_cases hk : k = m.key t
      · subst hk
        simpa [machine] using hinv
      · simpa [machine, hk] using hw k
    · have hkey := h.key t env _ t' ht'
      simpa [machine, invariant, hkey] using hnext t' ht'
    · exact hapart.imp (S := (m.invariant I).Apart) fun hab _ => hab
  other p i env t u ht _ hallowed hw hgood hgood' hapart := by
    by_cases hkey : m.key u = m.key t
    · have hgood' : I.Good u (p.world (m.key t)) := hkey ▸ hgood'
      obtain ⟨hstays, hnext⟩ := h.other t env _ u (hallowed t ht) (hw (m.key t)) hgood hgood' (hapart hkey.symm)
      refine ⟨?_, fun t' ht' _ => hnext t' ht'⟩
      simpa [machine, invariant, hkey] using hstays
    · refine ⟨?_, fun t' ht' hsame => ?_⟩
      · simpa [machine, invariant, hkey] using hgood'
      · exact absurd (hsame.symm.trans (h.key t env _ t' ht')) hkey
  tick t w hw := by
    obtain ⟨hinv, hgood⟩ := h.tick t _ (hw (m.tick t).1)
    refine ⟨fun k => ?_, fun u hu => ?_⟩
    · by_cases hk : k = (m.tick t).1
      · subst hk
        simpa [machine] using hinv
      · simpa [machine, hk] using hw k
    · by_cases hk : m.key u = (m.tick t).1
      · have hu : I.Good u (w (m.tick t).1) := hk ▸ hu
        simpa [machine, invariant, hk] using hgood u hu
      · simpa [machine, invariant, hk] using hu

end CellMachine

end MichiServer.Interleave
