import Mathlib.Data.Nat.Notation

/-!
# Runs of a transition system

A system that goes from state to state by events, and what is said of its runs: where they end, what
each event of one does in the state it happens in, and the induction that an invariant gives.
-/

set_option autoImplicit false

namespace MichiServer.Logic.Trace

variable {State Event : Type} (step : State → Event → State)

/-- Where a run ends. -/
def run (s : State) (events : List Event) : State := events.foldl step s

/-- Every event of the run has the property, in the state it happens in. -/
def Obeys (Property : State → Event → Prop) : State → List Event → Prop
  | _, [] => True
  | s, event :: rest => Property s event ∧ Obeys Property (step s event) rest

variable {step}

instance {Property : State → Event → Prop} [∀ s e, Decidable (Property s e)] :
    (s : State) → (events : List Event) → Decidable (Obeys step Property s events)
  | _, [] => inferInstanceAs (Decidable True)
  | s, event :: rest =>
    have : Decidable (Obeys step Property (step s event) rest) := instDecidableObeys _ rest
    inferInstanceAs (Decidable (Property s event ∧ Obeys step Property (step s event) rest))

variable {I : State → Prop} {Allowed Property : State → Event → Prop}

variable {s : State} {events : List Event}

theorem Obeys.and (h : Obeys step Allowed s events) (h' : Obeys step Property s events) :
    Obeys step (fun s e => Allowed s e ∧ Property s e) s events := by
  induction events generalizing s with
  | nil => trivial
  | cons event rest ih => exact ⟨⟨h.1, h'.1⟩, ih h.2 h'.2⟩

/-- A run whose events all have a property that asks nothing of the state obeys it. -/
theorem obeys_of_forall {P : Event → Prop} (h : ∀ e ∈ events, P e) (s : State) :
    Obeys step (fun _ e => P e) s events := by
  induction events generalizing s with
  | nil => trivial
  | cons event rest ih =>
    exact ⟨h event List.mem_cons_self, ih (fun e he => h e (List.mem_cons_of_mem _ he)) _⟩

theorem run_append (s : State) (events rest : List Event) :
    run step s (events ++ rest) = run step (run step s events) rest := List.foldl_append

/-- A run in two parts obeys what each part does, the second from where the first ends. -/
theorem obeys_append_iff {events rest : List Event} :
    Obeys step Property s (events ++ rest) ↔
      Obeys step Property s events ∧ Obeys step Property (run step s events) rest := by
  induction events generalizing s with
  | nil => exact (iff_of_eq (true_and _)).symm
  | cons event events ih => exact (and_congr_right fun _ => ih).trans and_assoc.symm

/-- A run obeys what each event of it does where the run has got to. -/
theorem obeys_iff_forall_prefix :
    Obeys step Property s events ↔
      ∀ before event, before ++ [event] <+: events → Property (run step s before) event := by
  induction events generalizing s with
  | nil => simp [Obeys]
  | cons first rest ih =>
    constructor
    · rintro ⟨hfirst, hrest⟩ before event hprefix
      cases before with
      | nil =>
        obtain rfl : event = first := by simpa using hprefix
        exact hfirst
      | cons event' before =>
        obtain ⟨rfl, hbefore⟩ := List.cons_prefix_cons.mp hprefix
        exact ih.mp hrest before event hbefore
    · intro h
      refine ⟨h [] first (by simp), ih.mpr fun before event hprefix => ?_⟩
      exact h (first :: before) event (List.cons_prefix_cons.mpr ⟨rfl, hprefix⟩)

/-- What every event keeps holds where a run ends. -/
theorem run_kept (hstep : ∀ s e, I s → I (step s e)) (hs : I s) (events : List Event) :
    I (run step s events) := by
  induction events generalizing s with
  | nil => exact hs
  | cons event rest ih => exact ih (hstep s event hs)

/-- An invariant that every allowed event keeps holds where a run of allowed events ends. -/
theorem run_invariant (hstep : ∀ s e, I s → Allowed s e → I (step s e))
    (hs : I s) (hevents : Obeys step Allowed s events) : I (run step s events) := by
  induction events generalizing s with
  | nil => exact hs
  | cons event rest ih =>
    obtain ⟨hevent, hrest⟩ := hevents
    exact ih (hstep s event hs hevent) hrest

/-- It holds all along the run, so each event has what the invariant gives an allowed event. -/
theorem obeys_of_invariant (hstep : ∀ s e, I s → Allowed s e → I (step s e))
    (hproperty : ∀ s e, I s → Allowed s e → Property s e)
    (hs : I s) (hevents : Obeys step Allowed s events) : Obeys step Property s events := by
  induction events generalizing s with
  | nil => exact trivial
  | cons event rest ih =>
    obtain ⟨hevent, hrest⟩ := hevents
    exact ⟨hproperty s event hs hevent, ih (hstep s event hs hevent) hrest⟩

/-- Where an event keeps an invariant exactly when it is allowed, the invariant holds all along a run
exactly when every event of it is allowed. -/
theorem invariant_along_iff (hstep : ∀ s e, I s → (I (step s e) ↔ Allowed s e)) (hs : I s)
    (events : List Event) :
    (∀ before, before <+: events → I (run step s before)) ↔ Obeys step Allowed s events := by
  induction events generalizing s with
  | nil =>
    refine iff_of_true (fun before hbefore => ?_) trivial
    rw [List.prefix_nil.mp hbefore]
    exact hs
  | cons event rest ih =>
    constructor
    · intro halong
      have hafter : I (step s event) := halong [event] (by simp)
      refine ⟨(hstep s event hs).mp hafter, (ih hafter).mp fun before hbefore => ?_⟩
      exact halong (event :: before) (List.cons_prefix_cons.mpr ⟨rfl, hbefore⟩)
    · intro ⟨hallowed, hrest⟩ before hbefore
      have hafter := (hstep s event hs).mpr hallowed
      rcases List.prefix_cons_iff.mp hbefore with rfl | ⟨t, rfl, ht⟩
      · exact hs
      · exact (ih hafter).mpr hrest t ht

/-- Where moreover no event restores the invariant, it holds where the run ends exactly when every
event of the run is allowed. -/
theorem invariant_at_end_iff (hback : ∀ s e, I (step s e) → I s)
    (hstep : ∀ s e, I s → (I (step s e) ↔ Allowed s e)) (hs : I s)
    (events : List Event) : I (run step s events) ↔ Obeys step Allowed s events := by
  rw [← invariant_along_iff hstep hs events]
  constructor
  · rintro hend before ⟨rest, rfl⟩
    rw [run_append] at hend
    generalize run step s before = middle at hend
    induction rest generalizing middle with
    | nil => exact hend
    | cons event rest ih => exact hback _ event (ih _ hend)
  · exact fun halong => halong events List.prefix_rfl

end MichiServer.Logic.Trace
