import Mathlib
import MichiServer.Interleave.Pool

/-!
# Upstream release checks

`update_status_handler` and `update_check_handler` fetch the list of releases when the cache is older
than a limit of theirs. Both look before and after they wait for the lock that a fetch is made under. A
fetch that fails leaves the cache as it was, and a request that is dropped lets the lock go.
-/

namespace MichiServer.Updates

open MichiServer.Interleave

def fromSecs (secs : ℕ) : ℕ := secs * 10 ^ 9

def cacheTtlStatus : ℕ := fromSecs (6 * 3600)

def minCheckInterval : ℕ := fromSecs 30

inductive UpdateCall where
  | updateStatus
  | updateCheck
deriving DecidableEq

def UpdateCall.limit : UpdateCall → ℕ
  | updateStatus => cacheTtlStatus
  | updateCheck => minCheckInterval

section

variable (Release : Type)

structure CachedReleases where
  checkedAt : ℕ
  releases : List Release

/-- The instant, `RELEASES_CACHE`, `FETCH_LOCK`, and when the fetches started, the last one first. -/
structure UpdateWorld where
  now : ℕ
  cache : Option (CachedReleases Release)
  locked : Bool
  fetches : List ℕ

/-- Where a request stands: before its instant is taken, before its first look, at the lock, before its
second look, before its fetch, and waiting for the releases. -/
inductive UpdateTask where
  | start (call : UpdateCall)
  | look (call : UpdateCall) (now : ℕ)
  | lock (call : UpdateCall)
  | lookAgain (call : UpdateCall)
  | fetch
  | waiting
deriving DecidableEq

/-- What a request meets where it stands: it goes on, and its fetch ends so, or it is dropped. -/
inductive Met where
  | goes (fetchResult : Except String (List Release))
  | dropped

end

variable {Release : Type}

def UpdateWorld.fresh (w : UpdateWorld Release) (now limit : ℕ) : Bool :=
  w.cache.any fun entry => now - entry.checkedAt < limit

namespace UpdateTask

def holds : UpdateTask → Bool
  | lookAgain _ | fetch | waiting => true
  | _ => false

def step (t : UpdateTask) (met : Met Release) (w : UpdateWorld Release) :
    List UpdateTask × UpdateWorld Release :=
  match met with
  | .dropped => ([], if t.holds then { w with locked := false } else w)
  | .goes fetchResult =>
    match t with
    | start call => ([look call w.now], w)
    | look call now => if w.fresh now call.limit then ([], w) else ([lock call], w)
    | lock call => if w.locked then ([lock call], w) else ([lookAgain call], { w with locked := true })
    | lookAgain call =>
      if w.fresh w.now call.limit then ([], { w with locked := false }) else ([fetch], w)
    | fetch => ([waiting], { w with fetches := w.now :: w.fetches })
    | waiting =>
      match fetchResult with
      | .ok releases => ([], { w with cache := some ⟨w.now, releases⟩, locked := false })
      | .error _ => ([], { w with locked := false })

end UpdateTask

def handlers : Machine UpdateCall UpdateTask (Met Release) ℕ (UpdateWorld Release) where
  enter := .start
  step := UpdateTask.step
  tick elapsed w := { w with now := w.now + elapsed }

abbrev UpdatePool (Release : Type) := Pool UpdateTask (UpdateWorld Release)

abbrev UpdateMove (Release : Type) := PoolMove UpdateCall (Met Release) ℕ

def Spaced (fetches : List ℕ) : Prop :=
  fetches.Pairwise fun later earlier => earlier + minCheckInterval ≤ later

def Bounded (p : UpdatePool Release) (move : UpdateMove Release) : Prop :=
  Spaced (p.step handlers move).world.fetches

def Met.succeeds : Met Release → Bool
  | .goes (.ok _) => true
  | _ => false

/-- A request that waits for releases gets them. One is dropped by a step of its own, so that it lets
the lock go. -/
def Fetches (p : UpdatePool Release) : UpdateMove Release → Prop
  | .act i met => p.tasks[i]? = some .waiting → met.succeeds = true
  | .drop _ => False
  | _ => True

instance (p : UpdatePool Release) (move : UpdateMove Release) : Decidable (Bounded p move) :=
  inferInstanceAs (Decidable (List.Pairwise _ _))

instance (p : UpdatePool Release) : (move : UpdateMove Release) → Decidable (Fetches p move)
  | .act i met => inferInstanceAs (Decidable (p.tasks[i]? = some .waiting → met.succeeds = true))
  | .drop _ => inferInstanceAs (Decidable False)
  | .arrive _ | .tick _ => inferInstanceAs (Decidable True)

/-! ## The cache and the fetches -/

def Settled (w : UpdateWorld Release) : Prop :=
  ∀ started ∈ w.fetches, ∃ entry ∈ w.cache, started ≤ entry.checkedAt

/-- The fetches are spaced and past, and settled where none is under way. -/
structure Inv (w : UpdateWorld Release) : Prop where
  spaced : Spaced w.fetches
  past : ∀ started ∈ w.fetches, started ≤ w.now
  settled : w.locked = false → Settled w

structure Good (t : UpdateTask) (w : UpdateWorld Release) : Prop where
  locked : t.holds = true → w.locked = true
  settled : t.holds = true → t ≠ .waiting → Settled w
  due : t = .fetch → ∀ started ∈ w.fetches, started + minCheckInterval ≤ w.now

theorem min_le_limit (call : UpdateCall) : minCheckInterval ≤ call.limit := by
  cases call <;> decide

theorem due_of_not_fresh {w : UpdateWorld Release} {call : UpdateCall} (h : Settled w)
    (hold : ¬ w.fresh w.now call.limit = true) :
    ∀ started ∈ w.fetches, started + minCheckInterval ≤ w.now := by
  intro started hstarted
  obtain ⟨entry, hentry, hle⟩ := h started hstarted
  have hage : call.limit ≤ w.now - entry.checkedAt := by
    simpa [UpdateWorld.fresh, Option.mem_def.mp hentry] using hold
  have hpositive : 0 < minCheckInterval := by decide
  have hlimit := min_le_limit call
  omega

def invariant : Invariant UpdateTask (UpdateWorld Release) where
  Inv := Inv
  Good := Good
  Apart t u := t.holds = true → u.holds = false
  apart_symm t u h hu := by
    by_contra ht
    simp [h (by simpa using ht)] at hu

theorem good_of_not_holds {t : UpdateTask} {w : UpdateWorld Release} (h : t.holds = false) :
    Good t w where
  locked hholds := by simp [h] at hholds
  settled hholds := by simp [h] at hholds
  due heq := by simp [heq, UpdateTask.holds] at h

theorem Inv.unlock {t : UpdateTask} {w : UpdateWorld Release} (h : Inv w) (hgood : Good t w)
    (hholds : t.holds = true) (hwaiting : t ≠ .waiting) : Inv { w with locked := false } :=
  ⟨h.spaced, h.past, fun _ => hgood.settled hholds hwaiting⟩

theorem step_of_locked (met : Met Release) {t : UpdateTask} {w : UpdateWorld Release}
    (ht : t.holds = false) (hlocked : w.locked = true) :
    (t.step met w).2 = w ∧ ∀ t' ∈ (t.step met w).1, t'.holds = false := by
  cases met with
  | dropped => simp [UpdateTask.step, ht]
  | goes fetchResult =>
    cases t with
    | start call => simp [UpdateTask.step, UpdateTask.holds]
    | look call now =>
      rw [UpdateTask.step]
      split <;> simp [UpdateTask.holds]
    | lock call => simp [UpdateTask.step, hlocked, UpdateTask.holds]
    | lookAgain call => cases ht
    | fetch => cases ht
    | waiting => cases ht

/-- Each move keeps the fetches spaced. -/
theorem preserved :
    (invariant : Invariant UpdateTask (UpdateWorld Release)).Preserved handlers Fetches where
  enter call w _ := ⟨good_of_not_holds rfl, fun u h => by cases h⟩
  self p i met t ht hallowed hinv hgood := by
    generalize p.world = w at hinv hgood
    have hone {t' : UpdateTask} {w' : UpdateWorld Release} (h : Good t' w') :
        ∀ u ∈ [t'], invariant.Good u w' := List.forall_mem_singleton.mpr h
    simp only [handlers]
    cases met with
    | dropped =>
      refine ⟨?_, nofun, List.Pairwise.nil⟩
      cases hholds : t.holds with
      | false => simpa [UpdateTask.step, hholds] using hinv
      | true =>
        have hwaiting : t ≠ .waiting := by
          rintro rfl
          exact absurd (hallowed ht) nofun
        simp only [UpdateTask.step, hholds, if_true]
        exact hinv.unlock hgood hholds hwaiting
    | goes fetchResult =>
      cases t with
      | start call =>
        exact ⟨hinv, hone (good_of_not_holds rfl), List.pairwise_singleton _ _⟩
      | look call now =>
        rw [UpdateTask.step]
        split
        · exact ⟨hinv, nofun, List.Pairwise.nil⟩
        · exact ⟨hinv, hone (good_of_not_holds rfl), List.pairwise_singleton _ _⟩
      | lock call =>
        rw [UpdateTask.step]
        cases hlocked : w.locked with
        | true => grind [good_of_not_holds]
        | false =>
          have hgood' : Good (.lookAgain call) { w with locked := true } :=
            ⟨fun _ => rfl, fun _ _ => hinv.settled hlocked, nofun⟩
          exact ⟨⟨hinv.spaced, hinv.past, nofun⟩, hone hgood', List.pairwise_singleton _ _⟩
      | lookAgain call =>
        have hsettled := hgood.settled rfl nofun
        rw [UpdateTask.step]
        split
        next => exact ⟨hinv.unlock hgood rfl nofun, nofun, List.Pairwise.nil⟩
        next hold =>
          have hgood' : Good .fetch w :=
            ⟨fun _ => hgood.locked rfl, fun _ _ => hsettled, fun _ => due_of_not_fresh hsettled hold⟩
          exact ⟨hinv, hone hgood', List.pairwise_singleton _ _⟩
      | fetch =>
        have hlocked := hgood.locked rfl
        have hpast : ∀ started ∈ w.now :: w.fetches, started ≤ w.now :=
          List.forall_mem_cons.mpr ⟨Nat.le_refl _, hinv.past⟩
        have hgood' : Good .waiting { w with fetches := w.now :: w.fetches } :=
          ⟨fun _ => hlocked, fun _ h => absurd rfl h, nofun⟩
        refine ⟨⟨List.pairwise_cons.mpr ⟨hgood.due rfl, hinv.spaced⟩, hpast, fun h => ?_⟩,
          hone hgood', List.pairwise_singleton _ _⟩
        simp [UpdateTask.step, hlocked] at h
      | waiting =>
        cases fetchResult with
        | error text => exact absurd (hallowed ht) nofun
        | ok releases =>
          exact ⟨⟨hinv.spaced, hinv.past, fun _ s hs => ⟨_, rfl, hinv.past s hs⟩⟩, nofun,
            List.Pairwise.nil⟩
  other p i met t u ht hu hallowed hinv hgood hgood' hapart := by
    cases hholds : u.holds with
    | false => exact ⟨good_of_not_holds hholds, fun t' _ _ => hholds⟩
    | true =>
      have hfree : t.holds = false := by
        by_contra h
        simp [hapart (by simpa using h)] at hholds
      obtain ⟨hsame, hnone⟩ := step_of_locked met hfree (hgood'.locked hholds)
      simp only [handlers, hsame]
      exact ⟨hgood', fun t' ht' h => by simp [hnone t' ht'] at h⟩
  tick elapsed w hinv :=
    have hlater (s : ℕ) (h : s ≤ w.now) : s ≤ w.now + elapsed := Nat.le_add_right_of_le h
    ⟨⟨hinv.spaced, fun s hs => hlater s (hinv.past s hs), hinv.settled⟩,
      fun u hu => ⟨hu.locked, hu.settled, fun heq s hs => hlater _ (hu.due heq s hs)⟩⟩

/-- **How often the releases are fetched.** From a start without a fetch, in every run of requests at any
times in which each fetch succeeds and no request is dropped while it waits for one, any two fetches
start at least `MIN_CHECK_INTERVAL` apart. -/
theorem fetches_spaced (now : ℕ) {moves : List (UpdateMove Release)}
    (hmoves : Pool.Obeys handlers Fetches ⟨[], ⟨now, none, false, []⟩⟩ moves) :
    Pool.Obeys handlers Bounded ⟨[], ⟨now, none, false, []⟩⟩ moves :=
  preserved.obeys (fun _ _ h hallowed => (preserved.step h hallowed).1.spaced)
    ⟨⟨List.Pairwise.nil, nofun, fun _ => nofun⟩, nofun, List.Pairwise.nil⟩ hmoves

def fetching (fetchResult : Except String (List String)) : List (UpdateMove String) :=
  .arrive .updateCheck :: List.replicate 6 (.act 0 (.goes fetchResult))

/-- Two checks, 31 seconds apart. -/
theorem fetches_spaced_twice : Pool.Obeys handlers Bounded ⟨[], ⟨0, none, false, []⟩⟩
    (fetching (.ok ["v1"]) ++ .tick (fromSecs 31) :: fetching (.ok ["v1"])) :=
  fetches_spaced 0 (by decide +kernel)

/-- After a fetch that fails the next request fetches at once. -/
theorem fetches_unbounded : ¬ ∀ moves : List (UpdateMove String),
    Pool.Obeys handlers Bounded ⟨[], ⟨0, none, false, []⟩⟩ moves := by
  intro h
  have hrun := h (fetching (.error "") ++ fetching (.error ""))
  revert hrun
  decide +kernel

end MichiServer.Updates
