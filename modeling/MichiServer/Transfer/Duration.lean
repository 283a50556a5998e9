import Mathlib.Tactic.Tauto
import MichiServer.Transfer.Content

/-!
# The window of a duration

`find_by_metadata` looks for tracks whose duration is within three seconds of the one that is asked
for. The durations are unsigned in the transfer and signed in the table, so the window is the one that
is meant exactly where its upper end is below `2 ^ 63`; `validate_bounds` asks nothing of a duration.
-/

namespace MichiServer.Transfer

namespace Catalog

theorem asI64_of_lt {n : ℕ} (h : n < 2 ^ 63) : asI64 n = n :=
  Int.bmod_eq_of_le (by omega) (by omega)

theorem asI64_eq_iff {n : ℕ} : asI64 n = n ↔ n < 2 ^ 63 := by
  refine ⟨fun h => ?_, asI64_of_lt⟩
  have hbound : asI64 n < 2 ^ 63 := by
    have hlt := Int.bmod_lt (x := n) (m := 2 ^ 64) (by decide)
    unfold asI64
    omega
  omega

theorem asI64_neg {n : ℕ} (hlow : 2 ^ 63 ≤ n) (hhigh : n < 2 ^ 64) : asI64 n < 0 := by
  unfold asI64
  rw [Int.bmod_def]
  omega

def withinWindow (requested candidate : ℕ) : Bool :=
  requested ≤ candidate + 3000 && candidate ≤ requested + 3000

/-- The tracks that a query for this title, artist and duration is meant to select. -/
def selected (c : Catalog) (title artist : String) (durationMs : ℕ) : List CatalogRow :=
  c.tracks.filter fun row =>
    row.title.any (fun t => lower (sqlTrim t) = lower (sqlTrim title)) ∧
      row.artist.any (fun a => lower (sqlTrim a) = lower (sqlTrim artist)) ∧
      row.track.durationMs.any (withinWindow durationMs)

def Typed (c : Catalog) : Prop := ∀ row ∈ c.tracks, ∀ d ∈ row.track.durationMs, d < 2 ^ 64

/-- The duration match is exact: the addition does not overflow, the casts keep the bounds, and in
every library the query selects the tracks that are meant. -/
structure ExactWindow (durationMs : ℕ) : Prop where
  no_overflow : durationMs + 3000 < 2 ^ 64
  min_kept : minDur durationMs = (durationMs - 3000 : ℕ)
  max_kept : maxDur durationMs = (durationMs + 3000 : ℕ)
  exact : ∀ (c : Catalog) (title artist : String), c.Typed →
    c.findByMetadata title artist durationMs =
      c.query .byMetadata (c.selected title artist durationMs)

theorem withinWindow_iff {requested candidate : ℕ} (h : requested + 3000 < 2 ^ 63)
    (hcandidate : candidate < 2 ^ 64) :
    (minDur requested ≤ asI64 candidate ∧ asI64 candidate ≤ maxDur requested) ↔
      withinWindow requested candidate = true := by
  have hmin : minDur requested = (requested - 3000 : ℕ) := asI64_of_lt (by omega)
  have hmax : maxDur requested = (requested + 3000 : ℕ) := by
    rw [maxDur, Nat.mod_eq_of_lt (by omega), asI64_of_lt h]
  simp only [withinWindow, Bool.and_eq_true, decide_eq_true_eq]
  rcases Nat.lt_or_ge candidate (2 ^ 63) with hlow | hhigh
  · have hkept := asI64_of_lt hlow
    omega
  · have hneg := asI64_neg hhigh hcandidate
    omega

theorem findByMetadata_eq {c : Catalog} {durationMs : ℕ} (h : durationMs + 3000 < 2 ^ 63)
    (hc : c.Typed) (title artist : String) :
    c.findByMetadata title artist durationMs =
      c.query .byMetadata (c.selected title artist durationMs) := by
  refine congrArg (c.query .byMetadata) (List.filter_congr fun row hrow => ?_)
  have hduration : row.track.durationMs.any
        (fun d => minDur durationMs ≤ asI64 d ∧ asI64 d ≤ maxDur durationMs) =
      row.track.durationMs.any (withinWindow durationMs) := by
    cases hd : row.track.durationMs with
    | none => rw [Option.any_none, Option.any_none]
    | some d =>
      rw [Option.any_some, Option.any_some, Bool.eq_iff_iff, decide_eq_true_eq]
      exact withinWindow_iff h (hc row hrow d hd)
  rw [hduration]

theorem exactWindow_iff (durationMs : ℕ) :
    ExactWindow durationMs ↔ durationMs + 3000 < 2 ^ 63 := by
  constructor
  · intro hexact
    have hkept := hexact.max_kept
    rw [maxDur, Nat.mod_eq_of_lt hexact.no_overflow] at hkept
    exact asI64_eq_iff.mp hkept
  · intro h
    exact {
      no_overflow := by omega
      min_kept := asI64_of_lt (by omega)
      max_kept := by rw [maxDur, Nat.mod_eq_of_lt (by omega), asI64_of_lt h]
      exact := fun c title artist hc => findByMetadata_eq h hc title artist }

end Catalog

/-- **When the duration match is exact.** For every transfer, accepted by `validate_bounds` or not, the
match for its current track is exact if and only if its duration and three seconds are below `2 ^ 63`
milliseconds. -/
theorem duration_match_exact_iff (t : TailSyncV1) :
    Catalog.ExactWindow t.currentTrack.durationMs ↔
      t.currentTrack.durationMs + 3000 < 2 ^ 63 :=
  Catalog.exactWindow_iff _

def oneTrack (durationMs : ℕ) : TailSyncV1 where
  transferId := "transfer"
  sourceMichiId := "source"
  targetMichiId := "target"
  receiverMichiId := "receiver"
  status := "playing"
  positionMs := 0
  currentTrack := { title := "Title", artist := "Artist", durationMs }
  timestampMs := 0

/-- A library whose only track has the duration that is asked for, and the query does not find it. -/
theorem long_track_missed :
    let t := oneTrack (2 ^ 63 - 3000)
    let row : CatalogRow :=
      { track := { id := 0, filePath := "/music/a.flac", durationMs := some (2 ^ 63 - 3000) },
        title := some "Title", artist := some "Artist" }
    let c : Catalog := { tracks := [row] }
    t.validateBounds = .ok () ∧ c.Typed ∧
      c.findByMetadata "Title" "Artist" t.currentTrack.durationMs = .ok [] ∧
      c.selected "Title" "Artist" t.currentTrack.durationMs = [row] := by
  refine ⟨by decide, ?_, by decide, by decide⟩
  intro row hrow d hd
  grind

end MichiServer.Transfer
