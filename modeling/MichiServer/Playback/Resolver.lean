import MichiServer.Logic.Handler
import MichiServer.Playback.Model

/-!
# Resolving a track

`SqliteTrackResolver` of `resolver.rs`. A track resolves when its row is there and its file is a
regular file inside one of the library's roots; the track that is returned carries the canonical
path. `Library` is everything the resolver asks: the rows of `tracks`, the file system, and the roots.
-/

namespace MichiServer.Playback

open MichiServer.Logic

/-- What the resolver asks. A path is its text; `canonicalize` fails with the text of the error. -/
structure Library where
  tracks : Uuid → Except String (Option Track)
  pathExists : String → Bool := fun _ => true
  canonicalize : String → Except String String := .ok
  isFile : String → Bool := fun _ => true
  musicPaths : List String := []

def pathComponents (path : String) : List String := (path.splitOn "/").filter fun c => c ≠ ""

def pathStartsWith (path base : String) : Bool :=
  (pathComponents base).isPrefixOf (pathComponents path)

namespace Library

def inside (lib : Library) (canonical : String) : Bool :=
  lib.musicPaths.any fun root =>
    match lib.canonicalize root with
    | .ok canonRoot => pathStartsWith canonical canonRoot
    | .error _ => false

def getTrack (lib : Library) (id : Uuid) : Except PlaybackError Track :=
  match lib.tracks id with
  | .error text => .error (.database text)
  | .ok none => .error (.trackNotFound id)
  | .ok (some track) =>
    if ¬ lib.pathExists track.filePath then .error (.trackFileMissing track.filePath)
    else
      match lib.canonicalize track.filePath with
      | .error e => .error (.trackFileMissing ("path invalid or inaccessible: " ++ e))
      | .ok canonical =>
        if ¬ lib.isFile canonical then
          .error (.invalidMedia "track path is not a regular file")
        else if ¬ lib.musicPaths.isEmpty ∧ ¬ lib.inside canonical then
          .error (.trackOutsideLibrary track.filePath)
        else .ok { track with filePath := canonical }

def resolvable (lib : Library) (trackIds : List Uuid) : List Track :=
  trackIds.filterMap fun id => (lib.getTrack id).toOption

/-- Loading every track, or failing with what the first failure is turned into. -/
def loadAll {ε : Type} (lib : Library) (onError : Uuid → PlaybackError → ε)
    (trackIds : List Uuid) : Except ε (List Track) :=
  trackIds.mapM fun id => (lib.getTrack id).mapError (onError id)

variable {ε : Type} {lib : Library} {onError : Uuid → PlaybackError → ε} {trackIds : List Uuid}

theorem loadAll_eq_ok_iff {tracks : List Track} :
    lib.loadAll onError trackIds = .ok tracks ↔
      List.Forall₂ (fun id track => lib.getTrack id = .ok track) trackIds tracks := by
  have hone : ∀ id track, (lib.getTrack id).mapError (onError id) = .ok track ↔
      lib.getTrack id = .ok track := fun id track => by
    cases lib.getTrack id <;> simp [Except.mapError]
  simp only [loadAll, mapM_eq_ok_iff, hone]

theorem resolvable_of_loadAll {tracks : List Track}
    (h : lib.loadAll onError trackIds = .ok tracks) : lib.resolvable trackIds = tracks := by
  induction loadAll_eq_ok_iff.mp h with
  | nil => rfl
  | cons hid hrest ih =>
    rw [resolvable, List.filterMap_cons, hid]
    exact congrArg _ (ih (loadAll_eq_ok_iff.mpr hrest))

theorem resolves_of_loadAll {tracks : List Track}
    (h : lib.loadAll onError trackIds = .ok tracks) :
    ∀ id ∈ trackIds, ∃ track, lib.getTrack id = .ok track := by
  induction loadAll_eq_ok_iff.mp h with
  | nil => simp
  | cons hid hrest ih =>
    rw [List.forall_mem_cons]
    exact ⟨⟨_, hid⟩, ih (loadAll_eq_ok_iff.mpr hrest)⟩

theorem loadAll_of_resolves (h : ∀ id ∈ trackIds, ∃ track, lib.getTrack id = .ok track) :
    ∃ tracks, lib.loadAll onError trackIds = .ok tracks := by
  induction trackIds with
  | nil => exact ⟨[], rfl⟩
  | cons id rest ih =>
    obtain ⟨track, htrack⟩ := h id (List.mem_cons_self ..)
    obtain ⟨tracks, htracks⟩ := ih fun id' hid' => h id' (List.mem_cons_of_mem _ hid')
    exact ⟨track :: tracks,
      loadAll_eq_ok_iff.mpr (.cons htrack (loadAll_eq_ok_iff.mp htracks))⟩

end Library

end MichiServer.Playback
