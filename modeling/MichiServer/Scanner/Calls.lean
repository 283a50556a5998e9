import MichiServer.Scanner.Library
import MichiServer.Interleave.Play
import Mathlib.Data.List.AList

/-!
# The calls of a scan, and the moments they are made at

A scan, a reconciliation and a poll are programs of calls: to the file system, to the database, to the
cancellation token. Each call is made at a moment of its own, and a `Moment` says all that a call made
then can meet: which device each path is on, what every device stores, whether a call to the file
system fails, what the database answers with instead, how a walk of a root that is begun then ends. A
history of moments is therefore any behaviour of the file system and of the database, in between and
during the programs.

The world is the library and the moment of the next call. Beside them stands what the calls have seen,
which no program reads: the statements are about it.
-/

namespace MichiServer.Scanner

open MichiServer.Files MichiServer.Text MichiServer.Interleave

abbrev Snapshot := AList fun _ : Path => Fingerprint

inductive ScanResult where
  | success (tracks : List Track)
  | unavailable (reason : String)
  | cancelled
  | partialScan (tracks : List Track) (error : String)

/-- How a walk of `scan_root_cancellable` ends: with the files that it found, in its order, and what
the system said of each. -/
inductive Walked where
  | finished (files : List (Path × Option Fingerprint))
  | failed (reason : String)
  | cancelled

def dedupIds : List Uuid → List Track → List Track
  | _, [] => []
  | seen, t :: rest =>
    if t.id ∈ seen then dedupIds seen rest else t :: dedupIds (t.id :: seen) rest

inductive Stored where
  | dir
  | file (data : FileData)
deriving DecidableEq

structure Moment where
  deviceOf : Path → Option ℕ
  stored : ℕ → Path → Option Stored
  fails : Bool
  walk : Path → Option (Except String Snapshot)
  scan : Path → Walked
  cancelled : Bool
  dbError : Option String

namespace Moment

variable (m : Moment)

/-- What the file system says is at the path. A call that fails says that nothing is. -/
def present (path : Path) : Option Stored :=
  if m.fails then none else (m.deviceOf path).bind fun d => m.stored d path

def file? (path : Path) : Option FileData :=
  match m.present path with
  | some (.file data) => some data
  | _ => none

end Moment

inductive Call where
  | snapshot (root : Path)
  | scanRoot (root : Path)
  | getPathDeviceId (path : Path)
  | «exists» (path : Path)
  | isDir (path : Path)
  | isFile (path : Path)
  | readDir (path : Path)
  | metadata (path : Path)
  | computeFileContentHash (path : Path)
  | isCancelled
  | getMountDeviceId (path : String)
  | getMountStates (path : String)
  | listTracks
  | findTrackByPath (path : String)
  | updateMountState (path state errorMessage : String) (deviceId : Option ℕ)
  | upsertTrack (t : Track)
  | upsertTracks (tracks : List Track)
  | deleteTrack (id : Uuid)

/-- What a call is answered with. A snapshot task that fails is none; the states of the mounts are
asked for to learn whether one root is unavailable. -/
@[reducible] def Call.Resp : Call → Type
  | snapshot _ => Option (Except String Snapshot)
  | scanRoot _ => ScanResult
  | getPathDeviceId _ => Option ℕ
  | «exists» _ => Bool
  | isDir _ => Bool
  | isFile _ => Bool
  | readDir _ => Except String Unit
  | metadata _ => Option Fingerprint
  | computeFileContentHash _ => Option String
  | isCancelled => Bool
  | getMountDeviceId _ => Except String (Option ℕ)
  | getMountStates _ => Except String Bool
  | listTracks => Except String (List Track)
  | findTrackByPath _ => Except String (Option Track)
  | updateMountState _ _ _ _ => Except String Unit
  | upsertTrack _ => Except String Unit
  | upsertTracks _ => Except String Unit
  | deleteTrack _ => Except String Bool

abbrev Stamp := Option ℕ × Option ℤ

def Fingerprint.stamp (f : Fingerprint) : Stamp := (some f.len, f.mtimeNs)

def Track.stamp (t : Track) : Stamp := (t.fileSize, t.fileMtimeNs)

theorem stamp_trackOf (newV5 : List UInt8 → Uuid) (root path : Path) (f : Option Fingerprint) :
    (trackOf newV5 root path f).stamp = (f.map Fingerprint.stamp).getD (none, none) := by
  cases f <;> rfl

/-- The library, the moment of the next call, and what the calls have seen: the device of the root, the
path of which it was last asked whether it exists and the moment of that, and the stamps of files that
were read last. -/
structure World where
  lib : Library
  clock : ℕ
  deviceSeen : Option ℕ
  asked : Option (Path × ℕ)
  stampsRead : List (Path × Stamp)

namespace World

variable (w : World)

def tick : World := { w with clock := w.clock + 1 }

def database {α : Type} (m : Moment) (f : Library → Except String (α × Library)) :
    Except String α × World :=
  match m.dbError with
  | some e => (.error e, w.tick)
  | none =>
    match f w.lib with
    | .ok (a, lib) => (.ok a, { w.tick with lib })
    | .error e => (.error e, w.tick)

def query {α : Type} (m : Moment) (f : Library → α) : Except String α × World :=
  w.database m fun lib => .ok (f lib, lib)

end World

theorem World.database_cases {α : Type} (w : World) (m : Moment)
    (f : Library → Except String (α × Library)) :
    (∃ e, w.database m f = (.error e, w.tick)) ∨
      ∃ a lib, f w.lib = .ok (a, lib) ∧ w.database m f = (.ok a, { w.tick with lib }) := by
  unfold World.database
  split
  next e _ => exact .inl ⟨e, rfl⟩
  · split
    next a lib hf => exact .inr ⟨a, lib, hf, rfl⟩
    next e _ => exact .inl ⟨e, rfl⟩

theorem World.query_cases {α : Type} (w : World) (m : Moment) (f : Library → α) :
    (∃ e, w.query m f = (.error e, w.tick)) ∨ w.query m f = (.ok (f w.lib), w.tick) := by
  rcases w.database_cases m fun lib => .ok (f lib, lib) with ⟨e, he⟩ | ⟨a, lib, hok, ha⟩
  · exact .inl ⟨e, he⟩
  · cases hok
    exact .inr ha

theorem World.query_world {α : Type} (w : World) (m : Moment) (f : Library → α) :
    (w.query m f).2 = w.tick := by
  rcases w.query_cases m f with ⟨e, he⟩ | he <;> rw [he]

theorem World.database_ok {α : Type} {w : World} {m : Moment}
    {f : Library → Except String (α × Library)} {a : α} {lib : Library} (hm : m.dbError = none)
    (hf : f w.lib = .ok (a, lib)) : w.database m f = (.ok a, { w.tick with lib }) := by
  simp [World.database, hm, hf]

theorem World.query_ok {α : Type} {w : World} {m : Moment} {f : Library → α}
    (hm : m.dbError = none) : w.query m f = (.ok (f w.lib), w.tick) :=
  World.database_ok hm rfl

def scanRootCancellable (newV5 : List UInt8 → Uuid) (root : Path) : Walked → ScanResult
  | .finished files =>
    .success (dedupIds [] (files.map fun f => trackOf newV5 root f.1 f.2))
  | .failed reason => .unavailable reason
  | .cancelled => .cancelled

def ScanResult.stamps : ScanResult → List (Path × Stamp)
  | success tracks | partialScan tracks _ => tracks.map fun t => (asBytes t.filePath, t.stamp)
  | unavailable _ | cancelled => []

/-- What is outside the programs: the digests, and what each moment holds. -/
structure Outside where
  newV5 : List UInt8 → Uuid
  sha256Hex : List UInt8 → String
  history : ℕ → Moment

section

variable (o : Outside)

/-- What a call is answered with and what it leaves, at the moment it is made. -/
def exec : (c : Call) → World → c.Resp × World
  | .snapshot root, w => ((o.history w.clock).walk root, w.tick)
  | .scanRoot root, w =>
    let r := scanRootCancellable o.newV5 root ((o.history w.clock).scan root)
    (r, { w.tick with stampsRead := r.stamps })
  | .getPathDeviceId path, w =>
    let m := o.history w.clock
    let d := if m.fails then none else m.deviceOf path
    (d, { w.tick with deviceSeen := d })
  | .exists path, w =>
    (((o.history w.clock).present path).isSome, { w.tick with asked := some (path, w.clock) })
  | .isDir path, w =>
    (match (o.history w.clock).present path with
      | some .dir => true
      | _ => false, w.tick)
  | .isFile path, w =>
    (match (o.history w.clock).file? path with
      | some data => data.regular
      | none => false, w.tick)
  | .readDir path, w =>
    (match (o.history w.clock).present path with
      | some .dir => .ok ()
      | some (.file _) => .error "Not a directory (os error 20)"
      | none => .error "No such file or directory (os error 2)", w.tick)
  | .metadata path, w =>
    let f := ((o.history w.clock).file? path).map FileData.fingerprint
    let stamp := (f.map Fingerprint.stamp).getD (none, none)
    (f, { w.tick with stampsRead := [(path, stamp)] })
  | .computeFileContentHash path, w =>
    (((o.history w.clock).file? path).map fun data => o.sha256Hex data.content, w.tick)
  | .isCancelled, w => ((o.history w.clock).cancelled, w.tick)
  | .getMountDeviceId path, w =>
    w.query (o.history w.clock) fun lib => lib.getMountDeviceId path
  | .getMountStates path, w => w.query (o.history w.clock) fun lib => lib.unavailable path
  | .listTracks, w => w.query (o.history w.clock) Library.tracks
  | .findTrackByPath path, w =>
    w.query (o.history w.clock) fun lib => lib.findTrackByPath path
  | .updateMountState path state errorMessage deviceId, w =>
    w.database (o.history w.clock) fun lib =>
      .ok ((), lib.updateMountState path state errorMessage deviceId)
  | .upsertTrack t, w =>
    w.database (o.history w.clock) fun lib => (lib.upsertTrack t).map fun lib => ((), lib)
  | .upsertTracks tracks, w =>
    w.database (o.history w.clock) fun lib => (lib.upsertTracks tracks).map fun lib => ((), lib)
  | .deleteTrack id, w => w.database (o.history w.clock) fun lib => lib.deleteTrack id

end

/-! ## What the writes do -/

section

variable {o : Outside}

theorem exec_upsertTrack (t : Track) (w : World) :
    (∃ e, exec o (.upsertTrack t) w = (.error e, w.tick)) ∨
      ∃ lib, w.lib.upsertTrack t = .ok lib ∧
        exec o (.upsertTrack t) w = (.ok (), { w.tick with lib }) := by
  rcases w.database_cases (o.history w.clock) fun lib =>
      (lib.upsertTrack t).map fun lib => ((), lib) with h | ⟨a, lib, hok, he⟩
  · exact .inl h
  · cases hupsert : w.lib.upsertTrack t with
    | error e =>
      rw [hupsert] at hok
      cases hok
    | ok after =>
      rw [hupsert] at hok
      cases hok
      exact .inr ⟨lib, rfl, he⟩

theorem exec_upsertTracks (tracks : List Track) (w : World) :
    (∃ e, exec o (.upsertTracks tracks) w = (.error e, w.tick)) ∨
      ∃ lib, w.lib.upsertTracks tracks = .ok lib ∧
        exec o (.upsertTracks tracks) w = (.ok (), { w.tick with lib }) := by
  rcases w.database_cases (o.history w.clock) fun lib =>
      (lib.upsertTracks tracks).map fun lib => ((), lib) with h | ⟨a, lib, hok, he⟩
  · exact .inl h
  · cases hupsert : w.lib.upsertTracks tracks with
    | error e =>
      rw [hupsert] at hok
      cases hok
    | ok after =>
      rw [hupsert] at hok
      cases hok
      exact .inr ⟨lib, rfl, he⟩

theorem exec_deleteTrack (id : Uuid) (w : World) :
    (∃ e, exec o (.deleteTrack id) w = (.error e, w.tick)) ∨
      ∃ deleted lib, w.lib.deleteTrack id = .ok (deleted, lib) ∧
        exec o (.deleteTrack id) w = (.ok deleted, { w.tick with lib }) :=
  w.database_cases (o.history w.clock) fun lib => lib.deleteTrack id

theorem exec_upsertTracks_ok {tracks : List Track} {w : World} {lib : Library}
    (hm : (o.history w.clock).dbError = none) (h : w.lib.upsertTracks tracks = .ok lib) :
    exec o (.upsertTracks tracks) w = (.ok (), { w.tick with lib }) :=
  World.database_ok (f := fun lib => (lib.upsertTracks tracks).map fun lib => ((), lib)) hm
    (by simp only [h]; rfl)

theorem exec_deleteTrack_ok {id : Uuid} {w : World} {deleted : Bool} {lib : Library}
    (hm : (o.history w.clock).dbError = none) (h : w.lib.deleteTrack id = .ok (deleted, lib)) :
    exec o (.deleteTrack id) w = (.ok deleted, { w.tick with lib }) :=
  World.database_ok (f := fun lib => lib.deleteTrack id) hm h

theorem exec_updateMountState (path state reason : String) (deviceId : Option ℕ) (w : World) :
    (∃ e, exec o (.updateMountState path state reason deviceId) w = (.error e, w.tick)) ∨
      exec o (.updateMountState path state reason deviceId) w =
        (.ok (), { w.tick with lib := w.lib.updateMountState path state reason deviceId }) := by
  rcases w.database_cases (o.history w.clock) fun lib =>
      .ok ((), lib.updateMountState path state reason deviceId) with h | ⟨a, lib, hok, he⟩
  · exact .inl h
  · cases hok
    exact .inr he

theorem exec_clock (c : Call) (w : World) : (exec o c w).2.clock = w.clock + 1 := by
  have hdatabase : ∀ {α : Type} (m : Moment) (f : Library → Except String (α × Library)),
      (w.database m f).2.clock = w.clock + 1 := by
    intro α m f
    rcases w.database_cases m f with ⟨e, he⟩ | ⟨a, lib, -, he⟩ <;> rw [he] <;> rfl
  cases c <;> first | rfl | exact hdatabase _ _

end

abbrev CallProg (α : Type) := Prog Call.Resp α

abbrev call (c : Call) : CallProg c.Resp := Prog.perform c

end MichiServer.Scanner
