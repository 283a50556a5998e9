import MichiServer.Scanner.Calls
import MichiServer.Logic.Trace
import Mathlib.Logic.Function.Basic

/-!
# Reconciliation and the watcher

`reconcile_root` brings the library in line with a scan of a root: it upserts what was found and
deletes the rows of files that are gone, unless the mount is not to be trusted. `poll_root` compares a
snapshot of a root with the one before and writes the differences; when it has none to compare with it
leaves the work to a scan and to `reconcile_root`.
-/

namespace MichiServer.Scanner

open MichiServer.Files MichiServer.Text MichiServer.Interleave

section

-- `Uuid::new_v5` in `NAMESPACE_URL`.
variable (newV5 : List UInt8 → Uuid)

def scanFile (libraryRoot path : Path) : CallProg (Option Track) := do
  if !(← call (.isFile path)) || !isAudioFile path then pure none
  else
    let fsMeta ← call (.metadata path)
    pure (some (trackOf newV5 libraryRoot path fsMeta))

/-! ## reconcile_root -/

def rootStr (root : Path) : String := fromUtf8Lossy root

def fingerprintUnchanged (existing t : Track) : Bool :=
  existing.fileSize.isSome && existing.fileSize == t.fileSize &&
    existing.fileMtimeNs.isSome && existing.fileMtimeNs == t.fileMtimeNs

def addHash (path : Path) (t : Track) : CallProg Track := do
  match ← call (.computeFileContentHash path) with
  | some newHash => pure { t with contentHash := some newHash }
  | none => pure t

/-- A scanned track with the hash of its row, or with a new one where the file changed. -/
def keepHash (rootExisting : List Track) (t : Track) : CallProg Track :=
  match rootExisting.find? fun existing => existing.filePath = t.filePath with
  | none => pure t
  | some existing =>
    if fingerprintUnchanged existing t && existing.contentHash.isSome then
      pure { t with contentHash := existing.contentHash }
    else if !fingerprintUnchanged existing t then addHash (asBytes t.filePath) t
    else pure t

def tracksToUpsert (rootExisting : List Track) : List Track → CallProg (Option (List Track))
  | [] => pure (some [])
  | t :: rest => do
    if ← call .isCancelled then pure none
    else
      let t ← keepHash rootExisting t
      let others ← tracksToUpsert rootExisting rest
      pure (others.map fun others => t :: others)

/-- Rows that the scan did not find are deleted when their files do not exist. -/
def deleteMissing (scanned : List Uuid) : List Track → CallProg (Except String Unit)
  | [] => pure (.ok ())
  | existing :: rest => do
    if existing.id ∈ scanned then deleteMissing scanned rest
    else if ← call (.exists (asBytes existing.filePath)) then deleteMissing scanned rest
    else
      match ← call (.deleteTrack existing.id) with
      | .ok _ => deleteMissing scanned rest
      | .error e => pure (.error e)

def preserve (root : Path) (reason : String) : CallProg (Except String Unit) := do
  let _ ← call (.updateMountState (rootStr root) "unavailable" reason none)
  pure (.ok ())

def writeRoot (root : Path) (tracks rootExisting : List Track) (currentDevId : Option ℕ) :
    CallProg (Except String Unit) := do
  match ← tracksToUpsert rootExisting tracks with
  | none => pure (.ok ())
  | some upserts =>
    let _ ← call (.updateMountState (rootStr root) "online" "" currentDevId)
    match ← (if upserts.isEmpty then pure (.ok ()) else call (.upsertTracks upserts)) with
    | .error e => pure (.error e)
    | .ok () =>
      if ← call .isCancelled then pure (.ok ())
      else deleteMissing (tracks.map Track.id) rootExisting

def hasContinuity (tracks rootExisting : List Track) : Bool :=
  tracks.any fun t => rootExisting.any fun e => e.id = t.id || e.filePath = t.filePath

/-- Why the library is not brought in line with what is on this device. -/
def refusal (recordedDevId currentDevId : Option ℕ) (tracks rootExisting : List Track) :
    Option String :=
  match recordedDevId, currentDevId with
  | some expected, some current =>
    if expected ≠ current then some "mount device identity mismatch: filesystem lost or replaced"
    else none
  | none, _ =>
    if hasContinuity tracks rootExisting then none
    else some "bootstrap pending: unverified device on existing non-empty library"
  | some _, none => some "unable to read filesystem device identity"

/-- The mount's identity is checked, where there is something to lose. -/
def checkMount (root : Path) (tracks rootExisting : List Track)
    (recordedDevId currentDevId : Option ℕ) : CallProg (Except String Unit) :=
  if rootExisting.isEmpty then writeRoot root tracks rootExisting currentDevId
  else
    match refusal recordedDevId currentDevId tracks rootExisting with
    | some reason => preserve root reason
    | none => do
      match ← call (.getMountStates (rootStr root)) with
      | .error e => pure (.error e)
      | .ok wasUnavailable =>
        if wasUnavailable && tracks.isEmpty then
          preserve root "mount reappeared as empty directory while DB contains tracks"
        else writeRoot root tracks rootExisting currentDevId

def disappeared (root : Path) : CallProg Bool := do
  if ← call (.exists root) then
    let isDir ← call (.isDir root)
    pure !isDir
  else pure true

def reconcileScanned (root : Path) (tracks : List Track) : CallProg (Except String Unit) := do
  let currentDevId ← call (.getPathDeviceId root)
  match ← call (.getMountDeviceId (rootStr root)) with
  | .error e => pure (.error e)
  | .ok recordedDevId =>
    if ← disappeared root then preserve root "mount disappeared"
    else
      match ← call .listTracks with
      | .error e => pure (.error e)
      | .ok allExisting =>
        let rootExisting := allExisting.filter fun t =>
          pathStartsWith (asBytes t.filePath) root
        checkMount root tracks rootExisting recordedDevId currentDevId

def reconcileRoot (root : Path) (scanResult : ScanResult) : CallProg (Except String Unit) :=
  match scanResult with
  | .success tracks => reconcileScanned root tracks
  | .unavailable reason => preserve root reason
  | .cancelled => pure (.ok ())
  | .partialScan tracks _ => if tracks.isEmpty then pure (.ok ()) else call (.upsertTracks tracks)

/-! ## poll_root -/

/-- A scan and a reconciliation, whose outcome decides whether the snapshot is kept. -/
def rescan (root : Path) (current : Snapshot) : CallProg (Option Snapshot) := do
  let scanRes ← call (.scanRoot root)
  match ← reconcileRoot root scanRes with
  | .error _ => pure none
  | .ok () =>
    match ← call (.getMountStates (rootStr root)) with
    | .error _ => pure none
    | .ok unavailable => pure (if unavailable then none else some current)

/-- The track of a file that changed, hashed anew when the file was known. -/
def changedTrack (root : Path) (previous : Snapshot) (path : Path) :
    CallProg (Option Track) := do
  match ← scanFile newV5 root path with
  | none => pure none
  | some t =>
    if path ∈ previous then
      let t ← addHash path t
      pure (some t)
    else pure (some t)

/-- New and changed files are upserted, until the watcher is cancelled; the answer is whether it was
not. -/
def upsertChanged (root : Path) (previous : Snapshot) : List Path → CallProg Bool
  | [] => pure true
  | path :: rest => do
    if ← call .isCancelled then pure false
    else
      match ← changedTrack newV5 root previous path with
      | none => upsertChanged root previous rest
      | some t =>
        let _ ← call (.upsertTrack t)
        upsertChanged root previous rest

/-- The rows of files that vanished are deleted, until the watcher is cancelled. -/
def removeVanished : List Path → CallProg Unit
  | [] => pure ()
  | path :: rest => do
    if ← call .isCancelled then pure ()
    else if ← call (.exists path) then removeVanished rest
    else
      match ← call (.findTrackByPath (fromUtf8Lossy path)) with
      | .ok (some t) =>
        let _ ← call (.deleteTrack t.id)
        removeVanished rest
      | .ok none => removeVanished rest
      | .error _ => removeVanished rest

def changed (previous current : Snapshot) : List Path :=
  (current.entries.filter fun f => previous.lookup f.1 ≠ some f.2).map Sigma.fst

def vanished (previous current : Snapshot) : List Path :=
  previous.keys.filter fun path => path ∉ current

def writeChanges (root : Path) (previous current : Snapshot) (currentDevId : Option ℕ) :
    CallProg (Option Snapshot) := do
  let _ ← call (.updateMountState (rootStr root) "online" "" currentDevId)
  if current.entries.isEmpty && !previous.entries.isEmpty && currentDevId.isNone then
    pure (some current)
  else if ← upsertChanged newV5 root previous (changed previous current) then
    removeVanished (vanished previous current)
    pure (some current)
  else pure (some current)

def mismatch (recordedDevId currentDevId : Option ℕ) : Bool :=
  match recordedDevId, currentDevId with
  | some expected, some current => expected ≠ current
  | _, _ => false

/-- `poll_root`, of a root whose entry in the map of snapshots is this one: what the entry is
afterwards. -/
def pollRoot (root : Path) (previous : Option (Option Snapshot)) : CallProg (Option Snapshot) := do
  match ← call (.snapshot root) with
  | none => pure none
  | some (.error error) =>
    let _ ← call (.updateMountState (rootStr root) "unavailable" error none)
    pure none
  | some (.ok current) =>
    let currentDevId ← call (.getPathDeviceId root)
    match ← call (.getMountDeviceId (rootStr root)) with
    | .error _ => pure none
    | .ok recordedDevId =>
      if mismatch recordedDevId currentDevId then
        let _ ← call (.updateMountState (rootStr root) "unavailable"
          "mount device identity mismatch: filesystem lost or replaced" none)
        pure none
      else
        match previous with
        | none =>
          if recordedDevId.isNone then rescan root current
          else
            let _ ← call (.updateMountState (rootStr root) "online" "" currentDevId)
            pure (some current)
        | some none => rescan root current
        | some (some previous) => writeChanges newV5 root previous current currentDevId

end

/-!
## What the server does with a library

The jobs that write tracks, one after the other: the watcher's polls, the scans that are followed by a
reconciliation, the scan of the library's routes, and the part of an import's commit that adds tracks.
A server is the world of the calls and the watcher's map of snapshots, which a restart empties.
-/

/-- One job. An import adds files that it copied to `final_dir`, each with its verified checksum. -/
inductive Job where
  | pollRoot (root : Path)
  | restartWatcher
  | reconcileRoot (root : Path)
  | scanLibrary (musicPaths : List Path)
  | importFiles (finalDir : Path) (committedFiles : List (Path × String))

structure Server where
  world : World
  snapshots : Path → Option (Option Snapshot)

section

variable (newV5 : List UInt8 → Uuid)

/-- The roots are scanned one after the other; what cannot be scanned adds nothing. -/
def scanDirectories : List Path → CallProg (List Track)
  | [] => pure []
  | path :: rest => do
    let r ← call (.scanRoot path)
    let others ← scanDirectories rest
    match r with
    | .success tracks => pure (tracks ++ others)
    | .partialScan tracks _ => pure (tracks ++ others)
    | .unavailable _ => pure others
    | .cancelled => pure others

/-- The scan of the library's routes: what is found is upserted, without hashes. -/
def scanLibrary (musicPaths : List Path) : CallProg (Except String Unit) := do
  let found ← scanDirectories musicPaths
  let tracks := dedupIds [] found
  if tracks.isEmpty then pure (.ok ()) else call (.upsertTracks tracks)

/-- The `scan` job: every root that can be read is scanned and reconciled. Its progress is left out. -/
def scanJob : List Path → CallProg (Except String Unit)
  | [] => pure (.ok ())
  | path :: rest => do
    if ← call .isCancelled then pure (.error "cancelled")
    else
      match ← call (.readDir path) with
      | .error error =>
        let _ ← call (.updateMountState (rootStr path) "unavailable" error none)
        scanJob rest
      | .ok () =>
        let scanRes ← call (.scanRoot path)
        match ← reconcileRoot path scanRes with
        | .error error => pure (.error s!"reconcile error: {error}")
        | .ok () => scanJob rest

def importedTracks (finalDir : Path) : List (Path × String) → CallProg (List Track)
  | [] => pure []
  | (dest, checksum) :: rest => do
    let found ← scanFile newV5 finalDir dest
    let others ← importedTracks finalDir rest
    match found with
    | some t => pure ({ t with contentHash := some checksum } :: others)
    | none => pure others

def importFiles (finalDir : Path) (committedFiles : List (Path × String)) :
    CallProg (Except String Unit) := do
  let tracks ← importedTracks newV5 finalDir committedFiles
  if tracks.isEmpty then pure (.ok ()) else call (.upsertTracks tracks)

def Job.prog (snapshots : Path → Option (Option Snapshot)) :
    Job → CallProg (Path → Option (Option Snapshot))
  | pollRoot root => do
    let entry ← Scanner.pollRoot newV5 root (snapshots root)
    pure (Function.update snapshots root (some entry))
  | restartWatcher => pure fun _ => none
  | reconcileRoot root => do
    let r ← call (.scanRoot root)
    let _ ← Scanner.reconcileRoot root r
    pure snapshots
  | scanLibrary musicPaths => do
    let _ ← Scanner.scanLibrary musicPaths
    pure snapshots
  | importFiles finalDir committedFiles => do
    let _ ← Scanner.importFiles newV5 finalDir committedFiles
    pure snapshots

end

def newServer : Server where
  world := {
    lib := ⟨[], [], [], by decide, by decide, by simp⟩
    clock := 0
    deviceSeen := none
    asked := none
    stampsRead := [] }
  snapshots _ := none

section

variable (o : Outside)

def Server.step (s : Server) (job : Job) : Server :=
  let r := (job.prog o.newV5 s.snapshots).play (exec o) s.world
  ⟨r.2, r.1⟩

def Server.Along (P : Job → Call → World → Prop) (s : Server) (job : Job) : Prop :=
  (job.prog o.newV5 s.snapshots).Along (exec o) (P job) s.world

instance (P : Job → Call → World → Prop) [∀ job c w, Decidable (P job c w)] (s : Server)
    (job : Job) : Decidable (s.Along o P job) :=
  inferInstanceAs (Decidable (Prog.Along _ (P job) _ _))

def Server.Obeys (P : Job → Call → World → Prop) (s : Server) (jobs : List Job) : Prop :=
  Logic.Trace.Obeys (Server.step o)
    (Server.Along o P) s jobs

instance (P : Job → Call → World → Prop) [∀ job c w, Decidable (P job c w)] (s : Server)
    (jobs : List Job) : Decidable (s.Obeys o P jobs) :=
  inferInstanceAs (Decidable (Logic.Trace.Obeys _ (Server.Along o P) _ _))

def Server.run (s : Server) (jobs : List Job) : Server :=
  Logic.Trace.run (Server.step o) s jobs

end

end MichiServer.Scanner
