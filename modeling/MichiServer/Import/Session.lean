import MichiServer.Interleave.System
import MichiServer.Queue.Routes
import MichiServer.Scanner.Library

/-!
# What the requests on an import session share

One session: its row in `import_sessions`, its staging directory with the manifest, its entry in
`IMPORT_SESSIONS` and its lock in `SESSION_LOCKS`, the files of the library and the table of tracks.
`ImportAct` lists the single steps that the requests are made of, and `exec` is what a step does.

The entry and the table of locks are those of the running process: a restart loses both. A lock that
was taken out of the table still exists for the requests that wait for it, so locks are kept by
number in `locks`, each with the process it was made in; the table points to one of them.

Failures are drawn with the steps. A step that fails has done nothing, except that a write or a copy
may leave the first bytes.
-/

namespace MichiServer.Import

open MichiServer.Files MichiServer.Interleave
open MichiServer.Queue (ApiError v1Error)

/-! ## Sessions -/

inductive ImportState where
  | created | uploading | uploaded | verifying | committing | committed | failed | rolledBack | expired

def ImportState.asStr : ImportState → String
  | created => "created"
  | uploading => "uploading"
  | uploaded => "uploaded"
  | verifying => "verifying"
  | committing => "committing"
  | committed => "committed"
  | failed => "failed"
  | rolledBack => "rolled_back"
  | expired => "expired"

def terminalStatuses : List String := ["committed", "completed", "rolled_back", "expired"]

structure ImportSessionDb where
  totalTracks : ℕ
  totalPlaylists : ℕ
  importedTracks : ℕ := 0
  totalSizeBytes : ℕ := 0
  status : String
  errorMessage : Option String := none
  expiresAt : String

structure ImportFile where
  localTrackId : Option Uuid
  filename : String
  safeName : String
  stagingFilename : String
  checksum : String
  sizeBytes : ℕ
  remoteTrackId : Uuid

structure ImportSessionState where
  sessionId : Uuid
  totalTracks : ℕ
  totalPlaylists : ℕ
  importedTracks : ℕ := 0
  totalSizeBytes : ℕ := 0
  seenHashes : List String := []
  files : List ImportFile := []

/-! ## Tracks -/

/-- A row of `tracks`, as far as an import places, identifies and compares it. -/
structure Track where
  id : Uuid
  filePath : String
  contentHash : Option String
  durationMs : Option ℕ
  updatedAt : DateTime
deriving DecidableEq

/-- The table of tracks, and the ids that rows of other tables refer to. -/
structure TrackTable where
  rows : List Track
  referred : List Uuid := []

namespace TrackTable

/-- `ON CONFLICT(file_path) DO UPDATE`: the hash is kept where the new row has none. -/
def replace (table : TrackTable) (t : Track) : List Track :=
  table.rows.map fun row =>
    if row.filePath = t.filePath then
      { t with contentHash := t.contentHash <|> row.contentHash }
    else row

/-- `upsert_track_tx`. The id of a row is unique, and does not change under a row that refers to it. -/
def upsertTrack (table : TrackTable) (t : Track) : Except String TrackTable :=
  match table.rows.find? fun row => row.filePath = t.filePath with
  | some row =>
    if row.id = t.id then .ok { table with rows := table.replace t }
    else if t.id ∈ table.rows.map Track.id then .error "UNIQUE constraint failed: tracks.id"
    else if row.id ∈ table.referred then .error "FOREIGN KEY constraint failed"
    else .ok { table with rows := table.replace t }
  | none =>
    if t.id ∈ table.rows.map Track.id then .error "UNIQUE constraint failed: tracks.id"
    else .ok { table with rows := table.rows ++ [t] }

def upsertTracks (table : TrackTable) : List Track → Except String TrackTable
  | [] => .ok table
  | t :: rest =>
    match table.upsertTrack t with
    | .ok table' => table'.upsertTracks rest
    | .error e => .error e

def findByContentHash (table : TrackTable) (hash : String) : List Track :=
  table.rows.filter fun row => row.contentHash = some hash

end TrackTable

/-! ## The shared state -/

abbrev Directory := String → Option (List UInt8)

def Directory.put (d : Directory) (name : String) (content : Option (List UInt8)) : Directory :=
  fun other => if other = name then content else d other

structure SessionDir where
  files : Directory := fun _ => none
  manifest : Option ImportSessionState := none
  manifestTmp : Option ImportSessionState := none

inductive Place where
  | staging | library

abbrev LockId := ℕ

/-- An `Arc<Mutex<bool>>`: the process it was made in, the request that has the guard, and the one that
has set the flag, if it is set. -/
structure SessionLock where
  process : ℕ
  holder : Option TaskId := none
  closedBy : Option TaskId := none

structure ImportWorld where
  row : Option ImportSessionDb := none
  staging : Option SessionDir := none
  library : Directory
  tracks : TrackTable
  process : ℕ := 0
  sessions : Option ImportSessionState := none
  lock : Option LockId := none
  locks : List SessionLock := []

namespace ImportWorld

def files (w : ImportWorld) : Place → Directory
  | .library => w.library
  | .staging => (w.staging.map SessionDir.files).getD fun _ => none

/-- One file changed. Nothing is put into a directory that is not there. -/
def put (w : ImportWorld) (p : Place) (name : String) (content : Option (List UInt8)) :
    ImportWorld :=
  match p with
  | .library => { w with library := w.library.put name content }
  | .staging =>
    { w with staging := w.staging.map fun dir => { dir with files := dir.files.put name content } }

def setRow (w : ImportWorld) (f : ImportSessionDb → ImportSessionDb) : ImportWorld :=
  { w with row := w.row.map f }

def setLock (w : ImportWorld) (l : LockId) (f : SessionLock → SessionLock) : ImportWorld :=
  { w with locks := w.locks.modify l f }

end ImportWorld

/-! ## Answers -/

structure Mapped where
  localTrackId : Uuid
  status : String
  remoteTrackId : Uuid
  checksum : String
deriving DecidableEq

inductive ImportAnswer where
  | session (sessionId : Uuid) (expiresAt : String)
  | uploaded (localTrackId remoteTrackId : Option Uuid) (checksum : String)
  | duplicate (localTrackId : Option Uuid) (checksum : String)
  | committed (tracksImported totalSizeBytes : ℕ) (mapping : List Mapped)
  | rolledBack
  | alreadyClosed
deriving DecidableEq

def ImportAnswer.acceptsUpload : ImportAnswer → Bool
  | uploaded _ _ _ | duplicate _ _ => true
  | _ => false

/-! ## The steps of the requests -/

/-- What a step draws from outside: how it fails, how much a failing write or copy has written, the
clock, the duration that the tags of a file give, and the number of entries of `IMPORT_SESSIONS`. -/
structure StepEnv where
  fails : Option String := none
  written : Option ℕ := none
  now : DateTime := 0
  durationMs : Option ℕ := none
  active : ℕ := 0

inductive ImportAct where
  | now
  -- the table of locks and the guards
  | getSessionLock
  | lock (l : LockId)
  | setGuard (l : LockId)
  | dropGuard (l : LockId) (answer : Option (Except ApiError ImportAnswer))
  | removeSessionLock
  -- the entry
  | sessionsLen
  | sessionsGet
  | sessionsInsert (s : ImportSessionState)
  | sessionsRemove
  -- the database
  | createImportSession (row : ImportSessionDb)
  | getImportSessionFull
  | setImportSessionStatus (status : ImportState) (errorMessage : Option String)
  | updateImportSessionProgress (importedTracks sizeBytes : ℕ)
  | closeImportSession
  | listExpiredImportSessions (cutoff : String)
  | expireImportSession
  | findTracksByContentHash (hash : String)
  | upsertTracks (tracks : List Track)
  -- the file system
  | createDirAll (p : Place)
  | sessionDirExists
  | removeDirAll
  | writeManifestTmp (s : ImportSessionState)
  | renameManifest
  | readManifest
  | exists_ (p : Place) (name : String)
  | read (p : Place) (name : String)
  | create (name : String)
  | write (name : String) (data : List UInt8)
  | syncAll
  | copy (src : String) (p : Place) (dest : String)
  | removeFile (p : Place) (name : String)
  | scan (p : Place) (name : String)

def ImportAct.Resp : ImportAct → Type
  | now => DateTime
  | getSessionLock => LockId
  | lock _ => Bool
  | setGuard _ | dropGuard _ _ | removeSessionLock | sessionsInsert _ | sessionsRemove => Unit
  | sessionsLen => ℕ
  | sessionsGet | readManifest => Option ImportSessionState
  | getImportSessionFull => Except String (Option ImportSessionDb)
  | listExpiredImportSessions _ => Except String Bool
  | findTracksByContentHash _ => Except String (List Track)
  | createImportSession _ | setImportSessionStatus _ _ | updateImportSessionProgress _ _
  | closeImportSession | expireImportSession | upsertTracks _ => Except String Unit
  | sessionDirExists | exists_ _ _ => Bool
  | read _ _ => Except String (List UInt8)
  | createDirAll _ | removeDirAll | writeManifestTmp _ | renameManifest | create _ | write _ _
  | syncAll | copy _ _ _ | removeFile _ _ => Except String Unit
  | scan _ _ => Option (DateTime × Option ℕ)

def unlessFails (env : StepEnv) (w w' : ImportWorld) : Except String Unit × ImportWorld :=
  match env.fails with
  | some e => (.error e, w)
  | none => (.ok (), w')

def notFound : String := "No such file or directory (os error 2)"

def inSessionDir (env : StepEnv) (w : ImportWorld) (f : SessionDir → SessionDir) :
    Except String Unit × ImportWorld :=
  match w.staging with
  | some dir => unlessFails env w { w with staging := some (f dir) }
  | none => (.error notFound, w)

/-- A write of these bytes under a name, which may leave the first of them. -/
def writeFile (env : StepEnv) (w : ImportWorld) (p : Place) (name : String) (data : List UInt8) :
    Except String Unit × ImportWorld :=
  match env.fails, env.written with
  | none, _ => (.ok (), w.put p name (some data))
  | some e, none => (.error e, w)
  | some e, some n => (.error e, w.put p name (some (data.take n)))

/-- `WHERE status NOT IN ('committed', 'completed', 'rolled_back', 'expired')`. -/
def unlessTerminal (f : ImportSessionDb → ImportSessionDb) (row : ImportSessionDb) :
    ImportSessionDb :=
  if row.status ∈ terminalStatuses then row else f row

/-- `INSERT INTO import_sessions`, whose key is the id of the session. -/
def insertRow (env : StepEnv) (w : ImportWorld) (row : ImportSessionDb) :
    Except String Unit × ImportWorld :=
  if w.row.isSome then (.error "UNIQUE constraint failed: import_sessions.session_id", w)
  else unlessFails env w { w with row := some row }

def upsert (env : StepEnv) (w : ImportWorld) (tracks : List Track) :
    Except String Unit × ImportWorld :=
  match w.tracks.upsertTracks tracks with
  | .ok table => unlessFails env w { w with tracks := table }
  | .error e => (.error e, w)

def reads {α : Type} (env : StepEnv) (a : α) : Except String α :=
  match env.fails with
  | some e => .error e
  | none => .ok a

/-- What a step does to the shared state, for the request that does it. -/
def exec (i : TaskId) : (a : ImportAct) → StepEnv → ImportWorld → a.Resp × ImportWorld
  | .now, env, w => (env.now, w)
  | .getSessionLock, _, w =>
    match w.lock with
    | some l => (l, w)
    | none => (w.locks.length,
        { w with lock := some w.locks.length, locks := w.locks ++ [{ process := w.process }] })
  | .lock l, _, w =>
    ((w.locks[l]?.bind SessionLock.closedBy).isSome,
      w.setLock l fun lk => { lk with holder := some i })
  | .setGuard l, _, w => ((), w.setLock l fun lk => { lk with closedBy := some i })
  | .dropGuard l _, _, w => ((), w.setLock l fun lk => { lk with holder := none })
  | .removeSessionLock, _, w => ((), { w with lock := none })
  | .sessionsLen, env, w => (env.active, w)
  | .sessionsGet, _, w => (w.sessions, w)
  | .sessionsInsert s, _, w => ((), { w with sessions := some s })
  | .sessionsRemove, _, w => ((), { w with sessions := none })
  | .createImportSession row, env, w => insertRow env w row
  | .getImportSessionFull, env, w => (reads env w.row, w)
  | .setImportSessionStatus status errorMessage, env, w =>
    unlessFails env w (w.setRow (unlessTerminal fun row =>
      { row with status := status.asStr, errorMessage := errorMessage }))
  | .updateImportSessionProgress importedTracks sizeBytes, env, w =>
    unlessFails env w (w.setRow fun row =>
      { row with importedTracks := importedTracks, totalSizeBytes := sizeBytes })
  | .closeImportSession, env, w =>
    unlessFails env w (w.setRow fun row => { row with status := "committed" })
  | .listExpiredImportSessions cutoff, env, w =>
    (reads env (w.row.any fun row => row.expiresAt < cutoff ∧ row.status ∉ terminalStatuses), w)
  | .expireImportSession, env, w =>
    unlessFails env w (w.setRow (unlessTerminal fun row => { row with status := "expired" }))
  | .findTracksByContentHash hash, env, w => (reads env (w.tracks.findByContentHash hash), w)
  | .upsertTracks tracks, env, w => upsert env w tracks
  | .createDirAll .library, env, w => unlessFails env w w
  | .createDirAll .staging, env, w =>
    unlessFails env w { w with staging := some (w.staging.getD {}) }
  | .sessionDirExists, env, w => (env.fails.isNone && w.staging.isSome, w)
  | .removeDirAll, env, w => unlessFails env w { w with staging := none }
  | .writeManifestTmp s, env, w =>
    inSessionDir env w fun dir => { dir with manifestTmp := some s }
  | .renameManifest, env, w =>
    inSessionDir env w fun dir =>
      { dir with manifest := dir.manifestTmp <|> dir.manifest, manifestTmp := none }
  | .readManifest, env, w =>
    (if env.fails.isSome then none else w.staging.bind SessionDir.manifest, w)
  | .exists_ p name, env, w => (env.fails.isNone && (w.files p name).isSome, w)
  | .read p name, env, w =>
    (match w.files p name with
      | some content => reads env content
      | none => .error notFound, w)
  | .create name, env, w =>
    inSessionDir env w fun dir => { dir with files := dir.files.put name (some []) }
  | .write name data, env, w => writeFile env w .staging name data
  | .syncAll, env, w => unlessFails env w w
  | .copy src p dest, env, w =>
    match w.files .staging src with
    | some content => writeFile env w p dest content
    | none => (.error notFound, w)
  | .removeFile p name, env, w => unlessFails env w (w.put p name none)
  | .scan p name, env, w =>
    (if env.fails.isNone ∧ (w.files p name).isSome then some (env.now, env.durationMs) else none, w)

/-- What happens besides the requests: the server is restarted, or something else changes the library
and its tracks. -/
inductive ImportTick where
  | restart
  | elsewhere (library : Directory) (tracks : TrackTable)

/-- What happens in the background. A restart begins with no entry and no lock. -/
def tick : ImportTick → ImportWorld → ImportWorld
  | .restart, w => { w with process := w.process + 1, sessions := none, lock := none }
  | .elsewhere library tracks, w => { w with library := library, tracks := tracks }

/-- The steps of the requests on one session, and what happens besides. -/
def semantics : Semantics ImportAct ImportAct.Resp StepEnv ImportTick ImportWorld where
  exec := exec
  tick := tick

end MichiServer.Import
