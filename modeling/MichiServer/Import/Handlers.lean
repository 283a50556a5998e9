import MichiServer.Import.Session

/-!
# The import handlers

The requests on an import session, as programs of the steps they share: creating it, uploading a file,
committing, rolling back, and one round of `spawn_import_cleanup`, as far as it is about this session.

An upload and a commit hold the session's guard from their first look at the row to their answer, and
so does a rollback. Creating a session takes no guard.
-/

namespace MichiServer.Import

open MichiServer.Files MichiServer.Interleave MichiServer.Text
open MichiServer.Queue (ApiError v1Error)

abbrev ImportM (α : Type) := TryProg ImportAct.Resp ApiError α

/-! ## Steps -/

def step (a : ImportAct) : Prog ImportAct.Resp a.Resp := .perform a

def sure {α : Type} (p : Prog ImportAct.Resp α) : ImportM α := TryProg.lift p

def io {α : Type} (onError : String → ApiError) (p : Prog ImportAct.Resp (Except String α)) :
    ImportM α :=
  ExceptT.mk (p >>= fun
    | .ok a => .ret (.ok a)
    | .error e => .ret (.error (onError e)))

def rejectIf (c : Prop) [Decidable c] (error : ApiError) : ImportM Unit :=
  if c then throw error else pure ()

def require {α : Type} (x : Option α) (error : ApiError) : ImportM α :=
  match x with
  | some a => pure a
  | none => throw error

def ioError (e : String) : ApiError := v1Error 500 "IO_ERROR" e

def databaseError (e : String) : ApiError := v1Error 500 "DATABASE_ERROR" e

def sessionClosed (message : String) : ApiError := v1Error 410 "SESSION_CLOSED" message

def sessionNotFound (message : String) : ApiError := v1Error 404 "SESSION_NOT_FOUND" message

/-- What a request is refused with whose guard says that the session is closed. -/
def guardClosed : ApiError := sessionClosed "import session is already closed or terminal"

/-! ## What the requests are given -/

/-- What the handlers take from other crates: the hash, Base64, uuids, Unicode and time. -/
structure Externals where
  computeSha256 : List UInt8 → String
  base64Decode : String → Option (List UInt8)
  uuidParseStr : String → Option Uuid
  uuidToString : Uuid → String
  newV5 : List UInt8 → Uuid
  isAlphanumeric : Char → Bool
  toRfc3339 : DateTime → String

structure Setting extends Externals where
  musicPaths : List Path
  cachePath : Path
  sessionId : Uuid

structure ImportSessionRequest where
  totalTracks : ℕ
  totalPlaylists : ℕ

/-- `ImportUploadBody`, with the two headers of an upload, as far as they are text. -/
structure ImportUpload where
  filename : String
  hash : Option String
  data : String
  xTrackId : Option String := none
  xChecksum : Option String := none

def maxFileSize : ℕ := 100 * 1024 * 1024

def maxSessionSize : ℕ := 1024 * 1024 * 1024

def maxImportSessions : ℕ := 100

def allowedAudioExts : List String := ["mp3", "flac", "ogg", "opus", "aac", "m4a", "wav"]

namespace Setting

variable (s : Setting)

def sessionDir : Path :=
  join (join s.cachePath (asBytes "import_staging")) (asBytes (s.uuidToString s.sessionId))

/-- The first music path, or else the staging directory: where a commit puts the files. -/
def finalDir : Path := s.musicPaths.head?.getD s.sessionDir

def finalPlace : Place := if s.musicPaths.isEmpty then .staging else .library

/-! ## Names -/

def sanitizeFilename (filename : String) : String :=
  let name := ((fileName (asBytes filename)).bind fromUtf8).getD "unknown"
  String.ofList (name.toList.map fun c =>
    if s.isAlphanumeric c || c = '.' || c = '-' || c = '_' then c else '_')

end Setting

def extensionText (filename : String) : Option String := (extension (asBytes filename)).bind fromUtf8

def isAllowedExtension (filename : String) : Bool :=
  ((extensionText filename).map fun e => allowedAudioExts.contains (toLowercase e)).getD false

def nameStem (name : List UInt8) : List UInt8 :=
  if name = [dot, dot] then name
  else
    let before := ((name.reverse.dropWhile (· != dot)).drop 1).reverse
    if before.isEmpty then name else before

def fileStemText (filename : String) : Option String :=
  ((fileName (asBytes filename)).map nameStem).bind fromUtf8

/-- The loop over `{stem}_{short_hash}_{counter}.{ext}`: the first name that is not taken. One of
`fuel` names is free when fewer are taken. -/
def countedName (taken : String → Bool) (name : ℕ → String) : ℕ → ℕ → String
  | 0, counter => name counter
  | fuel + 1, counter =>
    if taken (name counter) then countedName taken name fuel (counter + 1) else name counter

def nameTaken (files : List ImportFile) (dataHash name : String) : Bool :=
  files.any fun f => f.safeName = name && f.checksum ≠ dataHash

def resolveSafeName (files : List ImportFile) (sanitized dataHash ext : String) : String :=
  if nameTaken files dataHash sanitized then
    let stem := (fileStemText sanitized).getD "track"
    let shortHash := String.ofList (dataHash.toList.take 8)
    let first := stem ++ "_" ++ shortHash ++ "." ++ ext
    if nameTaken files dataHash first then
      countedName (nameTaken files dataHash)
        (fun counter => stem ++ "_" ++ shortHash ++ "_" ++ toString counter ++ "." ++ ext)
        files.length 1
    else first
  else sanitized

/-! ## Locks, entries and manifests -/

/-- The guard of the session's lock, the value it was found with, and what the request does with it. -/
def withSessionLock (body : LockId → Bool → Prog ImportAct.Resp (Except ApiError ImportAnswer)) :
    Prog ImportAct.Resp (Except ApiError ImportAnswer) := do
  let sessionLock : LockId ← step .getSessionLock
  let closed : Bool ← step (.lock sessionLock)
  body sessionLock closed

def leave (l : LockId) (answer : Except ApiError ImportAnswer) :
    Prog ImportAct.Resp (Except ApiError ImportAnswer) := do
  step (.dropGuard l (some answer))
  return answer

def releaseLock (l : LockId) : Prog ImportAct.Resp Unit := do
  step (.dropGuard l none)
  step .removeSessionLock

def cleanupSessionDir : Prog ImportAct.Resp Unit := do
  let there : Bool ← step .sessionDirExists
  if there then
    let _ : Except String Unit ← step .removeDirAll
    return ()
  else return ()

def getOrRecoverSession : Prog ImportAct.Resp (Option ImportSessionState) := do
  let entry : Option ImportSessionState ← step .sessionsGet
  match entry with
  | some session => return some session
  | none => do
    let manifest : Option ImportSessionState ← step .readManifest
    match manifest with
    | some recovered => do
      step (.sessionsInsert recovered)
      return some recovered
    | none => return none

def saveManifest (onError : String → ApiError) (session : ImportSessionState) : ImportM Unit := do
  io onError (step (.writeManifestTmp session))
  io onError (step .renameManifest)

def checkedRow : ImportM ImportSessionDb := do
  let row ← io (fun e => databaseError ("failed to verify session status from database: " ++ e))
    (step .getImportSessionFull)
  require row (sessionNotFound "import session not found in database")

def recoveredSession : ImportM ImportSessionState := do
  let session ← sure getOrRecoverSession
  require session (sessionNotFound "import session not found or expired")

section Handlers

variable (s : Setting)

/-! ## Creating a session -/

def importSessionHandler (body : ImportSessionRequest) : ImportM ImportAnswer := do
  let now : DateTime ← sure (step .now)
  let expiresAt := s.toRfc3339 (now + 3600000)
  rejectIf (body.totalTracks = 0 ∧ body.totalPlaylists = 0)
    (v1Error 400 "INVALID_REQUEST" "total_tracks or total_playlists must be > 0")
  rejectIf (body.totalTracks > 10000)
    (v1Error 400 "TOO_MANY_TRACKS" "max 10000 tracks per session")
  let active : ℕ ← sure (step .sessionsLen)
  rejectIf (active ≥ maxImportSessions)
    (v1Error 429 "TOO_MANY_SESSIONS"
      "Too many active import sessions. Complete or cancel existing sessions first.")
  io databaseError (step (.createImportSession {
    totalTracks := body.totalTracks
    totalPlaylists := body.totalPlaylists
    status := "active"
    expiresAt := expiresAt }))
  io (fun e => databaseError ("failed to initialize session status in database: " ++ e))
    (step (.setImportSessionStatus .created none))
  io (fun e => ioError ("failed to initialize session staging: " ++ e))
    (step (.createDirAll .staging))
  let sessionState : ImportSessionState := {
    sessionId := s.sessionId
    totalTracks := body.totalTracks
    totalPlaylists := body.totalPlaylists }
  saveManifest (fun e => ioError ("failed to persist initial session manifest: " ++ e)) sessionState
  sure (step (.sessionsInsert sessionState))
  return .session s.sessionId expiresAt

/-! ## Uploading -/

/-- The checks of an upload that need no session: the bytes, and their hash. -/
def checkData (upload : ImportUpload) : Except ApiError (List UInt8 × String) :=
  match s.base64Decode upload.data with
  | none => .error (v1Error 400 "INVALID_DATA" "invalid base64 data")
  | some data =>
    if data.length > maxFileSize then
      .error (v1Error 400 "FILE_TOO_LARGE"
        ("file exceeds max size of " ++ toString maxFileSize ++ " bytes"))
    else
      let dataHash := s.computeSha256 data
      match upload.xChecksum <|> upload.hash with
      | some hash =>
        if dataHash ≠ hash then
          .error (v1Error 400 "HASH_MISMATCH" "SHA256 hash does not match data")
        else .ok (data, dataHash)
      | none => .ok (data, dataHash)

/-- The bytes are staged under the name, unless there is a file of that name. -/
def stageFile (name : String) (data : List UInt8) : ImportM Unit := do
  let there : Bool ← sure (step (.exists_ .staging name))
  if there then pure ()
  else do
    io ioError (step (.create name))
    io ioError (step (.write name data))
    io ioError (step .syncAll)

/-- An upload of new content, from the staging of its bytes to its answer. -/
def storeUpload (upload : ImportUpload) (session : ImportSessionState) (data : List UInt8)
    (dataHash : String) : ImportM ImportAnswer := do
  let localTrackId := upload.xTrackId.bind s.uuidParseStr
  let ext := toLowercase ((extensionText upload.filename).getD "")
  let stagingFilename := dataHash ++ "." ++ ext
  io ioError (step (.createDirAll .staging))
  stageFile stagingFilename data
  let safeName :=
    resolveSafeName session.files (s.sanitizeFilename upload.filename) dataHash ext
  let _ : Except String Unit ← sure (step (.setImportSessionStatus .uploading none))
  let remoteTrackId :=
    if allowedAudioExts.contains ext then
      some (Scanner.trackIdFromLibraryPath s.newV5 s.finalDir
        (join s.finalDir (asBytes safeName)))
    else none
  let importFile := remoteTrackId.map fun id => {
    localTrackId := localTrackId
    filename := upload.filename
    safeName := safeName
    stagingFilename := stagingFilename
    checksum := dataHash
    sizeBytes := data.length
    remoteTrackId := id : ImportFile }
  let session := { session with
    importedTracks := session.importedTracks + 1
    totalSizeBytes := session.totalSizeBytes + data.length
    seenHashes := session.seenHashes ++ [dataHash]
    files := session.files ++ importFile.toList }
  saveManifest (fun e => ioError ("failed to persist session manifest: " ++ e)) session
  sure (step (.sessionsInsert session))
  io (fun e => databaseError ("failed to update import session progress in database: " ++ e))
    (step (.updateImportSessionProgress session.importedTracks session.totalSizeBytes))
  return .uploaded localTrackId remoteTrackId dataHash

def acceptUpload (upload : ImportUpload) : ImportM ImportAnswer := do
  let session ← recoveredSession
  rejectIf (¬ isAllowedExtension upload.filename)
    (v1Error 400 "INVALID_EXTENSION"
      ("extension not allowed. Accepted: " ++ ", ".intercalate allowedAudioExts))
  let (data, dataHash) ← MonadExcept.ofExcept (checkData s upload)
  rejectIf (session.totalSizeBytes + data.length > maxSessionSize)
    (v1Error 400 "SESSION_SIZE_EXCEEDED"
      ("session exceeds max total size of " ++ toString maxSessionSize ++ " bytes"))
  if session.seenHashes.contains dataHash then do
    io (fun e => databaseError ("failed to sync import session progress in database: " ++ e))
      (step (.updateImportSessionProgress session.importedTracks session.totalSizeBytes))
    return .duplicate (upload.xTrackId.bind s.uuidParseStr) dataHash
  else storeUpload s upload session data dataHash

def uploadUnderGuard (upload : ImportUpload) : ImportM ImportAnswer := do
  let row ← checkedRow
  rejectIf (row.status ∈ terminalStatuses) guardClosed
  acceptUpload s upload

def importUploadHandler (upload : ImportUpload) :
    Prog ImportAct.Resp (Except ApiError ImportAnswer) :=
  withSessionLock fun sessionLock closed =>
    if closed then leave sessionLock (.error guardClosed)
    else (uploadUnderGuard s upload).run >>= leave sessionLock

/-! ## Committing -/

/-- Step 1: no file of the library with another content is in the way. -/
def prevalidate : List ImportFile → ImportM Unit
  | [] => pure ()
  | file :: rest => do
    let there : Bool ← sure (step (.exists_ s.finalPlace file.safeName))
    if there then do
      let existingData ← io
        (fun e => ioError ("failed to read existing file " ++ file.safeName ++ ": " ++ e))
        (step (.read s.finalPlace file.safeName))
      if s.computeSha256 existingData ≠ file.checksum then do
        let _ : Except String Unit ← sure (step (.setImportSessionStatus .failed
          (some "destination conflict: file already exists with different content")))
        throw (v1Error 409 "DESTINATION_CONFLICT" ("Destination file " ++ file.safeName ++
          " already exists with different checksum. Commit aborted."))
      else prevalidate rest
    else prevalidate rest

/-- The compensation: what this commit has copied is removed, as far as that succeeds. -/
def removeCopied : List String → ImportM Unit
  | [] => pure ()
  | name :: rest => do
    let _ : Except String Unit ← sure (step (.removeFile s.finalPlace name))
    removeCopied rest

/-- Step 2: the files are copied. `newly` are the names copied so far, `done` the files with their
statuses. -/
def copyFiles (newly : List String) (done : List (ImportFile × String)) :
    List ImportFile → ImportM (List String × List (ImportFile × String))
  | [] => pure (newly, done)
  | file :: rest => do
    let staged : Bool ← sure (step (.exists_ .staging file.stagingFilename))
    let actualSrc := if staged then file.stagingFilename else file.safeName
    let there : Bool ← sure (step (.exists_ s.finalPlace file.safeName))
    if there then copyFiles newly (done ++ [(file, "already_present")]) rest
    else do
      let found : Bool ← sure (step (.exists_ .staging actualSrc))
      if ¬ found then do
        removeCopied s newly
        throw (ioError ("staging source file for " ++ file.safeName ++ " not found"))
      else do
        let copied : Except String Unit ←
          sure (step (.copy actualSrc s.finalPlace file.safeName))
        match copied with
        | .error e => do
          removeCopied s newly
          throw (ioError ("failed to copy " ++ file.safeName ++ " to destination: " ++ e))
        | .ok () =>
          copyFiles (newly ++ [file.safeName]) (done ++ [(file, "inserted")]) rest

/-- `scan_single_file`, of a file of the library, with the hash that was verified. -/
def scanSingleFile (file : ImportFile) : ImportM (Option Track) := do
  let entryPath := join s.finalDir (asBytes file.safeName)
  let tags : Option (DateTime × Option ℕ) ← sure (step (.scan s.finalPlace file.safeName))
  return (tags.filter fun _ => Scanner.isAudioFile entryPath).map fun (now, durationMs) => {
    id := Scanner.trackIdFromLibraryPath s.newV5 s.finalDir entryPath
    filePath := fromUtf8Lossy entryPath
    contentHash := some file.checksum
    durationMs := durationMs
    updatedAt := now }

def scanFiles : List (ImportFile × String) → ImportM (List Track)
  | [] => pure []
  | (file, _) :: rest => do
    let track ← scanSingleFile s file
    let tracks ← scanFiles rest
    return track.toList ++ tracks

def durationsDiffer (d e : ℕ) : Bool :=
  Scanner.asI64 (Scanner.asI64 (Scanner.asI64 d - Scanner.asI64 e)).natAbs > 2000

def conflicts (t track : Track) : Bool :=
  t.id ≠ track.id && (t.durationMs.map fun d =>
    durationsDiffer d (track.durationMs.getD 0)).getD false

def findConflict : List Track → ImportM Bool
  | [] => pure false
  | track :: rest =>
    match track.contentHash with
    | none => findConflict rest
    | some hash => do
      let found : Except String (List Track) ← sure (step (.findTracksByContentHash hash))
      let existing := found.toOption.getD []
      if existing.any fun t => conflicts t track then pure true else findConflict rest

def storeTracks (newly : List String) (tracks : List Track) : ImportM Unit :=
  if tracks.isEmpty then pure ()
  else do
    let stored : Except String Unit ← sure (step (.upsertTracks tracks))
    match stored with
    | .ok () => pure ()
    | .error e => do
      removeCopied s newly
      throw (databaseError ("failed to upsert imported tracks: " ++ e))

def mapped (tracks : List Track) (file : ImportFile) (status : String) : Mapped :=
  let remoteId := ((tracks.find? fun t => t.id = file.remoteTrackId).map Track.id).getD
    file.remoteTrackId
  { localTrackId := file.localTrackId.getD remoteId
    status := status
    remoteTrackId := remoteId
    checksum := file.checksum }

/-- The steps of a commit up to the row: what is copied and stored, and the mapping. -/
def importFiles (session : ImportSessionState) : ImportM (List Mapped) := do
  io (fun e => databaseError ("failed to update session state in database: " ++ e))
    (step (.setImportSessionStatus .committing none))
  io (fun e => ioError ("failed to ensure destination directory: " ++ e))
    (step (.createDirAll s.finalPlace))
  prevalidate s session.files
  let (newly, committedFiles) ← copyFiles s [] [] session.files
  let importedTracks ← scanFiles s committedFiles
  let conflict ← findConflict importedTracks
  if conflict then do
    removeCopied s newly
    let _ : Except String Unit ← sure (step (.setImportSessionStatus .failed
      (some "unresolved conflicts")))
    throw (v1Error 409 "UNRESOLVED_CONFLICTS" ("Import has duration conflicts with existing " ++
      "tracks. Rollback and fix metadata before retrying."))
  else do
    storeTracks s newly importedTracks
    return committedFiles.map fun (file, status) => mapped importedTracks file status

def markCommitted : ImportM Unit := do
  io (fun e => databaseError ("failed to mark import session committed in DB: " ++ e))
    (step (.setImportSessionStatus .committed none))
  io (fun e => databaseError ("failed to close import session in DB: " ++ e))
    (step .closeImportSession)

def commitUnderGuard : ImportM ImportAnswer := do
  let row ← checkedRow
  rejectIf (row.status = "committed" ∨ row.status = "completed")
    (v1Error 409 "SESSION_ALREADY_COMMITTED" "session has already been committed")
  rejectIf (row.status = "rolled_back" ∨ row.status = "expired" ∨ row.status = "failed")
    (sessionClosed "import session is closed or terminal")
  let session ← recoveredSession
  let mapping ← importFiles s session
  markCommitted
  return .committed session.importedTracks session.totalSizeBytes mapping

/-- The end of a commit: the entry, the staging directory and the lock go. -/
def finishCommit (l : LockId) (answer : ImportAnswer) :
    Prog ImportAct.Resp (Except ApiError ImportAnswer) := do
  step .sessionsRemove
  cleanupSessionDir
  step (.setGuard l)
  releaseLock l
  return .ok answer

def importCommitHandler : Prog ImportAct.Resp (Except ApiError ImportAnswer) :=
  withSessionLock fun sessionLock closed =>
    if closed then leave sessionLock (.error guardClosed)
    else (commitUnderGuard s).run >>= fun
      | .ok answer => finishCommit sessionLock answer
      | .error e => leave sessionLock (.error e)

/-! ## Rolling back -/

/-- What a rollback finds in the row: its answer, or none when the row is to be rolled back. -/
def rollbackAnswer (status : String) : Option (Except ApiError ImportAnswer) :=
  if status = "committed" ∨ status = "completed" then
    some (.error (v1Error 409 "CANNOT_ROLLBACK_COMMITTED"
      "cannot rollback an import session that has already been committed"))
  else if status = "rolled_back" then some (.ok .rolledBack)
  else if status = "expired" then some (.error (sessionClosed "import session is expired"))
  else none

/-- The end of a rollback: the guard, the entry, the staging directory and the lock. -/
def finishRollback (l : LockId) : Prog ImportAct.Resp (Except ApiError ImportAnswer) := do
  step (.setGuard l)
  step .sessionsRemove
  cleanupSessionDir
  releaseLock l
  return .ok .rolledBack

def rollBack (l : LockId) (closed : Bool) : Prog ImportAct.Resp (Except ApiError ImportAnswer) :=
  if closed then leave l (.ok .alreadyClosed)
  else do
    let marked : Except String Unit ← step (.setImportSessionStatus .rolledBack none)
    match marked with
    | .error e =>
      leave l (.error (databaseError ("failed to mark import session rolled back in DB: " ++ e)))
    | .ok () => finishRollback l

def importRollbackHandler : Prog ImportAct.Resp (Except ApiError ImportAnswer) :=
  withSessionLock fun sessionLock closed =>
    checkedRow.run >>= fun
      | .error e => leave sessionLock (.error e)
      | .ok row =>
        match rollbackAnswer row.status with
        | some answer => leave sessionLock answer
        | none => rollBack sessionLock closed

end Handlers

/-! ## Cleaning up -/

/-- The end of a session in a round of the cleanup: the staging directory, the entry and the lock. -/
def finishCleanup (l : LockId) : Prog ImportAct.Resp Unit := do
  step (.setGuard l)
  cleanupSessionDir
  step .sessionsRemove
  releaseLock l

def expireSession : Prog ImportAct.Resp Unit := do
  let sessionLock : LockId ← step .getSessionLock
  let closed : Bool ← step (.lock sessionLock)
  if closed then step (.dropGuard sessionLock none)
  else do
    let expired : Except String Unit ← step .expireImportSession
    match expired with
    | .ok () => finishCleanup sessionLock
    | .error _ => step (.dropGuard sessionLock none)

def removeOrphan : Prog ImportAct.Resp Unit := do
  let row : Except String (Option ImportSessionDb) ← step .getImportSessionFull
  match row with
  | .ok none => do
    let sessionLock : LockId ← step .getSessionLock
    let _ : Bool ← step (.lock sessionLock)
    finishCleanup sessionLock
  | _ => return ()

/-- A round of `spawn_import_cleanup`: the session when it is listed as expired, and its staging
directory when it is found. -/
def cleanupRound (s : Setting) : Prog ImportAct.Resp Unit := do
  let now : DateTime ← step .now
  let listed : Except String Bool ←
    step (.listExpiredImportSessions (s.toRfc3339 (now - 7200000)))
  if listed.toOption = some true then expireSession
  let found : Bool ← step .sessionDirExists
  if found then removeOrphan

/-! ## The requests of a run -/

inductive ImportRequest where
  | session (body : ImportSessionRequest)
  | upload (body : ImportUpload)
  | commit
  | rollback
  | cleanup

def ImportRequest.program (s : Setting) :
    ImportRequest → Prog ImportAct.Resp (Option (Except ApiError ImportAnswer))
  | session body => some <$> (importSessionHandler s body).run
  | upload body => some <$> importUploadHandler s body
  | commit => some <$> importCommitHandler s
  | rollback => some <$> importRollbackHandler
  | cleanup => (fun _ => none) <$> cleanupRound s

end MichiServer.Import
