import MichiServer.Playback.Handle
import MichiServer.Playback.Resolver
import MichiServer.Queue.Tables

/-!
# The queue routes

The handlers of `routes/v1/queue.rs` that change a queue, and the helpers of `playback_queue.rs` they
share. A handler first changes the tables, in one transaction, and then brings the playback engine
after them, each on a path of its own.

`RequestEnv` is what a request meets outside: the clock, the ids it draws, the environment of each
engine command it sends, and the database calls that fail. A transaction is one call: whatever in it
fails, nothing of it stays.
-/

namespace MichiServer.Queue

open MichiServer.Logic MichiServer.Playback

structure ApiError where
  status : ℕ
  code : String
  message : String
deriving DecidableEq

def v1Error (status : ℕ) (code message : String) : ApiError := ⟨status, code, message⟩

def databaseError (text : String) : ApiError := v1Error 500 "DATABASE_ERROR" text

/-- What a queue that cannot be pushed to the engine is answered with. -/
def runtimeSyncFailed (text : String) : ApiError := v1Error 500 "RUNTIME_SYNC_FAILED" text

def engineUnavailable (e : PlaybackError) : ApiError :=
  v1Error 500 "ENGINE_UNAVAILABLE" e.toString

def commandFailed (e : PlaybackError) : ApiError := v1Error 500 e.errorCode e.toString

/-! ## What a request meets -/

/-- The database calls of the handlers: finding the active queue, reading the items, the transaction,
the delete of `clear`, the read of the sync, and the three of `save_queue_state`. -/
inductive DbCall where
  | active | items | commit | delete | sync | saveQueue | saveItem (i : ℕ) | saveSession
deriving DecidableEq

inductive Drawn where
  | queue | item (i : ℕ) | savedQueue | savedItem (i : ℕ) | session
deriving DecidableEq

inductive Sent where
  | snapshot | setQueue | jumpToIndex | seek
deriving DecidableEq

/-- The environment of one request. A call in `fault` fails with that text. -/
structure RequestEnv where
  now : DateTime
  uuid : Drawn → Uuid
  engine : Sent → EngineEnv
  fault : DbCall → Option String := fun _ => none

inductive Announcement where
  | queueUpdated (queueId : Uuid) (addedCount : ℕ)
  | playbackStateChanged (trackId : Uuid) (index : ℕ)
  | queueTransferred (sessionId : Uuid)
  | queueReordered (queueId : Uuid)
deriving DecidableEq

structure AppState where
  disabledModules : List String := []
  db : QueueTables := .empty
  library : Library
  playbackEngine : EngineTask
  tx : List Announcement := []

abbrev Route := Handler ApiError AppState

/-! ## Calls -/

variable {α : Type}

/-- One call of the database: it changes the tables, or fails and leaves them. -/
def transact (env : RequestEnv) (call : DbCall)
    (f : QueueTables → Except ApiError (QueueTables × α)) : Route α :=
  Handler.update fun s =>
    match env.fault call with
    | some text => (s, .error (databaseError text))
    | none =>
      match f s.db with
      | .ok (db, a) => ({ s with db := db }, .ok a)
      | .error e => (s, .error e)

def query (env : RequestEnv) (call : DbCall) (f : QueueTables → α) : Route α :=
  transact env call fun db => .ok (db, f db)

def statement (r : Except String QueueTables) (a : α) : Except ApiError (QueueTables × α) :=
  match r with
  | .ok db => .ok (db, a)
  | .error text => .error (databaseError text)

def command (f : EngineTask → EngineTask × Except PlaybackError α) (onError : PlaybackError → ApiError) :
    Route α :=
  Handler.update fun s =>
    let r := f s.playbackEngine
    ({ s with playbackEngine := r.1 }, r.2.mapError onError)

def setQueue (env : RequestEnv) (tracks : List Track) (currentIndex : ℕ)
    (currentTrackId : Option Uuid) : Route Unit :=
  command (EngineTask.setQueue (env.engine .setQueue) tracks currentIndex currentTrackId)
    fun e => runtimeSyncFailed e.toString

def currentTrackId (env : RequestEnv) : Route (Option Uuid) := do
  let snapshot ← command (EngineTask.snapshot (env.engine .snapshot)) engineUnavailable
  pure snapshot.trackId

def announce (a : Announcement) : Route Unit := modify fun s => { s with tx := s.tx ++ [a] }

def playbackEnabled : Route Unit := do
  let s ← get
  Handler.rejectIf (s.disabledModules.contains "playback")
    (v1Error 503 "MODULE_DISABLED" "playback module is disabled")

/-! ## `playback_queue.rs` -/

def validationFailed (tid : Uuid) (e : PlaybackError) : ApiError :=
  let status := match e with
    | .trackNotFound _ | .trackFileMissing _ | .trackOutsideLibrary _ => 404
    | _ => 400
  v1Error status e.errorCode ("track " ++ toString tid ++ " validation failed: " ++ e.toString)

def validateAndLoadTracks (trackIds : List Uuid) : Route (List Track) := do
  let s ← get
  MonadExcept.ofExcept (s.library.loadAll validationFailed trackIds)

def findOrCreate (env : RequestEnv) (db : QueueTables) : Except ApiError (QueueTables × Uuid) :=
  match db.activeQueue with
  | some q => .ok (db, q.id)
  | none =>
    statement (db.insertQueue ⟨env.uuid .queue, activeQueueName, env.now⟩) (env.uuid .queue)

def getOrCreateActiveQueue (env : RequestEnv) : Route Uuid :=
  transact env .active (findOrCreate env)

def resolveFailed (tid : Uuid) (e : PlaybackError) : ApiError :=
  runtimeSyncFailed ("failed to resolve queue track " ++ toString tid ++ ": " ++ e.toString)

/-- The place of a track among the tracks to be pushed, or their beginning. -/
def indexOfCurrent (tracks : List Track) (current : Option Uuid) : ℕ :=
  match current with
  | some tid => (tracks.findIdx? fun t => t.id = tid).getD 0
  | none => 0

/-- `sync_active_queue_to_engine`. The queue it pushes is the one it is given. -/
def syncActiveQueueToEngine (env : RequestEnv) (queueId : Uuid) (current : Option Uuid) :
    Route Unit := do
  let trackIds ← query env .sync fun db => db.tracksOf queueId
  if trackIds.isEmpty then setQueue env [] 0 none
  else do
    let s ← get
    let tracks ← MonadExcept.ofExcept (s.library.loadAll resolveFailed trackIds)
    setQueue env tracks (indexOfCurrent tracks current) current

def replaceItems (env : RequestEnv) (queueId : Uuid) (trackIds : List Uuid) : Route Unit :=
  transact env .commit fun db =>
    statement ((db.deleteItems queueId).insertItems
      (QueueTables.numbered queueId (fun i => env.uuid (.item i)) 0 trackIds)) ()

/-! ## The handlers -/

inductive QueueResponse where
  | added (queueId : Uuid) (added : ℕ)
  | jumped (index : ℕ) (trackId : Uuid)
  | accepted (queueId sessionId : Uuid) (currentIndex positionMs : ℕ)
  | reordered (reordered : ℕ)
  | cleared (queueId : Uuid)
  | deleted (queueId : Uuid)
deriving DecidableEq

/-- The transaction of `queue_items_handler`: the tracks go behind the last position. -/
def appendItems (env : RequestEnv) (trackIds : List Uuid) (db : QueueTables) :
    Except ApiError (QueueTables × Uuid) := do
  let (db, queueId) ← findOrCreate env db
  statement (db.insertItems (QueueTables.numbered queueId (fun i => env.uuid (.item i))
    (db.maxPosition queueId + 1) trackIds)) queueId

def queueItemsHandler (env : RequestEnv) (trackIds : List Uuid) : Route QueueResponse := do
  playbackEnabled
  Handler.rejectIf trackIds.isEmpty
    (v1Error 400 "INVALID_REQUEST" "track_ids cannot be empty")
  let _validated ← validateAndLoadTracks trackIds
  let activeQueueId ← transact env .commit (appendItems env trackIds)
  let curTrackId ← currentTrackId env
  syncActiveQueueToEngine env activeQueueId curTrackId
  announce (.queueUpdated activeQueueId trackIds.length)
  pure (.added activeQueueId trackIds.length)

/-- A queue that is jumped into and is not the active one is promoted: its tracks replace the items of
the active queue. -/
def promote (env : RequestEnv) (queueId activeQueueId : Uuid) (trackIds : List Uuid) :
    Route Unit :=
  if queueId = activeQueueId then pure () else replaceItems env activeQueueId trackIds

def queueJumpHandler (env : RequestEnv) (queueId : Option Uuid) (index : ℕ) :
    Route QueueResponse := do
  playbackEnabled
  let activeQueueId ← getOrCreateActiveQueue env
  let queueId := queueId.getD activeQueueId
  let trackIds ← query env .items fun db => db.tracksOf queueId
  Handler.rejectIf trackIds.isEmpty (v1Error 400 "QUEUE_EMPTY" "queue has no items")
  let targetTrackId ← Handler.require trackIds[index]?
    (v1Error 400 "INVALID_INDEX"
      ("index " ++ toString index ++ " out of bounds for queue length " ++
        toString trackIds.length))
  let validatedTracks ← validateAndLoadTracks trackIds
  promote env queueId activeQueueId trackIds
  setQueue env validatedTracks index (some targetTrackId)
  command (EngineTask.jumpToIndex (env.engine .jumpToIndex) index) commandFailed
  announce (.playbackStateChanged targetTrackId index)
  pure (.jumped index targetTrackId)

structure QueueTransferBody where
  trackIds : List Uuid
  currentIndex : ℕ
  positionMs : ℕ
  source : String
  position_ms_lt : positionMs < 2 ^ 64 := by decide

def unknownTracks (e : ApiError) : ApiError :=
  if e.status = 404 then v1Error 400 "UNKNOWN_TRACKS" "tracks not in library" else e

/-- One of the inserts of `save_queue_state` whose failure is ignored. -/
def storeItem (env : RequestEnv) (db : QueueTables) (item : QueueItem × ℕ) : QueueTables :=
  match env.fault (.saveItem item.2) with
  | some _ => db
  | none =>
    match db.insertItem item.1 with
    | .ok db => db
    | .error _ => db

def saveQueueState (env : RequestEnv) (name : String) (trackIds : List Uuid) : Route Uuid := do
  transact env .saveQueue fun db =>
    statement (db.insertQueue ⟨env.uuid .savedQueue, name, env.now⟩) ()
  let items := QueueTables.numbered (env.uuid .savedQueue) (fun i => env.uuid (.savedItem i)) 0
    trackIds
  modify fun s => { s with db := items.zipIdx.foldl (storeItem env) s.db }
  query env .saveSession fun _ => env.uuid .session

def seekTransferred (env : RequestEnv) (positionMs : ℕ) : Route Unit :=
  if positionMs > 0 then
    command (EngineTask.seek (env.engine .seek) positionMs) commandFailed
  else pure ()

def queueTransferHandler (env : RequestEnv) (body : QueueTransferBody) : Route QueueResponse := do
  playbackEnabled
  Handler.rejectIf body.trackIds.isEmpty
    (v1Error 400 "INVALID_REQUEST" "track_ids must not be empty")
  Handler.rejectIf (body.currentIndex ≥ body.trackIds.length)
    (v1Error 400 "INVALID_INDEX" "current_index exceeds track_ids length")
  let s ← get
  let validatedTracks ← MonadExcept.ofExcept
    ((s.library.loadAll validationFailed body.trackIds).mapError unknownTracks)
  let queueId ← getOrCreateActiveQueue env
  replaceItems env queueId body.trackIds
  let sessionId ← saveQueueState env body.source body.trackIds
  setQueue env validatedTracks body.currentIndex body.trackIds[body.currentIndex]?
  seekTransferred env body.positionMs
  announce (.queueTransferred sessionId)
  pure (.accepted queueId sessionId body.currentIndex body.positionMs)

def reorderedQueue (env : RequestEnv) (queueId : Option Uuid) : Route Uuid :=
  match queueId with
  | some queueId => pure queueId
  | none => getOrCreateActiveQueue env

def moveItem (queueId : Uuid) (db : QueueTables) (item : Uuid × ℕ) :
    Except ApiError QueueTables :=
  let r := db.setPosition item.1 queueId item.2
  if r.2 = 0 then
    .error (v1Error 500 "REORDER_FAILED"
      ("failed to update position for item " ++ toString item.1))
  else .ok r.1

/-- The transaction of `queue_reorder_handler`. The ids must be as many as the queue has items, and
each must be one of them; that they are different is not checked. -/
def reorderItems (queueId : Uuid) (itemIds : List Uuid) (db : QueueTables) :
    Except ApiError (QueueTables × Unit) :=
  let existing := (db.queueItems.filter fun item => item.queueId = queueId).map QueueItem.id
  if existing.length ≠ itemIds.length then
    .error (v1Error 400 "COUNT_MISMATCH"
      ("expected " ++ toString existing.length ++ " items, got " ++ toString itemIds.length))
  else
    match itemIds.find? fun i => i ∉ existing with
    | some i =>
      .error (v1Error 400 "UNKNOWN_ITEM_ID"
        ("item " ++ toString i ++ " does not belong to queue " ++ toString queueId))
    | none => (itemIds.zipIdx.foldlM (moveItem queueId) db).map fun db => (db, ())

def queueReorderHandler (env : RequestEnv) (itemIds : List Uuid) (queueId : Option Uuid) :
    Route QueueResponse := do
  playbackEnabled
  let queueId ← reorderedQueue env queueId
  transact env .commit (reorderItems queueId itemIds)
  let curTrackId ← currentTrackId env
  syncActiveQueueToEngine env queueId curTrackId
  announce (.queueReordered queueId)
  pure (.reordered itemIds.length)

def emptyEngineIf (env : RequestEnv) (active : Bool) : Route Unit :=
  if active then setQueue env [] 0 none else pure ()

def clearQueueHandler (env : RequestEnv) (queueId : Uuid) : Route QueueResponse := do
  playbackEnabled
  let activeQueueId ← getOrCreateActiveQueue env
  transact env .delete fun db => .ok (db.deleteItems queueId, ())
  emptyEngineIf env (queueId = activeQueueId)
  pure (.cleared queueId)

/-- The transaction of `queue_delete_handler`; its answer is whether the queue had the name of the
active one. -/
def removeQueue (queueId : Uuid) (db : QueueTables) : Except ApiError (QueueTables × Bool) :=
  match db.queues.find? fun q => q.id = queueId with
  | none => .error (v1Error 404 "NOT_FOUND" ("queue " ++ toString queueId ++ " not found"))
  | some q => .ok ((db.deleteItems queueId).deleteQueue queueId, q.name = activeQueueName)

def queueDeleteHandler (env : RequestEnv) (queueId : Uuid) : Route QueueResponse := do
  playbackEnabled
  let isActive ← transact env .commit (removeQueue queueId)
  emptyEngineIf env isActive
  pure (.deleted queueId)

inductive QueueRequest where
  | items (trackIds : List Uuid)
  | jump (queueId : Option Uuid) (index : ℕ)
  | transfer (body : QueueTransferBody)
  | reorder (itemIds : List Uuid) (queueId : Option Uuid)
  | clear (queueId : Uuid)
  | delete (queueId : Uuid)

def QueueRequest.handle (env : RequestEnv) : QueueRequest → Route QueueResponse
  | .items trackIds => queueItemsHandler env trackIds
  | .jump queueId index => queueJumpHandler env queueId index
  | .transfer body => queueTransferHandler env body
  | .reorder itemIds queueId => queueReorderHandler env itemIds queueId
  | .clear queueId => clearQueueHandler env queueId
  | .delete queueId => queueDeleteHandler env queueId

end MichiServer.Queue
