import MichiServer.Manifest.Journal

/-!
# The manifest and its deltas

`sync_manifest_handler` lists every track; `sync_manifest_delta_handler` lists the tracks from a place
of that list on, and then reads from the journal which tracks were written and which deleted since a
time. A client keeps the tracks it was given, the place and the time of the last answer.

Writes, the rows of the journal that follow them, and the reads of a request interleave. The time of an
answer is the text that the client sends as `since` with its next request.
-/

namespace MichiServer.Manifest

open MichiServer.Catalog MichiServer.Queue

def getAllTracksManifest (db : Database) : List DeltaEntry :=
  (db.tracks.insertionSort fun a b => a.filePath ≤ b.filePath).map deltaEntry

structure ManifestResponse where
  tracks : List DeltaEntry
  total : ℕ
  cursor : ℤ

/-- What a handler meets: whether the sync module is disabled, and the error of its query, if any. -/
structure SyncEnv where
  disabled : Bool := false
  database : Option String := none

def SyncEnv.read {α : Type} (env : SyncEnv) (rows : α) : Except ApiError α :=
  match env.database with
  | none => .ok rows
  | some e => .error (databaseError e)

def moduleDisabled : ApiError := v1Error 503 "MODULE_DISABLED" "sync module is disabled"

def syncManifestHandler (env : SyncEnv) (db : Database) : Except ApiError ManifestResponse :=
  if env.disabled then .error moduleDisabled
  else (env.read (getAllTracksManifest db)).map fun tracks =>
    let maxIndex := tracks.zipIdx.foldl (fun _ track => track.2) 0
    { tracks, total := tracks.length, cursor := maxIndex + 1 }

structure DeltaQuery where
  cursor : Option ℤ
  since : Option String
  manifestId : Option ℤ

structure DeltaResponse where
  added : List DeltaEntry
  deleted : List EntityId
  updated : List EntityId
  cursor : ℤ
  total : ℤ

/-- The first half of `sync_manifest_delta_handler`: the tracks from the cursor on, and how many there
are in all. -/
def deltaTracks (env : SyncEnv) (query : DeltaQuery) (db : Database) :
    Except ApiError (List DeltaEntry × ℤ) :=
  if env.disabled then .error moduleDisabled
  else (env.read (getAllTracksManifest db)).map fun all =>
    let cursor := (query.cursor.or query.manifestId).getD 0
    ((all.zipIdx.filter fun track => cursor ≤ (track.2 : ℤ)).map Prod.fst, all.length)

def rowsAfter (journal : List JournalRow) (since : String) : List JournalRow :=
  journal.filter fun row => since < row.createdAt

def changesSince (journal : List JournalRow) (since : String) : List JournalRow :=
  ((rowsAfter journal since).insertionSort fun a b => a.createdAt ≤ b.createdAt).take 500

def idsOf (action : String) (changes : List JournalRow) : List EntityId :=
  (changes.filter fun row => row.action = action).map fun row => row.entityId

/-- The second half of `sync_manifest_delta_handler`: what the journal has since the time asked for. -/
def deltaChanges (env : SyncEnv) (query : DeltaQuery) (tracks : List DeltaEntry × ℤ)
    (journal : List JournalRow) : Except ApiError DeltaResponse :=
  match query.since with
  | none =>
    .ok { added := tracks.1, deleted := [], updated := [], cursor := tracks.2, total := tracks.2 }
  | some since =>
    (env.read (changesSince journal since)).map fun changes =>
      { added := tracks.1
        deleted := idsOf "delete" changes
        updated := idsOf "upsert" changes
        cursor := tracks.2
        total := tracks.2 }

/-- A client of the manifest: the tracks it has, the cursor and the time of the last answer, and
whether it fetches an updated track that it does not have. -/
structure Client where
  fetchesUnknown : Bool
  tracks : Uuid → Option DeltaEntry := fun _ => none
  cursor : ℤ := 0
  since : Option String := none

namespace Client

variable (c : Client)

def listed (tracks : List DeltaEntry) (id : Uuid) : Option DeltaEntry :=
  tracks.find? fun e => e.trackId = id

def takeManifest (m : ManifestResponse) (now : String) : Client where
  fetchesUnknown := c.fetchesUnknown
  tracks := listed m.tracks
  cursor := m.cursor
  since := some now

def put (added : List DeltaEntry) (id : Uuid) : Option DeltaEntry := (listed added id).or (c.tracks id)

/-- The updated tracks are fetched from the server; one that is gone there is dropped. -/
def refresh (server : Uuid → Option DeltaEntry) (d : DeltaResponse) (id : Uuid) : Option DeltaEntry :=
  if .id id ∈ d.updated ∧ (c.fetchesUnknown = true ∨ (c.put d.added id).isSome) then server id
  else c.put d.added id

/-- The client applies a delta: what was added, what was updated, what was deleted. -/
def takeDelta (server : Uuid → Option DeltaEntry) (d : DeltaResponse) (now : String) : Client where
  fetchesUnknown := c.fetchesUnknown
  tracks := fun id => if .id id ∈ d.deleted then none else c.refresh server d id
  cursor := d.cursor
  since := some now

def query (since : String) : DeltaQuery where
  cursor := some c.cursor
  since := some since
  manifestId := none

end Client

inductive Request where
  | manifest (answer : ManifestResponse)
  | tracksRead (query : DeltaQuery) (tracks : List DeltaEntry × ℤ)
  | delta (answer : DeltaResponse)

/-- The library, its journal, the rows still to be written to it, those written since the last read of
a request, and a client. -/
structure SyncState where
  db : Database
  journal : List JournalRow
  unwritten : List ChangeRecord
  late : List JournalRow
  client : Client
  request : Option Request

inductive SyncEvent where
  | change (change : LibraryChange)
  | record (i : ℕ) (now : String) (database : Bool)
  | restart
  | manifest (env : SyncEnv)
  | deltaTracks (env : SyncEnv)
  | deltaChanges (env : SyncEnv)
  | answer (now : String)
  | lost

namespace SyncState

def start (db : Database) (journal : List JournalRow) (fetchesUnknown : Bool) : SyncState where
  db := db
  journal := journal
  unwritten := []
  late := []
  client := { fetchesUnknown }
  request := none

variable (s : SyncState)

def change (c : LibraryChange) : SyncState :=
  match c.perform s.db with
  | .ok (db, records) => { s with db := db, unwritten := s.unwritten ++ records }
  | .error _ => s

/-- A row is written to the journal; a failure of the database is ignored. -/
def record (i : ℕ) (now : String) (database : Bool) : SyncState :=
  match s.unwritten[i]? with
  | none => s
  | some change =>
    if database then
      { s with
        unwritten := s.unwritten.eraseIdx i
        journal := s.journal ++ [recordChange change now]
        late := s.late ++ [recordChange change now] }
    else { s with unwritten := s.unwritten.eraseIdx i }

def askManifest (env : SyncEnv) : SyncState :=
  match s.request, syncManifestHandler env s.db with
  | none, .ok answer => { s with late := [], request := some (.manifest answer) }
  | _, _ => s

def askDelta (env : SyncEnv) : SyncState :=
  match s.request, s.client.since with
  | none, some since =>
    match deltaTracks env (s.client.query since) s.db with
    | .ok tracks => { s with request := some (.tracksRead (s.client.query since) tracks) }
    | .error _ => s
  | _, _ => s

def readChanges (env : SyncEnv) : SyncState :=
  match s.request with
  | some (.tracksRead query tracks) =>
    match deltaChanges env query tracks s.journal with
    | .ok answer => { s with late := [], request := some (.delta answer) }
    | .error _ => { s with request := none }
  | _ => s

def answer (now : String) : SyncState :=
  match s.request with
  | some (.manifest answer) => { s with client := s.client.takeManifest answer now, request := none }
  | some (.delta answer) =>
    { s with client := s.client.takeDelta (entry s.db) answer now, request := none }
  | _ => s

def step : SyncEvent → SyncState
  | .change c => s.change c
  | .record i now database => s.record i now database
  | .restart => { s with unwritten := [], request := none }
  | .manifest env => s.askManifest env
  | .deltaTracks env => s.askDelta env
  | .deltaChanges env => s.readChanges env
  | .answer now => s.answer now
  | .lost => { s with request := none }

def Converged : Prop := ∀ id, s.client.tracks id = entry s.db id

end SyncState

def delta (now : String) : List SyncEvent := [.deltaTracks {}, .deltaChanges {}, .answer now]

end MichiServer.Manifest
