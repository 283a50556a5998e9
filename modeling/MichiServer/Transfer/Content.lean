import MichiServer.Playback.Model
import MichiServer.Receivers.Trust

/-!
# The content of a transfer

`TailSyncV1` and `ContentRefV1` of `playback_transfer.rs`, with the bounds that are checked, and the
resolver of `content_identity.rs`. A transfer names its tracks by what they are (an id, a hash, a title
and an artist), and the resolver finds the one local track that is meant, or refuses.
-/

namespace MichiServer.Transfer

open MichiServer.Playback MichiServer.Receivers.Trust

def maxQueueEntries : ℕ := 10000

structure ContentRefV1 where
  trackId : Option String := none
  title : String
  artist : String
  album : Option String := none
  durationMs : ℕ
  contentSha256 : Option String := none

structure TailSyncV1 where
  transferId : String
  sourceMichiId : String
  targetMichiId : String
  receiverMichiId : String
  status : String
  positionMs : ℕ
  currentTrack : ContentRefV1
  queue : List ContentRefV1 := []
  queueIndex : ℕ := 0
  repeatMode : String := "off"
  shuffle : Bool := false
  timestampMs : ℤ
  sourceRevision : ℕ := 0

inductive TransferValidationError where
  | queueTooLarge (max : ℕ)
  | stringTooLong (field : String) (max : ℕ)
  | invalidStatus (status : String)
  | missingTrackMetadata
  | queueIndexOutOfBounds
deriving DecidableEq

protected def TransferValidationError.toString : TransferValidationError → String
  | .queueTooLarge max => "Queue exceeds maximum limit of " ++ toString max ++ " items"
  | .stringTooLong field max =>
    "String field " ++ field ++ " exceeds maximum length " ++ toString max
  | .invalidStatus status =>
    "Invalid playback status: " ++ status ++ " (must be 'playing' or 'paused')"
  | .missingTrackMetadata => "Empty title or artist in track reference"
  | .queueIndexOutOfBounds => "Queue index out of bounds"

def checkLength (field text : String) (max : ℕ) : Except TransferValidationError Unit :=
  if text.utf8ByteSize > max then .error (.stringTooLong field max) else .ok ()

def ContentRefV1.validateContentRef (track : ContentRefV1) : Except TransferValidationError Unit :=
  if trim track.title = "" ∨ trim track.artist = "" then .error .missingTrackMetadata
  else do
    checkLength "title" track.title 512
    checkLength "artist" track.artist 512
    match track.album with
    | some album => checkLength "album" album 512
    | none => .ok ()

def TailSyncV1.validateBounds (t : TailSyncV1) : Except TransferValidationError Unit :=
  if t.queue.length > maxQueueEntries then .error (.queueTooLarge maxQueueEntries)
  else if t.status ≠ "playing" ∧ t.status ≠ "paused" then .error (.invalidStatus t.status)
  else if ¬ t.queue.isEmpty ∧ t.queueIndex ≥ t.queue.length then .error .queueIndexOutOfBounds
  else do
    checkLength "transfer_id" t.transferId 128
    checkLength "source_michi_id" t.sourceMichiId 128
    checkLength "target_michi_id" t.targetMichiId 128
    checkLength "receiver_michi_id" t.receiverMichiId 128
    t.currentTrack.validateContentRef
    t.queue.forM ContentRefV1.validateContentRef

inductive ContentResolutionError where
  | notFound (title artist : String)
  | ambiguousMatch (title : String) (count : ℕ)
  | database (text : String)
deriving DecidableEq

structure CatalogRow where
  track : Track
  title : Option String := none
  artist : Option String := none
  album : Option String := none
deriving DecidableEq

structure SyncedRow where
  serverPath : String
  fileHash : String

inductive CatalogQuery where
  | byUuid | bySha256 | byMetadata

/-- What the resolver asks: the two tables, the text form of a uuid, and the queries that fail. -/
structure Catalog where
  tracks : List CatalogRow := []
  syncedFiles : List SyncedRow := []
  parseUuid : String → Option Uuid := fun _ => none
  fault : CatalogQuery → Option String := fun _ => none

/-- `LOWER`, and the comparison of `eq_ignore_ascii_case`: ASCII letters only. -/
def lower (s : String) : String := String.ofList (s.toList.map Char.toLower)

def sqlTrim (s : String) : String :=
  String.ofList
    ((s.toList.dropWhile fun c => c = ' ').reverse.dropWhile fun c => c = ' ').reverse

namespace Catalog

def query {α : Type} (c : Catalog) (q : CatalogQuery) (answer : α) :
    Except ContentResolutionError α :=
  match c.fault q with
  | some text => .error (.database text)
  | none => .ok answer

def getTrackByUuid (c : Catalog) (id : Uuid) : Except ContentResolutionError (Option Track) :=
  c.query .byUuid ((c.tracks.find? fun row => row.track.id = id).map CatalogRow.track)

/-- `find_by_sha256`: one row for each row of `synced_files` a track joins with. -/
def findBySha256 (c : Catalog) (sha : String) : Except ContentResolutionError (List Track) :=
  c.query .bySha256
    (c.tracks.flatMap fun row =>
      (c.syncedFiles.filter fun s => s.serverPath = row.track.filePath ∧ s.fileHash = sha).map
        fun _ => row.track)

/-- `as i64`, of a `u64`: how the column `duration_ms` holds a duration. -/
def asI64 (n : ℕ) : ℤ := Int.bmod n (2 ^ 64)

def minDur (durationMs : ℕ) : ℤ := asI64 (durationMs - 3000)

/-- `max_dur` of `find_by_metadata`; an addition that overflows wraps. -/
def maxDur (durationMs : ℕ) : ℤ := asI64 ((durationMs + 3000) % 2 ^ 64)

/-- `find_by_metadata`; a track without a title, an artist or a duration is not found. -/
def findByMetadata (c : Catalog) (title artist : String) (durationMs : ℕ) :
    Except ContentResolutionError (List CatalogRow) :=
  c.query .byMetadata
    (c.tracks.filter fun row =>
      row.title.any (fun t => lower (sqlTrim t) = lower (sqlTrim title)) ∧
        row.artist.any (fun a => lower (sqlTrim a) = lower (sqlTrim artist)) ∧
        row.track.durationMs.any
          (fun d => minDur durationMs ≤ asI64 d ∧ asI64 d ≤ maxDur durationMs))

/-- Step 1 of `resolve`: the track of the id, if one is given that parses and is there. -/
def byTrackId (c : Catalog) (content : ContentRefV1) : Option Track := do
  let text ← content.trackId
  let id ← c.parseUuid text
  let found ← (c.getTrackByUuid id).toOption
  found

/-- Step 3 of `resolve`: one track of that title, artist and duration, or one of that album. -/
def byMetadata (c : Catalog) (content : ContentRefV1) : Except ContentResolutionError Track := do
  let candidates ← c.findByMetadata content.title content.artist content.durationMs
  match candidates with
  | [row] => .ok row.track
  | [] => .error (.notFound content.title content.artist)
  | _ =>
    let albumFiltered := candidates.filter fun row : CatalogRow =>
      content.album.any fun targetAlbum => row.album.any fun a => lower a = lower targetAlbum
    match albumFiltered with
    | [row] => .ok row.track
    | _ => .error (.ambiguousMatch content.title candidates.length)

def resolve (c : Catalog) (content : ContentRefV1) : Except ContentResolutionError Track :=
  match c.byTrackId content with
  | some track => .ok track
  | none =>
    match content.contentSha256.filter fun sha => trim sha ≠ "" with
    | none => c.byMetadata content
    | some sha => do
      let matched ← c.findBySha256 sha
      match matched with
      | [] => c.byMetadata content
      | [track] => .ok track
      | _ => .error (.ambiguousMatch content.title matched.length)

def resolved (c : Catalog) (content : ContentRefV1) : Option Track := (c.resolve content).toOption

end Catalog

end MichiServer.Transfer
