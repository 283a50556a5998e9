import MichiServer.Catalog.Playlists
import MichiServer.Queue.Routes
import MichiServer.Accounts.Revocation

/-!
# What a backup holds

The payload that a backup is written as: the tracks, the playlists with the tracks of their entries,
the starred tracks and the plays, each section in the order its statement asks for.
-/

namespace MichiServer.Backup

open MichiServer.Catalog MichiServer.Queue

structure BackupPlaylist where
  name : String
  description : Option String
  tracks : List Track

structure BackupHistoryEntry where
  trackId : Uuid
  playedAt : String
  timestamp : String

structure BackupPayload where
  version : ℕ
  exportedAt : String
  tracks : List Track
  playlists : List BackupPlaylist
  starredTracks : List Track
  playHistory : List BackupHistoryEntry
  serverId : Uuid
  serverName : String

def nullsFirst : Option String → Option String → Bool
  | none, _ => true
  | some _, none => false
  | some a, some b => a ≤ b

def nocase (s : String) : List Char := s.toList.map Char.toLower

def listTracks (db : Database) : List Track :=
  db.tracks.insertionSort fun a b => nullsFirst a.title b.title

def listPlaylists (db : Database) : List Playlist :=
  db.playlists.insertionSort fun a b => nocase a.name ≤ nocase b.name

def getStarredTracks (db : Database) : List Track :=
  (db.tracks.filter Track.starred).insertionSort fun a b => nullsFirst b.starredAt a.starredAt

def playHistoryLimit : ℕ := 10000

def latestPlays (db : Database) : List PlayHistory :=
  (db.playHistory.insertionSort fun a b => b.playedAt ≤ a.playedAt).take playHistoryLimit

def entryTrack (db : Database) (e : PlaylistTrack × Track) : Except ApiError Track :=
  match db.getTrack e.1.trackId with
  | some track => .ok track
  | none =>
    .error (v1Error 500 "DATABASE_CORRUPTION"
      ("playlist references non-existent track " ++ toString e.1.trackId))

def backupPlaylist (db : Database) (pl : Playlist) : Except ApiError BackupPlaylist := do
  let tracks ← (db.getPlaylistTracks pl.id).mapM (entryTrack db)
  pure { name := pl.name, description := pl.description, tracks := tracks }

def backupPlay (h : PlayHistory) : BackupHistoryEntry where
  trackId := h.trackId
  playedAt := h.playedAt
  timestamp := h.playedAt

def buildBackupPayload (db : Database) (now : String) (serverId : Uuid) (serverName : String) :
    Except ApiError BackupPayload := do
  let playlists ← (listPlaylists db).mapM (backupPlaylist db)
  pure {
    version := 1
    exportedAt := now
    tracks := listTracks db
    playlists := playlists
    starredTracks := getStarredTracks db
    playHistory := (latestPlays db).map backupPlay
    serverId := serverId
    serverName := serverName }

/-!
## Restoring a backup

The two routines that restore a payload: from JSON, where a database that has tracks is overwritten
only when it is asked for, and from a bundle. Each is one transaction, so a statement that fails
leaves the database as it was.

What a bundle is unpacked from, and the checks of its manifest, come before anything is written. The
ids drawn for new playlists and the times tracks are starred at are arguments.
-/

open MichiServer.Accounts

structure RestoreBody where
  tracks : List Track
  playlists : List BackupPlaylist
  starredTracks : List Track
  playHistory : List BackupHistoryEntry
  force : Bool

structure Restored where
  tracks : ℕ
  playlists : ℕ
  starred : ℕ
  history : ℕ

structure Server where
  db : Database
  auth : Sessions

def cleared (db : Database) : Database where
  tracks := db.tracks
  playlists := []
  playlistTracks := []
  playHistory := []
  references := db.references
  sound := {
    track_ids_nodup := db.sound.track_ids_nodup
    paths_nodup := db.sound.paths_nodup
    playlist_ids_nodup := List.nodup_nil
    places_nodup := List.nodup_nil
    entry_playlist := fun _ he => nomatch he
    entryTrack := fun _ he => nomatch he
    history_track := fun _ hh => nomatch hh
    reference_track := db.sound.reference_track }

def clearLibrary (db : Database) (error : String → ApiError) : Except ApiError Database :=
  ((cleared db).deleteAllTracks.map Prod.snd).mapError error

def upsertAll (error : Track → String → ApiError) (db : Database) (tracks : List Track) :
    Except ApiError Database :=
  tracks.foldlM (fun db t => (db.upsertTrack t).mapError (error t)) db

def trackText (t : Track) : String := toString t.id

def restoreEntry (pl : BackupPlaylist) (playlistId : Uuid) (db : Database) (t : Track) :
    Except ApiError Database := do
  let db ← (db.upsertTrack t).mapError fun e =>
    databaseError s!"failed to upsert playlist track {trackText t}: {e}"
  let added ← (db.addTrackToPlaylist playlistId t.id).mapError fun e =>
    databaseError s!"failed to add track {trackText t} to playlist {pl.name}: {e}"
  pure added.2

def restorePlaylist (newV4 : ℕ → Uuid) (db : Database) (pl : BackupPlaylist × ℕ) :
    Except ApiError Database := do
  let created ← (db.createPlaylist (newV4 pl.2) ⟨pl.1.name, pl.1.description⟩ none).mapError fun e =>
    databaseError s!"failed to restore playlist {pl.1.name}: {e}"
  pl.1.tracks.foldlM (restoreEntry pl.1 (newV4 pl.2)) created.2

def restoreStar (now : ℕ → String) (db : Database) (t : Track × ℕ) : Except ApiError Database := do
  let db ← (db.upsertTrack t.1).mapError fun e =>
    databaseError s!"failed to upsert starred track {trackText t.1}: {e}"
  pure (db.starTrack t.1.id true (now t.2)).2

def restorePlay (db : Database) (entry : BackupHistoryEntry) : Except ApiError Database :=
  (db.insertPlay ⟨entry.trackId, entry.playedAt⟩).mapError fun e =>
    databaseError s!"failed to restore play history entry: {e}"

def restoreSections (newV4 : ℕ → Uuid) (now : ℕ → String) (db : Database) (body : RestoreBody) :
    Except ApiError Database := do
  let db ← upsertAll
    (fun t e => databaseError s!"failed to restore track {trackText t}: {e}") db body.tracks
  let db ← body.playlists.zipIdx.foldlM (restorePlaylist newV4) db
  let db ← body.starredTracks.zipIdx.foldlM (restoreStar now) db
  body.playHistory.foldlM restorePlay db

def RestoreBody.restored (body : RestoreBody) : Restored where
  tracks := body.tracks.length
  playlists := body.playlists.length
  starred := body.starredTracks.length
  history := body.playHistory.length

def noSessions (auth : Sessions) : Sessions where
  authSessions := fun _ => none
  sessions := fun _ => none
  users := auth.users

def restoreTransaction (newV4 : ℕ → Uuid) (now : ℕ → String) (db : Database) (body : RestoreBody) :
    Except ApiError Database :=
  if body.force then do
    let db ← clearLibrary db fun e =>
      databaseError s!"failed to clear tracks for force restore: {e}"
    restoreSections newV4 now db body
  else restoreSections newV4 now db body

def isEmptyRestore (db : Database) (body : RestoreBody) : Bool :=
  body.force && !db.tracks.isEmpty && body.tracks.isEmpty && body.starredTracks.isEmpty

def restoreHandler (newV4 : ℕ → Uuid) (now : ℕ → String) (s : Server) (body : RestoreBody) :
    Except ApiError Restored × Server :=
  if !s.db.tracks.isEmpty && !body.force then
    (.error (v1Error 409 "RESTORE_REQUIRES_FORCE"
      "tracks already exist; set force=true to overwrite"), s)
  else if isEmptyRestore s.db body then
    (.error (v1Error 400 "EMPTY_RESTORE"
      "force=true but no tracks or starred_tracks provided to restore"), s)
  else
    match restoreTransaction newV4 now s.db body with
    | .ok db => (.ok body.restored, ⟨db, if body.force then noSessions s.auth else s.auth⟩)
    | .error e => (.error e, s)

/-- A playlist with those of its tracks that can be added, under a drawn id. -/
def restoreBundlePlaylist (newV4 : ℕ → Uuid) (db : Database) (pl : BackupPlaylist × ℕ) :
    Except ApiError Database := do
  let created ← (db.createPlaylist (newV4 pl.2) ⟨pl.1.name, pl.1.description⟩ none).mapError
    databaseError
  pure (created.2.addTracks (newV4 pl.2) (pl.1.tracks.map Track.id))

def restoreBundleTransaction (newV4 : ℕ → Uuid) (db : Database) (payload : RestoreBody) :
    Except ApiError Database := do
  let db ← clearLibrary db databaseError
  let db ← upsertAll (fun _ => databaseError) db payload.tracks
  payload.playlists.zipIdx.foldlM (restoreBundlePlaylist newV4) db

/-- `restore_backup_bundle_handler`, from the payload of a bundle that passed its checks. -/
def restoreBackupBundleHandler (newV4 : ℕ → Uuid) (s : Server) (payload : RestoreBody) :
    Except ApiError (ℕ × ℕ) × Server :=
  match restoreBundleTransaction newV4 s.db payload with
  | .ok db => (.ok (payload.tracks.length, payload.playlists.length), { s with db := db })
  | .error e => (.error e, s)

end MichiServer.Backup
