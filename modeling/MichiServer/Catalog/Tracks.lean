import MichiServer.Basic
import MichiServer.Files.Names
import MichiServer.Logic.Keyed
import Mathlib.Data.List.Sort

/-!
# The tables of tracks and playlists

The rows that a playlist is made of, the rows that refer to tracks, and the constraints between
them. A statement writes new tables; they are taken when they keep the constraints, and refused
otherwise.

Left out are the columns that no statement here reads: the times of playlists and entries, the ids of
entries and of plays, what a play scrobbled.
-/

namespace MichiServer.Catalog

open MichiServer.Files MichiServer.Logic.Keyed

structure Track where
  id : Uuid
  title : Option String := none
  artist : Option String := none
  album : Option String := none
  albumArtist : Option String := none
  durationMs : Option ℕ := none
  filePath : String
  format : AudioFormat
  sampleRate : Option ℕ := none
  bitDepth : Option ℕ := none
  channels : Option ℕ := none
  artworkId : Option Uuid := none
  genre : Option String := none
  year : Option ℤ := none
  trackNumber : Option ℕ := none
  discNumber : Option ℕ := none
  contentHash : Option String := none
  fileSize : Option ℕ := none
  fileMtimeNs : Option ℤ := none
  starred : Bool := false
  rating : ℕ := 0
  starredAt : Option String := none
  replaygainTrackGain : Option F64 := none
  replaygainTrackPeak : Option F64 := none
  createdAt : DateTime
  updatedAt : DateTime
deriving DecidableEq

structure PlaylistCreate where
  name : String
  description : Option String
deriving DecidableEq

structure Playlist where
  id : Uuid
  name : String
  description : Option String
  trackCount : ℤ
  userId : Option Uuid
  shareCode : Option String
  isPublic : Bool
deriving DecidableEq

structure PlaylistTrack where
  playlistId : Uuid
  trackId : Uuid
  position : ℤ
deriving DecidableEq

def PlaylistTrack.place (e : PlaylistTrack) : Uuid × ℤ := (e.playlistId, e.position)

structure PlayHistory where
  trackId : Uuid
  playedAt : String
deriving DecidableEq

inductive Referrer where
  | syncJobItems
  | queueItems
  | players
  | playbackChains
  | bookmarks
  | sharedLinks
deriving DecidableEq

def Referrer.cascades : Referrer → Bool
  | syncJobItems | queueItems => true
  | players | playbackChains | bookmarks | sharedLinks => false

structure Reference where
  table : Referrer
  trackId : Uuid
deriving DecidableEq

structure Tables where
  tracks : List Track
  playlists : List Playlist
  playlistTracks : List PlaylistTrack
  playHistory : List PlayHistory
  references : List Reference
deriving DecidableEq

namespace Tables

variable (t : Tables)

def trackIds : List Uuid := t.tracks.map Track.id

def playlistIds : List Uuid := t.playlists.map Playlist.id

structure Sound : Prop where
  track_ids_nodup : t.trackIds.Nodup
  paths_nodup : (t.tracks.map Track.filePath).Nodup
  playlist_ids_nodup : t.playlistIds.Nodup
  places_nodup : (t.playlistTracks.map PlaylistTrack.place).Nodup
  entry_playlist : ∀ e ∈ t.playlistTracks, e.playlistId ∈ t.playlistIds
  entryTrack : ∀ e ∈ t.playlistTracks, e.trackId ∈ t.trackIds
  history_track : ∀ h ∈ t.playHistory, h.trackId ∈ t.trackIds
  reference_track : ∀ r ∈ t.references, r.trackId ∈ t.trackIds

instance : Decidable t.Sound :=
  decidable_of_iff
    (t.trackIds.Nodup ∧ (t.tracks.map Track.filePath).Nodup ∧ t.playlistIds.Nodup ∧
      (t.playlistTracks.map PlaylistTrack.place).Nodup ∧
      (∀ e ∈ t.playlistTracks, e.playlistId ∈ t.playlistIds) ∧
      (∀ e ∈ t.playlistTracks, e.trackId ∈ t.trackIds) ∧
      (∀ h ∈ t.playHistory, h.trackId ∈ t.trackIds) ∧
      (∀ r ∈ t.references, r.trackId ∈ t.trackIds))
    ⟨fun ⟨a, b, c, d, e, f, g, h⟩ => ⟨a, b, c, d, e, f, g, h⟩,
      fun ⟨a, b, c, d, e, f, g, h⟩ => ⟨a, b, c, d, e, f, g, h⟩⟩

def violation : String :=
  if ¬ t.trackIds.Nodup then "UNIQUE constraint failed: tracks.id"
  else if ¬ (t.tracks.map Track.filePath).Nodup then "UNIQUE constraint failed: tracks.file_path"
  else if ¬ t.playlistIds.Nodup then "UNIQUE constraint failed: playlists.id"
  else if ¬ (t.playlistTracks.map PlaylistTrack.place).Nodup then
    "UNIQUE constraint failed: playlist_tracks.playlist_id, playlist_tracks.position"
  else "FOREIGN KEY constraint failed"

def entries (playlistId : Uuid) : List PlaylistTrack :=
  t.playlistTracks.filter fun e => e.playlistId = playlistId

def getTrack (id : Uuid) : Option Track := t.tracks.find? fun row => row.id = id

end Tables

structure Database extends Tables where
  sound : toTables.Sound

def write (t : Tables) : Except String Database :=
  if h : t.Sound then .ok ⟨t, h⟩ else .error t.violation

theorem write_ok {t : Tables} (h : t.Sound) : write t = .ok ⟨t, h⟩ := dif_pos h

theorem toTables_of_write {t : Tables} {db : Database} (h : write t = .ok db) : db.toTables = t := by
  unfold write at h
  split at h
  · cases h
    rfl
  · cases h

theorem sound_of_write {t : Tables} {db : Database} (h : write t = .ok db) : t.Sound := by
  rw [← toTables_of_write h]
  exact db.sound

namespace Database

@[ext]
theorem ext {a b : Database} (h : a.toTables = b.toTables) : a = b := by
  cases a
  cases b
  cases h
  rfl

variable (db : Database)

def empty : Database := ⟨⟨[], [], [], [], []⟩, by decide⟩

instance : DecidableEq Database := fun a b =>
  decidable_of_iff (a.toTables = b.toTables) ⟨ext, fun h => h ▸ rfl⟩

variable {db}

theorem eq_of_id {row other : Track} (hrow : row ∈ db.tracks) (hother : other ∈ db.tracks)
    (h : row.id = other.id) : row = other :=
  eq_of_key db.sound.track_ids_nodup hrow hother h

theorem eq_of_path {row other : Track} (hrow : row ∈ db.tracks) (hother : other ∈ db.tracks)
    (h : row.filePath = other.filePath) : row = other :=
  eq_of_key db.sound.paths_nodup hrow hother h

theorem getTrack_eq_some {id : Uuid} {row : Track} :
    db.getTrack id = some row ↔ row ∈ db.tracks ∧ row.id = id :=
  find_eq_some_iff db.sound.track_ids_nodup

theorem getTrack_isSome {id : Uuid} (h : id ∈ db.trackIds) : (db.getTrack id).isSome :=
  find_isSome h

end Database

/-!
## Statements on tracks

What inserting, replacing, starring and deleting tracks does to the tables. A track is replaced by its
path, and may get another id by it; a deleted track takes the rows of the cascading tables with it.
-/

/-- The row that an insert leaves: the columns it does not name have their defaults. -/
def Track.inserted (t : Track) : Track :=
  { t with
    starred := false
    rating := 0
    starredAt := none
    replaygainTrackGain := none
    replaygainTrackPeak := none }

def Track.merged (row t : Track) : Track :=
  { t with
    contentHash := t.contentHash <|> row.contentHash
    starred := row.starred
    rating := row.rating
    starredAt := row.starredAt
    replaygainTrackGain := row.replaygainTrackGain
    replaygainTrackPeak := row.replaygainTrackPeak
    createdAt := row.createdAt }

@[simp] theorem Track.inserted_id (t : Track) : t.inserted.id = t.id := rfl

@[simp] theorem Track.inserted_filePath (t : Track) : t.inserted.filePath = t.filePath := rfl

@[simp] theorem Track.merged_id (row t : Track) : (row.merged t).id = t.id := rfl

@[simp] theorem Track.merged_filePath (row t : Track) :
    (row.merged t).filePath = t.filePath := rfl

def Track.starredRow (row : Track) (now : String) : Track :=
  { row with
    starred := true
    starredAt := some now }

def Track.unstarredRow (row : Track) : Track :=
  { row with
    starred := false
    starredAt := none }

@[simp] theorem Track.starredRow_id (row : Track) (now : String) :
    (row.starredRow now).id = row.id := rfl

@[simp] theorem Track.starredRow_filePath (row : Track) (now : String) :
    (row.starredRow now).filePath = row.filePath := rfl

def upserted (rows : List Track) (t : Track) : List Track :=
  if t.filePath ∈ rows.map Track.filePath then
    rows.map fun row => if row.filePath = t.filePath then row.merged t else row
  else rows ++ [t.inserted]

namespace Tables

variable (t : Tables)

/-- The tables without the tracks of some ids, and without the rows that go with them. -/
def withoutTracks (gone : Uuid → Bool) : Tables where
  tracks := t.tracks.filter fun row => !gone row.id
  playlists := t.playlists
  playlistTracks := t.playlistTracks.filter fun e => !gone e.trackId
  playHistory := t.playHistory.filter fun h => !gone h.trackId
  references := t.references.filter fun r => !(r.table.cascades && gone r.trackId)

/-- A track of some ids is referred to by a row that does not go with it. -/
def keptByReference (gone : Uuid → Bool) : Bool :=
  t.references.any fun r => !r.table.cascades && gone r.trackId

end Tables

namespace Database

variable (db : Database)

def upsertTrack (t : Track) : Except String Database :=
  write { db.toTables with tracks := upserted db.tracks t }

def deleteTrack (id : Uuid) : Except String (Bool × Database) :=
  (write (db.withoutTracks fun i => i = id)).map fun db' => (db.tracks.any fun row => row.id = id, db')

def deleteAllTracks : Except String (ℕ × Database) :=
  (write (db.withoutTracks fun _ => true)).map fun db' => (db.tracks.length, db')

/-- The tables with the row of one track changed, its id and its path kept. -/
def updateTrack (id : Uuid) (f : Track → Track) (hid : ∀ row, (f row).id = row.id)
    (hpath : ∀ row, (f row).filePath = row.filePath) : Database where
  tracks := db.tracks.map fun row => if row.id = id then f row else row
  playlists := db.playlists
  playlistTracks := db.playlistTracks
  playHistory := db.playHistory
  references := db.references
  sound := by
    have hids : (db.tracks.map fun row => if row.id = id then f row else row).map Track.id =
        db.trackIds := by
      rw [List.map_map]
      apply List.map_congr_left
      grind
    have hpaths : (db.tracks.map fun row => if row.id = id then f row else row).map Track.filePath =
        db.tracks.map Track.filePath := by
      rw [List.map_map]
      apply List.map_congr_left
      grind
    exact {
      track_ids_nodup := by
        rw [Tables.trackIds, hids]
        exact db.sound.track_ids_nodup
      paths_nodup := by
        rw [hpaths]
        exact db.sound.paths_nodup
      playlist_ids_nodup := db.sound.playlist_ids_nodup
      places_nodup := db.sound.places_nodup
      entry_playlist := db.sound.entry_playlist
      entryTrack := by
        rw [Tables.trackIds, hids]
        exact db.sound.entryTrack
      history_track := by
        rw [Tables.trackIds, hids]
        exact db.sound.history_track
      reference_track := by
        rw [Tables.trackIds, hids]
        exact db.sound.reference_track }

def starTrack (id : Uuid) (starred : Bool) (now : String) : Bool × Database :=
  (db.tracks.any fun row => row.id = id,
    if starred then db.updateTrack id (fun row => row.starredRow now) (fun _ => rfl) fun _ => rfl
    else db.updateTrack id Track.unstarredRow (fun _ => rfl) fun _ => rfl)

/-- `INSERT OR IGNORE INTO play_history`. Nothing of the row can collide, so nothing is ignored. -/
def insertPlay (h : PlayHistory) : Except String Database :=
  write { db.toTables with playHistory := db.playHistory ++ [h] }

def findTracksByPaths (paths : List String) : List Track :=
  db.tracks.filter fun row => row.filePath ∈ paths

def refer (r : Reference) : Except String Database :=
  write { db.toTables with references := db.references ++ [r] }

variable {db} {db' : Database}

/-- The tables without the tracks are sound exactly where no row keeps one of them. -/
theorem withoutTracks_sound_iff {gone : Uuid → Bool} :
    (db.withoutTracks gone).Sound ↔ db.keptByReference gone = false := by
  have hids : ∀ id ∈ db.trackIds, gone id = false → id ∈ (db.withoutTracks gone).trackIds := by
    intro id hid hgone
    obtain ⟨row, hrow, rfl⟩ := List.mem_map.mp hid
    exact List.mem_map.mpr ⟨row, List.mem_filter.mpr ⟨hrow, by simpa using hgone⟩, rfl⟩
  rw [Tables.keptByReference, List.any_eq_false]
  constructor
  · intro hsound r hr hkept
    rw [Bool.and_eq_true, Bool.not_eq_true'] at hkept
    have hstays : r ∈ (db.withoutTracks gone).references := by
      refine List.mem_filter.mpr ⟨hr, ?_⟩
      simp [hkept.1]
    obtain ⟨row, hrow, hid⟩ := List.mem_map.mp (hsound.reference_track r hstays)
    have hrowGone : gone row.id = false := by simpa using (List.mem_filter.mp hrow).2
    rw [hid, hkept.2] at hrowGone
    cases hrowGone
  · intro hkept
    exact {
      track_ids_nodup := db.sound.track_ids_nodup.sublist (List.filter_sublist.map _)
      paths_nodup := db.sound.paths_nodup.sublist (List.filter_sublist.map _)
      playlist_ids_nodup := db.sound.playlist_ids_nodup
      places_nodup := db.sound.places_nodup.sublist (List.filter_sublist.map _)
      entry_playlist := fun e he => db.sound.entry_playlist e (List.mem_of_mem_filter he)
      entryTrack := by
        intro e he
        obtain ⟨he, hgone⟩ := List.mem_filter.mp he
        exact hids _ (db.sound.entryTrack e he) (by simpa using hgone)
      history_track := by
        intro h hh
        obtain ⟨hh, hgone⟩ := List.mem_filter.mp hh
        exact hids _ (db.sound.history_track h hh) (by simpa using hgone)
      reference_track := by
        intro r hr
        obtain ⟨hr, hstays⟩ := List.mem_filter.mp hr
        refine hids _ (db.sound.reference_track r hr) ?_
        grind }

theorem upserted_of_mem {rows : List Track} {t : Track} (h : t.filePath ∈ rows.map Track.filePath) :
    upserted rows t =
      rows.map fun row => if row.filePath = t.filePath then row.merged t else row := if_pos h

theorem upserted_of_not_mem {rows : List Track} {t : Track}
    (h : t.filePath ∉ rows.map Track.filePath) : upserted rows t = rows ++ [t.inserted] := if_neg h

theorem toTables_upsertTrack {t : Track} (h : db.upsertTrack t = .ok db') :
    db'.toTables = { db.toTables with tracks := upserted db.tracks t } := toTables_of_write h

end Database

end MichiServer.Catalog
