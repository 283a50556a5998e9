import MichiServer.Catalog.Tracks

/-!
# Playlists

The operations on playlists. An entry is added after the last position of its playlist, and the count
of the playlist is written again after every change of its entries, except by the reordering, which
knows how many it wrote.
-/

namespace MichiServer.Catalog

open MichiServer.Text

namespace Database

variable (db : Database)

def newPlaylist (id : Uuid) (input : PlaylistCreate) (userId : Option Uuid) : Playlist where
  id := id
  name := input.name
  description := input.description
  trackCount := 0
  userId := userId
  shareCode := none
  isPublic := false

def createPlaylist (id : Uuid) (input : PlaylistCreate) (userId : Option Uuid) :
    Except String (Playlist × Database) :=
  let playlist := newPlaylist id input userId
  (write { db.toTables with playlists := db.playlists ++ [playlist] }).map fun db' => (playlist, db')

def deletePlaylist (id : Uuid) : Bool × Database :=
  (db.playlists.any fun p => p.id = id, {
    tracks := db.tracks
    playlists := db.playlists.filter fun p => p.id ≠ id
    playlistTracks := db.playlistTracks.filter fun e => e.playlistId ≠ id
    playHistory := db.playHistory
    references := db.references
    sound := {
      track_ids_nodup := db.sound.track_ids_nodup
      paths_nodup := db.sound.paths_nodup
      playlist_ids_nodup := db.sound.playlist_ids_nodup.sublist (List.filter_sublist.map _)
      places_nodup := db.sound.places_nodup.sublist (List.filter_sublist.map _)
      entry_playlist := by
        intro e he
        obtain ⟨he, hne⟩ := List.mem_filter.mp he
        obtain ⟨p, hp, hid⟩ := List.mem_map.mp (db.sound.entry_playlist e he)
        refine List.mem_map.mpr ⟨p, List.mem_filter.mpr ⟨hp, ?_⟩, hid⟩
        simpa [hid] using hne
      entryTrack := fun e he => db.sound.entryTrack e (List.mem_of_mem_filter he)
      history_track := db.sound.history_track
      reference_track := db.sound.reference_track } })

def withCount (playlistId : Uuid) (count : ℤ) (p : Playlist) : Playlist :=
  if p.id = playlistId then { p with trackCount := count } else p

theorem withCount_id (playlistId : Uuid) (count : ℤ) (p : Playlist) :
    (withCount playlistId count p).id = p.id := by
  unfold withCount
  split <;> rfl

def setCount (playlistId : Uuid) (count : ℤ) : Database where
  tracks := db.tracks
  playlists := db.playlists.map (withCount playlistId count)
  playlistTracks := db.playlistTracks
  playHistory := db.playHistory
  references := db.references
  sound := by
    have hids : (db.playlists.map (withCount playlistId count)).map Playlist.id =
        db.playlistIds := by
      rw [List.map_map]
      exact List.map_congr_left fun p _ => withCount_id playlistId count p
    exact { db.sound with
      playlist_ids_nodup := by
        rw [Tables.playlistIds, hids]
        exact db.sound.playlist_ids_nodup
      entry_playlist := by
        intro e he
        rw [Tables.playlistIds, hids]
        exact db.sound.entry_playlist e he }

def recount (playlistId : Uuid) : Database :=
  db.setCount playlistId (db.entries playlistId).length

def maxPosition (playlistId : Uuid) : Option ℤ :=
  ((db.entries playlistId).map PlaylistTrack.position).max?

def insertEntry (e : PlaylistTrack) : Except String Database :=
  write { db.toTables with playlistTracks := db.playlistTracks ++ [e] }

def addTrackToPlaylist (playlistId trackId : Uuid) : Except String (PlaylistTrack × Database) :=
  let e : PlaylistTrack := {
    playlistId := playlistId
    trackId := trackId
    position := (db.maxPosition playlistId).getD (-1) + 1 }
  (db.insertEntry e).map fun db' => (e, db'.recount playlistId)

def deleteEntries (gone : PlaylistTrack → Bool) : Database where
  tracks := db.tracks
  playlists := db.playlists
  playlistTracks := db.playlistTracks.filter fun e => !gone e
  playHistory := db.playHistory
  references := db.references
  sound := { db.sound with
    places_nodup := db.sound.places_nodup.sublist (List.filter_sublist.map _)
    entry_playlist := fun e he => db.sound.entry_playlist e (List.mem_of_mem_filter he)
    entryTrack := fun e he => db.sound.entryTrack e (List.mem_of_mem_filter he) }

def removeTrackFromPlaylist (playlistId trackId : Uuid) : Bool × Database :=
  let gone (e : PlaylistTrack) : Bool := e.playlistId = playlistId && e.trackId = trackId
  (db.playlistTracks.any gone, (db.deleteEntries gone).recount playlistId)

def insertTracks (db : Database) (playlistId : Uuid) : ℤ → List Uuid → Except String Database
  | _, [] => .ok db
  | position, trackId :: rest =>
    match db.insertEntry ⟨playlistId, trackId, position⟩ with
    | .ok db' => insertTracks db' playlistId (position + 1) rest
    | .error e => .error e

def reorderPlaylistTracks (playlistId : Uuid) (trackIds : List Uuid) : Except String Database :=
  ((db.deleteEntries fun e => e.playlistId = playlistId).insertTracks playlistId 0 trackIds).map
    fun db' => db'.setCount playlistId trackIds.length

def getPlaylistTracks (playlistId : Uuid) : List (PlaylistTrack × Track) :=
  ((db.entries playlistId).insertionSort fun a b => a.position ≤ b.position).filterMap fun e =>
    (db.getTrack e.trackId).map fun row => (e, row)

/-- The tracks of an import, one by one; a track that is refused is passed over. -/
def addTracks (db : Database) (playlistId : Uuid) : List Uuid → Database
  | [] => db
  | trackId :: rest =>
    match db.addTrackToPlaylist playlistId trackId with
    | .ok (_, db') => addTracks db' playlistId rest
    | .error _ => addTracks db playlistId rest

def importPlaylistHandler (id : Uuid) (name : String) (paths : List String)
    (userId : Option Uuid) : Except String Database :=
  if trim name = "" then .error "playlist name is required"
  else
    let matchedTracks := db.findTracksByPaths paths
    let create : PlaylistCreate := {
      name := trim name
      description := some s!"Imported from M3U ({matchedTracks.length} of {paths.length} tracks matched)" }
    match db.createPlaylist id create userId with
    | .ok (_, db') => .ok (db'.addTracks id (matchedTracks.map Track.id))
    | .error e => .error s!"database error: {e}"

variable {db}

theorem entries_eq_nil {id : Uuid} (h : id ∉ db.playlistIds) : db.entries id = [] := by
  rw [Tables.entries, List.filter_eq_nil_iff]
  intro e he heq
  have hid : e.playlistId = id := by simpa using heq
  exact h (hid ▸ db.sound.entry_playlist e he)

/-- A playlist of a new id is created. -/
theorem createPlaylist_ok {id : Uuid} (input : PlaylistCreate) (userId : Option Uuid)
    (h : id ∉ db.playlistIds) :
    ∃ db', db.createPlaylist id input userId = .ok (newPlaylist id input userId, db') ∧
      db'.toTables =
        { db.toTables with playlists := db.playlists ++ [newPlaylist id input userId] } := by
  have hids : (db.playlists ++ [newPlaylist id input userId]).map Playlist.id =
      db.playlistIds ++ [id] := by
    rw [List.map_append]
    rfl
  have hsound : Tables.Sound
      { db.toTables with playlists := db.playlists ++ [newPlaylist id input userId] } :=
    { db.sound with
      playlist_ids_nodup := by
        rw [Tables.playlistIds, hids]
        exact db.sound.playlist_ids_nodup.append (List.nodup_singleton _) (by simpa using h)
      entry_playlist := by
        intro e he
        rw [Tables.playlistIds, hids]
        exact List.mem_append_left _ (db.sound.entry_playlist e he) }
  refine ⟨⟨_, hsound⟩, ?_, rfl⟩
  rw [createPlaylist, write_ok hsound]
  rfl

end Database

end MichiServer.Catalog
