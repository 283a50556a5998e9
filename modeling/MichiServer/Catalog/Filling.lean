import MichiServer.Catalog.Counts

/-!
# Filling a playlist

A track that is upserted as its row already stands changes nothing, and a playlist that is filled from
the start has its entries at the positions from zero on, in the order they were added.
-/

namespace MichiServer.Catalog

open MichiServer.Logic

def Covers (rows : List Track) (t : Track) : Prop :=
  ∃ row ∈ rows, row.filePath = t.filePath ∧ row.merged t = row

def Keeps (rows : List Track) (t : Track) : Prop :=
  ∃ row ∈ rows, row.filePath = t.filePath ∧ row.id = t.id

instance (rows : List Track) (t : Track) : Decidable (Keeps rows t) :=
  inferInstanceAs (Decidable (∃ row ∈ rows, _))

def placed (playlistId : Uuid) (trackIds : List Uuid) : List PlaylistTrack :=
  trackIds.zipIdx.map fun x => ⟨playlistId, x.1, x.2⟩

def described (p : Playlist) : Uuid × String × Option String := (p.id, p.name, p.description)

section

variable {db db' : Database} {t : Track} {playlistId trackId : Uuid} {trackIds : List Uuid}

variable {rows : List Track}

theorem upserted_eq_self (hpaths : (rows.map Track.filePath).Nodup)
    (h : Covers rows t) : upserted rows t = rows := by
  obtain ⟨row, hrow, hpath, hmerged⟩ := h
  have hmem : t.filePath ∈ rows.map Track.filePath := List.mem_map.mpr ⟨row, hrow, hpath⟩
  rw [Database.upserted_of_mem hmem]
  conv_rhs => rw [← List.map_id rows]
  apply List.map_congr_left
  grind [Keyed.eq_of_key]

theorem upsertTrack_of_covers (h : Covers db.tracks t) : db.upsertTrack t = .ok db := by
  rw [Database.upsertTrack, upserted_eq_self db.sound.paths_nodup h]
  exact write_ok db.sound

theorem Keeps.id_mem (h : Keeps db.tracks t) : t.id ∈ db.trackIds := by
  obtain ⟨row, hrow, -, hid⟩ := h
  exact List.mem_map.mpr ⟨row, hrow, hid⟩

def rowKey (row : Track) : String × Uuid := (row.filePath, row.id)

theorem keeps_iff : Keeps rows t ↔ rowKey t ∈ rows.map rowKey := by
  rw [Keeps, List.mem_map]
  constructor
  · rintro ⟨row, hrow, hpath, hid⟩
    exact ⟨row, hrow, Prod.ext hpath hid⟩
  · rintro ⟨row, hrow, hkey⟩
    exact ⟨row, hrow, congrArg Prod.fst hkey, congrArg Prod.snd hkey⟩

theorem Covers.keeps (h : Covers rows t) : Keeps rows t := by
  obtain ⟨row, hrow, hpath, hmerged⟩ := h
  refine ⟨row, hrow, hpath, ?_⟩
  rw [← hmerged]
  rfl

theorem upserted_keys (hpaths : (rows.map Track.filePath).Nodup)
    (h : Keeps rows t) : (upserted rows t).map rowKey = rows.map rowKey := by
  obtain ⟨row, hrow, hpath, hid⟩ := h
  rw [Database.upserted_of_mem (List.mem_map.mpr ⟨row, hrow, hpath⟩), List.map_map]
  apply List.map_congr_left
  intro other hother
  by_cases hsame : other.filePath = t.filePath
  · have heq : other = row := Keyed.eq_of_key hpaths hother hrow (hsame.trans hpath.symm)
    show rowKey (if other.filePath = t.filePath then other.merged t else other) = rowKey other
    rw [if_pos hsame, heq]
    exact Prod.ext hpath.symm hid.symm
  · simp [hsame]

theorem paths_of_keys {rows rows' : List Track} (h : rows'.map rowKey = rows.map rowKey) :
    rows'.map Track.filePath = rows.map Track.filePath ∧
      rows'.map Track.id = rows.map Track.id := by
  have hfst := congrArg (List.map Prod.fst) h
  have hsnd := congrArg (List.map Prod.snd) h
  simp only [List.map_map] at hfst hsnd
  exact ⟨hfst, hsnd⟩

theorem foldl_upserted_keys {tracks rows : List Track} (hpaths : (rows.map Track.filePath).Nodup)
    (h : ∀ t ∈ tracks, Keeps rows t) : (tracks.foldl upserted rows).map rowKey = rows.map rowKey := by
  induction tracks generalizing rows with
  | nil => rfl
  | cons t rest ih =>
    rw [List.forall_mem_cons] at h
    have hone := upserted_keys hpaths h.1
    rw [List.foldl_cons, ih, hone]
    · rw [(paths_of_keys hone).1]
      exact hpaths
    · grind [keeps_iff]

theorem foldl_upserted_of_covers {tracks rows : List Track}
    (hpaths : (rows.map Track.filePath).Nodup) (h : ∀ t ∈ tracks, Covers rows t) :
    tracks.foldl upserted rows = rows := by
  induction tracks with
  | nil => rfl
  | cons t rest ih =>
    grind [upserted_eq_self]

theorem Keeps.upserted {t' : Track} (hpaths : (rows.map Track.filePath).Nodup)
    (h : Keeps rows t) (h' : Keeps rows t') : Keeps (upserted rows t) t' := by
  rw [keeps_iff, upserted_keys hpaths h]
  exact keeps_iff.mp h'

/-- A track whose row is kept is stored over it. -/
theorem upsertTrack_of_keeps (h : Keeps db.tracks t) :
    ∃ db', db.upsertTrack t = .ok db' ∧
      db'.toTables = { db.toTables with tracks := upserted db.tracks t } := by
  obtain ⟨hpaths, hids⟩ := paths_of_keys (upserted_keys db.sound.paths_nodup h)
  have hsound : Tables.Sound { db.toTables with tracks := upserted db.tracks t } := {
    track_ids_nodup := by
      rw [Tables.trackIds, hids]
      exact db.sound.track_ids_nodup
    paths_nodup := by
      rw [hpaths]
      exact db.sound.paths_nodup
    playlist_ids_nodup := db.sound.playlist_ids_nodup
    places_nodup := db.sound.places_nodup
    entry_playlist := db.sound.entry_playlist
    entryTrack := by
      rw [Tables.trackIds, hids]
      exact db.sound.entryTrack
    history_track := by
      rw [Tables.trackIds, hids]
      exact db.sound.history_track
    reference_track := by
      rw [Tables.trackIds, hids]
      exact db.sound.reference_track }
  exact ⟨⟨_, hsound⟩, write_ok hsound, rfl⟩

theorem covers_inserted {tracks : List Track} (h : t ∈ tracks) :
    Covers (tracks.map Track.inserted) t := by
  refine ⟨t.inserted, List.mem_map_of_mem h, rfl, ?_⟩
  simp [Track.merged, Track.inserted]

theorem Covers.star (h : Covers rows t) (id : Uuid) (atTime : String) :
    Covers (rows.map fun row => if row.id = id then row.starredRow atTime else row) t := by
  obtain ⟨row, hrow, hpath, hmerged⟩ := h
  refine ⟨_, List.mem_map.mpr ⟨row, hrow, rfl⟩, ?_, ?_⟩
  · by_cases hid : row.id = id
    · simpa [hid] using hpath
    · simpa [hid] using hpath
  · by_cases hid : row.id = id
    · rw [if_pos hid]
      exact congrArg (fun r => r.starredRow atTime) hmerged
    · rw [if_neg hid]
      exact hmerged

theorem mem_placed {e : PlaylistTrack} :
    e ∈ placed playlistId trackIds ↔
      ∃ i : ℕ, trackIds[i]? = some e.trackId ∧ e.playlistId = playlistId ∧ e.position = i := by
  rw [placed, List.mem_map]
  constructor
  · grind
  · rintro ⟨i, hget, rfl, hposition⟩
    refine ⟨(e.trackId, i), List.mk_mem_zipIdx_iff_getElem?.mpr hget, ?_⟩
    cases e
    cases hposition
    rfl

theorem placed_append_singleton :
    placed playlistId (trackIds ++ [trackId]) =
      placed playlistId trackIds ++ [⟨playlistId, trackId, trackIds.length⟩] := by
  simp [placed, List.zipIdx_append]

theorem positions_placed :
    (placed playlistId trackIds).map PlaylistTrack.position =
      (List.range trackIds.length).map fun i : ℕ => (i : ℤ) := by
  rw [placed, List.map_map]
  show trackIds.zipIdx.map ((fun i : ℕ => (i : ℤ)) ∘ Prod.snd) = _
  rw [← List.map_map, List.zipIdx_map_snd, List.range_eq_range']

theorem nextPosition (h : db.entries playlistId = placed playlistId trackIds) :
    (db.maxPosition playlistId).getD (-1) + 1 = trackIds.length := by
  rw [Database.maxPosition, h, positions_placed]
  cases trackIds.length with
  | zero => rfl
  | succ n =>
    have hmax : ((List.range (n + 1)).map fun i : ℕ => (i : ℤ)).max? = some (n : ℤ) := by
      rw [List.max?_eq_some_iff]
      grind
    rw [hmax, Option.getD_some]
    omega

theorem joined_tracks (first : ℕ) :
    ((trackIds.zipIdx first).filterMap fun x => (db.getTrack x.1).map fun row =>
      ((⟨playlistId, x.1, x.2⟩ : PlaylistTrack), row)).map Prod.snd =
        trackIds.filterMap db.getTrack := by
  induction trackIds generalizing first with
  | nil => rfl
  | cons id rest ih =>
    grind

theorem listing_placed (hentries : db.entries playlistId = placed playlistId trackIds) :
    (db.getPlaylistTracks playlistId).map Prod.snd = trackIds.filterMap db.getTrack := by
  have hsorted : (placed playlistId trackIds).Pairwise fun a b => a.position ≤ b.position := by
    have hpositions := @positions_placed playlistId trackIds
    rw [← List.pairwise_map (f := PlaylistTrack.position) (R := (· ≤ ·)), hpositions,
      List.pairwise_map]
    exact List.pairwise_lt_range.imp fun h => by exact_mod_cast h.le
  unfold Database.getPlaylistTracks
  rw [hentries, List.Pairwise.insertionSort_eq hsorted, placed, List.filterMap_map]
  exact joined_tracks 0

theorem filterMap_getTrack {tracks : List Track} (htracks : ∀ t ∈ tracks, t ∈ db.tracks) :
    (tracks.map Track.id).filterMap db.getTrack = tracks := by
  induction tracks with
  | nil => rfl
  | cons t rest ih =>
    rw [List.forall_mem_cons] at htracks
    have hget : db.getTrack t.id = some t := Database.getTrack_eq_some.mpr ⟨htracks.1, rfl⟩
    simp [hget, ih htracks.2]

structure Added (playlistId trackId : Uuid) (position : ℕ) (db db' : Database) : Prop where
  tracks : db'.tracks = db.tracks
  playlists : db'.playlists.map described = db.playlists.map described
  playlistTracks : db'.playlistTracks = db.playlistTracks ++ [⟨playlistId, trackId, position⟩]
  playHistory : db'.playHistory = db.playHistory
  references : db'.references = db.references

theorem described_withCount (count : ℤ) (p : Playlist) :
    described (Database.withCount playlistId count p) = described p := by
  unfold Database.withCount
  split <;> rfl

/-- A known track is added to the end of a known playlist. -/
theorem addTrackToPlaylist_ok (hentries : db.entries playlistId = placed playlistId trackIds)
    (hplaylist : playlistId ∈ db.playlistIds) (htrack : trackId ∈ db.trackIds) :
    ∃ e db', db.addTrackToPlaylist playlistId trackId = .ok (e, db') ∧
      Added playlistId trackId trackIds.length db db' := by
  let e : PlaylistTrack := ⟨playlistId, trackId, trackIds.length⟩
  have hsound : Tables.Sound { db.toTables with playlistTracks := db.playlistTracks ++ [e] } :=
    { db.sound with
      places_nodup := by
        rw [List.map_append, List.map_singleton]
        refine db.sound.places_nodup.append (List.nodup_singleton _) ?_
        rw [List.disjoint_singleton]
        intro htaken
        obtain ⟨other, hother, hplace⟩ := List.mem_map.mp htaken
        obtain ⟨hid, hposition⟩ := Prod.mk.inj hplace
        have hmem : other ∈ db.entries playlistId :=
          List.mem_filter.mpr ⟨hother, by simpa using hid⟩
        rw [hentries] at hmem
        obtain ⟨i, hget, -, hi⟩ := mem_placed.mp hmem
        grind
      entry_playlist := by
        intro other hother
        rcases List.mem_append.mp hother with hold | hnew
        · exact db.sound.entry_playlist other hold
        · rw [List.mem_singleton.mp hnew]
          exact hplaylist
      entryTrack := by
        intro other hother
        rcases List.mem_append.mp hother with hold | hnew
        · exact db.sound.entryTrack other hold
        · rw [List.mem_singleton.mp hnew]
          exact htrack }
  have hinsert : db.insertEntry e = .ok ⟨_, hsound⟩ := write_ok hsound
  refine ⟨e, Database.recount ⟨_, hsound⟩ playlistId, ?_, ⟨rfl, ?_, rfl, rfl, rfl⟩⟩
  · unfold Database.addTrackToPlaylist
    rw [nextPosition hentries]
    show (db.insertEntry e).map _ = _
    rw [hinsert]
    rfl
  show (db.playlists.map (Database.withCount _ _)).map described = _
  simp [described_withCount]

theorem playlistIds_of_described (h : db'.playlists.map described = db.playlists.map described) :
    db'.playlistIds = db.playlistIds := by
  have hids : ∀ ps : List Playlist, ps.map Playlist.id = (ps.map described).map Prod.fst := by
    intro ps
    rw [List.map_map]
    rfl
  rw [Tables.playlistIds, Tables.playlistIds, hids, hids, h]

theorem Added.entries {position : ℕ} (h : Added playlistId trackId position db db') (q : Uuid) :
    db'.entries q =
      db.entries q ++ if playlistId = q then [⟨playlistId, trackId, position⟩] else [] := by
  rw [Tables.entries, h.playlistTracks, List.filter_append, List.filter_singleton]
  simp [Tables.entries]

structure Filled (playlistId : Uuid) (trackIds : List Uuid) (rows : List Track)
    (db db' : Database) : Prop where
  tracks : db'.tracks = rows
  playlists : db'.playlists.map described = db.playlists.map described
  entries : db'.entries playlistId = placed playlistId trackIds
  elsewhere : ∀ q, q ≠ playlistId → db'.entries q = db.entries q
  playHistory : db'.playHistory = db.playHistory
  references : db'.references = db.references

/-- Known tracks are added one by one. -/
theorem filled_addTracks {before : List Uuid} (hentries : db.entries playlistId = placed playlistId before)
    (hplaylist : playlistId ∈ db.playlistIds) (htracks : ∀ i ∈ trackIds, i ∈ db.trackIds) :
    Filled playlistId (before ++ trackIds) db.tracks db (db.addTracks playlistId trackIds) := by
  induction trackIds generalizing db before with
  | nil =>
    rw [List.append_nil]
    exact ⟨rfl, rfl, hentries, fun _ _ => rfl, rfl, rfl⟩
  | cons trackId rest ih =>
    rw [List.forall_mem_cons] at htracks
    obtain ⟨e, db1, hadd, hadded⟩ := addTrackToPlaylist_ok hentries hplaylist htracks.1
    have hentries1 : db1.entries playlistId = placed playlistId (before ++ [trackId]) := by
      rw [hadded.entries, if_pos rfl, hentries, placed_append_singleton]
    have hids : db1.trackIds = db.trackIds := by
      rw [Tables.trackIds, hadded.tracks, Tables.trackIds]
    have hfilled := ih hentries1 (playlistIds_of_described hadded.playlists ▸ hplaylist)
      (hids ▸ htracks.2)
    rw [Database.addTracks, hadd]
    exact {
      tracks := hfilled.tracks.trans hadded.tracks
      playlists := hfilled.playlists.trans hadded.playlists
      entries := by
        rw [hfilled.entries, List.append_assoc]
        rfl
      elsewhere := by
        intro q hq
        rw [hfilled.elsewhere q hq, hadded.entries, if_neg (Ne.symm hq), List.append_nil]
      playHistory := hfilled.playHistory.trans hadded.playHistory
      references := hfilled.references.trans hadded.references }

end

end MichiServer.Catalog
