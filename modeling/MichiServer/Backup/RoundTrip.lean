import MichiServer.Backup.Rebuilt

/-!
# Backup and restore

When a forced restore of a backup gives the backup again. The tracks are restored with the columns
that an upsert writes, and the starred ones are starred anew, so a rating, a replay gain and the time
of a star are lost; and nothing is restored into a library that a shared link or a player refers to.
-/

namespace MichiServer.Backup

open MichiServer.Catalog MichiServer.Queue MichiServer.Logic

def BackupPayload.body (payload : BackupPayload) (force : Bool) : RestoreBody where
  tracks := payload.tracks
  playlists := payload.playlists
  starredTracks := payload.starredTracks
  playHistory := payload.playHistory
  force := force

/-- Two backups hold the same: the tracks with all their fields, the playlists with their entries in
order, the starred set and the plays. -/
structure SameBackup (a b : BackupPayload) : Prop where
  tracks : b.tracks.Perm a.tracks
  playlists : b.playlists.Perm a.playlists
  starred : (b.starredTracks.map Track.id).Perm (a.starredTracks.map Track.id)
  playHistory : b.playHistory.Perm a.playHistory

/-- A backup of the database is restored into the server, and a backup of that holds the same. -/
def RoundTrips (newV4 : ℕ → Uuid) (now : ℕ → String) (db : Database) (target : Server)
    (exported exported' : String) (serverId : Uuid) (serverName : String) : Prop :=
  ∃ payload restored target' payload',
    buildBackupPayload db exported serverId serverName = .ok payload ∧
    restoreHandler newV4 now target (payload.body true) = (.ok restored, target') ∧
    buildBackupPayload target'.db exported' serverId serverName = .ok payload' ∧
    SameBackup payload payload'

/-- What a restore can take and give back: nothing that does not go with its track refers to one,
there is something to restore, and the tracks have nothing but what an upsert and a new star write. -/
structure Restorable (now : ℕ → String) (db : Database) (target : Server) : Prop where
  free : target.db.keptByReference (fun _ => true) = false
  some_tracks : target.db.tracks = [] ∨ db.tracks ≠ []
  plain : ∀ t ∈ db.tracks, t.rating = 0 ∧ t.replaygainTrackGain = none ∧
    t.replaygainTrackPeak = none ∧ (t.starred = false → t.starredAt = none)
  starred_now : ∀ s ∈ (getStarredTracks db).zipIdx, s.1.starredAt = some (now s.2)

section

variable {db : Database}

/-! ## The payload of a database -/

def whole (db : Database) (pl : Playlist) : BackupPlaylist :=
  ⟨pl.name, pl.description, (db.getPlaylistTracks pl.id).map Prod.snd⟩

theorem getTrack_of_listed {playlistId : Uuid} {e : PlaylistTrack × Track}
    (h : e ∈ db.getPlaylistTracks playlistId) : db.getTrack e.1.trackId = some e.2 := by
  obtain ⟨entry, -, hentry⟩ := List.mem_filterMap.mp h
  obtain ⟨row, hrow, rfl⟩ := Option.map_eq_some_iff.mp hentry
  exact hrow

theorem backupPlaylist_eq (pl : Playlist) : backupPlaylist db pl = .ok (whole db pl) := by
  have htracks : (db.getPlaylistTracks pl.id).mapM (entryTrack db) =
      .ok ((db.getPlaylistTracks pl.id).map Prod.snd) := by
    apply mapM_eq_ok_map
    intro e he
    rw [entryTrack, getTrack_of_listed he]
  rw [backupPlaylist, htracks]
  rfl

theorem buildBackupPayload_eq (exported : String) (serverId : Uuid) (serverName : String) :
    buildBackupPayload db exported serverId serverName = .ok {
      version := 1
      exportedAt := exported
      tracks := listTracks db
      playlists := (listPlaylists db).map (whole db)
      starredTracks := getStarredTracks db
      playHistory := (latestPlays db).map backupPlay
      serverId := serverId
      serverName := serverName } := by
  rw [buildBackupPayload, mapM_eq_ok_map fun pl _ => backupPlaylist_eq pl]
  rfl

theorem listTracks_perm (db : Database) : (listTracks db).Perm db.tracks :=
  List.perm_insertionSort _ _

theorem listPlaylists_perm (db : Database) : (listPlaylists db).Perm db.playlists :=
  List.perm_insertionSort _ _

theorem getStarredTracks_perm (db : Database) :
    (getStarredTracks db).Perm (db.tracks.filter Track.starred) := List.perm_insertionSort _ _

def sections (db : Database) : RestoreBody where
  tracks := listTracks db
  playlists := (listPlaylists db).map (whole db)
  starredTracks := getStarredTracks db
  playHistory := (latestPlays db).map backupPlay
  force := true

theorem coherent_sections (db : Database) : Coherent (sections db) where
  ids_nodup := ((listTracks_perm db).map _).nodup_iff.mpr db.sound.track_ids_nodup
  paths_nodup := ((listTracks_perm db).map _).nodup_iff.mpr db.sound.paths_nodup
  playlists := by
    intro pl hpl t ht
    obtain ⟨p, -, rfl⟩ := List.mem_map.mp hpl
    obtain ⟨e, he, rfl⟩ := List.mem_map.mp ht
    exact (listTracks_perm db).mem_iff.mpr (Database.getTrack_eq_some.mp (getTrack_of_listed he)).1
  starred := by
    intro t ht
    have hstarred := (getStarredTracks_perm db).mem_iff.mp ht
    exact (listTracks_perm db).mem_iff.mpr (List.mem_of_mem_filter hstarred)
  history := by
    intro h hh
    obtain ⟨play, hplay, rfl⟩ := List.mem_map.mp hh
    have hmem : play ∈ db.playHistory :=
      (List.mem_insertionSort _).mp (List.mem_of_mem_take hplay)
    exact ((listTracks_perm db).map _).mem_iff.mpr (db.sound.history_track play hmem)

/-! ## The stars of a backup -/

variable {now : ℕ → String}

theorem starAll_of_not_mem {stars : List (Track × ℕ)} {row : Track}
    (h : ∀ s ∈ stars, s.1.id ≠ row.id) : starAll now stars row = row := by
  induction stars with
  | nil => rfl
  | cons s rest ih =>
    grind [starAll]

theorem starAll_of_mem {stars : List (Track × ℕ)} {row : Track} {s : Track × ℕ}
    (hnodup : (stars.map fun s => s.1.id).Nodup) (hs : s ∈ stars) (hid : s.1.id = row.id) :
    starAll now stars row = row.starredRow (now s.2) := by
  induction stars with
  | nil => cases hs
  | cons s' rest ih =>
    rw [List.map_cons, List.nodup_cons] at hnodup
    rcases List.mem_cons.mp hs with rfl | hrest
    · rw [starAll, List.foldl_cons, if_pos hid.symm]
      apply starAll_of_not_mem
      intro s' hs' heq
      exact hnodup.1 (List.mem_map.mpr ⟨s', hs', heq.trans hid.symm⟩)
    · grind [starAll]

theorem starred_ids_nodup (db : Database) :
    ((getStarredTracks db).zipIdx.map fun s => s.1.id).Nodup := by
  have hmap : ((getStarredTracks db).zipIdx.map fun s => s.1.id) =
      (getStarredTracks db).map Track.id := by
    conv_rhs => rw [← List.zipIdx_map_fst 0 (getStarredTracks db)]
    rw [List.map_map]
    rfl
  rw [hmap, ((getStarredTracks_perm db).map _).nodup_iff]
  exact db.sound.track_ids_nodup.sublist (List.filter_sublist.map _)

theorem inserted_eq_self_iff (t : Track) :
    t.inserted = t ↔ t.starred = false ∧ t.rating = 0 ∧ t.starredAt = none ∧
      t.replaygainTrackGain = none ∧ t.replaygainTrackPeak = none := by
  cases t
  simp [Track.inserted, eq_comm]

theorem inserted_starred_eq_self_iff (t : Track) (atTime : String) :
    t.inserted.starredRow atTime = t ↔ t.starred = true ∧ t.rating = 0 ∧
      t.starredAt = some atTime ∧ t.replaygainTrackGain = none ∧
        t.replaygainTrackPeak = none := by
  cases t
  simp [Track.inserted, Track.starredRow, eq_comm]

theorem mem_starred {t : Track} (ht : t ∈ db.tracks) (h : t.starred = true) :
    ∃ i, (t, i) ∈ (getStarredTracks db).zipIdx := by
  have hmem : t ∈ getStarredTracks db :=
    (getStarredTracks_perm db).mem_iff.mpr (List.mem_filter.mpr ⟨ht, h⟩)
  obtain ⟨i, hi⟩ := List.mem_iff_getElem?.mp hmem
  exact ⟨i, List.mk_mem_zipIdx_iff_getElem?.mpr hi⟩

theorem of_mem_starred {s : Track × ℕ} (hs : s ∈ (getStarredTracks db).zipIdx) :
    s.1 ∈ db.tracks ∧ s.1.starred = true :=
  List.mem_filter.mp ((getStarredTracks_perm db).mem_iff.mp (List.fst_mem_of_mem_zipIdx hs))

theorem restoredRow_of_starred {s : Track × ℕ} (hs : s ∈ (getStarredTracks db).zipIdx) :
    restoredRow now (sections db) s.1 = s.1.inserted.starredRow (now s.2) :=
  starAll_of_mem (starred_ids_nodup db) hs rfl

theorem restoredRow_of_unstarred {t : Track} (ht : t ∈ db.tracks) (h : t.starred = false) :
    restoredRow now (sections db) t = t.inserted := by
  apply starAll_of_not_mem
  intro s hs heq
  obtain ⟨hmem, hstarred⟩ := of_mem_starred hs
  rw [Database.eq_of_id hmem ht heq, h] at hstarred
  cases hstarred

/-- The rows come back where they hold nothing that the backup leaves out. -/
theorem restored_rows_eq_iff :
    (∀ t ∈ db.tracks, restoredRow now (sections db) t = t) ↔
      (∀ t ∈ db.tracks, t.rating = 0 ∧ t.replaygainTrackGain = none ∧
        t.replaygainTrackPeak = none ∧ (t.starred = false → t.starredAt = none)) ∧
      ∀ s ∈ (getStarredTracks db).zipIdx, s.1.starredAt = some (now s.2) := by
  constructor
  · intro hall
    constructor
    · intro t ht
      have hrow := hall t ht
      cases hstarred : t.starred with
      | false =>
        grind [restoredRow_of_unstarred, inserted_eq_self_iff]
      | true =>
        obtain ⟨i, hi⟩ := mem_starred ht hstarred
        rw [restoredRow_of_starred hi, inserted_starred_eq_self_iff] at hrow
        grind
    · intro s hs
      have hrow := hall s.1 (of_mem_starred hs).1
      rw [restoredRow_of_starred hs, inserted_starred_eq_self_iff] at hrow
      exact hrow.2.2.1
  · intro ⟨hplain, hnow⟩ t ht
    obtain ⟨hrating, hgain, hpeak, hat⟩ := hplain t ht
    cases hstarred : t.starred with
    | false =>
      grind [restoredRow_of_unstarred, inserted_eq_self_iff]
    | true =>
      obtain ⟨i, hi⟩ := mem_starred ht hstarred
      rw [restoredRow_of_starred hi, inserted_starred_eq_self_iff]
      exact ⟨hstarred, hrating, hnow _ hi, hgain, hpeak⟩

/-! ## The restored backup -/

variable {newV4 : ℕ → Uuid} {db' : Database}

theorem sections_playHistory : (sections db).playHistory.map played = latestPlays db := by
  rw [sections, List.map_map]
  exact List.map_id' _

theorem Rebuilt.tracks_eq (h : Rebuilt newV4 now (sections db) db')
    (hrows : ∀ t ∈ db.tracks, restoredRow now (sections db) t = t) : db'.tracks = listTracks db := by
  rw [h.tracks]
  have hlisted : ∀ t ∈ listTracks db, restoredRow now (sections db) t = t := fun t ht =>
    hrows t ((listTracks_perm db).mem_iff.mp ht)
  exact (List.map_congr_left hlisted).trans (List.map_id' _)

/-- The playlists come back, in some order. -/
theorem Rebuilt.playlists_perm (h : Rebuilt newV4 now (sections db) db')
    (hrows : ∀ t ∈ db.tracks, restoredRow now (sections db) t = t) :
    ((listPlaylists db').map (whole db')).Perm ((listPlaylists db).map (whole db)) := by
  -- a playlist is whole by what describes it
  let wholeOf (d : Uuid × String × Option String) : BackupPlaylist :=
    ⟨d.2.1, d.2.2, (db'.getPlaylistTracks d.1).map Prod.snd⟩
  have hwhole : db'.playlists.map (whole db') = (sections db).playlists := by
    have hdescribed : db'.playlists.map (whole db') = (db'.playlists.map described).map wholeOf := by
      rw [List.map_map]
      rfl
    rw [hdescribed, h.playlists, List.map_map]
    conv_rhs => rw [← List.zipIdx_map_fst 0 (sections db).playlists]
    apply List.map_congr_left
    intro pl hpl
    have htracks : ∀ t ∈ pl.1.tracks, t ∈ db'.tracks := by
      rw [h.tracks_eq hrows]
      exact (coherent_sections db).playlists pl.1 (List.fst_mem_of_mem_zipIdx hpl)
    show (⟨pl.1.name, pl.1.description, (db'.getPlaylistTracks (newV4 pl.2)).map Prod.snd⟩ :
      BackupPlaylist) = pl.1
    rw [listing_placed (h.entries pl hpl), filterMap_getTrack htracks]
  have hperm := (listPlaylists_perm db').map (whole db')
  rw [hwhole] at hperm
  exact hperm

theorem Rebuilt.starred_perm (h : Rebuilt newV4 now (sections db) db')
    (hrows : ∀ t ∈ db.tracks, restoredRow now (sections db) t = t) :
    (getStarredTracks db').Perm (getStarredTracks db) := by
  have hfilter : (db'.tracks.filter Track.starred).Perm (db.tracks.filter Track.starred) := by
    rw [h.tracks_eq hrows]
    exact (listTracks_perm db).filter _
  grind [getStarredTracks_perm]

theorem Rebuilt.plays_perm (h : Rebuilt newV4 now (sections db) db') :
    (latestPlays db').Perm (latestPlays db) := by
  rw [latestPlays, h.playHistory, sections_playHistory, List.take_of_length_le]
  · exact List.perm_insertionSort _ _
  · rw [List.length_insertionSort]
    exact List.length_take_le _ _

/-- The second backup is the first one exactly where the tables agree in what a backup reads. -/
theorem Rebuilt.same_backup_iff (h : Rebuilt newV4 now (sections db) db')
    {exported exported' : String} {serverId : Uuid} {serverName : String}
    {payload payload' : BackupPayload}
    (hpayload : buildBackupPayload db exported serverId serverName = .ok payload)
    (hpayload' : buildBackupPayload db' exported' serverId serverName = .ok payload') :
    SameBackup payload payload' ↔ ∀ t ∈ db.tracks, restoredRow now (sections db) t = t := by
  rw [buildBackupPayload_eq] at hpayload hpayload'
  cases hpayload
  cases hpayload'
  constructor
  · intro hsame t ht
    have hrows : ((listTracks db).map (restoredRow now (sections db))).Perm (listTracks db) := by
      have hleft := (listTracks_perm db').symm.trans hsame.tracks
      rw [h.tracks] at hleft
      exact hleft
    have hall := (Keyed.map_perm_self_iff (f := restoredRow now (sections db))
      (coherent_sections db).ids_nodup fun r => starAll_id _ r.inserted).mp hrows
    exact hall t ((listTracks_perm db).mem_iff.mpr ht)
  · intro hrows
    exact {
      tracks := by
        show (listTracks db').Perm (listTracks db)
        rw [← h.tracks_eq hrows]
        exact listTracks_perm db'
      playlists := h.playlists_perm hrows
      starred := (h.starred_perm hrows).map _
      playHistory := h.plays_perm.map _ }

end

section

variable {newV4 : ℕ → Uuid} {now : ℕ → String} {db : Database} {target : Server}

theorem body_eq_sections {exported : String} {serverId : Uuid} {serverName : String}
    {payload : BackupPayload}
    (h : buildBackupPayload db exported serverId serverName = .ok payload) :
    payload.body true = sections db := by
  rw [buildBackupPayload_eq] at h
  cases h
  rfl

theorem isEmptyRestore_iff :
    isEmptyRestore target.db (sections db) = true ↔ target.db.tracks ≠ [] ∧ db.tracks = [] := by
  have hlisted : (listTracks db).isEmpty = db.tracks.isEmpty :=
    Bool.eq_iff_iff.mpr (by simp only [List.isEmpty_iff_length_eq_zero, (listTracks_perm db).length_eq])
  grind [getStarredTracks, isEmptyRestore, sections]

theorem forced_restore_ok (hnew : Function.Injective newV4)
    (hfree : target.db.keptByReference (fun _ => true) = false)
    (hsome : target.db.tracks = [] ∨ db.tracks ≠ []) :
    ∃ db', restoreHandler newV4 now target (sections db) =
        (.ok (sections db).restored, ⟨db', noSessions target.auth⟩) ∧
      Rebuilt newV4 now (sections db) db' := by
  obtain ⟨db', hsections, hrebuilt⟩ := @restoreSections_ok newV4 now _ (coherent_sections db) hnew
  refine ⟨db', ?_, hrebuilt⟩
  have hempty : ¬ isEmptyRestore target.db (sections db) = true := by
    rw [isEmptyRestore_iff, not_and_or, not_not]
    exact hsome
  have htransaction : restoreTransaction newV4 now target.db (sections db) = .ok db' := by
    rw [restoreTransaction, if_pos (show (sections db).force = true from rfl),
      clearLibrary_ok hfree]
    exact hsections
  grind [restoreHandler, sections]

theorem forced_restore_of_ok {restored : Restored} {target' : Server}
    (h : restoreHandler newV4 now target (sections db) = (.ok restored, target')) :
    target.db.keptByReference (fun _ => true) = false ∧
      (target.db.tracks = [] ∨ db.tracks ≠ []) := by
  rw [restoreHandler, if_neg (by simp [sections])] at h
  split at h
  · cases h
  next hempty =>
    rw [isEmptyRestore_iff, not_and_or, not_not] at hempty
    refine ⟨?_, hempty⟩
    cases hkept : target.db.keptByReference fun _ => true with
    | false => rfl
    | true =>
      obtain ⟨e, herror⟩ := @clearLibrary_error target.db (fun e =>
        databaseError s!"failed to clear tracks for force restore: {e}") hkept
      rw [restoreTransaction, if_pos (show (sections db).force = true from rfl), herror] at h
      cases h

end

/-- A backup can be restored and built again exactly when it is restorable. -/
theorem round_trips_iff (newV4 : ℕ ↪ Uuid) (now : ℕ → String) (db : Database) (target : Server)
    (exported exported' : String) (serverId : Uuid) (serverName : String) :
    RoundTrips newV4 now db target exported exported' serverId serverName ↔
      Restorable now db target := by
  constructor
  · intro ⟨payload, restored, target', payload', hpayload, hrestore, hpayload', hsame⟩
    rw [body_eq_sections hpayload] at hrestore
    obtain ⟨hfree, hsome⟩ := forced_restore_of_ok hrestore
    obtain ⟨db', hok, hrebuilt⟩ := @forced_restore_ok newV4 now db target newV4.injective hfree hsome
    rw [hok] at hrestore
    cases hrestore
    obtain ⟨hplain, hnow⟩ :=
      restored_rows_eq_iff.mp ((hrebuilt.same_backup_iff hpayload hpayload').mp hsame)
    exact ⟨hfree, hsome, hplain, hnow⟩
  · intro ⟨hfree, hsome, hplain, hnow⟩
    obtain ⟨db', hok, hrebuilt⟩ := @forced_restore_ok newV4 now db target newV4.injective hfree hsome
    have hpayload := @buildBackupPayload_eq db exported serverId serverName
    have hpayload' := @buildBackupPayload_eq db' exported' serverId serverName
    exact ⟨_, _, _, _, hpayload, hok, hpayload',
      (hrebuilt.same_backup_iff hpayload hpayload').mpr (restored_rows_eq_iff.mpr ⟨hplain, hnow⟩)⟩

def ratedLibrary : Database where
  tracks := [{ id := 1, filePath := "/music/a.flac", format := .flac, rating := 5,
               createdAt := 0, updatedAt := 0 }]
  playlists := []
  playlistTracks := []
  playHistory := []
  references := []
  sound := by decide

def freshServer : Server := ⟨Database.empty, ⟨fun _ => none, fun _ => none, []⟩⟩

def sharedServer : Server where
  db := {
    tracks := [{ id := 1, filePath := "/music/a.flac", format := .flac,
                 createdAt := 0, updatedAt := 0 }]
    playlists := []
    playlistTracks := []
    playHistory := []
    references := [⟨.sharedLinks, 1⟩]
    sound := by decide }
  auth := ⟨fun _ => none, fun _ => none, []⟩

def noon (_ : ℕ) : String := "2026-01-01T12:00:00+00:00"

/-- The rating does not come back, and nothing is restored where a track is shared. -/
theorem rating_lost :
    ¬ RoundTrips id noon ratedLibrary freshServer "" "" 0 "" ∧
      ¬ RoundTrips id noon ratedLibrary sharedServer "" "" 0 "" := by
  constructor
  · intro ⟨payload, restored, target', payload', hpayload, hrestore, hpayload', hsame⟩
    obtain ⟨db', hok, hrebuilt⟩ := @forced_restore_ok id noon ratedLibrary freshServer
      Function.injective_id rfl (.inl rfl)
    rw [body_eq_sections hpayload, hok] at hrestore
    cases hrestore
    have hrows := (hrebuilt.same_backup_iff hpayload hpayload').mp hsame
    have hrating := ((restored_rows_eq_iff.mp hrows).1 _ (List.mem_singleton_self _)).1
    cases hrating
  · intro ⟨payload, restored, target', payload', hpayload, hrestore, _⟩
    rw [body_eq_sections hpayload] at hrestore
    have hfree := (forced_restore_of_ok hrestore).1
    cases hfree

end MichiServer.Backup
