import MichiServer.Backup.Restore
import MichiServer.Catalog.Filling

/-!
# What a restore builds

The library that a coherent payload is restored to, from a database that was cleared: the tracks of
the payload with the columns that an insert writes, its playlists under the drawn ids with their
entries in order, and its plays.
-/

namespace MichiServer.Backup

open MichiServer.Catalog MichiServer.Queue MichiServer.Logic

/-- What every backup is: no two tracks share an id or a path, and the other sections name tracks of
it. -/
structure Coherent (body : RestoreBody) : Prop where
  ids_nodup : (body.tracks.map Track.id).Nodup
  paths_nodup : (body.tracks.map Track.filePath).Nodup
  playlists : ∀ pl ∈ body.playlists, ∀ t ∈ pl.tracks, t ∈ body.tracks
  starred : ∀ t ∈ body.starredTracks, t ∈ body.tracks
  history : ∀ h ∈ body.playHistory, h.trackId ∈ body.tracks.map Track.id

def starAll (now : ℕ → String) (stars : List (Track × ℕ)) (row : Track) : Track :=
  stars.foldl (fun row s => if row.id = s.1.id then row.starredRow (now s.2) else row) row

theorem starAll_id {now : ℕ → String} (stars : List (Track × ℕ)) (row : Track) :
    (starAll now stars row).id = row.id := by
  induction stars generalizing row with
  | nil => rfl
  | cons s rest ih =>
    rw [starAll, List.foldl_cons, ← starAll, ih]
    by_cases hid : row.id = s.1.id
    · rw [if_pos hid]
      rfl
    · rw [if_neg hid]

def restoredRow (now : ℕ → String) (body : RestoreBody) (t : Track) : Track :=
  starAll now body.starredTracks.zipIdx t.inserted

def drawn (newV4 : ℕ → Uuid) (pl : BackupPlaylist × ℕ) : Uuid × String × Option String :=
  (newV4 pl.2, pl.1.name, pl.1.description)

def played (h : BackupHistoryEntry) : PlayHistory := ⟨h.trackId, h.playedAt⟩

structure Rebuilt (newV4 : ℕ → Uuid) (now : ℕ → String) (body : RestoreBody) (db : Database) :
    Prop where
  tracks : db.tracks = body.tracks.map (restoredRow now body)
  playlists : db.playlists.map described = body.playlists.zipIdx.map (drawn newV4)
  entries : ∀ pl ∈ body.playlists.zipIdx,
    db.entries (newV4 pl.2) = placed (newV4 pl.2) (pl.1.tracks.map Track.id)
  playHistory : db.playHistory = body.playHistory.map played

section

variable {db db' : Database}

/-! ## Clearing -/

theorem clearLibrary_ok {error : String → ApiError}
    (h : db.keptByReference (fun _ => true) = false) :
    clearLibrary db error = .ok Database.empty := by
  have hsound : ((cleared db).withoutTracks fun _ => true).Sound :=
    Database.withoutTracks_sound_iff.mpr h
  have hempty : (cleared db).withoutTracks (fun _ => true) = Database.empty.toTables := by
    have hreferences : ∀ r ∈ db.references, r.table.cascades = true := by
      intro r hr
      simpa using List.any_eq_false.mp h r hr
    simpa [Tables.withoutTracks, cleared, Database.empty] using hreferences
  have hsame : (⟨_, hsound⟩ : Database) = Database.empty := Database.ext hempty
  rw [clearLibrary, Database.deleteAllTracks, write_ok hsound, hsame]
  rfl

theorem clearLibrary_error {error : String → ApiError}
    (h : db.keptByReference (fun _ => true) = true) : ∃ e, clearLibrary db error = .error e := by
  have hrefused : ¬ ((cleared db).withoutTracks fun _ => true).Sound := by
    intro hsound
    have hfree := Database.withoutTracks_sound_iff.mp hsound
    exact Bool.noConfusion (h.symm.trans hfree)
  rw [clearLibrary, Database.deleteAllTracks, write, dif_neg hrefused]
  exact ⟨_, rfl⟩

/-! ## Tracks -/

/-- Tracks of new ids and new paths are all inserted, in their order. -/
theorem upsertAll_ok {error : Track → String → ApiError} {tracks : List Track}
    (hids : (db.trackIds ++ tracks.map Track.id).Nodup)
    (hpaths : (db.tracks.map Track.filePath ++ tracks.map Track.filePath).Nodup) :
    ∃ db', upsertAll error db tracks = .ok db' ∧
      db'.toTables = { db.toTables with tracks := db.tracks ++ tracks.map Track.inserted } := by
  induction tracks generalizing db with
  | nil => exact ⟨db, rfl, by simp⟩
  | cons t rest ih =>
    have hnew : t.filePath ∉ db.tracks.map Track.filePath := by
      grind
    have hrows : upserted db.tracks t = db.tracks ++ [t.inserted] := Database.upserted_of_not_mem hnew
    have hmap : (db.tracks ++ [t.inserted]).map Track.id = db.trackIds ++ [t.id] := by
      rw [List.map_append]
      rfl
    have hmapPaths : (db.tracks ++ [t.inserted]).map Track.filePath =
        db.tracks.map Track.filePath ++ [t.filePath] := by
      rw [List.map_append]
      rfl
    have hmore : ∀ id ∈ db.trackIds, id ∈ (db.tracks ++ [t.inserted]).map Track.id := by
      intro id hid
      rw [hmap]
      exact List.mem_append_left _ hid
    rw [List.map_cons, ← List.singleton_append, ← List.append_assoc] at hids hpaths
    have hsound : Tables.Sound { db.toTables with tracks := db.tracks ++ [t.inserted] } := {
      track_ids_nodup := by
        rw [Tables.trackIds, hmap]
        exact hids.of_append_left
      paths_nodup := by
        rw [hmapPaths]
        exact hpaths.of_append_left
      playlist_ids_nodup := db.sound.playlist_ids_nodup
      places_nodup := db.sound.places_nodup
      entry_playlist := db.sound.entry_playlist
      entryTrack := fun e he => hmore _ (db.sound.entryTrack e he)
      history_track := fun h hh => hmore _ (db.sound.history_track h hh)
      reference_track := fun r hr => hmore _ (db.sound.reference_track r hr) }
    have hone : db.upsertTrack t = .ok ⟨_, hsound⟩ := by
      rw [Database.upsertTrack, hrows]
      exact write_ok hsound
    obtain ⟨db', hrest, htables⟩ := @ih ⟨_, hsound⟩
      (by rw [Tables.trackIds, hmap]; exact hids) (by rw [hmapPaths]; exact hpaths)
    refine ⟨db', ?_, ?_⟩
    · rw [upsertAll, List.foldlM_cons, hone]
      exact hrest
    · rw [htables]
      simp

/-! ## Playlists -/

structure PlaylistRestored (newV4 : ℕ → Uuid) (pl : BackupPlaylist × ℕ) (rows : List Track)
    (db db' : Database) : Prop where
  tracks : db'.tracks = rows
  playlists : db'.playlists.map described = db.playlists.map described ++ [drawn newV4 pl]
  entries : db'.entries (newV4 pl.2) = placed (newV4 pl.2) (pl.1.tracks.map Track.id)
  elsewhere : ∀ q, q ≠ newV4 pl.2 → db'.entries q = db.entries q
  playHistory : db'.playHistory = db.playHistory
  references : db'.references = db.references

variable {newV4 : ℕ → Uuid} {now : ℕ → String}

def drawnPlaylist (newV4 : ℕ → Uuid) (pl : BackupPlaylist × ℕ) : Playlist :=
  Database.newPlaylist (newV4 pl.2) ⟨pl.1.name, pl.1.description⟩ none

variable {pl : BackupPlaylist × ℕ} {rows : List Track} {pls : List (BackupPlaylist × ℕ)}

theorem playlist_created (hnew : newV4 pl.2 ∉ db.playlistIds) :
    ∃ db1, db.createPlaylist (newV4 pl.2) ⟨pl.1.name, pl.1.description⟩ none =
        .ok (drawnPlaylist newV4 pl, db1) ∧
      db1.toTables =
        { db.toTables with playlists := db.playlists ++ [drawnPlaylist newV4 pl] } ∧
      db1.entries (newV4 pl.2) = placed (newV4 pl.2) [] ∧ newV4 pl.2 ∈ db1.playlistIds := by
  obtain ⟨db1, hcreate, htables⟩ :=
    Database.createPlaylist_ok ⟨pl.1.name, pl.1.description⟩ none hnew
  refine ⟨db1, hcreate, htables, ?_, ?_⟩
  · rw [htables]
    exact Database.entries_eq_nil hnew
  · grind [Tables.playlistIds, Database.newPlaylist]

theorem Filled.playlist_restored {db1 : Database} (htables : db1.toTables =
      { db.toTables with playlists := db.playlists ++ [drawnPlaylist newV4 pl] })
    (h : Filled (newV4 pl.2) (pl.1.tracks.map Track.id) rows db1 db') :
    PlaylistRestored newV4 pl rows db db' where
  tracks := h.tracks
  playlists := by
    rw [h.playlists, htables, List.map_append]
    rfl
  entries := h.entries
  elsewhere := by
    intro q hq
    rw [h.elsewhere q hq, htables]
    rfl
  playHistory := by rw [h.playHistory, htables]
  references := by rw [h.references, htables]

theorem restoreBundlePlaylist_ok (hnew : newV4 pl.2 ∉ db.playlistIds)
    (htracks : ∀ t ∈ pl.1.tracks, t.id ∈ db.trackIds) :
    ∃ db', restoreBundlePlaylist newV4 db pl = .ok db' ∧
      PlaylistRestored newV4 pl db.tracks db db' := by
  obtain ⟨db1, hcreate, htables, hentries, hplaylist⟩ := playlist_created hnew
  have hids : ∀ i ∈ pl.1.tracks.map Track.id, i ∈ db1.trackIds := by
    intro i hi
    obtain ⟨t, ht, rfl⟩ := List.mem_map.mp hi
    rw [htables]
    exact htracks t ht
  have hfilled := filled_addTracks hentries hplaylist hids
  rw [htables] at hfilled
  refine ⟨db1.addTracks (newV4 pl.2) (pl.1.tracks.map Track.id), ?_, ?_⟩
  · rw [restoreBundlePlaylist, hcreate]
    rfl
  · exact Filled.playlist_restored htables hfilled

/-- Tracks whose rows are kept fill a playlist behind what is there. -/
theorem restore_entries_ok (pl : BackupPlaylist) {playlistId : Uuid} {before : List Uuid}
    {tracks : List Track} (hentries : db.entries playlistId = placed playlistId before)
    (hplaylist : playlistId ∈ db.playlistIds) (hkeeps : ∀ t ∈ tracks, Keeps db.tracks t) :
    ∃ db', tracks.foldlM (restoreEntry pl playlistId) db = .ok db' ∧
      Filled playlistId (before ++ tracks.map Track.id) (tracks.foldl upserted db.tracks) db db' := by
  induction tracks generalizing db before with
  | nil =>
    refine ⟨db, rfl, rfl, rfl, ?_, fun _ _ => rfl, rfl, rfl⟩
    rw [List.map_nil, List.append_nil]
    exact hentries
  | cons t rest ih =>
    rw [List.forall_mem_cons] at hkeeps
    obtain ⟨db1, hupsert, htables⟩ := upsertTrack_of_keeps hkeeps.1
    have hrows : db1.tracks = upserted db.tracks t := by rw [htables]
    have hkeeps1 : ∀ t' ∈ t :: rest, Keeps db1.tracks t' := by
      intro t' ht'
      rw [hrows]
      exact hkeeps.1.upserted db.sound.paths_nodup (List.forall_mem_cons.mpr hkeeps t' ht')
    rw [List.forall_mem_cons] at hkeeps1
    have hentries1 : db1.entries playlistId = placed playlistId before := by
      rw [htables]
      exact hentries
    have hplaylist1 : playlistId ∈ db1.playlistIds := by
      rw [htables]
      exact hplaylist
    obtain ⟨e, db2, hadd, hadded⟩ :=
      addTrackToPlaylist_ok hentries1 hplaylist1 hkeeps1.1.id_mem
    have hone : restoreEntry pl playlistId db t = .ok db2 := by
      rw [restoreEntry, hupsert]
      show (do
        let added ← (db1.addTrackToPlaylist playlistId t.id).mapError _
        pure added.2) = _
      rw [hadd]
      rfl
    have hentries2 : db2.entries playlistId = placed playlistId (before ++ [t.id]) := by
      rw [hadded.entries, if_pos rfl, hentries1, placed_append_singleton]
    obtain ⟨db', hrest, hfilled⟩ := ih hentries2
      (playlistIds_of_described hadded.playlists ▸ hplaylist1) (hadded.tracks ▸ hkeeps1.2)
    refine ⟨db', ?_, ?_⟩
    · rw [List.foldlM_cons, hone]
      exact hrest
    · exact {
        tracks := by
          rw [hfilled.tracks, hadded.tracks, hrows]
          rfl
        playlists := by rw [hfilled.playlists, hadded.playlists, htables]
        entries := by
          rw [hfilled.entries, List.append_assoc]
          rfl
        elsewhere := by
          intro q hq
          rw [hfilled.elsewhere q hq, hadded.entries, if_neg (Ne.symm hq), List.append_nil, htables]
          rfl
        playHistory := by rw [hfilled.playHistory, hadded.playHistory, htables]
        references := by rw [hfilled.references, hadded.references, htables] }

def rowsAfter (rows : List Track) (pl : BackupPlaylist × ℕ) : List Track :=
  pl.1.tracks.foldl upserted rows

theorem restorePlaylist_ok (hnew : newV4 pl.2 ∉ db.playlistIds)
    (hkeeps : ∀ t ∈ pl.1.tracks, Keeps db.tracks t) :
    ∃ db', restorePlaylist newV4 db pl = .ok db' ∧
      PlaylistRestored newV4 pl (rowsAfter db.tracks pl) db db' := by
  obtain ⟨db1, hcreate, htables, hentries, hplaylist⟩ := playlist_created hnew
  have hkeeps1 : ∀ t ∈ pl.1.tracks, Keeps db1.tracks t := by
    rw [htables]
    exact hkeeps
  obtain ⟨db', hrestored, hfilled⟩ := restore_entries_ok pl.1 hentries hplaylist hkeeps1
  rw [htables] at hfilled
  refine ⟨db', ?_, Filled.playlist_restored htables hfilled⟩
  rw [restorePlaylist, hcreate]
  exact hrestored

/-- What the restore of the playlists leaves, with these rows of tracks. -/
structure PlaylistsRestored (newV4 : ℕ → Uuid) (pls : List (BackupPlaylist × ℕ))
    (rows : List Track) (db db' : Database) : Prop where
  tracks : db'.tracks = rows
  playlists : db'.playlists.map described = db.playlists.map described ++ pls.map (drawn newV4)
  entries : ∀ pl ∈ pls, db'.entries (newV4 pl.2) = placed (newV4 pl.2) (pl.1.tracks.map Track.id)
  elsewhere : ∀ q, q ∉ pls.map (fun pl => newV4 pl.2) → db'.entries q = db.entries q
  playHistory : db'.playHistory = db.playHistory
  references : db'.references = db.references

/-- Where each playlist is restored, so are all of them, in their order. -/
theorem playlists_restored {restore : Database → BackupPlaylist × ℕ → Except ApiError Database}
    {rowsOf : List Track → BackupPlaylist × ℕ → List Track}
    {R : List Track → BackupPlaylist × ℕ → Prop}
    (hone : ∀ (db : Database) pl, newV4 pl.2 ∉ db.playlistIds → R db.tracks pl →
      ∃ db', restore db pl = .ok db' ∧
        PlaylistRestored newV4 pl (rowsOf db.tracks pl) db db')
    (hready : ∀ (db : Database) pl pl', R db.tracks pl → R db.tracks pl' →
      R (rowsOf db.tracks pl) pl')
    (hnew : (db.playlistIds ++ pls.map fun pl => newV4 pl.2).Nodup)
    (hpls : ∀ pl ∈ pls, R db.tracks pl) :
    ∃ db', pls.foldlM restore db = .ok db' ∧
      PlaylistsRestored newV4 pls (pls.foldl rowsOf db.tracks) db db' := by
  induction pls generalizing db with
  | nil => exact ⟨db, rfl, rfl, by simp, by simp, fun _ _ => rfl, rfl, rfl⟩
  | cons pl rest ih =>
    rw [List.forall_mem_cons] at hpls
    rw [List.map_cons, ← List.singleton_append, ← List.append_assoc] at hnew
    have hfresh : newV4 pl.2 ∉ db.playlistIds := by
      grind
    obtain ⟨db1, hpl, hrestored⟩ := hone db pl hfresh hpls.1
    have hids : db1.playlistIds = db.playlistIds ++ [newV4 pl.2] := by
      have hfst := congrArg (List.map Prod.fst) hrestored.playlists
      rw [List.map_append, List.map_map, List.map_map] at hfst
      exact hfst
    have hpls1 : ∀ pl' ∈ rest, R db1.tracks pl' := by
      intro pl' hpl'
      rw [hrestored.tracks]
      exact hready db pl pl' hpls.1 (hpls.2 pl' hpl')
    obtain ⟨db', hrest, hrestored'⟩ := ih (hids ▸ hnew) hpls1
    refine ⟨db', ?_, ?_⟩
    · rw [List.foldlM_cons, hpl]
      exact hrest
    · have hlater : newV4 pl.2 ∉ rest.map fun pl => newV4 pl.2 := by
        grind
      exact {
        tracks := by
          rw [hrestored'.tracks, hrestored.tracks]
          rfl
        playlists := by
          rw [hrestored'.playlists, hrestored.playlists, List.append_assoc]
          rfl
        entries := by
          rw [List.forall_mem_cons]
          refine ⟨?_, hrestored'.entries⟩
          rw [hrestored'.elsewhere _ hlater]
          exact hrestored.entries
        elsewhere := by
          intro q hq
          rw [List.map_cons, List.mem_cons, not_or] at hq
          rw [hrestored'.elsewhere q hq.2, hrestored.elsewhere q hq.1]
        playHistory := hrestored'.playHistory.trans hrestored.playHistory
        references := hrestored'.references.trans hrestored.references }

def rowsAfterAll (rows : List Track) (pls : List (BackupPlaylist × ℕ)) : List Track :=
  pls.foldl rowsAfter rows

theorem keeps_rowsAfter {t : Track}
    (hpaths : (rows.map Track.filePath).Nodup) (hpl : ∀ t ∈ pl.1.tracks, Keeps rows t)
    (h : Keeps rows t) : Keeps (rowsAfter rows pl) t := by
  rw [keeps_iff, rowsAfter, foldl_upserted_keys hpaths hpl]
  exact keeps_iff.mp h

theorem rowsAfterAll_of_covers (hpaths : (rows.map Track.filePath).Nodup)
    (h : ∀ pl ∈ pls, ∀ t ∈ pl.1.tracks, Covers rows t) : rowsAfterAll rows pls = rows := by
  induction pls with
  | nil => rfl
  | cons pl rest ih =>
    rw [List.forall_mem_cons] at h
    rw [rowsAfterAll, List.foldl_cons, rowsAfter, foldl_upserted_of_covers hpaths h.1]
    exact ih h.2

theorem restore_playlists_ok (hnew : (db.playlistIds ++ pls.map fun pl => newV4 pl.2).Nodup)
    (hkeeps : ∀ pl ∈ pls, ∀ t ∈ pl.1.tracks, Keeps db.tracks t) :
    ∃ db', pls.foldlM (restorePlaylist newV4) db = .ok db' ∧
      PlaylistsRestored newV4 pls (rowsAfterAll db.tracks pls) db db' :=
  playlists_restored (R := fun rows pl => ∀ t ∈ pl.1.tracks, Keeps rows t)
    (fun _ _ => restorePlaylist_ok)
    (fun db _ _ hpl hpl' t ht => keeps_rowsAfter db.sound.paths_nodup hpl (hpl' t ht)) hnew hkeeps

theorem restore_bundle_playlists_ok
    (hnew : (db.playlistIds ++ pls.map fun pl => newV4 pl.2).Nodup)
    (htracks : ∀ pl ∈ pls, ∀ t ∈ pl.1.tracks, t.id ∈ db.trackIds) :
    ∃ db', pls.foldlM (restoreBundlePlaylist newV4) db = .ok db' ∧
      PlaylistsRestored newV4 pls (pls.foldl (fun rows _ => rows) db.tracks) db db' :=
  playlists_restored (R := fun rows pl => ∀ t ∈ pl.1.tracks, t.id ∈ rows.map Track.id)
    (fun _ _ => restoreBundlePlaylist_ok) (fun _ _ _ _ hpl' => hpl') hnew htracks

/-! ## Stars and plays -/

theorem starTrack_tracks (id : Uuid) (atTime : String) :
    (db.starTrack id true atTime).2.tracks =
      db.tracks.map fun row => if row.id = id then row.starredRow atTime else row := rfl

/-- The stars are put on the rows of their tracks. -/
theorem restore_stars_ok {stars : List (Track × ℕ)} (hcovers : ∀ s ∈ stars, Covers db.tracks s.1) :
    ∃ db', stars.foldlM (restoreStar now) db = .ok db' ∧
      db'.toTables = { db.toTables with tracks := db.tracks.map (starAll now stars) } := by
  induction stars generalizing db with
  | nil =>
    refine ⟨db, rfl, ?_⟩
    show db.toTables = { db.toTables with tracks := db.tracks.map fun row => row }
    rw [List.map_id']
  | cons s rest ih =>
    rw [List.forall_mem_cons] at hcovers
    have hone : restoreStar now db s = .ok (db.starTrack s.1.id true (now s.2)).2 := by
      rw [restoreStar, upsertTrack_of_covers hcovers.1]
      rfl
    obtain ⟨db', hrest, htables⟩ := @ih (db.starTrack s.1.id true (now s.2)).2
      fun s' hs' => (hcovers.2 s' hs').star _ _
    refine ⟨db', ?_, ?_⟩
    · rw [List.foldlM_cons, hone]
      exact hrest
    · rw [htables, starTrack_tracks, List.map_map]
      rfl

/-- The plays of known tracks are appended. -/
theorem restore_plays_ok {plays : List BackupHistoryEntry}
    (htracks : ∀ h ∈ plays, h.trackId ∈ db.trackIds) :
    ∃ db', plays.foldlM restorePlay db = .ok db' ∧
      db'.toTables = { db.toTables with playHistory := db.playHistory ++ plays.map played } := by
  induction plays generalizing db with
  | nil => exact ⟨db, rfl, by simp⟩
  | cons h rest ih =>
    rw [List.forall_mem_cons] at htracks
    have hsound : Tables.Sound { db.toTables with playHistory := db.playHistory ++ [played h] } :=
      { db.sound with
        history_track := by
          intro other hother
          rcases List.mem_append.mp hother with hold | hnew
          · exact db.sound.history_track other hold
          · rw [List.mem_singleton.mp hnew]
            exact htracks.1 }
    have hone : restorePlay db h = .ok ⟨_, hsound⟩ := by
      show (db.insertPlay (played h)).mapError _ = _
      rw [Database.insertPlay, write_ok hsound]
      rfl
    obtain ⟨db', hrest, htables⟩ := @ih ⟨_, hsound⟩ htracks.2
    refine ⟨db', ?_, ?_⟩
    · rw [List.foldlM_cons, hone]
      exact hrest
    · rw [htables]
      simp

/-! ## The sections together -/

theorem drawn_ids_nodup (hnew : Function.Injective newV4) (pls : List BackupPlaylist) :
    (pls.zipIdx.map fun pl => newV4 pl.2).Nodup := by
  have hmap : (pls.zipIdx.map fun pl => newV4 pl.2) = (pls.zipIdx.map Prod.snd).map newV4 := by
    rw [List.map_map]
    rfl
  rw [hmap, List.zipIdx_map_snd]
  exact List.Nodup.map hnew (List.nodup_range' 1)

theorem upsertAll_coherent {body : RestoreBody} (h : Coherent body)
    (error : Track → String → ApiError) :
    ∃ db, upsertAll error Database.empty body.tracks = .ok db ∧
      db.toTables = { Database.empty.toTables with tracks := body.tracks.map Track.inserted } :=
  @upsertAll_ok Database.empty _ _ (by simpa [Tables.trackIds, Database.empty] using h.ids_nodup)
    (by simpa [Database.empty] using h.paths_nodup)

/-- A coherent backup is rebuilt in an empty database. -/
theorem restoreSections_ok {body : RestoreBody} (h : Coherent body)
    (hnew : Function.Injective newV4) :
    ∃ db, restoreSections newV4 now Database.empty body = .ok db ∧ Rebuilt newV4 now body db := by
  obtain ⟨db1, hupserted, htables1⟩ := upsertAll_coherent h fun t e =>
    databaseError s!"failed to restore track {trackText t}: {e}"
  have hrows : db1.tracks = body.tracks.map Track.inserted := by rw [htables1]
  have hdrawn : (db1.playlistIds ++ body.playlists.zipIdx.map fun pl => newV4 pl.2).Nodup := by
    rw [htables1]
    exact drawn_ids_nodup hnew body.playlists
  have hpl : ∀ pl ∈ body.playlists.zipIdx, ∀ t ∈ pl.1.tracks, t ∈ body.tracks := by
    intro pl hpl
    exact h.playlists pl.1 (List.fst_mem_of_mem_zipIdx hpl)
  have hcovers : ∀ pl ∈ body.playlists.zipIdx, ∀ t ∈ pl.1.tracks, Covers db1.tracks t := by
    intro pl hmem t ht
    rw [hrows]
    exact covers_inserted (hpl pl hmem t ht)
  obtain ⟨db2, hplaylists, hrestored⟩ :=
    restore_playlists_ok hdrawn fun pl hmem t ht => (hcovers pl hmem t ht).keeps
  rw [rowsAfterAll_of_covers db1.sound.paths_nodup hcovers] at hrestored
  have hstars : ∀ s ∈ body.starredTracks.zipIdx, Covers db2.tracks s.1 := by
    intro s hs
    rw [hrestored.tracks, hrows]
    exact covers_inserted (h.starred s.1 (List.fst_mem_of_mem_zipIdx hs))
  obtain ⟨db3, hstarred, htables3⟩ := @restore_stars_ok db2 now _ hstars
  have hrows3 : db3.tracks = body.tracks.map (restoredRow now body) := by
    rw [htables3, hrestored.tracks, hrows, List.map_map]
    rfl
  have hids3 : db3.trackIds = body.tracks.map Track.id := by
    rw [Tables.trackIds, hrows3, List.map_map]
    exact List.map_congr_left fun t _ => starAll_id _ _
  obtain ⟨db4, hplays, htables4⟩ := @restore_plays_ok db3 _ fun e he => by
    rw [hids3]
    exact h.history e he
  refine ⟨db4, ?_, ?_⟩
  · rw [restoreSections, hupserted]
    show (do
      let db ← body.playlists.zipIdx.foldlM (restorePlaylist newV4) db1
      let db ← body.starredTracks.zipIdx.foldlM (restoreStar now) db
      body.playHistory.foldlM restorePlay db) = _
    rw [hplaylists]
    show (do
      let db ← body.starredTracks.zipIdx.foldlM (restoreStar now) db2
      body.playHistory.foldlM restorePlay db) = _
    rw [hstarred]
    exact hplays
  · exact {
      tracks := by rw [htables4, hrows3]
      playlists := by
        rw [htables4, htables3, hrestored.playlists, htables1]
        rfl
      entries := by
        intro pl hmem
        rw [htables4, htables3]
        exact hrestored.entries pl hmem
      playHistory := by
        rw [htables4, htables3, hrestored.playHistory, htables1]
        rfl }

end

end MichiServer.Backup
