import MichiServer.Backup.RoundTrip

/-!
# What a restore that went through has done

A restore from JSON upserts every track of a playlist before it adds it. Where all of this went
through, the rows are those that the upserts leave, and each track is held by its entry under the id
and the path it was given.
-/

namespace MichiServer.Backup

open MichiServer.Catalog MichiServer.Queue MichiServer.Logic

/-- The track is there under its id and its path, and an entry refers to it. -/
def Held (db : Database) (t : Track) : Prop :=
  Keeps db.tracks t ∧ ∃ e ∈ db.playlistTracks, e.trackId = t.id

/-- The tracks were upserted and entered, and nothing that was held was let go. -/
structure Entered (tracks : List Track) (db db' : Database) : Prop where
  rows : db'.tracks = tracks.foldl upserted db.tracks
  playHistory : db'.playHistory = db.playHistory
  held : ∀ t, Held db t → Held db' t
  entered : ∀ t ∈ tracks, Held db' t

section

variable {db db' db'' : Database} {t t' : Track}

/-- A row that is held stays held. -/
theorem held_upsertTrack (h : db.upsertTrack t' = .ok db') (hheld : Held db t) : Held db' t := by
  obtain ⟨⟨row, hrow, hpath, hid⟩, e, he, hentry⟩ := hheld
  have htables := Database.toTables_upsertTrack h
  have he' : e ∈ db'.playlistTracks := by
    rw [htables]
    exact he
  refine ⟨?_, e, he', hentry⟩
  by_cases hmem : t'.filePath ∈ db.tracks.map Track.filePath
  · have hrows : db'.tracks = db.tracks.map fun row =>
        if row.filePath = t'.filePath then row.merged t' else row := by
      rw [htables]
      exact Database.upserted_of_mem hmem
    by_cases hsame : row.filePath = t'.filePath
    · -- the entry still refers to a row, and only the changed row can have its id
      obtain ⟨row1, hrow1, hid1⟩ := List.mem_map.mp (db'.sound.entryTrack e he')
      rw [hrows] at hrow1
      obtain ⟨old, hold, rfl⟩ := List.mem_map.mp hrow1
      have hchanged : old.filePath = t'.filePath := by
        grind [Database.eq_of_id]
      rw [if_pos hchanged] at hid1
      refine ⟨row.merged t', ?_, hsame.symm.trans hpath, hid1.trans hentry⟩
      rw [hrows]
      exact List.mem_map.mpr ⟨row, hrow, if_pos hsame⟩
    · refine ⟨row, ?_, hpath, hid⟩
      rw [hrows]
      exact List.mem_map.mpr ⟨row, hrow, if_neg hsame⟩
  · refine ⟨row, ?_, hpath, hid⟩
    grind [upserted, Database.upserted_of_not_mem]

theorem keeps_upserted (rows : List Track) (t : Track) : Keeps (upserted rows t) t := by
  by_cases hmem : t.filePath ∈ rows.map Track.filePath
  · obtain ⟨row, hrow, hpath⟩ := List.mem_map.mp hmem
    rw [Database.upserted_of_mem hmem]
    exact ⟨row.merged t, List.mem_map.mpr ⟨row, hrow, if_pos hpath⟩, rfl, rfl⟩
  · rw [Database.upserted_of_not_mem hmem]
    exact ⟨t.inserted, by simp, rfl, rfl⟩

theorem Entered.refl (db : Database) : Entered [] db db := ⟨rfl, rfl, fun _ h => h, by simp⟩

theorem Entered.append {tracks tracks' : List Track} (h : Entered tracks db db')
    (h' : Entered tracks' db' db'') : Entered (tracks ++ tracks') db db'' where
  rows := by rw [h'.rows, h.rows, List.foldl_append]
  playHistory := h'.playHistory.trans h.playHistory
  held t ht := h'.held t (h.held t ht)
  entered t ht := by
    rcases List.mem_append.mp ht with hleft | hright
    · exact h'.held t (h.entered t hleft)
    · exact h'.entered t hright

/-- An entry that is restored enters the row of its track. -/
theorem entered_of_restoreEntry {pl : BackupPlaylist} {playlistId : Uuid}
    (h : restoreEntry pl playlistId db t = .ok db') : Entered [t] db db' := by
  obtain ⟨db1, hupsert, h⟩ := bind_eq_ok_iff.mp h
  obtain ⟨added, hadd, h⟩ := bind_eq_ok_iff.mp h
  have hupsert := mapError_eq_ok_iff.mp hupsert
  obtain ⟨inserted, hinserted, hadded⟩ := map_eq_ok_iff.mp (mapError_eq_ok_iff.mp hadd)
  subst hadded
  cases h
  have hrows : (inserted.recount playlistId).tracks = upserted db.tracks t := by
    show inserted.tracks = _
    rw [toTables_of_write hinserted, Database.toTables_upsertTrack hupsert]
  have hentries := playlistTracks_insertEntry hinserted
  exact {
    rows := hrows
    playHistory := by
      show inserted.playHistory = _
      rw [toTables_of_write hinserted, Database.toTables_upsertTrack hupsert]
    held := by
      intro other hother
      obtain ⟨hkeeps, e, he, hid⟩ := held_upsertTrack hupsert hother
      refine ⟨?_, e, ?_, hid⟩
      · grind [Database.toTables_upsertTrack]
      · show e ∈ inserted.playlistTracks
        rw [hentries]
        exact List.mem_append_left _ he
    entered := by
      intro other hother
      rw [List.mem_singleton.mp hother]
      refine ⟨?_, ⟨playlistId, t.id, (db1.maxPosition playlistId).getD (-1) + 1⟩, ?_, rfl⟩
      · rw [hrows]
        exact keeps_upserted db.tracks t
      · show _ ∈ inserted.playlistTracks
        grind }

theorem entered_of_restore_entries {pl : BackupPlaylist} {playlistId : Uuid} {tracks : List Track}
    (h : tracks.foldlM (restoreEntry pl playlistId) db = .ok db') : Entered tracks db db' := by
  induction tracks generalizing db with
  | nil =>
    cases h
    exact .refl _
  | cons t rest ih =>
    rw [List.foldlM_cons] at h
    obtain ⟨db1, hone, hrest⟩ := bind_eq_ok_iff.mp h
    exact (entered_of_restoreEntry hone).append (ih hrest)

variable {newV4 : ℕ → Uuid} {now : ℕ → String}

theorem entered_of_restorePlaylist {pl : BackupPlaylist × ℕ}
    (h : restorePlaylist newV4 db pl = .ok db') : Entered pl.1.tracks db db' := by
  obtain ⟨created, hcreate, hentries⟩ := bind_eq_ok_iff.mp h
  obtain ⟨db1, hwrite, hcreated⟩ := map_eq_ok_iff.mp (mapError_eq_ok_iff.mp hcreate)
  subst hcreated
  have hentered := entered_of_restore_entries hentries
  exact {
    rows := by rw [hentered.rows, toTables_of_write hwrite]
    playHistory := by rw [hentered.playHistory, toTables_of_write hwrite]
    held := by
      intro t ht
      apply hentered.held
      rw [Held, toTables_of_write hwrite]
      exact ht
    entered := hentered.entered }

theorem entered_of_restore_playlists {pls : List (BackupPlaylist × ℕ)}
    (h : pls.foldlM (restorePlaylist newV4) db = .ok db') :
    Entered (pls.flatMap fun pl => pl.1.tracks) db db' := by
  induction pls generalizing db with
  | nil =>
    cases h
    exact .refl _
  | cons pl rest ih =>
    rw [List.foldlM_cons] at h
    obtain ⟨db1, hone, hrest⟩ := bind_eq_ok_iff.mp h
    exact (entered_of_restorePlaylist hone).append (ih hrest)

theorem starred_of_restoreStar {s : Track × ℕ} (h : restoreStar now db s = .ok db') :
    ∃ row ∈ db'.tracks, row.starred = true := by
  obtain ⟨db1, hupsert, h⟩ := bind_eq_ok_iff.mp h
  cases h
  have htables := Database.toTables_upsertTrack (mapError_eq_ok_iff.mp hupsert)
  obtain ⟨row, hrow, -, hid⟩ := keeps_upserted db.tracks s.1
  refine ⟨row.starredRow (now s.2), ?_, rfl⟩
  grind [starTrack_tracks]

theorem starred_of_restore_stars {stars : List (Track × ℕ)} (hsome : stars ≠ [])
    (h : stars.foldlM (restoreStar now) db = .ok db') : ∃ row ∈ db'.tracks, row.starred = true := by
  obtain ⟨before, last, rfl⟩ := (List.eq_nil_or_concat stars).resolve_left hsome
  rw [List.concat_eq_append, List.foldlM_append] at h
  obtain ⟨db1, -, hlast⟩ := bind_eq_ok_iff.mp h
  rw [List.foldlM_cons] at hlast
  obtain ⟨db2, hone, hend⟩ := bind_eq_ok_iff.mp hlast
  cases hend
  exact starred_of_restoreStar hone

theorem plays_of_restore_plays {plays : List BackupHistoryEntry}
    (h : plays.foldlM restorePlay db = .ok db') :
    db'.playHistory = db.playHistory ++ plays.map played ∧ db'.tracks = db.tracks := by
  induction plays generalizing db with
  | nil =>
    cases h
    simp
  | cons e rest ih =>
    rw [List.foldlM_cons] at h
    obtain ⟨db1, hone, hrest⟩ := bind_eq_ok_iff.mp h
    have htables := toTables_of_write (mapError_eq_ok_iff.mp hone)
    grind [played]

end

/-!
## The two restores

When a payload restored from a bundle and restored by force from JSON leave the same. The bundle's
routine restores no stars and no plays and keeps the sessions, and it takes only those tracks of a
playlist that the payload lists.
-/

open MichiServer.Accounts

structure SameLibrary (hashToken : String → String) (clock : DateTime) (a b : Server) : Prop where
  tracks : a.db.tracks.Perm b.db.tracks
  playlists : (a.db.playlists.map (whole a.db)).Perm (b.db.playlists.map (whole b.db))
  starred : ((a.db.tracks.filter Track.starred).map Track.id).Perm
    ((b.db.tracks.filter Track.starred).map Track.id)
  playHistory : a.db.playHistory.Perm b.db.playHistory
  sessions : ∀ token, a.auth.accepted hashToken token clock = b.auth.accepted hashToken token clock

/-- What the two routines leave agrees: the same library, or both fail and change nothing. -/
def Agree (hashToken : String → String) (clock : DateTime) (s : Server) :
    Except ApiError Restored × Server → Except ApiError (ℕ × ℕ) × Server → Prop
  | (.ok _, a), (.ok _, b) => SameLibrary hashToken clock a b
  | (.error _, a), (.error _, b) => a = s ∧ b = s
  | _, _ => False

def RestoreBody.forced (payload : RestoreBody) : RestoreBody := { payload with force := true }

def RestoresAgree (hashToken : String → String) (clock : DateTime) (newV4 newV4' : ℕ → Uuid)
    (now : ℕ → String) (s : Server) (payload : RestoreBody) : Prop :=
  Agree hashToken clock s (restoreHandler newV4 now s payload.forced)
    (restoreBackupBundleHandler newV4' s payload)

/-- No track, upserted after those before it, takes the id of a row of another path. -/
def Consistent : List Track → List Track → Prop
  | _, [] => True
  | rows, t :: rest => ((upserted rows t).map Track.id).Nodup ∧ Consistent (upserted rows t) rest

instance : (rows tracks : List Track) → Decidable (Consistent rows tracks)
  | _, [] => inferInstanceAs (Decidable True)
  | rows, t :: rest =>
    have : Decidable (Consistent (upserted rows t) rest) := instDecidableConsistent _ rest
    inferInstanceAs (Decidable (_ ∧ Consistent (upserted rows t) rest))

def RestoreBody.rows (payload : RestoreBody) : List Track := payload.tracks.foldl upserted []

def RestoreBody.playlistTracks (payload : RestoreBody) : List Track :=
  payload.playlists.flatMap BackupPlaylist.tracks

structure Alike (hashToken : String → String) (clock : DateTime) (s : Server)
    (payload : RestoreBody) : Prop where
  no_stars : payload.starredTracks = []
  no_plays : payload.playHistory = []
  noSessions : ∀ token, s.auth.accepted hashToken token clock = none
  some_tracks : s.db.tracks = [] ∨ payload.tracks ≠ []
  listed : ∀ t ∈ payload.playlistTracks, Keeps payload.rows t
  unchanged : payload.playlistTracks.foldl upserted payload.rows = payload.rows

/-- A row keeps the library, or the tracks of the payload clash, or nothing is treated differently. -/
def Interchangeable (hashToken : String → String) (clock : DateTime) (s : Server)
    (payload : RestoreBody) : Prop :=
  s.db.keptByReference (fun _ => true) = true ∨ ¬ Consistent [] payload.tracks ∨
    Alike hashToken clock s payload

section

variable {db db' : Database}

/-! ## The tracks -/

theorem upserted_paths_nodup {rows : List Track} (t : Track)
    (h : (rows.map Track.filePath).Nodup) : ((upserted rows t).map Track.filePath).Nodup := by
  by_cases hmem : t.filePath ∈ rows.map Track.filePath
  · have hpaths : (upserted rows t).map Track.filePath = rows.map Track.filePath := by
      rw [Database.upserted_of_mem hmem, List.map_map]
      apply List.map_congr_left
      intro row _
      by_cases hsame : row.filePath = t.filePath
      · simp [hsame]
      · simp [hsame]
    rw [hpaths]
    exact h
  · rw [Database.upserted_of_not_mem hmem, List.map_append]
    exact h.append (List.nodup_singleton _) (by simpa using hmem)

theorem foldl_upserted_paths (rows tracks : List Track) :
    ∃ more, (tracks.foldl upserted rows).map Track.filePath = rows.map Track.filePath ++ more := by
  induction tracks generalizing rows with
  | nil => exact ⟨[], by simp⟩
  | cons t rest ih =>
    obtain ⟨more, hmore⟩ := ih (upserted rows t)
    by_cases hmem : t.filePath ∈ rows.map Track.filePath
    · refine ⟨more, ?_⟩
      rw [List.foldl_cons, hmore, Database.upserted_of_mem hmem, List.map_map]
      congr 1
      apply List.map_congr_left
      intro row _
      by_cases hsame : row.filePath = t.filePath
      · simp [hsame]
      · simp [hsame]
    · grind [Database.upserted_of_not_mem]

theorem foldl_upserted_eq_of_perm {rows tracks : List Track} (hpaths : (rows.map Track.filePath).Nodup)
    (h : (tracks.foldl upserted rows).Perm rows) : tracks.foldl upserted rows = rows := by
  obtain ⟨more, hmore⟩ := foldl_upserted_paths rows tracks
  have hlength := congrArg List.length hmore
  rw [List.length_map, h.length_eq, List.length_append, List.length_map] at hlength
  grind [Keyed.eq_of_perm_of_map_eq]

/-- Rows without a star get none from the backup's tracks. -/
theorem foldl_upserted_unstarred {rows tracks : List Track} (h : ∀ row ∈ rows, row.starred = false) :
    ∀ row ∈ tracks.foldl upserted rows, row.starred = false := by
  induction tracks generalizing rows with
  | nil => exact h
  | cons t rest ih =>
    apply ih
    intro row hrow
    by_cases hmem : t.filePath ∈ rows.map Track.filePath
    · rw [Database.upserted_of_mem hmem] at hrow
      obtain ⟨old, hold, rfl⟩ := List.mem_map.mp hrow
      by_cases hsame : old.filePath = t.filePath
      · rw [if_pos hsame]
        exact h old hold
      · rw [if_neg hsame]
        exact h old hold
    · rw [Database.upserted_of_not_mem hmem] at hrow
      rcases List.mem_append.mp hrow with hold | hnew
      · exact h row hold
      · rw [List.mem_singleton.mp hnew]
        rfl

def Bare (db : Database) : Prop := db.toTables = ⟨db.tracks, [], [], [], []⟩

/-- On bare tables a track is stored unless its path or its id stands in the way. -/
theorem upsertTrack_bare {t : Track} (h : Bare db) :
    (((upserted db.tracks t).map Track.id).Nodup →
      ∃ db', db.upsertTrack t = .ok db' ∧ Bare db' ∧ db'.tracks = upserted db.tracks t) ∧
    (¬ ((upserted db.tracks t).map Track.id).Nodup → ∃ e, db.upsertTrack t = .error e) := by
  constructor
  · intro hids
    have hsound : Tables.Sound ⟨upserted db.tracks t, [], [], [], []⟩ := {
      track_ids_nodup := hids
      paths_nodup := upserted_paths_nodup t db.sound.paths_nodup
      playlist_ids_nodup := List.nodup_nil
      places_nodup := List.nodup_nil
      entry_playlist := fun _ he => nomatch he
      entryTrack := fun _ he => nomatch he
      history_track := fun _ hh => nomatch hh
      reference_track := fun _ hr => nomatch hr }
    have htables : ({ db.toTables with tracks := upserted db.tracks t } : Tables) =
        ⟨upserted db.tracks t, [], [], [], []⟩ := by rw [h]
    refine ⟨⟨_, hsound⟩, ?_, rfl, rfl⟩
    rw [Database.upsertTrack, htables]
    exact write_ok hsound
  · intro htaken
    rw [Database.upsertTrack, write, dif_neg fun hsound => htaken hsound.track_ids_nodup]
    exact ⟨_, rfl⟩

/-- On bare tables the tracks are stored exactly where they are consistent. -/
theorem upsertAll_bare {error : Track → String → ApiError} {tracks : List Track} (h : Bare db) :
    (Consistent db.tracks tracks → ∃ db', upsertAll error db tracks = .ok db' ∧ Bare db' ∧
      db'.tracks = tracks.foldl upserted db.tracks) ∧
    (¬ Consistent db.tracks tracks → ∃ e, upsertAll error db tracks = .error e) := by
  induction tracks generalizing db with
  | nil => exact ⟨fun _ => ⟨db, rfl, h, rfl⟩, fun hnot => (hnot trivial).elim⟩
  | cons t rest ih =>
    rw [Consistent, upsertAll, List.foldlM_cons]
    by_cases hids : ((upserted db.tracks t).map Track.id).Nodup
    · obtain ⟨db1, hone, hbare, htracks⟩ := (upsertTrack_bare h).1 hids
      obtain ⟨hok, herror⟩ := ih hbare
      rw [htracks] at hok herror
      rw [hone]
      constructor
      · intro hconsistent
        exact hok hconsistent.2
      · intro hnot
        exact herror fun hrest => hnot ⟨hids, hrest⟩
    · obtain ⟨e, hone⟩ := (upsertTrack_bare h).2 hids
      rw [hone]
      exact ⟨fun hconsistent => (hids hconsistent.1).elim, fun _ => ⟨_, rfl⟩⟩

/-! ## Both routines -/

variable {newV4 newV4' : ℕ → Uuid} {now : ℕ → String} {s : Server} {payload : RestoreBody}
  {hashToken : String → String} {clock : DateTime}

/-- What a routine restores of a payload whose tracks stay as they were listed. -/
structure Library (newV4 : ℕ → Uuid) (payload : RestoreBody) (db : Database) : Prop where
  tracks : db.tracks = payload.rows
  playlists : db.playlists.map described = payload.playlists.zipIdx.map (drawn newV4)
  entries : ∀ pl ∈ payload.playlists.zipIdx,
    db.entries (newV4 pl.2) = placed (newV4 pl.2) (pl.1.tracks.map Track.id)
  playHistory : db.playHistory = []

def listedPlaylist (rows : List Track) (pl : BackupPlaylist × ℕ) : BackupPlaylist :=
  ⟨pl.1.name, pl.1.description,
    (pl.1.tracks.map Track.id).filterMap fun id => rows.find? fun row => row.id = id⟩

theorem Library.whole_playlists (h : Library newV4 payload db) :
    db.playlists.map (whole db) = payload.playlists.zipIdx.map (listedPlaylist payload.rows) := by
  let wholeOf (d : Uuid × String × Option String) : BackupPlaylist :=
    ⟨d.2.1, d.2.2, (db.getPlaylistTracks d.1).map Prod.snd⟩
  have hdescribed : db.playlists.map (whole db) = (db.playlists.map described).map wholeOf := by
    rw [List.map_map]
    rfl
  rw [hdescribed, h.playlists, List.map_map]
  apply List.map_congr_left
  intro pl hpl
  show (⟨pl.1.name, pl.1.description, (db.getPlaylistTracks (newV4 pl.2)).map Prod.snd⟩ :
    BackupPlaylist) = _
  rw [listing_placed (h.entries pl hpl), listedPlaylist, ← h.tracks]
  rfl

theorem Library.same {db' : Database} (h : Library newV4 payload db)
    (h' : Library newV4' payload db') {auth auth' : Sessions}
    (hsessions : ∀ token, auth.accepted hashToken token clock = auth'.accepted hashToken token clock) :
    SameLibrary hashToken clock ⟨db, auth⟩ ⟨db', auth'⟩ where
  tracks := by rw [h.tracks, h'.tracks]
  playlists := by rw [h.whole_playlists, h'.whole_playlists]
  starred := by rw [h.tracks, h'.tracks]
  playHistory := by rw [h.playHistory, h'.playHistory]
  sessions := hsessions

theorem bare_empty : Bare Database.empty := rfl

theorem mem_playlistTracks {t : Track} :
    t ∈ payload.playlistTracks ↔ ∃ pl ∈ payload.playlists.zipIdx, t ∈ pl.1.tracks := by
  rw [RestoreBody.playlistTracks, List.mem_flatMap]
  constructor
  · rintro ⟨pl, hpl, ht⟩
    obtain ⟨i, hi⟩ := List.mem_iff_getElem?.mp hpl
    exact ⟨(pl, i), List.mk_mem_zipIdx_iff_getElem?.mpr hi, ht⟩
  · grind

theorem flatMap_zipIdx (pls : List BackupPlaylist) (first : ℕ) :
    ((pls.zipIdx first).flatMap fun pl => pl.1.tracks) = pls.flatMap BackupPlaylist.tracks := by
  rw [← List.flatMap_map, List.zipIdx_map_fst]

/-- To fill a playlist leaves the tracks, the plays and the other playlists alone. -/
theorem addTracks_frame {playlistId : Uuid} (trackIds : List Uuid) :
    (db.addTracks playlistId trackIds).tracks = db.tracks ∧
      (db.addTracks playlistId trackIds).playHistory = db.playHistory ∧
      (db.addTracks playlistId trackIds).playlistIds = db.playlistIds := by
  induction trackIds generalizing db with
  | nil => exact ⟨rfl, rfl, rfl⟩
  | cons trackId rest ih =>
    rw [Database.addTracks]
    split
    next e db1 hadd =>
      obtain ⟨inserted, hinserted, hadded⟩ := map_eq_ok_iff.mp hadd
      cases hadded
      have htables := toTables_of_write hinserted
      have hids : (inserted.recount playlistId).playlistIds = db.playlistIds := by
        show (inserted.playlists.map _).map Playlist.id = _
        rw [List.map_map, htables]
        exact List.map_congr_left fun p _ => Database.withCount_id _ _ p
      obtain ⟨htracks, hplays, hplaylists⟩ := @ih (inserted.recount playlistId)
      rw [htracks, hplays, hplaylists, hids]
      refine ⟨?_, ?_, rfl⟩
      · show inserted.tracks = _
        rw [htables]
      · show inserted.playHistory = _
        rw [htables]
    · exact ih

/-- The playlists of a bundle are always restored. -/
theorem restore_bundle_playlists_total {pls : List (BackupPlaylist × ℕ)}
    (hnew : (db.playlistIds ++ pls.map fun pl => newV4 pl.2).Nodup) :
    ∃ db', pls.foldlM (restoreBundlePlaylist newV4) db = .ok db' ∧ db'.tracks = db.tracks ∧
      db'.playHistory = db.playHistory := by
  induction pls generalizing db with
  | nil => exact ⟨db, rfl, rfl, rfl⟩
  | cons pl rest ih =>
    rw [List.map_cons, ← List.singleton_append, ← List.append_assoc] at hnew
    have hfresh : newV4 pl.2 ∉ db.playlistIds := by
      grind
    obtain ⟨db1, hcreate, htables, -, -⟩ := playlist_created hfresh
    obtain ⟨htracks, hplays, hids⟩ :=
      @addTracks_frame db1 (newV4 pl.2) (pl.1.tracks.map Track.id)
    have hids1 : db1.playlistIds = db.playlistIds ++ [newV4 pl.2] := by
      rw [htables, Tables.playlistIds, List.map_append]
      rfl
    have hone : restoreBundlePlaylist newV4 db pl =
        .ok (db1.addTracks (newV4 pl.2) (pl.1.tracks.map Track.id)) := by
      rw [restoreBundlePlaylist, hcreate]
      rfl
    obtain ⟨db', hrest, htracks', hplays'⟩ :=
      @ih (db1.addTracks (newV4 pl.2) (pl.1.tracks.map Track.id)) (by rw [hids, hids1]; exact hnew)
    refine ⟨db', ?_, ?_, ?_⟩
    · rw [List.foldlM_cons, hone]
      exact hrest
    · rw [htracks', htracks, htables]
    · rw [hplays', hplays, htables]

theorem cleared_and_upserted (hfree : s.db.keptByReference (fun _ => true) = false)
    (hconsistent : Consistent [] payload.tracks) (error : String → ApiError)
    (error' : Track → String → ApiError) :
    ∃ db, (clearLibrary s.db error >>= fun db => upsertAll error' db payload.tracks) = .ok db ∧
      Bare db ∧ db.tracks = payload.rows := by
  rw [clearLibrary_ok hfree]
  exact (upsertAll_bare bare_empty).1 hconsistent

/-- A consistent bundle is restored. -/
theorem restore_bundle_ok (hnew : Function.Injective newV4)
    (hfree : s.db.keptByReference (fun _ => true) = false)
    (hconsistent : Consistent [] payload.tracks) :
    ∃ db, restoreBundleTransaction newV4 s.db payload = .ok db ∧ db.tracks = payload.rows ∧
      db.playHistory = [] ∧
      ((∀ t ∈ payload.playlistTracks, Keeps payload.rows t) → Library newV4 payload db) := by
  obtain ⟨db1, hupserted, hbare, htracks⟩ :=
    cleared_and_upserted hfree hconsistent databaseError fun _ => databaseError
  have hdrawn : (db1.playlistIds ++ payload.playlists.zipIdx.map fun pl => newV4 pl.2).Nodup := by
    rw [hbare]
    exact drawn_ids_nodup hnew payload.playlists
  obtain ⟨db', hrestored, htracks', hplays⟩ := restore_bundle_playlists_total hdrawn
  have hok : restoreBundleTransaction newV4 s.db payload = .ok db' := by
    rw [restoreBundleTransaction, ← bind_assoc, hupserted]
    exact hrestored
  refine ⟨db', hok, htracks'.trans htracks, ?_, ?_⟩
  · rw [hplays, hbare]
  · intro hkeeps
    have hthere : ∀ pl ∈ payload.playlists.zipIdx, ∀ t ∈ pl.1.tracks, t.id ∈ db1.trackIds := by
      intro pl hpl t ht
      have hkept := hkeeps t (mem_playlistTracks.mpr ⟨pl, hpl, ht⟩)
      rw [← htracks] at hkept
      exact hkept.id_mem
    obtain ⟨db'', hrestored', hpls⟩ := restore_bundle_playlists_ok hdrawn hthere
    have hsame : db'' = db' := Except.ok.inj (hrestored'.symm.trans hrestored)
    subst hsame
    exact {
      tracks := htracks'.trans htracks
      playlists := by
        rw [hpls.playlists, hbare]
        rfl
      entries := hpls.entries
      playHistory := by rw [hplays, hbare] }

theorem foldl_rowsAfter (rows : List Track) (pls : List (BackupPlaylist × ℕ)) :
    rowsAfterAll rows pls = (pls.flatMap fun pl => pl.1.tracks).foldl upserted rows := by
  induction pls generalizing rows with
  | nil => rfl
  | cons pl rest ih =>
    rw [rowsAfterAll, List.foldl_cons, ← rowsAfterAll, ih, List.flatMap_cons, List.foldl_append]
    rfl

/-- A consistent backup whose tracks are alike is restored by force, to the same library. -/
theorem restore_forced_ok (hnew : Function.Injective newV4)
    (hfree : s.db.keptByReference (fun _ => true) = false)
    (hconsistent : Consistent [] payload.tracks) (halike : Alike hashToken clock s payload) :
    ∃ db, restoreTransaction newV4 now s.db payload.forced = .ok db ∧
      Library newV4 payload db := by
  obtain ⟨db1, hupserted, hbare, htracks⟩ := cleared_and_upserted hfree hconsistent
    (fun e => databaseError s!"failed to clear tracks for force restore: {e}")
    fun t e => databaseError s!"failed to restore track {trackText t}: {e}"
  have hdrawn : (db1.playlistIds ++ payload.playlists.zipIdx.map fun pl => newV4 pl.2).Nodup := by
    rw [hbare]
    exact drawn_ids_nodup hnew payload.playlists
  have hkeeps : ∀ pl ∈ payload.playlists.zipIdx, ∀ t ∈ pl.1.tracks, Keeps db1.tracks t := by
    intro pl hpl t ht
    rw [htracks]
    exact halike.listed t (mem_playlistTracks.mpr ⟨pl, hpl, ht⟩)
  obtain ⟨db', hrestored, hpls⟩ := restore_playlists_ok hdrawn hkeeps
  refine ⟨db', ?_, ?_⟩
  · rw [restoreTransaction, if_pos (show payload.forced.force = true from rfl)]
    unfold restoreSections
    rw [← bind_assoc]
    show (do
      let db ← clearLibrary s.db _ >>= fun db => upsertAll _ db payload.tracks
      let db ← payload.playlists.zipIdx.foldlM (restorePlaylist newV4) db
      let db ← payload.starredTracks.zipIdx.foldlM (restoreStar now) db
      payload.playHistory.foldlM restorePlay db) = _
    rw [hupserted, halike.no_stars, halike.no_plays]
    show (do
      let db ← payload.playlists.zipIdx.foldlM (restorePlaylist newV4) db1
      let db ← ([] : List (Track × ℕ)).foldlM (restoreStar now) db
      ([] : List BackupHistoryEntry).foldlM restorePlay db) = _
    rw [hrestored]
    rfl
  · exact {
      tracks := by
        rw [hpls.tracks, foldl_rowsAfter, flatMap_zipIdx, htracks]
        exact halike.unchanged
      playlists := by
        rw [hpls.playlists, hbare]
        rfl
      entries := hpls.entries
      playHistory := by rw [hpls.playHistory, hbare] }

/-- The tables between the steps of a restore by force. -/
theorem restore_forced_steps (hfree : s.db.keptByReference (fun _ => true) = false)
    (hconsistent : Consistent [] payload.tracks)
    (h : restoreTransaction newV4 now s.db payload.forced = .ok db) :
    ∃ db2 db3, (∀ t ∈ payload.playlistTracks, Held db2 t) ∧
      db2.tracks = payload.playlistTracks.foldl upserted payload.rows ∧
      payload.starredTracks.zipIdx.foldlM (restoreStar now) db2 = .ok db3 ∧
      payload.playHistory.foldlM restorePlay db3 = .ok db := by
  obtain ⟨db1, hupserted, -, htracks⟩ := cleared_and_upserted hfree hconsistent
    (fun e => databaseError s!"failed to clear tracks for force restore: {e}")
    fun t e => databaseError s!"failed to restore track {trackText t}: {e}"
  rw [restoreTransaction, if_pos (show payload.forced.force = true from rfl)] at h
  unfold restoreSections at h
  rw [← bind_assoc] at h
  obtain ⟨db1', hupserted', h⟩ := bind_eq_ok_iff.mp h
  have hsame : db1' = db1 := Except.ok.inj (hupserted'.symm.trans hupserted)
  subst hsame
  obtain ⟨db2, hplaylists, h⟩ := bind_eq_ok_iff.mp h
  obtain ⟨db3, hstars, hplays⟩ := bind_eq_ok_iff.mp h
  have hentered := entered_of_restore_playlists hplaylists
  rw [flatMap_zipIdx] at hentered
  refine ⟨db2, db3, hentered.entered, ?_, hstars, hplays⟩
  rw [hentered.rows, htracks]
  rfl

/-- Two restores that leave one library had a backup that is alike on both paths. -/
theorem alike_of_same (hfree : s.db.keptByReference (fun _ => true) = false)
    (hconsistent : Consistent [] payload.tracks)
    (hforced : restoreTransaction newV4 now s.db payload.forced = .ok db)
    (hempty : isEmptyRestore s.db payload.forced = false) (htracks : db'.tracks = payload.rows)
    (hplays : db'.playHistory = [])
    (hsame : SameLibrary hashToken clock ⟨db, Backup.noSessions s.auth⟩ ⟨db', s.auth⟩) :
    Alike hashToken clock s payload := by
  obtain ⟨db2, db3, hheld, hrows, hstars, hplayed⟩ :=
    restore_forced_steps hfree hconsistent hforced
  obtain ⟨hdbPlays, hdbTracks⟩ := plays_of_restore_plays hplayed
  have hpaths : (payload.rows.map Track.filePath).Nodup := by
    rw [← htracks]
    exact db'.sound.paths_nodup
  have hnoPlays : payload.playHistory = [] := by
    have hperm := hsame.playHistory
    rw [hplays] at hperm
    have hnil := hdbPlays.symm.trans hperm.eq_nil
    exact List.map_eq_nil_iff.mp (List.append_eq_nil_iff.mp hnil).2
  have hunstarred : ∀ row ∈ db.tracks, row.starred = false := by
    intro row hrow
    have hrow' : row ∈ payload.rows := htracks ▸ hsame.tracks.mem_iff.mp hrow
    exact @foldl_upserted_unstarred [] payload.tracks (by simp) row hrow'
  have hnoStars : payload.starredTracks = [] := by
    by_contra hsome
    obtain ⟨row, hrow, hstarred⟩ := starred_of_restore_stars (by simpa using hsome) hstars
    grind
  have hdb3 : db3 = db2 := by
    rw [hnoStars] at hstars
    exact (Except.ok.inj hstars).symm
  have hunchanged : payload.playlistTracks.foldl upserted payload.rows = payload.rows := by
    apply foldl_upserted_eq_of_perm hpaths
    rw [← hrows, ← hdb3, ← hdbTracks, ← htracks]
    exact hsame.tracks
  exact {
    no_stars := hnoStars
    no_plays := hnoPlays
    noSessions := fun token => (hsame.sessions token).symm
    some_tracks := by grind [isEmptyRestore, RestoreBody.forced]
    listed := by
      intro t ht
      rw [← hunchanged, ← hrows]
      exact (hheld t ht).1
    unchanged := hunchanged }

/-- Where rows are kept or tracks are inconsistent, both paths refuse. -/
theorem both_refused
    (h : s.db.keptByReference (fun _ => true) = true ∨ ¬ Consistent [] payload.tracks) :
    (∃ e, restoreTransaction newV4 now s.db payload.forced = .error e) ∧
      ∃ e, restoreBundleTransaction newV4' s.db payload = .error e := by
  have herror : ∀ (error : String → ApiError) (error' : Track → String → ApiError),
      ∃ e, (clearLibrary s.db error >>= fun db => upsertAll error' db payload.tracks) = .error e := by
    intro error error'
    cases hkept : s.db.keptByReference fun _ => true with
    | true =>
      obtain ⟨e, he⟩ := @clearLibrary_error s.db error hkept
      exact ⟨e, by rw [he]; rfl⟩
    | false =>
      rw [hkept] at h
      rw [clearLibrary_ok hkept]
      exact (upsertAll_bare bare_empty).2 (h.resolve_left Bool.noConfusion)
  constructor
  · obtain ⟨e, he⟩ := herror
      (fun e => databaseError s!"failed to clear tracks for force restore: {e}")
      fun t e => databaseError s!"failed to restore track {trackText t}: {e}"
    refine ⟨e, ?_⟩
    rw [restoreTransaction, if_pos (show payload.forced.force = true from rfl)]
    unfold restoreSections
    rw [← bind_assoc]
    show ((clearLibrary s.db _ >>= fun db => upsertAll _ db payload.tracks) >>= _) = _
    rw [he]
    rfl
  · obtain ⟨e, he⟩ := herror databaseError fun _ => databaseError
    refine ⟨e, ?_⟩
    rw [restoreBundleTransaction, ← bind_assoc, he]
    rfl

theorem alike_of_agree (hnew : Function.Injective newV4')
    (hfree : s.db.keptByReference (fun _ => true) = false)
    (hconsistent : Consistent [] payload.tracks)
    (hagree : RestoresAgree hashToken clock newV4 newV4' now s payload) :
    Alike hashToken clock s payload := by
  obtain ⟨db', hbundle, htracks, hplays, -⟩ := restore_bundle_ok hnew hfree hconsistent
  unfold RestoresAgree restoreHandler restoreBackupBundleHandler at hagree
  rw [if_neg (by simp [RestoreBody.forced]), hbundle] at hagree
  split at hagree
  · exact hagree.elim
  next hempty =>
    cases hforced : restoreTransaction newV4 now s.db payload.forced with
    | error e =>
      rw [hforced] at hagree
      exact hagree.elim
    | ok db =>
      rw [hforced] at hagree
      exact alike_of_same hfree hconsistent hforced (Bool.eq_false_iff.mpr hempty) htracks hplays
        hagree

theorem agree_of_alike (hnew : Function.Injective newV4) (hnew' : Function.Injective newV4')
    (hfree : s.db.keptByReference (fun _ => true) = false)
    (hconsistent : Consistent [] payload.tracks) (halike : Alike hashToken clock s payload) :
    RestoresAgree hashToken clock newV4 newV4' now s payload := by
  obtain ⟨db', hbundle, -, -, hlibrary⟩ := restore_bundle_ok hnew' hfree hconsistent
  obtain ⟨db, hforced, hforcedLibrary⟩ :=
    @restore_forced_ok newV4 now s payload hashToken clock hnew hfree hconsistent halike
  have hempty : ¬ isEmptyRestore s.db payload.forced = true := by
    intro hlost
    simp only [isEmptyRestore, RestoreBody.forced, Bool.true_and, Bool.and_eq_true,
      Bool.not_eq_true', List.isEmpty_eq_false_iff, List.isEmpty_iff] at hlost
    exact halike.some_tracks.elim hlost.1.1 fun hsome => hsome hlost.1.2
  unfold RestoresAgree restoreHandler restoreBackupBundleHandler
  rw [if_neg (by simp [RestoreBody.forced]), if_neg hempty, hforced, hbundle]
  exact hforcedLibrary.same (hlibrary halike.listed) fun token => (halike.noSessions token).symm

theorem agree_of_refused
    (h : s.db.keptByReference (fun _ => true) = true ∨ ¬ Consistent [] payload.tracks) :
    RestoresAgree hashToken clock newV4 newV4' now s payload := by
  obtain ⟨⟨e, hforced⟩, ⟨e', hbundle⟩⟩ := @both_refused newV4 newV4' now s payload h
  unfold RestoresAgree restoreHandler restoreBackupBundleHandler
  rw [if_neg (by simp [RestoreBody.forced]), hforced, hbundle]
  split
  · exact ⟨rfl, rfl⟩
  · exact ⟨rfl, rfl⟩

end

/-- The two restores of a payload agree exactly when it is interchangeable. -/
theorem restores_agree_iff (hashToken : String → String) (clock : DateTime)
    (newV4 newV4' : ℕ ↪ Uuid) (now : ℕ → String) (s : Server) (payload : RestoreBody) :
    RestoresAgree hashToken clock newV4 newV4' now s payload ↔
      Interchangeable hashToken clock s payload := by
  by_cases hrefused : s.db.keptByReference (fun _ => true) = true ∨ ¬ Consistent [] payload.tracks
  · refine iff_of_true (agree_of_refused hrefused) ?_
    rcases hrefused with hkept | hinconsistent
    · exact .inl hkept
    · exact .inr (.inl hinconsistent)
  · obtain ⟨hfree, hconsistent⟩ := not_or.mp hrefused
    rw [not_not] at hconsistent
    constructor
    · intro hagree
      exact .inr (.inr (alike_of_agree newV4'.injective (Bool.eq_false_iff.mpr hfree) hconsistent
        hagree))
    · rintro (hkept | hinconsistent | halike)
      · exact absurd hkept hfree
      · exact absurd hconsistent hinconsistent
      · exact agree_of_alike newV4.injective newV4'.injective (Bool.eq_false_iff.mpr hfree)
          hconsistent halike

def starredPayload : RestoreBody where
  tracks := [{ id := 1, filePath := "/music/a.flac", format := .flac, starred := true,
               createdAt := 0, updatedAt := 0 }]
  playlists := []
  starredTracks := [{ id := 1, filePath := "/music/a.flac", format := .flac, starred := true,
                       createdAt := 0, updatedAt := 0 }]
  playHistory := []
  force := true

def emptyPayload : RestoreBody := ⟨[], [], [], [], true⟩

def loggedInServer : Server where
  db := Database.empty
  auth := ⟨fun _ => none, fun token => if token = "t" then some ⟨100, 1⟩ else none, [1]⟩

/-- The bundle loses the star, and keeps the session. -/
theorem bundle_differs :
    ¬ RestoresAgree id 0 id id noon freshServer starredPayload ∧
      ¬ RestoresAgree id 0 id id noon loggedInServer emptyPayload := by
  constructor
  · intro hagree
    have halike := alike_of_agree Function.injective_id rfl (by decide) hagree
    cases halike.no_stars
  · intro hagree
    have halike := alike_of_agree Function.injective_id rfl (by decide) hagree
    have hsession := halike.noSessions "t"
    revert hsession
    decide +kernel

end MichiServer.Backup
