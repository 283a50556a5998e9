import MichiServer.Backup.Restore

/-!
# The library and its journal of changes

What the writes to the library leave in the tables and in `change_journal`. A write comes first and its
rows of the journal after it, each by a statement of its own.

Ratings, stars, bookmarks, playlists and the rest touch no column that the manifest reads; of them only
the rows they leave in the journal are here. Of a journal row the id and the diff are left out.
-/

namespace MichiServer.Manifest

open MichiServer.Logic MichiServer.Catalog MichiServer.Backup MichiServer.Queue

structure DeltaEntry where
  trackId : Uuid
  title : Option String
  artist : Option String
  album : Option String
  durationMs : Option ℕ
  artworkId : Option Uuid
deriving DecidableEq

def deltaEntry (row : Track) : DeltaEntry where
  trackId := row.id
  title := row.title
  artist := row.artist
  album := row.album
  durationMs := row.durationMs
  artworkId := row.artworkId

def entry (db : Database) (id : Uuid) : Option DeltaEntry := (db.getTrack id).map deltaEntry

inductive EntityId where
  | id (id : Uuid)
  | all
deriving DecidableEq

structure ChangeRecord where
  entityType : String
  entityId : EntityId
  action : String

structure JournalRow extends ChangeRecord where
  createdAt : String

def recordChange (change : ChangeRecord) (now : String) : JournalRow := { change with createdAt := now }

def ChangeRecord.Carried (change : ChangeRecord) : Prop :=
  change.action = "upsert" ∨ change.action = "delete"

instance (change : ChangeRecord) : Decidable change.Carried :=
  inferInstanceAs (Decidable (_ ∨ _))

structure TrackUpdate where
  title : Option String := none
  artist : Option String := none
  album : Option String := none
  albumArtist : Option String := none
  durationMs : Option ℕ := none
  sampleRate : Option ℕ := none
  bitDepth : Option ℕ := none
  channels : Option ℕ := none

def TrackUpdate.on (update : TrackUpdate) (now : DateTime) (row : Track) : Track :=
  { row with
    title := update.title <|> row.title
    artist := update.artist <|> row.artist
    album := update.album <|> row.album
    albumArtist := update.albumArtist <|> row.albumArtist
    durationMs := update.durationMs <|> row.durationMs
    sampleRate := update.sampleRate <|> row.sampleRate
    bitDepth := update.bitDepth <|> row.bitDepth
    channels := update.channels <|> row.channels
    updatedAt := now }

/-- A write: to the tracks, by the two statements of a restore in their transaction, or to something
else that leaves a row in the journal. -/
inductive LibraryChange where
  | upsertTrack (t : Track)
  | upsertTracks (tracks : List Track)
  | updateTrack (id : Uuid) (update : TrackUpdate) (now : DateTime)
  | deleteTrack (id : Uuid)
  | deleteAllTracks
  | restore (force : Bool) (tracks : List Track)
  | other (change : ChangeRecord)

namespace LibraryChange

def upsertRecord (t : Track) : ChangeRecord := ⟨"track", .id t.id, "upsert"⟩

/-- What a write does to the library, and the rows of the journal that are to follow. -/
def perform (db : Database) : LibraryChange → Except String (Database × List ChangeRecord)
  | upsertTrack t => (db.upsertTrack t).map fun db' => (db', [upsertRecord t])
  | upsertTracks tracks =>
    (tracks.foldlM Database.upsertTrack db).map fun db' => (db', tracks.map upsertRecord)
  | updateTrack id update now =>
    .ok (db.updateTrack id (update.on now) (fun _ => rfl) fun _ => rfl,
      if db.tracks.any fun row => row.id = id then [⟨"track", .id id, "update"⟩] else [])
  | deleteTrack id =>
    (db.deleteTrack id).map fun answer =>
      (answer.2, if answer.1 then [⟨"track", .id id, "delete"⟩] else [])
  | deleteAllTracks =>
    db.deleteAllTracks.map fun answer =>
      (answer.2, if 0 < answer.1 then [⟨"track", .all, "delete_all"⟩] else [])
  | restore force tracks =>
    let cleared := if force then clearLibrary db databaseError else .ok db
    let restored := cleared >>= fun db => upsertAll (fun _ => databaseError) db tracks
    (restored.mapError ApiError.message).map fun db' => (db', [])
  | other change => .ok (db, [change])

/-- The write leaves behind what the deltas need: no upsert gives a path another id, nothing the
manifest lists is changed in place, and nothing is written that no row of the journal follows. -/
def Careful (db : Database) : LibraryChange → Prop
  | upsertTrack t => ∀ row ∈ db.tracks, row.filePath = t.filePath → row.id = t.id
  | upsertTracks tracks =>
    ∀ t ∈ tracks, (∀ row ∈ db.tracks, row.filePath = t.filePath → row.id = t.id) ∧
      ∀ other ∈ tracks, other.filePath = t.filePath → other.id = t.id
  | updateTrack id update now =>
    ∀ row ∈ db.tracks, row.id = id → deltaEntry (update.on now row) = deltaEntry row
  | deleteTrack _ => True
  | deleteAllTracks => db.tracks = []
  | restore force tracks =>
    (force = true → db.tracks = []) ∧
      ∀ t ∈ tracks, ∃ row ∈ db.tracks, row.filePath = t.filePath ∧ deltaEntry row = deltaEntry t
  | other _ => True

instance (db : Database) : (change : LibraryChange) → Decidable (change.Careful db)
  | upsertTrack _ => inferInstanceAs (Decidable (∀ _ ∈ _, _))
  | upsertTracks _ => inferInstanceAs (Decidable (∀ _ ∈ _, _))
  | updateTrack .. => inferInstanceAs (Decidable (∀ _ ∈ _, _))
  | deleteTrack _ => inferInstanceAs (Decidable True)
  | deleteAllTracks => inferInstanceAs (Decidable (_ = _))
  | restore .. => inferInstanceAs (Decidable (_ ∧ _))
  | other _ => inferInstanceAs (Decidable True)

end LibraryChange

/-- The record tells what the library holds under the id: a track to fetch, or that there is none. -/
def Mends (db : Database) (change : ChangeRecord) (id : Uuid) : Prop :=
  change.entityId = .id id ∧
    (change.action = "upsert" ∨ change.action = "delete" ∧ entry db id = none)

section

variable {db db' : Database}

variable {id : Uuid}

theorem Mends.carried {change : ChangeRecord} (h : Mends db change id) : change.Carried :=
  h.2.imp_right And.left

theorem mends_upsertRecord (t : Track) : Mends db (LibraryChange.upsertRecord t) t.id :=
  ⟨rfl, .inl rfl⟩

theorem entry_eq_some_iff {e : DeltaEntry} :
    entry db id = some e ↔ ∃ row ∈ db.tracks, row.id = id ∧ deltaEntry row = e := by
  simp only [entry, Option.map_eq_some_iff, Database.getTrack_eq_some, and_assoc]

theorem entry_of_mem {row : Track} (h : row ∈ db.tracks) : entry db row.id = some (deltaEntry row) :=
  entry_eq_some_iff.mpr ⟨row, h, rfl, rfl⟩

theorem entry_eq_none_iff : entry db id = none ↔ ∀ row ∈ db.tracks, row.id ≠ id := by
  rw [Option.eq_none_iff_forall_ne_some]
  constructor
  · intro h row hrow hid
    exact h _ (entry_eq_some_iff.mpr ⟨row, hrow, hid, rfl⟩)
  · intro h e he
    obtain ⟨row, hrow, hid, _⟩ := entry_eq_some_iff.mp he
    exact h row hrow hid

theorem entry_congr (h : ∀ e : DeltaEntry, (∃ row ∈ db'.tracks, row.id = id ∧ deltaEntry row = e) ↔
      ∃ row ∈ db.tracks, row.id = id ∧ deltaEntry row = e) : entry db' id = entry db id := by
  ext e
  rw [entry_eq_some_iff, entry_eq_some_iff]
  exact h e

theorem mem_upserted {rows : List Track} {t row : Track} (h : row ∈ upserted rows t) :
    (row ∈ rows ∧ row.filePath ≠ t.filePath) ∨
      (row.filePath = t.filePath ∧ deltaEntry row = deltaEntry t) := by
  unfold upserted at h
  split at h
  next _ =>
    obtain ⟨old, hold, rfl⟩ := List.mem_map.mp h
    split
    next _ => exact .inr ⟨rfl, rfl⟩
    next hpath => exact .inl ⟨hold, hpath⟩
  next hpath =>
    rcases List.mem_append.mp h with h | h
    · exact .inl ⟨h, fun heq => hpath (List.mem_map.mpr ⟨row, h, heq⟩)⟩
    · rw [List.mem_singleton.mp h]
      exact .inr ⟨rfl, rfl⟩

theorem mem_upserted_of_path {rows : List Track} {t row : Track} (h : row ∈ rows)
    (hpath : row.filePath ≠ t.filePath) : row ∈ upserted rows t := by
  grind [upserted]

theorem exists_mem_upserted (rows : List Track) (t : Track) :
    ∃ row ∈ upserted rows t, row.filePath = t.filePath ∧ deltaEntry row = deltaEntry t := by
  unfold upserted
  split
  next hpath =>
    obtain ⟨old, hold, holdPath⟩ := List.mem_map.mp hpath
    exact ⟨old.merged t, List.mem_map.mpr ⟨old, hold, if_pos holdPath⟩, rfl, rfl⟩
  next _ => exact ⟨t.inserted, by simp, rfl, rfl⟩

theorem tracksOf_upsertTrack {t : Track} (h : db.upsertTrack t = .ok db') :
    db'.tracks = upserted db.tracks t :=
  congrArg Tables.tracks (Database.toTables_upsertTrack h)

theorem entry_upsertTrack {t : Track} (h : db.upsertTrack t = .ok db')
    (hid : ∀ row ∈ db.tracks, row.filePath = t.filePath → row.id = t.id) (id : Uuid) :
    entry db' id = if id = t.id then some (deltaEntry t) else entry db id := by
  have hrows := tracksOf_upsertTrack h
  split
  next heq =>
    obtain ⟨row, hrow, _, hentry⟩ := exists_mem_upserted db.tracks t
    have hrowId : row.id = t.id := congrArg DeltaEntry.trackId hentry
    exact entry_eq_some_iff.mpr ⟨row, hrows ▸ hrow, hrowId.trans heq.symm, hentry⟩
  next hne =>
    apply entry_congr
    intro e
    constructor
    · intro ⟨row, hrow, hrowId, hentry⟩
      rcases mem_upserted (hrows ▸ hrow) with ⟨hmem, _⟩ | ⟨_, heq⟩
      · exact ⟨row, hmem, hrowId, hentry⟩
      · exact absurd (hrowId.symm.trans (congrArg DeltaEntry.trackId heq)) hne
    · grind [mem_upserted_of_path]

theorem entry_upsertTracks {tracks : List Track}
    (h : tracks.foldlM Database.upsertTrack db = .ok db')
    (hids : ∀ t ∈ tracks, (∀ row ∈ db.tracks, row.filePath = t.filePath → row.id = t.id) ∧
      ∀ other ∈ tracks, other.filePath = t.filePath → other.id = t.id) (id : Uuid) :
    entry db' id = entry db id ∨ ∃ t ∈ tracks, t.id = id := by
  induction tracks generalizing db with
  | nil =>
    cases h
    exact .inl rfl
  | cons t tracks ih =>
    obtain ⟨db1, hstep, h⟩ := bind_eq_ok_iff.mp h
    have hhead := hids t List.mem_cons_self
    have hrest : ∀ t' ∈ tracks,
        (∀ row ∈ db1.tracks, row.filePath = t'.filePath → row.id = t'.id) ∧
          ∀ other ∈ tracks, other.filePath = t'.filePath → other.id = t'.id := by
      intro t' ht'
      have hold := hids t' (List.mem_cons_of_mem _ ht')
      refine ⟨fun row hrow hpath => ?_, fun other hother => hold.2 other (List.mem_cons_of_mem _ hother)⟩
      rcases mem_upserted (tracksOf_upsertTrack hstep ▸ hrow) with ⟨hmem, _⟩ | ⟨hnew, heq⟩
      · exact hold.1 row hmem hpath
      · have hrowId : row.id = t.id := congrArg DeltaEntry.trackId heq
        grind
    rcases ih h hrest with hsame | ⟨t', ht', hid⟩
    · by_cases heq : id = t.id
      · exact .inr ⟨t, List.mem_cons_self, heq.symm⟩
      · grind [entry_upsertTrack]
    · exact .inr ⟨t', List.mem_cons_of_mem _ ht', hid⟩

theorem entry_upsertAll {error : Track → String → ApiError} {tracks : List Track}
    (h : upsertAll error db tracks = .ok db')
    (hheld : ∀ t ∈ tracks, ∃ row ∈ db.tracks, row.filePath = t.filePath ∧
      deltaEntry row = deltaEntry t) (id : Uuid) : entry db' id = entry db id := by
  induction tracks generalizing db with
  | nil =>
    cases h
    rfl
  | cons t tracks ih =>
    obtain ⟨db1, hupsert, h⟩ := bind_eq_ok_iff.mp h
    have hstep := mapError_eq_ok_iff.mp hupsert
    obtain ⟨row, hrow, hpath, hentry⟩ := hheld t List.mem_cons_self
    have hrowId : row.id = t.id := congrArg DeltaEntry.trackId hentry
    have hsame : entry db1 id = entry db id := by
      grind [Database.eq_of_path, entry_upsertTrack, entry_of_mem]
    have hrest : ∀ t' ∈ tracks, ∃ row' ∈ db1.tracks, row'.filePath = t'.filePath ∧
        deltaEntry row' = deltaEntry t' := by
      intro t' ht'
      obtain ⟨row', hrow', hpath', hentry'⟩ := hheld t' (List.mem_cons_of_mem _ ht')
      rw [tracksOf_upsertTrack hstep]
      by_cases heq : row'.filePath = t.filePath
      · have hone : row' = row := Database.eq_of_path hrow' hrow (heq.trans hpath.symm)
        obtain ⟨new, hnew, hnewPath, hnewEntry⟩ := exists_mem_upserted db.tracks t
        grind
      · exact ⟨row', mem_upserted_of_path hrow' heq, hpath', hentry'⟩
    exact (ih h hrest).trans hsame

theorem tracksOf_deleteAllTracks {n : ℕ} (h : db.deleteAllTracks = .ok (n, db')) :
    db'.tracks = [] := by
  obtain ⟨cleared, hwrite, hanswer⟩ := map_eq_ok_iff.mp h
  cases hanswer
  rw [toTables_of_write hwrite, Tables.withoutTracks]
  simp

theorem tracksOf_clearLibrary {error : String → ApiError} (h : clearLibrary db error = .ok db') :
    db'.tracks = [] := by
  obtain ⟨answer, hall, hanswer⟩ := map_eq_ok_iff.mp (mapError_eq_ok_iff.mp h)
  cases hanswer
  exact tracksOf_deleteAllTracks hall

theorem entry_of_no_tracks (h : db.tracks = []) (id : Uuid) : entry db id = none := by
  rw [entry_eq_none_iff, h]
  intro row hrow
  cases hrow

theorem deleteTrack_spec {deleted : Bool} (h : db.deleteTrack id = .ok (deleted, db')) :
    (∀ row, row ∈ db'.tracks ↔ row ∈ db.tracks ∧ row.id ≠ id) ∧
      (deleted = true ↔ ∃ row ∈ db.tracks, row.id = id) := by
  obtain ⟨left, hwrite, hanswer⟩ := map_eq_ok_iff.mp h
  grind [toTables_of_write, Tables.withoutTracks]

theorem entry_deleteTrack {deleted : Bool} (h : db.deleteTrack id = .ok (deleted, db'))
    (other : Uuid) : entry db' other = if other = id then none else entry db other := by
  grind [deleteTrack_spec, entry_eq_none_iff, entry_congr]

theorem entry_updateTrack {f : Track → Track} {hid : ∀ row, (f row).id = row.id}
    {hpath : ∀ row, (f row).filePath = row.filePath}
    (hkept : ∀ row ∈ db.tracks, row.id = id → deltaEntry (f row) = deltaEntry row) (other : Uuid) :
    entry (db.updateTrack id f hid hpath) other = entry db other := by
  have hrow : ∀ row ∈ db.tracks, deltaEntry (if row.id = id then f row else row) = deltaEntry row := by
    grind
  apply entry_congr
  intro e
  constructor
  · intro ⟨row', hrow', hid', hentry'⟩
    obtain ⟨row, hmem, rfl⟩ := List.mem_map.mp hrow'
    refine ⟨row, hmem, ?_, (hrow row hmem).symm.trans hentry'⟩
    exact (congrArg DeltaEntry.trackId (hrow row hmem)).symm.trans hid'
  · intro ⟨row, hmem, hrowId, hentry⟩
    refine ⟨_, List.mem_map_of_mem hmem, ?_, (hrow row hmem).trans hentry⟩
    exact (congrArg DeltaEntry.trackId (hrow row hmem)).trans hrowId

theorem perform_noted {change : LibraryChange} {records : List ChangeRecord}
    (h : change.perform db = .ok (db', records)) (hcareful : change.Careful db) (id : Uuid) :
    entry db' id = entry db id ∨ ∃ record ∈ records, Mends db' record id := by
  cases change with
  | upsertTrack t =>
    obtain ⟨db1, hstep, hanswer⟩ := map_eq_ok_iff.mp h
    cases hanswer
    rw [entry_upsertTrack hstep hcareful]
    split
    next heq => exact .inr ⟨_, List.mem_singleton_self _, heq ▸ mends_upsertRecord t⟩
    next _ => exact .inl rfl
  | upsertTracks tracks =>
    obtain ⟨db1, hstep, hanswer⟩ := map_eq_ok_iff.mp h
    cases hanswer
    rcases entry_upsertTracks hstep hcareful id with hsame | ⟨t, ht, rfl⟩
    · exact .inl hsame
    · exact .inr ⟨_, List.mem_map_of_mem ht, mends_upsertRecord t⟩
  | updateTrack id' update now =>
    cases h
    exact .inl (entry_updateTrack hcareful id)
  | deleteTrack id' =>
    obtain ⟨⟨deleted, db1⟩, hstep, hanswer⟩ := map_eq_ok_iff.mp h
    cases hanswer
    have hentry := entry_deleteTrack hstep id
    rw [hentry]
    split
    next heq =>
      subst heq
      cases hold : entry db id with
      | none => exact .inl rfl
      | some e =>
        obtain ⟨row, hrow, hid, _⟩ := entry_eq_some_iff.mp hold
        have hdeleted : deleted = true := (deleteTrack_spec hstep).2.mpr ⟨row, hrow, hid⟩
        refine .inr ⟨⟨"track", .id id, "delete"⟩, ?_, rfl, .inr ⟨rfl, ?_⟩⟩
        · simp [hdeleted]
        · rw [hentry, if_pos rfl]
    next _ => exact .inl rfl
  | deleteAllTracks =>
    obtain ⟨⟨n, db1⟩, hstep, hanswer⟩ := map_eq_ok_iff.mp h
    cases hanswer
    rw [entry_of_no_tracks (tracksOf_deleteAllTracks hstep), entry_of_no_tracks hcareful]
    exact .inl rfl
  | restore force tracks =>
    left
    obtain ⟨hempty, hheld⟩ := hcareful
    obtain ⟨db1, hstep, hanswer⟩ := map_eq_ok_iff.mp h
    cases hanswer
    obtain ⟨db2, hclear, hall⟩ := bind_eq_ok_iff.mp (mapError_eq_ok_iff.mp hstep)
    cases force with
    | false =>
      cases hclear
      exact entry_upsertAll hall hheld id
    | true =>
      have htracks : tracks = [] := by
        rw [List.eq_nil_iff_forall_not_mem]
        grind
      subst htracks
      cases hall
      rw [entry_of_no_tracks (tracksOf_clearLibrary hclear), entry_of_no_tracks (hempty rfl)]
  | other change =>
    cases h
    exact .inl rfl

end

end MichiServer.Manifest
