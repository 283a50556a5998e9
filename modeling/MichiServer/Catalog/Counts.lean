import MichiServer.Catalog.Playlists
import MichiServer.Logic.Handler
import MichiServer.Logic.Trace

/-!
# What a playlist says of its entries

The count in the row of a playlist against its entries. Every operation on playlists writes the count
again from the entries it leaves. The deletion of tracks does not: the entries go by the cascade, and
the count stays.
-/

namespace MichiServer.Catalog

open MichiServer.Logic.Keyed MichiServer.Logic

/-- The count of a playlist is right, its positions are distinct, and its listing has that many entries
in the order of the positions. -/
structure Represented (db : Database) (p : Playlist) : Prop where
  count : p.trackCount = (db.entries p.id).length
  distinct : ((db.entries p.id).map PlaylistTrack.position).Nodup
  listed : ((db.getPlaylistTracks p.id).length : ℤ) = p.trackCount
  in_order : ((db.getPlaylistTracks p.id).map fun e => e.1.position).Pairwise (· < ·)
  every : ∀ e ∈ db.entries p.id, e ∈ (db.getPlaylistTracks p.id).map Prod.fst

def PlaylistsRepresented (db : Database) : Prop := ∀ p ∈ db.playlists, Represented db p

def Counted (db : Database) (p : Playlist) : Prop := p.trackCount = (db.entries p.id).length

def AllCounted (db : Database) : Prop := ∀ p ∈ db.playlists, Counted db p

/-- Nothing but the entries of one playlist differs of what is counted. -/
structure Elsewhere (playlistId : Uuid) (db db' : Database) : Prop where
  playlists : db'.playlists = db.playlists
  entries : ∀ q, q ≠ playlistId → db'.entries q = db.entries q

inductive Operation where
  | create (id : Uuid) (input : PlaylistCreate) (userId : Option Uuid)
  | addTrack (playlistId trackId : Uuid)
  | removeTrack (playlistId trackId : Uuid)
  | reorder (playlistId : Uuid) (trackIds : List Uuid)
  | importPlaylist (id : Uuid) (name : String) (paths : List String) (userId : Option Uuid)
  | delete (id : Uuid)
  | deleteTrack (id : Uuid)
  | deleteAllTracks
  | rescan (track : Track)
  | refer (r : Reference)

def step (db : Database) : Operation → Database
  | .create id input userId => ((db.createPlaylist id input userId).toOption.map Prod.snd).getD db
  | .addTrack playlistId trackId =>
    ((db.addTrackToPlaylist playlistId trackId).toOption.map Prod.snd).getD db
  | .removeTrack playlistId trackId => (db.removeTrackFromPlaylist playlistId trackId).2
  | .reorder playlistId trackIds => (db.reorderPlaylistTracks playlistId trackIds).toOption.getD db
  | .importPlaylist id name paths userId => (db.importPlaylistHandler id name paths userId).toOption.getD db
  | .delete id => (db.deletePlaylist id).2
  | .deleteTrack id => ((db.deleteTrack id).toOption.map Prod.snd).getD db
  | .deleteAllTracks => (db.deleteAllTracks.toOption.map Prod.snd).getD db
  | .rescan track => (db.upsertTrack track).toOption.getD db
  | .refer r => (db.refer r).toOption.getD db

/-- The deletion of the tracks takes no entry of a playlist with it, or is refused. -/
def TakesNoEntry (db : Database) (gone : Uuid → Bool) : Prop :=
  db.keptByReference gone = true ∨ ∀ e ∈ db.playlistTracks, gone e.trackId = false

def Uncascaded (db : Database) : Operation → Prop
  | .deleteTrack id => TakesNoEntry db fun i => i = id
  | .deleteAllTracks => TakesNoEntry db fun _ => true
  | _ => True

section

variable {db db' : Database} {p : Playlist}

theorem entry_of_mem {playlistId : Uuid} {e : PlaylistTrack} (h : e ∈ db.entries playlistId) :
    e ∈ db.playlistTracks ∧ e.playlistId = playlistId := by
  obtain ⟨hmem, hid⟩ := List.mem_filter.mp h
  exact ⟨hmem, by simpa using hid⟩

theorem positions_nodup (playlistId : Uuid) :
    ((db.entries playlistId).map PlaylistTrack.position).Nodup := by
  have hplaces : ((db.entries playlistId).map PlaylistTrack.place).Nodup :=
    db.sound.places_nodup.sublist (List.filter_sublist.map _)
  apply List.Nodup.map_on _ (List.Nodup.of_map _ hplaces)
  intro a ha b hb hpositions
  apply eq_of_key hplaces ha hb
  rw [PlaylistTrack.place, PlaylistTrack.place, (entry_of_mem ha).2, (entry_of_mem hb).2, hpositions]

def sortedEntries (db : Database) (playlistId : Uuid) : List PlaylistTrack :=
  (db.entries playlistId).insertionSort fun a b => a.position ≤ b.position

theorem listing_entries (playlistId : Uuid) :
    (db.getPlaylistTracks playlistId).map Prod.fst = sortedEntries db playlistId := by
  unfold Database.getPlaylistTracks
  have hthere : ∀ e ∈ sortedEntries db playlistId, (db.getTrack e.trackId).isSome := by
    intro e he
    have hmem := (List.mem_insertionSort _).mp he
    exact Database.getTrack_isSome (db.sound.entryTrack e (entry_of_mem hmem).1)
  change ((sortedEntries db playlistId).filterMap _).map Prod.fst = _
  generalize sortedEntries db playlistId = rows at hthere
  induction rows with
  | nil => rfl
  | cons e rest ih =>
    rw [List.forall_mem_cons] at hthere
    obtain ⟨row, hrow⟩ := Option.isSome_iff_exists.mp hthere.1
    simp [hrow, ih hthere.2]

theorem sorted_positions (playlistId : Uuid) :
    ((sortedEntries db playlistId).map PlaylistTrack.position).Pairwise (· < ·) := by
  have hperm : (sortedEntries db playlistId).Perm (db.entries playlistId) :=
    List.perm_insertionSort _ _
  have hnodup : ((sortedEntries db playlistId).map PlaylistTrack.position).Nodup :=
    (hperm.map _).nodup_iff.mpr (positions_nodup playlistId)
  have hsorted : (sortedEntries db playlistId).Pairwise fun a b => a.position ≤ b.position :=
    List.pairwise_insertionSort _ _
  rw [List.Nodup, List.pairwise_map] at hnodup
  rw [List.pairwise_map]
  exact (hsorted.and hnodup).imp fun ⟨hle, hne⟩ => lt_of_le_of_ne hle hne

theorem represented_iff_counted : Represented db p ↔ Counted db p := by
  constructor
  · intro h
    exact h.count
  · intro h
    have hperm : (sortedEntries db p.id).Perm (db.entries p.id) := List.perm_insertionSort _ _
    exact {
      count := h
      distinct := positions_nodup p.id
      listed := by
        rw [h, ← hperm.length_eq, ← listing_entries, List.length_map]
      in_order := by
        have hpositions : (db.getPlaylistTracks p.id).map (fun e => e.1.position) =
            ((db.getPlaylistTracks p.id).map Prod.fst).map PlaylistTrack.position := by
          rw [List.map_map]
          rfl
        rw [hpositions, listing_entries]
        exact sorted_positions p.id
      every := by grind [listing_entries] }

theorem playlists_represented_iff : PlaylistsRepresented db ↔ AllCounted db :=
  forall₂_congr fun _ _ => represented_iff_counted

end

section

variable {db db' db'' : Database} {playlistId : Uuid}

theorem Elsewhere.trans (h : Elsewhere playlistId db db') (h' : Elsewhere playlistId db' db'') :
    Elsewhere playlistId db db'' where
  playlists := h'.playlists.trans h.playlists
  entries q hq := (h'.entries q hq).trans (h.entries q hq)

theorem Elsewhere.all_counted_setCount (h : Elsewhere playlistId db db') (hall : AllCounted db)
    {count : ℤ} (hcount : count = (db'.entries playlistId).length) :
    AllCounted (db'.setCount playlistId count) := by
  intro p hp
  obtain ⟨old, hold, rfl⟩ := List.mem_map.mp hp
  show (Database.withCount playlistId count old).trackCount =
    (db'.entries (Database.withCount playlistId count old).id).length
  rw [Database.withCount_id]
  by_cases hid : old.id = playlistId
  · rw [Database.withCount, if_pos hid, hid]
    exact hcount
  · rw [Database.withCount, if_neg hid, h.entries old.id hid]
    exact hall old (h.playlists ▸ hold)

theorem Elsewhere.all_counted_recount (h : Elsewhere playlistId db db') (hall : AllCounted db) :
    AllCounted (db'.recount playlistId) := h.all_counted_setCount hall rfl

theorem playlistTracks_insertEntry {e : PlaylistTrack} (h : db.insertEntry e = .ok db') :
    db'.playlistTracks = db.playlistTracks ++ [e] := by
  rw [toTables_of_write h]

theorem elsewhere_insertEntry {e : PlaylistTrack} (h : db.insertEntry e = .ok db') :
    Elsewhere e.playlistId db db' where
  playlists := by rw [toTables_of_write h]
  entries q hq := by
    rw [Tables.entries, playlistTracks_insertEntry h, List.filter_append]
    simp [Tables.entries, Ne.symm hq]

theorem elsewhere_deleteEntries {gone : PlaylistTrack → Bool}
    (h : ∀ e, gone e = true → e.playlistId = playlistId) :
    Elsewhere playlistId db (db.deleteEntries gone) where
  playlists := rfl
  entries q hq := by
    show (db.playlistTracks.filter _).filter _ = db.playlistTracks.filter _
    rw [List.filter_filter]
    grind

theorem all_counted_addTrackToPlaylist {trackId : Uuid} {e : PlaylistTrack}
    (hall : AllCounted db) (h : db.addTrackToPlaylist playlistId trackId = .ok (e, db')) :
    AllCounted db' := by
  unfold Database.addTrackToPlaylist at h
  obtain ⟨inserted, hinserted, hpair⟩ := map_eq_ok_iff.mp h
  cases hpair
  exact (elsewhere_insertEntry hinserted).all_counted_recount hall

theorem all_counted_removeTrackFromPlaylist {trackId : Uuid} (hall : AllCounted db) :
    AllCounted (db.removeTrackFromPlaylist playlistId trackId).2 := by
  apply Elsewhere.all_counted_recount _ hall
  grind [elsewhere_deleteEntries]

/-- The tracks are entered, and other playlists are left alone. -/
theorem insertTracks_spec {trackIds : List Uuid} {position : ℤ}
    (h : db.insertTracks playlistId position trackIds = .ok db') :
    Elsewhere playlistId db db' ∧
      (db'.entries playlistId).length = (db.entries playlistId).length + trackIds.length := by
  induction trackIds generalizing db position with
  | nil =>
    cases h
    exact ⟨⟨rfl, fun _ _ => rfl⟩, rfl⟩
  | cons trackId rest ih =>
    rw [Database.insertTracks] at h
    split at h
    next db1 hinserted =>
      obtain ⟨helsewhere, hlength⟩ := ih h
      refine ⟨(elsewhere_insertEntry hinserted).trans helsewhere, ?_⟩
      have hone : (db1.entries playlistId).length = (db.entries playlistId).length + 1 := by
        rw [Tables.entries, playlistTracks_insertEntry hinserted, List.filter_append]
        simp [Tables.entries]
      rw [hlength, hone, List.length_cons]
      omega
    · cases h

theorem all_counted_reorderPlaylistTracks {trackIds : List Uuid} (hall : AllCounted db)
    (h : db.reorderPlaylistTracks playlistId trackIds = .ok db') : AllCounted db' := by
  unfold Database.reorderPlaylistTracks at h
  obtain ⟨inserted, hinserted, rfl⟩ := map_eq_ok_iff.mp h
  obtain ⟨helsewhere, hlength⟩ := insertTracks_spec hinserted
  have hcleared : ((db.deleteEntries fun e => e.playlistId = playlistId).entries playlistId) = [] := by
    show (db.playlistTracks.filter _).filter _ = []
    simp
  have hdeleted : Elsewhere playlistId db (db.deleteEntries fun e => e.playlistId = playlistId) :=
    elsewhere_deleteEntries fun e hgone => by simpa using hgone
  apply (hdeleted.trans helsewhere).all_counted_setCount hall
  rw [hlength, hcleared, List.length_nil, Nat.zero_add]

end

section

variable {db db' : Database}

/-- A new playlist is counted. -/
theorem all_counted_createPlaylist {id : Uuid} {input : PlaylistCreate} {userId : Option Uuid}
    {p : Playlist} (hall : AllCounted db) (h : db.createPlaylist id input userId = .ok (p, db')) :
    AllCounted db' := by
  obtain ⟨db1, hwrite, hpair⟩ := map_eq_ok_iff.mp h
  cases hpair
  have hsound := sound_of_write hwrite
  intro q hq
  rw [Counted, toTables_of_write hwrite]
  rw [toTables_of_write hwrite] at hq
  rcases List.mem_append.mp hq with hold | hnew
  · exact hall q hold
  · rw [List.mem_singleton] at hnew
    subst hnew
    have hfresh : id ∉ db.playlistIds := by
      intro hmem
      have hids := hsound.playlist_ids_nodup
      grind [Tables.playlistIds, Database.newPlaylist]
    show (0 : ℤ) = (db.entries id).length
    rw [Database.entries_eq_nil hfresh]
    rfl

theorem all_counted_addTracks {playlistId : Uuid} {trackIds : List Uuid} (hall : AllCounted db) :
    AllCounted (db.addTracks playlistId trackIds) := by
  induction trackIds generalizing db with
  | nil => exact hall
  | cons trackId rest ih =>
    grind [Database.addTracks, all_counted_addTrackToPlaylist]

theorem all_counted_importPlaylistHandler {id : Uuid} {name : String} {paths : List String}
    {userId : Option Uuid} (hall : AllCounted db)
    (h : db.importPlaylistHandler id name paths userId = .ok db') : AllCounted db' := by
  grind [Database.importPlaylistHandler, all_counted_addTracks, all_counted_createPlaylist]

theorem all_counted_deletePlaylist {id : Uuid} (hall : AllCounted db) :
    AllCounted (db.deletePlaylist id).2 := by
  intro p hp
  obtain ⟨hp, hne⟩ := List.mem_filter.mp hp
  have hentries : (db.deletePlaylist id).2.entries p.id = db.entries p.id := by
    show (db.playlistTracks.filter _).filter _ = db.playlistTracks.filter _
    rw [List.filter_filter]
    grind
  rw [Counted, hentries]
  exact hall p hp

/-- To delete tracks keeps the counts exactly where no playlist held one of them. -/
theorem all_counted_withoutTracks_iff {gone : Uuid → Bool} {db' : Database} (hall : AllCounted db)
    (h : db'.toTables = db.withoutTracks gone) :
    AllCounted db' ↔ ∀ e ∈ db.playlistTracks, gone e.trackId = false := by
  have hentries : ∀ q, db'.entries q = (db.entries q).filter fun e => !gone e.trackId := by
    intro q
    rw [h]
    show (db.playlistTracks.filter _).filter _ = (db.playlistTracks.filter _).filter _
    rw [List.filter_filter, List.filter_filter]
    simp only [Bool.and_comm]
  have hplaylists : db'.playlists = db.playlists := by
    rw [h]
    rfl
  constructor
  · intro hcounted e he
    obtain ⟨p, hp, hid⟩ := List.mem_map.mp (db.sound.entry_playlist e he)
    have hbefore := hall p hp
    have hafter := hcounted p (hplaylists ▸ hp)
    rw [Counted, hbefore, hentries] at hafter
    have hlength : ((db.entries p.id).filter fun e => !gone e.trackId).length =
        (db.entries p.id).length := by exact_mod_cast hafter.symm
    have hkept := List.length_filter_eq_length_iff.mp hlength e
      (List.mem_filter.mpr ⟨he, by simpa using hid.symm⟩)
    simpa using hkept
  · intro hkept p hp
    rw [Counted, hentries, List.filter_eq_self.mpr]
    · exact hall p (hplaylists ▸ hp)
    · intro e he
      simpa using hkept e (entry_of_mem he).1

theorem all_counted_deletion_iff {gone : Uuid → Bool} {α : Type} {a : α} (hall : AllCounted db) :
    AllCounted (((((write (db.withoutTracks gone)).map fun db' => (a, db')).toOption.map
      Prod.snd)).getD db) ↔ TakesNoEntry db gone := by
  by_cases hkept : db.keptByReference gone = true
  · have hrefused : ¬ (db.withoutTracks gone).Sound := by
      rw [Database.withoutTracks_sound_iff, hkept]
      exact Bool.noConfusion
    rw [write, dif_neg hrefused]
    exact iff_of_true hall (.inl hkept)
  · have hsound := Database.withoutTracks_sound_iff.mpr (Bool.eq_false_iff.mpr hkept)
    rw [write_ok hsound]
    rw [TakesNoEntry, or_iff_right hkept]
    exact all_counted_withoutTracks_iff hall rfl

theorem all_counted_of_eq (hplaylists : db'.playlists = db.playlists)
    (hentries : db'.playlistTracks = db.playlistTracks) (hall : AllCounted db) : AllCounted db' := by
  intro p hp
  rw [Counted, Tables.entries, hentries]
  exact hall p (hplaylists ▸ hp)

theorem holds_getD {P : Database → Prop} {x : Except String Database} (hdb : P db)
    (h : ∀ db', x = .ok db' → P db') : P (x.toOption.getD db) := by
  cases x with
  | ok db' => exact h db' rfl
  | error e => exact hdb

theorem holds_getD_snd {P : Database → Prop} {α : Type} {x : Except String (α × Database)}
    (hdb : P db) (h : ∀ a db', x = .ok (a, db') → P db') : P ((x.toOption.map Prod.snd).getD db) := by
  cases x with
  | ok r => exact h r.1 r.2 rfl
  | error e => exact hdb

/-- An operation keeps the counts exactly where no cascade takes an entry. -/
theorem all_counted_step_iff (hall : AllCounted db) (op : Operation) :
    AllCounted (step db op) ↔ Uncascaded db op := by
  cases op with
  | deleteTrack id => exact all_counted_deletion_iff hall
  | deleteAllTracks => exact all_counted_deletion_iff hall
  | create id input userId =>
    exact iff_of_true (holds_getD_snd hall fun _ _ => all_counted_createPlaylist hall) trivial
  | addTrack playlistId trackId =>
    exact iff_of_true (holds_getD_snd hall fun _ _ => all_counted_addTrackToPlaylist hall) trivial
  | removeTrack playlistId trackId =>
    exact iff_of_true (all_counted_removeTrackFromPlaylist hall) trivial
  | reorder playlistId trackIds =>
    exact iff_of_true (holds_getD hall fun _ => all_counted_reorderPlaylistTracks hall) trivial
  | importPlaylist id name paths userId =>
    exact iff_of_true (holds_getD hall fun _ => all_counted_importPlaylistHandler hall) trivial
  | delete id => exact iff_of_true (all_counted_deletePlaylist hall) trivial
  | rescan track =>
    refine iff_of_true (holds_getD hall fun db' h => ?_) trivial
    exact all_counted_of_eq (by rw [toTables_of_write h]) (by rw [toTables_of_write h]) hall
  | refer r =>
    refine iff_of_true (holds_getD hall fun db' h => ?_) trivial
    exact all_counted_of_eq (by rw [toTables_of_write h]) (by rw [toTables_of_write h]) hall

end

/-- In every state that a sequence of operations reaches, every playlist is represented, exactly when
no operation of the sequence takes an entry of a playlist with a track. -/
theorem playlists_represented_iff_uncascaded (operations : List Operation) :
    (∀ before, before <+: operations → PlaylistsRepresented (Trace.run step Database.empty before)) ↔
      Trace.Obeys step Uncascaded Database.empty operations := by
  have hempty : AllCounted Database.empty := by
    intro p hp
    cases hp
  simp only [playlists_represented_iff]
  exact Trace.invariant_along_iff (I := AllCounted)
    (fun _ op hall => all_counted_step_iff hall op) hempty operations

def oneTrackDeleted : List Operation :=
  [.rescan { id := 1, filePath := "/music/a.flac", format := .flac, createdAt := 0, updatedAt := 0 },
   .create 7 ⟨"road", none⟩ none, .addTrack 7 1, .deleteTrack 1]

/-- It still counts one track, and lists none. -/
theorem deleted_track_counted :
    ∃ p ∈ (Trace.run step Database.empty oneTrackDeleted).playlists, p.trackCount = 1 ∧
      (Trace.run step Database.empty oneTrackDeleted).getPlaylistTracks p.id = [] ∧
      ¬ PlaylistsRepresented (Trace.run step Database.empty oneTrackDeleted) := by
  have hrow : ⟨7, "road", none, 1, none, none, false⟩ ∈
      (Trace.run step Database.empty oneTrackDeleted).playlists := by decide +kernel
  have hlisting :
      (Trace.run step Database.empty oneTrackDeleted).getPlaylistTracks 7 = [] := by decide +kernel
  refine ⟨_, hrow, rfl, hlisting, ?_⟩
  intro hall
  have hlisted := (hall _ hrow).listed
  rw [hlisting] at hlisted
  cases hlisted

end MichiServer.Catalog
