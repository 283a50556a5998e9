import Mathlib
import MichiServer.Basic
import MichiServer.Files.Names

/-!
# What the scanner and the watcher see

`scan_directory_sync_strict` makes a track of every audio file below a music root; `snapshot` keeps
the fingerprint of every audio file below it. The two walk the tree each in its own way: the scanner
passes over hidden directories, by names that are UTF-8; the watcher over every hidden name.

The model is of one walk over a tree that does not change while it lasts, without errors of the
system. A track has the fields that place and identify it; its tags are left out.
-/

namespace MichiServer.Scanner

open MichiServer.Files MichiServer.Text

/-- A file: whether it is a regular one (`is_file`), what is in it, and when it was modified, in
nanoseconds since the Unix epoch, if the system says so. -/
structure FileData where
  regular : Bool
  content : List UInt8
  modified : Option ℤ
deriving DecidableEq

def FileData.len (data : FileData) : ℕ := data.content.length

abbrev Entries := List (FileName × Node FileData)

structure Fingerprint where
  modified : Option ℤ
  len : ℕ
deriving DecidableEq

def FileData.fingerprint (data : FileData) : Fingerprint := ⟨data.modified, data.len⟩

structure Track where
  id : Uuid
  filePath : String
  contentHash : Option String
  fileSize : Option ℕ
  fileMtimeNs : Option ℤ
deriving DecidableEq

/-! ## Names -/

def supportedExtensions : List String := ["mp3", "flac", "ogg", "opus", "aac", "m4a", "wav"]

def isAudioFile (path : Path) : Bool :=
  (((extension path).bind fromUtf8).map fun e =>
    supportedExtensions.contains (toLowercase e)).getD false

/-- The name is UTF-8 and begins with a dot: the scanner's test of a directory. -/
def hiddenText (name : FileName) : Bool :=
  ((fromUtf8 name.bytes).map fun s => startsWith s ".").getD false

/-- The lossy text of the name begins with a dot: the watcher's test of every entry. -/
def hiddenLossy (name : FileName) : Bool := startsWith (fromUtf8Lossy name.bytes) "."

def pathComponents (path : Path) : List (List UInt8) :=
  let first := if isAbsolute path then [[slash]]
    else if (components path).head? = some [dot] then [[dot]] else []
  first ++ (components path).filter fun c => c ≠ [] ∧ c ≠ [dot]

def pathStartsWith (path base : Path) : Bool :=
  (pathComponents base).isPrefixOf (pathComponents path)

def pathStripPrefix (path base : Path) : Option Path :=
  if pathStartsWith path base then
    some ([slash].intercalate ((pathComponents path).drop (pathComponents base).length))
  else none

def replaceBackslash (s : String) : String :=
  String.ofList (s.toList.map fun c => if c = '\\' then '/' else c)

def asI64 (n : ℤ) : ℤ := (n + 2 ^ 63) % 2 ^ 64 - 2 ^ 63

/-- A modification time as a track keeps it, if it is not before the epoch. -/
def Fingerprint.mtimeNs (f : Fingerprint) : Option ℤ :=
  match f.modified with
  | some t => if 0 ≤ t then some (asI64 t) else none
  | none => none

section

-- `Uuid::new_v5` in `NAMESPACE_URL`.
variable (newV5 : List UInt8 → Uuid)

def trackIdFromLibraryPath (libraryRoot filePath : Path) : Uuid :=
  match pathStripPrefix filePath libraryRoot with
  | some relative =>
    let relStr := replaceBackslash (fromUtf8Lossy relative)
    if relStr ≠ "" then newV5 (asBytes relStr)
    else newV5 (asBytes (replaceBackslash (fromUtf8Lossy filePath)))
  | none => newV5 (asBytes (replaceBackslash (fromUtf8Lossy filePath)))

/-! ## Tracks -/

def trackOf (libraryRoot entryPath : Path) (fsMeta : Option Fingerprint) : Track where
  id := trackIdFromLibraryPath newV5 libraryRoot entryPath
  filePath := fromUtf8Lossy entryPath
  contentHash := none
  fileSize := fsMeta.map Fingerprint.len
  fileMtimeNs := fsMeta.bind Fingerprint.mtimeNs

def trackFromFile (libraryRoot entryPath : Path) (data : FileData) : Option Track :=
  if !data.regular || !isAudioFile entryPath then none
  else some (trackOf newV5 libraryRoot entryPath (some data.fingerprint))

/-- The entries of the directory at `path`, as `scan_directory_sync_strict` goes through them. -/
def scanEntries (libraryRoot path : Path) : Entries → List Track
  | [] => []
  | (_, .link _) :: rest => scanEntries libraryRoot path rest
  | (name, .dir entries) :: rest =>
    (if hiddenText name then []
      else scanEntries libraryRoot (join path name.bytes) entries) ++
      scanEntries libraryRoot path rest
  | (name, .file data) :: rest =>
    (trackFromFile newV5 libraryRoot (join path name.bytes) data).toList ++
      scanEntries libraryRoot path rest

def scanDirectorySyncStrict (disk : Disk FileData) (libraryRoot path : Path) :
    Except String (List Track) :=
  let shown := fromUtf8Lossy path
  match disk.openPath path with
  | some (.dir entries) => .ok (scanEntries newV5 libraryRoot path entries)
  | some _ => .error s!"path is not a directory: {shown}"
  | none => .error s!"path does not exist: {shown}"

end

/-! ## Snapshots -/

/-- The entries of the directory, as `snapshot_directory` goes through them. -/
def snapshotDirectory (directory : Path) : Entries → List (Path × Fingerprint)
  | [] => []
  | (_, .link _) :: rest => snapshotDirectory directory rest
  | (name, .dir entries) :: rest =>
    (if hiddenLossy name then []
      else snapshotDirectory (join directory name.bytes) entries) ++
      snapshotDirectory directory rest
  | (name, .file data) :: rest =>
    let path := join directory name.bytes
    (if hiddenLossy name || !data.regular || !isAudioFile path then []
      else [(path, data.fingerprint)]) ++ snapshotDirectory directory rest

def snapshot (disk : Disk FileData) (root : Path) : Except String (List (Path × Fingerprint)) :=
  match disk.openPath root with
  | some (.dir entries) => .ok (snapshotDirectory root entries)
  | some _ => .error "music root is not a directory"
  | none => .error "No such file or directory (os error 2)"

/-!
## The tables of the library

The rows of `tracks`, what refers to them, and what `mount_guard` knows of the roots. A row is found
by its id, the primary key, and by its path, which is unique; the rows that refer to a track go with
it or keep it, by their table. These constraints are fields of `Library`, so a statement that would
break one is refused.

The change journal that the writes append to is left out: nothing here reads it.
-/

inductive RefTable where
  | playlistTracks
  | playHistory
  | syncJobItems
  | queueItems
  | players
  | playbackChains
  | bookmarks
  | sharedLinks
deriving DecidableEq

def RefTable.cascades : RefTable → Bool
  | playlistTracks | playHistory | syncJobItems | queueItems => true
  | players | playbackChains | bookmarks | sharedLinks => false

structure Reference where
  table : RefTable
  key : ℕ
  trackId : Uuid
deriving DecidableEq

structure MountRow where
  path : String
  state : String
  errorMessage : String
  deviceId : Option ℕ

/-- A row of `mount_guard` after an update. A device is recorded only with the state online. -/
def MountRow.updated (row : MountRow) (state errorMessage : String) (deviceId : Option ℕ) :
    MountRow where
  path := row.path
  state := state
  errorMessage := errorMessage
  deviceId := if state = "online" ∧ deviceId.isSome then deviceId else row.deviceId

structure Library where
  tracks : List Track
  references : List Reference
  mountGuard : List MountRow
  ids_nodup : (tracks.map Track.id).Nodup
  paths_nodup : (tracks.map Track.filePath).Nodup
  referred : ∀ r ∈ references, r.trackId ∈ tracks.map Track.id

namespace Library

variable (lib : Library)

/-! ## Tracks -/

def findTrackByPath (path : String) : Option Track :=
  lib.tracks.find? fun row => row.filePath = path

/-- The row after the update: the hash is kept where the new row has none. -/
def merge (row t : Track) : Track :=
  { t with contentHash := t.contentHash <|> row.contentHash }

def replaceRow (rows : List Track) (t : Track) : List Track :=
  rows.map fun row => if row.filePath = t.filePath then merge row t else row

def refers (id : Uuid) : Bool := lib.references.any fun r => r.trackId = id

/-- A new id of a row is taken by no other row and leaves no reference behind. -/
def idFree (t : Track) : Prop :=
  ∀ row ∈ lib.tracks, row.filePath = t.filePath →
    row.id = t.id ∨ t.id ∉ lib.tracks.map Track.id ∧ lib.refers row.id = false

instance (t : Track) : Decidable (lib.idFree t) := inferInstanceAs (Decidable (∀ _ ∈ _, _))

theorem replaceRow_paths (rows : List Track) (t : Track) :
    (replaceRow rows t).map Track.filePath = rows.map Track.filePath := by
  rw [replaceRow, List.map_map]
  apply List.map_congr_left
  grind [merge]

def idAfter (t row : Track) : Uuid := if row.filePath = t.filePath then t.id else row.id

theorem replaceRow_ids (rows : List Track) (t : Track) :
    (replaceRow rows t).map Track.id = rows.map (idAfter t) := by
  rw [replaceRow, List.map_map]
  apply List.map_congr_left
  grind [merge, idAfter]

variable {lib}

theorem eq_of_id {row other : Track} (hrow : row ∈ lib.tracks) (hother : other ∈ lib.tracks)
    (h : row.id = other.id) : row = other :=
  List.inj_on_of_nodup_map lib.ids_nodup hrow hother h

theorem eq_of_path {row other : Track} (hrow : row ∈ lib.tracks) (hother : other ∈ lib.tracks)
    (h : row.filePath = other.filePath) : row = other :=
  List.inj_on_of_nodup_map lib.paths_nodup hrow hother h

theorem replaceRow_nodup {t : Track} (h : lib.idFree t) :
    ((replaceRow lib.tracks t).map Track.id).Nodup := by
  rw [replaceRow_ids]
  have hmixed : ∀ x ∈ lib.tracks, ∀ y ∈ lib.tracks, x.filePath = t.filePath → t.id = y.id →
      x = y := by
    intro x hx y hy hpath hid
    rcases h x hx hpath with hsame | ⟨hnew, -⟩
    · exact eq_of_id hx hy (hsame.trans hid)
    · exact (hnew (List.mem_map.mpr ⟨y, hy, hid.symm⟩)).elim
  apply List.Nodup.map_on _ (List.Nodup.of_map _ lib.ids_nodup)
  grind [idAfter, eq_of_path, eq_of_id]

theorem replaceRow_referred {t : Track} (h : lib.idFree t) :
    ∀ r ∈ lib.references, r.trackId ∈ (replaceRow lib.tracks t).map Track.id := by
  intro r hr
  obtain ⟨row, hrow, hid⟩ := List.mem_map.mp (lib.referred r hr)
  rw [replaceRow_ids]
  refine List.mem_map.mpr ⟨row, hrow, ?_⟩
  unfold idAfter
  split
  next hpath =>
    rcases h row hrow hpath with hsame | ⟨-, hfree⟩
    · exact hsame.symm.trans hid
    · grind [refers]
  · exact hid

variable (lib)

def upsertTrack (t : Track) : Except String Library :=
  if hpath : t.filePath ∈ lib.tracks.map Track.filePath then
    if hfree : lib.idFree t then
      .ok {
        tracks := replaceRow lib.tracks t
        references := lib.references
        mountGuard := lib.mountGuard
        ids_nodup := replaceRow_nodup hfree
        paths_nodup := by
          rw [replaceRow_paths]
          exact lib.paths_nodup
        referred := replaceRow_referred hfree }
    else if t.id ∈ lib.tracks.map Track.id then .error "UNIQUE constraint failed: tracks.id"
    else .error "FOREIGN KEY constraint failed"
  else if hid : t.id ∈ lib.tracks.map Track.id then
    .error "UNIQUE constraint failed: tracks.id"
  else
    .ok {
      tracks := lib.tracks ++ [t]
      references := lib.references
      mountGuard := lib.mountGuard
      ids_nodup := by
        rw [List.map_append, List.map_singleton]
        exact lib.ids_nodup.append (List.nodup_singleton _) (by simpa using hid)
      paths_nodup := by
        rw [List.map_append, List.map_singleton]
        exact lib.paths_nodup.append (List.nodup_singleton _) (by simpa using hpath)
      referred := by
        intro r hr
        rw [List.map_append]
        exact List.mem_append_left _ (lib.referred r hr) }

def upsertTracks (lib : Library) : List Track → Except String Library
  | [] => .ok lib
  | t :: rest =>
    match lib.upsertTrack t with
    | .ok lib' => upsertTracks lib' rest
    | .error e => .error e

def deleteTrack (id : Uuid) : Except String (Bool × Library) :=
  if lib.references.any fun r => r.trackId = id && !r.table.cascades then
    .error "FOREIGN KEY constraint failed"
  else
    .ok (lib.tracks.any fun row => row.id = id, {
      tracks := lib.tracks.filter fun row => row.id ≠ id
      references := lib.references.filter fun r => r.trackId ≠ id
      mountGuard := lib.mountGuard
      ids_nodup := lib.ids_nodup.sublist (List.filter_sublist.map _)
      paths_nodup := lib.paths_nodup.sublist (List.filter_sublist.map _)
      referred := by
        intro r hr
        obtain ⟨hr, hne⟩ := List.mem_filter.mp hr
        obtain ⟨row, hrow, hid⟩ := List.mem_map.mp (lib.referred r hr)
        grind })

section

variable {lib} {lib' : Library} {t row : Track}

def upserted (lib : Library) (t : Track) : Track :=
  { t with
    contentHash := t.contentHash <|> (lib.findTrackByPath t.filePath).bind Track.contentHash }

theorem findTrackByPath_eq_some {path : String} :
    lib.findTrackByPath path = some row ↔ row ∈ lib.tracks ∧ row.filePath = path := by
  unfold findTrackByPath
  constructor
  · grind
  · rintro ⟨hrow, rfl⟩
    cases hfind : lib.tracks.find? fun other => other.filePath = row.filePath with
    | none =>
      grind
    | some other =>
      grind [eq_of_path]

/-- The rows after a track is stored. -/
theorem mem_upsertTrack (h : lib.upsertTrack t = .ok lib') :
    row ∈ lib'.tracks ↔ row = lib.upserted t ∨ row ∈ lib.tracks ∧ row.filePath ≠ t.filePath := by
  unfold upsertTrack at h
  split at h
  next hpath =>
    split at h
    · cases h
      obtain ⟨old, hold, holdpath⟩ := List.mem_map.mp hpath
      have hmerge : lib.upserted t = merge old t := by
        rw [upserted, findTrackByPath_eq_some.mpr ⟨hold, holdpath⟩]
        rfl
      grind [replaceRow, eq_of_path]
    · split at h <;> cases h
  next hpath =>
    split at h
    · cases h
    · cases h
      have hnone : lib.findTrackByPath t.filePath = none := by
        rw [Option.eq_none_iff_forall_not_mem]
        intro other hother
        obtain ⟨hmem, heq⟩ := findTrackByPath_eq_some.mp hother
        exact hpath (List.mem_map.mpr ⟨other, hmem, heq⟩)
      have hupserted : lib.upserted t = t := by simp [upserted, hnone]
      grind

theorem mountGuard_upsertTrack (h : lib.upsertTrack t = .ok lib') :
    lib'.mountGuard = lib.mountGuard := by
  grind [upsertTrack]

theorem references_upsertTrack (h : lib.upsertTrack t = .ok lib') :
    lib'.references = lib.references := by
  grind [upsertTrack]

theorem upsertTrack_ok (hids : ∀ row ∈ lib.tracks, row.id = t.id → row.filePath = t.filePath)
    (hfree : ∀ row ∈ lib.tracks, row.filePath = t.filePath →
      row.id = t.id ∨ lib.refers row.id = false) : ∃ lib', lib.upsertTrack t = .ok lib' := by
  unfold upsertTrack
  by_cases hpath : t.filePath ∈ lib.tracks.map Track.filePath
  · rw [dif_pos hpath, dif_pos]
    · exact ⟨_, rfl⟩
    · intro row hrow hsame
      grind [eq_of_path]
  · rw [dif_neg hpath, dif_neg]
    · exact ⟨_, rfl⟩
    · grind

variable {tracks : List Track} {id : Uuid} {deleted : Bool}

theorem mountGuard_upsertTracks (h : lib.upsertTracks tracks = .ok lib') :
    lib'.mountGuard = lib.mountGuard := by
  induction tracks generalizing lib with
  | nil =>
    cases h
    rfl
  | cons t rest ih =>
    grind [upsertTracks, mountGuard_upsertTrack]

theorem references_upsertTracks (h : lib.upsertTracks tracks = .ok lib') :
    lib'.references = lib.references := by
  induction tracks generalizing lib with
  | nil =>
    cases h
    rfl
  | cons t rest ih =>
    grind [upsertTracks, references_upsertTrack]

theorem mem_of_upsertTracks (h : lib.upsertTracks tracks = .ok lib')
    (hrow : row ∈ lib'.tracks) (hid : ∀ t ∈ tracks, t.id ≠ row.id) : row ∈ lib.tracks := by
  induction tracks generalizing lib with
  | nil =>
    cases h
    exact hrow
  | cons t rest ih =>
    rw [List.forall_mem_cons] at hid
    rw [upsertTracks] at h
    split at h
    next hone =>
      rcases (mem_upsertTrack hone).mp (ih h hid.2) with rfl | ⟨hold, -⟩
      · exact (hid.1 rfl).elim
      · exact hold
    · cases h

theorem mountGuard_deleteTrack
    (h : lib.deleteTrack id = .ok (deleted, lib')) : lib'.mountGuard = lib.mountGuard := by
  grind [deleteTrack]

theorem mem_deleteTrack (h : lib.deleteTrack id = .ok (deleted, lib')) :
    row ∈ lib'.tracks ↔ row ∈ lib.tracks ∧ row.id ≠ id := by
  grind [deleteTrack]

theorem mem_references_deleteTrack
    (h : lib.deleteTrack id = .ok (deleted, lib')) {r : Reference} :
    r ∈ lib'.references ↔ r ∈ lib.references ∧ r.trackId ≠ id := by
  grind [deleteTrack]

theorem deleteTrack_ok (h : ∀ r ∈ lib.references, r.trackId = id → r.table.cascades = true) :
    ∃ deleted lib', lib.deleteTrack id = .ok (deleted, lib') := by
  unfold deleteTrack
  rw [if_neg]
  · exact ⟨_, _, rfl⟩
  · grind

end

/-! ## Mounts -/

def getMountDeviceId (path : String) : Option ℕ :=
  (lib.mountGuard.find? fun row => row.path = path).bind MountRow.deviceId

def unavailable (path : String) : Bool :=
  lib.mountGuard.any fun row => row.path = path && row.state = "unavailable"

def updateMountState (path state errorMessage : String) (deviceId : Option ℕ) : Library :=
  let rows := if lib.mountGuard.any fun row => row.path = path then
      lib.mountGuard.map fun row =>
        if row.path = path then row.updated state errorMessage deviceId else row
    else lib.mountGuard ++ [⟨path, state, errorMessage, deviceId⟩]
  { lib with mountGuard := rows }

theorem getMountDeviceId_update {path state errorMessage : String} {deviceId : Option ℕ}
    {device : ℕ}
    (h : (lib.updateMountState path state errorMessage deviceId).getMountDeviceId path =
      some device) :
    deviceId = some device ∨ lib.getMountDeviceId path = some device := by
  simp only [getMountDeviceId, updateMountState] at h ⊢
  split at h
  · have hpath : ((fun row : MountRow => decide (row.path = path)) ∘ fun row : MountRow =>
        if row.path = path then row.updated state errorMessage deviceId else row) =
        fun row => decide (row.path = path) := by
      grind [MountRow.updated]
    rw [List.find?_map, hpath] at h
    cases hfind : lib.mountGuard.find? fun row => row.path = path with
    | none => simp [hfind] at h
    | some row =>
      grind [MountRow.updated]
  next hnone =>
    grind

theorem unavailable_update (path reason : String) (deviceId : Option ℕ) :
    (lib.updateMountState path "unavailable" reason deviceId).unavailable path = true := by
  simp only [unavailable, updateMountState]
  split
  next hany =>
    obtain ⟨row, hrow, hpath⟩ := List.any_eq_true.mp hany
    rw [decide_eq_true_eq] at hpath
    rw [List.any_map, List.any_eq_true]
    exact ⟨row, hrow, by simp [hpath, MountRow.updated]⟩
  · simp

end Library

end MichiServer.Scanner
