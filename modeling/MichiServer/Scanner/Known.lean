import MichiServer.Scanner.InLine

/-!
# What the watcher knows

A snapshot is what the watcher knows of the files below a root. The library agrees with it when its
rows under the root are of these files, each by the text of its path and with its size and modification
time. An upsert of a file and the deletion of one keep the agreement with what is known then, as long
as no two paths have one text; a reconciliation brings it about.
-/

namespace MichiServer.Scanner

open MichiServer.Files MichiServer.Text MichiServer.Interleave

def IsSnapshot (disk : Disk FileData) (root : Path) (current : Snapshot) : Prop :=
  ∃ files, snapshot disk root = .ok files ∧
    ∀ path f, current.lookup path = some f ↔ (path, f) ∈ files

/-- The rows under the root are those of the known files, with their stamps. -/
def Agrees (root : Path) (known : Path → Option Fingerprint) (lib : Library) : Prop :=
  ∀ text stamp, (∃ row ∈ lib.rowsUnder root, row.filePath = text ∧ row.stamp = stamp) ↔
    ∃ path f, known path = some f ∧ fromUtf8Lossy path = text ∧ f.stamp = stamp

section

variable {disk : Disk FileData} {root : Path} {base : Location} {entries : Entries}
  {names : List FileName} {data : FileData}

theorem find_of_holds (htwins : disk.TwinFree) (hdir : disk.tree.find base = some (.dir entries))
    (h : Holds entries names data) : disk.tree.find (base ++ names) = some (.file data) := by
  induction h generalizing base with
  | file hmem => exact htwins.find_entry hdir hmem
  | dir hmem _ ih =>
    have hinner := ih (htwins.find_entry hdir hmem)
    rwa [List.append_assoc, List.singleton_append] at hinner

theorem resolve_below (hroot : disk.resolve root = some base)
    (hreal : disk.tree.Real (base ++ names)) :
    disk.resolve (pathBelow root names) = some (base ++ names) := by
  induction names generalizing root base with
  | nil => rwa [List.append_nil]
  | cons name rest ih =>
    rw [← List.singleton_append, ← List.append_assoc] at hreal ⊢
    apply ih _ hreal
    obtain ⟨left, hjoin⟩ := Node.resolve_join_name hroot name
    exact hjoin.trans (Node.walk_names left (Node.real_front hreal))

/-- A file of a snapshot can be opened, and is audio. -/
theorem opened_of_snapshot (htwins : disk.TwinFree) {files : List (Path × Fingerprint)}
    (hsnapshot : snapshot disk root = .ok files) {path : Path} {f : Fingerprint}
    (hf : (path, f) ∈ files) :
    ∃ data, opened disk path = some (.file data) ∧ data.regular = true ∧
      isAudioFile path = true ∧ data.fingerprint = f := by
  unfold snapshot at hsnapshot
  cases hopen : disk.openPath root with
  | none =>
    rw [hopen] at hsnapshot
    cases hsnapshot
  | some node =>
    rw [hopen] at hsnapshot
    cases node with
    | dir entries =>
      cases hsnapshot
      obtain ⟨base, hbase, hdir⟩ := Option.bind_eq_some_iff.mp hopen
      obtain ⟨names, data, hholds, -, hregular, haudio, heq⟩ :=
        (mem_snapshotDirectory root entries).mp hf
      cases heq
      have hfind := find_of_holds htwins hdir hholds
      have hresolve := resolve_below hbase ⟨_, hfind, rfl⟩
      grind [opened, Disk.openPath]
    | file data => cases hsnapshot
    | link target => cases hsnapshot

section

variable {newV5 : List UInt8 → Uuid} {tracks : List Track} {files : List (Path × Fingerprint)}
  (hnone : NoneHidden disk root)
  (hscan : scanDirectorySyncStrict newV5 disk root root = .ok tracks)
  (hsnapshot : snapshot disk root = .ok files)

include hnone hscan hsnapshot

/-- Scan and snapshot find the same files. -/
theorem mem_scan_iff_snapshot (t : Track) :
    t ∈ tracks ↔ ∃ f ∈ files, t = trackOf newV5 root f.1 (some f.2) := by
  unfold scanDirectorySyncStrict at hscan
  unfold snapshot at hsnapshot
  cases hopen : disk.openPath root with
  | none =>
    rw [hopen] at hscan
    cases hscan
  | some node =>
    rw [hopen] at hscan hsnapshot
    cases node with
    | file data => cases hscan
    | link target => cases hscan
    | dir entries =>
      cases hscan
      cases hsnapshot
      constructor
      · intro ht
        obtain ⟨names, data, hholds, hdirs, htrack⟩ := (mem_scanEntries root entries).mp ht
        obtain ⟨hregular, haudio, -⟩ := trackFromFile_eq_some htrack
        refine ⟨(_, data.fingerprint), (mem_snapshotDirectory root entries).mpr
          ⟨names, data, hholds, ?_, hregular, haudio, rfl⟩, ?_⟩
        · intro name hname
          rw [Bool.eq_false_iff, Ne, hiddenLossy_iff]
          exact hnone entries hopen names data hholds hregular haudio hdirs name hname
        · grind [trackFromFile]
      · rintro ⟨f, hf, rfl⟩
        obtain ⟨names, data, hholds, hnames, hregular, haudio, rfl⟩ :=
          (mem_snapshotDirectory root entries).mp hf
        have htrack : trackFromFile newV5 root (pathBelow root names) data =
            some (trackOf newV5 root (pathBelow root names) (some data.fingerprint)) :=
          if_neg (by simp [hregular, haudio])
        refine (mem_scanEntries root entries).mpr ⟨names, data, hholds, ?_, htrack⟩
        intro dir hdir
        rw [Bool.eq_false_iff]
        intro hhidden
        have hvisible := hnames dir (List.mem_of_mem_dropLast hdir)
        grind [hiddenLossy_iff, dotted_of_hiddenText]

theorem scan_snapshot_alike (text : String) (stamp : Stamp) :
    (∃ t ∈ tracks, t.filePath = text ∧ t.stamp = stamp) ↔
      ∃ f ∈ files, fromUtf8Lossy f.1 = text ∧ f.2.stamp = stamp := by
  simp only [mem_scan_iff_snapshot hnone hscan hsnapshot]
  constructor
  · rintro ⟨t, ⟨f, hf, rfl⟩, htext, hstamp⟩
    exact ⟨f, hf, htext, (stamp_trackOf newV5 root f.1 (some f.2)).symm.trans hstamp⟩
  · rintro ⟨f, hf, htext, hstamp⟩
    exact ⟨_, ⟨f, hf, rfl⟩, htext, (stamp_trackOf newV5 root f.1 (some f.2)).trans hstamp⟩

end

end

section

variable {root path : Path} {known : Path → Option Fingerprint} {lib lib' : Library} {t : Track}

theorem Library.mem_rowsUnder {row : Track} : row ∈ lib.rowsUnder root ↔
    row ∈ lib.tracks ∧ pathStartsWith (asBytes row.filePath) root = true := by
  simp [Library.rowsUnder]

/-- A file that is stored is known. -/
theorem Agrees.upsert {f : Fingerprint} (h : Agrees root known lib)
    (hupsert : lib.upsertTrack t = .ok lib') (hpath : t.filePath = fromUtf8Lossy path)
    (hstamp : t.stamp = f.stamp) (hunder : pathStartsWith (asBytes t.filePath) root = true)
    (hapart : ∀ other g, known other = some g → fromUtf8Lossy other = fromUtf8Lossy path →
      other = path) : Agrees root (Function.update known path (some f)) lib' := by
  intro text stamp
  constructor
  · rintro ⟨row, hrow, rfl, rfl⟩
    rw [Library.mem_rowsUnder, Library.mem_upsertTrack hupsert] at hrow
    obtain ⟨rfl | ⟨hold, hne⟩, hstarts⟩ := hrow
    · exact ⟨path, f, Function.update_self .., hpath.symm, hstamp.symm⟩
    · obtain ⟨other, g, hknown, htext, hg⟩ :=
        (h row.filePath row.stamp).mp ⟨row, Library.mem_rowsUnder.mpr ⟨hold, hstarts⟩, rfl, rfl⟩
      grind
  · rintro ⟨other, g, hknown, rfl, rfl⟩
    by_cases hother : other = path
    · subst hother
      rw [Function.update_self] at hknown
      cases hknown
      refine ⟨lib.upserted t, Library.mem_rowsUnder.mpr ⟨?_, hunder⟩, hpath, hstamp⟩
      exact (Library.mem_upsertTrack hupsert).mpr (.inl rfl)
    · rw [Function.update_of_ne hother] at hknown
      obtain ⟨row, hrow, htext, hg⟩ :=
        (h (fromUtf8Lossy other) g.stamp).mpr ⟨other, g, hknown, rfl, rfl⟩
      obtain ⟨hmem, hstarts⟩ := Library.mem_rowsUnder.mp hrow
      refine ⟨row, Library.mem_rowsUnder.mpr ⟨?_, hstarts⟩, htext, hg⟩
      refine (Library.mem_upsertTrack hupsert).mpr (.inr ⟨hmem, fun hsame => hother ?_⟩)
      exact hapart other g hknown (htext.symm.trans (hsame.trans hpath))

/-- A file whose row is deleted is known no more. -/
theorem Agrees.delete {deleted : Bool} (h : Agrees root known lib)
    (hfind : lib.findTrackByPath (fromUtf8Lossy path) = some t)
    (hdelete : lib.deleteTrack t.id = .ok (deleted, lib'))
    (hapart : ∀ other g, known other = some g → fromUtf8Lossy other = fromUtf8Lossy path →
      other = path) : Agrees root (Function.update known path none) lib' := by
  obtain ⟨ht, htext⟩ := Library.findTrackByPath_eq_some.mp hfind
  intro text stamp
  constructor
  · rintro ⟨row, hrow, rfl, rfl⟩
    rw [Library.mem_rowsUnder, Library.mem_deleteTrack hdelete] at hrow
    obtain ⟨⟨hmem, hne⟩, hstarts⟩ := hrow
    obtain ⟨other, g, hknown, hother, hg⟩ :=
      (h row.filePath row.stamp).mp ⟨row, Library.mem_rowsUnder.mpr ⟨hmem, hstarts⟩, rfl, rfl⟩
    refine ⟨other, g, ?_, hother, hg⟩
    rw [Function.update_of_ne]
    · exact hknown
    · rintro rfl
      exact hne (congrArg Track.id (Library.eq_of_path hmem ht (hother.symm.trans htext.symm)))
  · rintro ⟨other, g, hknown, rfl, rfl⟩
    by_cases hother : other = path
    · grind
    · rw [Function.update_of_ne hother] at hknown
      obtain ⟨row, hrow, hrowText, hg⟩ :=
        (h (fromUtf8Lossy other) g.stamp).mpr ⟨other, g, hknown, rfl, rfl⟩
      obtain ⟨hmem, hstarts⟩ := Library.mem_rowsUnder.mp hrow
      refine ⟨row, Library.mem_rowsUnder.mpr ⟨?_, hstarts⟩, hrowText, hg⟩
      grind [Library.mem_deleteTrack, Library.eq_of_id]

theorem Agrees.absent (h : Agrees root known lib)
    (hfind : lib.findTrackByPath (fromUtf8Lossy path) = none) : known path = none := by
  cases hknown : known path with
  | none => rfl
  | some f =>
    obtain ⟨row, hrow, htext, -⟩ :=
      (h (fromUtf8Lossy path) f.stamp).mpr ⟨path, f, hknown, rfl, rfl⟩
    have hsome := Library.findTrackByPath_eq_some.mpr
      ⟨(Library.mem_rowsUnder.mp hrow).1, htext⟩
    rw [hfind] at hsome
    cases hsome

/-- Rows in line with the tracks agree with what is known of them. -/
theorem InLine.agrees {disk : Disk FileData} {tracks : List Track}
    (h : InLine disk tracks (lib.rowsUnder root) lib lib')
    (hunder : ∀ t ∈ tracks, pathStartsWith (asBytes t.filePath) root = true)
    (hstrays : ∀ row ∈ lib.rowsUnder root, row.filePath ∉ tracks.map Track.filePath →
      opened disk (asBytes row.filePath) = none)
    (hknown : ∀ text stamp, (∃ t ∈ tracks, t.filePath = text ∧ t.stamp = stamp) ↔
      ∃ path f, known path = some f ∧ fromUtf8Lossy path = text ∧ f.stamp = stamp) :
    Agrees root known lib' := by
  intro text stamp
  rw [← hknown]
  constructor
  · rintro ⟨row, hrow, rfl, rfl⟩
    obtain ⟨hmem, hstarts⟩ := Library.mem_rowsUnder.mp hrow
    rcases h.rows row hmem with ⟨t, ht, hrowOf⟩ | ⟨hold, hpath, hstays⟩
    · exact ⟨t, ht, hrowOf.filePath.symm, hrowOf.stamp.symm⟩
    · have hexisting := Library.mem_rowsUnder.mpr ⟨hold, hstarts⟩
      refine (hstays hexisting ⟨fun hid => ?_, hstrays row hexisting hpath⟩).elim
      -- its id is a track's, whose row it would be
      obtain ⟨t, ht, hsame⟩ := List.mem_map.mp hid
      obtain ⟨other, hother, hrowOf⟩ := h.scanned t ht
      rw [Library.eq_of_id hmem hother (hsame.symm.trans hrowOf.id.symm), hrowOf.filePath] at hpath
      exact hpath (List.mem_map_of_mem ht)
  · rintro ⟨t, ht, rfl, rfl⟩
    obtain ⟨row, hrow, hrowOf⟩ := h.scanned t ht
    refine ⟨row, Library.mem_rowsUnder.mpr ⟨hrow, ?_⟩, hrowOf.filePath, hrowOf.stamp⟩
    rw [hrowOf.filePath]
    exact hunder t ht

end

end MichiServer.Scanner
