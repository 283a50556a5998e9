import MichiServer.Scanner.Library

/-!
# Where the scanner and the watcher agree

Both walks reach the files of a tree by the names that lead to them. They see the same files exactly
when no audio file that the scanner reaches lies at or below a name that begins with a dot
(`scan_snapshot_agree_iff`): a hidden audio file is indexed but never watched.

The paths are compared as the texts that the library keeps of them. Two paths may have one text, so
that a file is missed only shows because a text still says how many of its names begin with a dot.
-/

namespace MichiServer.Scanner

open MichiServer.Files MichiServer.Text

inductive Holds : Entries → List FileName → FileData → Prop
  | file {entries : Entries} {name : FileName} {data : FileData} :
      (name, .file data) ∈ entries → Holds entries [name] data
  | dir {entries inner : Entries} {name : FileName} {names : List FileName} {data : FileData} :
      (name, .dir inner) ∈ entries → Holds inner names data → Holds entries (name :: names) data

def pathBelow (path : Path) (names : List FileName) : Path :=
  names.foldl (fun p name => join p name.bytes) path

def Dotted (name : FileName) : Prop := name.bytes.head? = some dot

instance (name : FileName) : Decidable (Dotted name) := inferInstanceAs (Decidable (_ = _))

/-! ## What the two walks reach -/

section

variable {names : List FileName} {name : FileName} {data : FileData} {rest : Entries}

theorem not_holds_nil : ¬ Holds [] names data := by
  rintro (h | ⟨h, -⟩) <;> cases h

theorem Holds.ne_nil {entries : Entries} (h : Holds entries names data) : names ≠ [] := by
  cases h <;> exact List.cons_ne_nil _ _

theorem holds_link {target : Path} :
    Holds ((name, .link target) :: rest) names data ↔ Holds rest names data := by
  constructor
  · rintro (h | ⟨h, hinner⟩)
    · exact .file (by simpa using h)
    · exact .dir (by simpa using h) hinner
  · rintro (h | ⟨h, hinner⟩)
    · exact .file (List.mem_cons_of_mem _ h)
    · exact .dir (List.mem_cons_of_mem _ h) hinner

theorem holds_file {content : FileData} :
    Holds ((name, .file content) :: rest) names data ↔
      names = [name] ∧ data = content ∨ Holds rest names data := by
  constructor
  · rintro (h | ⟨h, hinner⟩)
    · rcases List.mem_cons.mp h with heq | h
      · cases heq
        exact .inl ⟨rfl, rfl⟩
      · exact .inr (.file h)
    · exact .inr (.dir (by simpa using h) hinner)
  · rintro (⟨rfl, rfl⟩ | h | ⟨h, hinner⟩)
    · exact .file List.mem_cons_self
    · exact .file (List.mem_cons_of_mem _ h)
    · exact .dir (List.mem_cons_of_mem _ h) hinner

theorem holds_dir {inner : Entries} :
    Holds ((name, .dir inner) :: rest) names data ↔
      (∃ more, names = name :: more ∧ Holds inner more data) ∨ Holds rest names data := by
  constructor
  · rintro (h | ⟨h, hinner⟩)
    · exact .inr (.file (by simpa using h))
    · rcases List.mem_cons.mp h with heq | h
      · cases heq
        exact .inl ⟨_, rfl, hinner⟩
      · exact .inr (.dir h hinner)
  · rintro (⟨more, rfl, hinner⟩ | h | ⟨h, hinner⟩)
    · exact .dir List.mem_cons_self hinner
    · exact .file (List.mem_cons_of_mem _ h)
    · exact .dir (List.mem_cons_of_mem _ h) hinner

end

/-- The tracks a scan finds below a directory. -/
theorem mem_scanEntries {newV5 : List UInt8 → Uuid} {libraryRoot : Path} {t : Track}
    (path : Path) (entries : Entries) :
    t ∈ scanEntries newV5 libraryRoot path entries ↔
      ∃ names data, Holds entries names data ∧ (∀ dir ∈ names.dropLast, hiddenText dir = false) ∧
        trackFromFile newV5 libraryRoot (pathBelow path names) data = some t := by
  fun_induction scanEntries with
  | case1 path => simp [not_holds_nil]
  | case2 path name target rest ih => simp only [ih, holds_link]
  | case3 path name inner rest hinner hrest =>
    rw [List.mem_append, hrest]
    simp only [holds_dir, or_and_right, exists_or]
    apply or_congr_left
    constructor
    · intro h
      split at h
      · cases h
      next hname =>
        obtain ⟨more, data, hholds, hdirs, htrack⟩ := hinner.mp h
        refine ⟨name :: more, data, ⟨more, rfl, hholds⟩, ?_, htrack⟩
        rw [List.dropLast_cons_of_ne_nil hholds.ne_nil, List.forall_mem_cons]
        exact ⟨Bool.not_eq_true _ ▸ hname, hdirs⟩
    · rintro ⟨_, data, ⟨more, rfl, hholds⟩, hdirs, htrack⟩
      rw [List.dropLast_cons_of_ne_nil hholds.ne_nil, List.forall_mem_cons] at hdirs
      rw [hdirs.1, if_neg Bool.false_ne_true]
      exact hinner.mpr ⟨more, data, hholds, hdirs.2, htrack⟩
  | case4 path name data rest hrest =>
    rw [List.mem_append, hrest]
    simp only [holds_file, or_and_right, exists_or]
    apply or_congr_left
    rw [Option.mem_toList]
    constructor
    · intro h
      exact ⟨[name], data, ⟨rfl, rfl⟩, by simp, h⟩
    · rintro ⟨_, _, ⟨rfl, rfl⟩, -, h⟩
      exact h

/-- The files a snapshot finds below a directory. -/
theorem mem_snapshotDirectory {f : Path × Fingerprint} (path : Path) (entries : Entries) :
    f ∈ snapshotDirectory path entries ↔
      ∃ names data, Holds entries names data ∧ (∀ name ∈ names, hiddenLossy name = false) ∧
        data.regular = true ∧ isAudioFile (pathBelow path names) = true ∧
        f = (pathBelow path names, data.fingerprint) := by
  fun_induction snapshotDirectory with
  | case1 path => simp [not_holds_nil]
  | case2 path name target rest ih => simp only [ih, holds_link]
  | case3 path name inner rest hinner hrest =>
    rw [List.mem_append, hrest]
    simp only [holds_dir, or_and_right, exists_or]
    apply or_congr_left
    constructor
    · intro h
      split at h
      · cases h
      next hname =>
        obtain ⟨more, data, hholds, hnames, hfile⟩ := hinner.mp h
        refine ⟨name :: more, data, ⟨more, rfl, hholds⟩, ?_, hfile⟩
        exact List.forall_mem_cons.mpr ⟨Bool.not_eq_true _ ▸ hname, hnames⟩
    · rintro ⟨_, data, ⟨more, rfl, hholds⟩, hnames, hfile⟩
      rw [List.forall_mem_cons] at hnames
      rw [hnames.1, if_neg Bool.false_ne_true]
      exact hinner.mpr ⟨more, data, hholds, hnames.2, hfile⟩
  | case4 path name data rest joined hrest =>
    rw [List.mem_append, hrest]
    simp only [holds_file, or_and_right, exists_or]
    apply or_congr_left
    constructor
    · intro h
      split at h
      · cases h
      next hseen =>
        simp only [Bool.or_eq_true, Bool.not_eq_true', not_or, Bool.not_eq_true,
          Bool.not_eq_false] at hseen
        refine ⟨[name], data, ⟨rfl, rfl⟩, by simpa using hseen.1.1, hseen.1.2, hseen.2, ?_⟩
        exact List.mem_singleton.mp h
    · rintro ⟨_, _, ⟨rfl, rfl⟩, hnames, hregular, haudio, rfl⟩
      rw [List.forall_mem_singleton] at hnames
      rw [if_neg]
      · exact List.mem_singleton_self _
      · simp [hnames, hregular, show isAudioFile joined = true from haudio]

/-! ## Dots in paths and in their texts -/

theorem startsWith_dot (s : String) : startsWith s "." = true ↔ s.toList.head? = some '.' := by
  rw [startsWith, List.isPrefixOf_iff_prefix]
  cases s.toList with
  | nil => simp
  | cons c rest => simp [List.cons_prefix_cons, eq_comm]

theorem hiddenLossy_iff (name : FileName) : hiddenLossy name = true ↔ Dotted name := by
  rw [hiddenLossy, startsWith_dot]
  have hhead := (shadows_lossy name.bytes).head (y := dot) (by decide) (by decide)
  exact hhead.symm

theorem dotted_of_hiddenText {name : FileName} (h : hiddenText name = true) : Dotted name := by
  unfold hiddenText at h
  cases htext : fromUtf8 name.bytes with
  | none =>
    rw [htext] at h
    cases h
  | some s =>
    rw [htext] at h
    rw [← hiddenLossy_iff, hiddenLossy, fromUtf8Lossy, htext]
    exact h

theorem follows_join {base : Path} (hbase : base ≠ []) (name : FileName) :
    follows slash dot (join base name.bytes) =
      follows slash dot base + if Dotted name then 1 else 0 := by
  have hname := follows_of_not_mem dot name.is_name.no_slash
  rw [join, isAbsolute_of_not_mem name.is_name.no_slash, if_neg Bool.false_ne_true]
  by_cases hslash : base.getLast? = some slash
  · rw [if_pos (by simp [hslash]), follows_append, hname]
    simp only [hslash, true_and, Nat.add_zero]
    rfl
  · rw [if_neg (by simp [hslash, hbase]), follows_append, follows, hname]
    simp only [hslash, false_and, if_false, true_and, Nat.add_zero]
    rfl

theorem join_ne_nil {base : Path} (hbase : base ≠ []) (path : Path) : join base path ≠ [] := by
  unfold join
  split
  next h =>
    rintro rfl
    simp [isAbsolute] at h
  · split <;> simp [hbase]

theorem follows_pathBelow {root : Path} (hroot : root ≠ []) (names : List FileName) :
    follows slash dot (pathBelow root names) =
      follows slash dot root + names.countP fun name => Dotted name := by
  induction names generalizing root with
  | nil => rfl
  | cons name rest ih =>
    grind [join_ne_nil, pathBelow, follows_join]

theorem countP_dotted_of_text {root : Path} (hroot : root ≠ []) {names other : List FileName}
    (h : fromUtf8Lossy (pathBelow root names) = fromUtf8Lossy (pathBelow root other)) :
    (names.countP fun name => Dotted name) = other.countP fun name => Dotted name := by
  have hcount : ∀ path : Path, follows '/' '.' (fromUtf8Lossy path).toList =
      follows slash dot path := by
    intro path
    exact (shadows_lossy path).follows (x := slash) (y := dot) (by decide) (by decide) (by decide)
      (by decide)
  grind [follows, follows_pathBelow]

/-! ## The same files -/

/-- The texts of the paths in the snapshot are the file paths of the tracks. Where one walk fails the
other fails too. -/
def SeeSameFiles (newV5 : List UInt8 → Uuid) (disk : Disk FileData) (root : Path) : Prop :=
  match scanDirectorySyncStrict newV5 disk root root, snapshot disk root with
  | .ok tracks, .ok files =>
    ∀ text, (∃ f ∈ files, fromUtf8Lossy f.1 = text) ↔ ∃ t ∈ tracks, t.filePath = text
  | .error _, .error _ => True
  | _, _ => False

/-- No audio file that the scanner reaches lies at or below a name that begins with a dot. -/
def NoneHidden (disk : Disk FileData) (root : Path) : Prop :=
  ∀ entries, disk.openPath root = some (.dir entries) →
    ∀ names data, Holds entries names data → data.regular = true →
      isAudioFile (pathBelow root names) = true →
      (∀ dir ∈ names.dropLast, hiddenText dir = false) → ∀ name ∈ names, ¬ Dotted name

theorem root_ne_nil {disk : Disk FileData} {root : Path} {node : Node FileData}
    (h : disk.openPath root = some node) : root ≠ [] := by
  rintro rfl
  simp [Disk.openPath, Disk.resolve, Node.resolve] at h

theorem trackFromFile_eq_some {newV5 : List UInt8 → Uuid} {root path : Path} {data : FileData}
    {t : Track} (h : trackFromFile newV5 root path data = some t) :
    data.regular = true ∧ isAudioFile path = true ∧ t.filePath = fromUtf8Lossy path := by
  unfold trackFromFile at h
  split at h
  · cases h
  next hfile =>
    simp only [Bool.or_eq_true, Bool.not_eq_true', not_or, Bool.not_eq_false] at hfile
    cases h
    exact ⟨hfile.1, hfile.2, rfl⟩

theorem trackFromFile_of_audio (newV5 : List UInt8 → Uuid) (root : Path) {path : Path}
    {data : FileData} (hregular : data.regular = true) (haudio : isAudioFile path = true) :
    ∃ t, trackFromFile newV5 root path data = some t := by
  unfold trackFromFile
  rw [if_neg (by simp [hregular, haudio])]
  exact ⟨_, rfl⟩

/-- The scanner and the watcher see the same files exactly when none that the scanner reaches is
hidden. -/
theorem scan_snapshot_agree_iff (newV5 : List UInt8 → Uuid) (disk : Disk FileData) (root : Path) :
    SeeSameFiles newV5 disk root ↔ NoneHidden disk root := by
  unfold SeeSameFiles NoneHidden scanDirectorySyncStrict snapshot
  cases hopen : disk.openPath root with
  | none => simp
  | some node =>
    cases node with
    | file data => simp
    | link target => simp
    | dir entries =>
      simp only [Option.some.injEq, Node.dir.injEq, forall_eq']
      constructor
      · intro hsame names data hholds hregular haudio hdirs name hname hdotted
        obtain ⟨t, ht⟩ := trackFromFile_of_audio newV5 root hregular haudio
        have hseen : t ∈ scanEntries newV5 root root entries :=
          (mem_scanEntries root entries).mpr ⟨names, data, hholds, hdirs, ht⟩
        obtain ⟨f, hf, htext⟩ := (hsame t.filePath).mpr ⟨t, hseen, rfl⟩
        obtain ⟨other, found, -, hother, -, -, rfl⟩ := (mem_snapshotDirectory root entries).mp hf
        rw [(trackFromFile_eq_some ht).2.2] at htext
        have hcount := countP_dotted_of_text (root_ne_nil hopen) htext
        have hnone : (other.countP fun name => Dotted name) = 0 := by
          refine List.countP_eq_zero.mpr fun other' hmem hdot => ?_
          have hvisible := hother other' hmem
          rw [(hiddenLossy_iff other').mpr (of_decide_eq_true hdot)] at hvisible
          cases hvisible
        rw [hnone] at hcount
        exact absurd (decide_eq_true hdotted) (List.countP_eq_zero.mp hcount.symm name hname)
      · intro hnone text
        constructor
        · rintro ⟨f, hf, rfl⟩
          obtain ⟨names, data, hholds, hnames, hregular, haudio, rfl⟩ :=
            (mem_snapshotDirectory root entries).mp hf
          obtain ⟨t, ht⟩ := trackFromFile_of_audio newV5 root hregular haudio
          refine ⟨t, (mem_scanEntries root entries).mpr ⟨names, data, hholds, ?_, ht⟩,
            (trackFromFile_eq_some ht).2.2⟩
          intro dir hdir
          rw [Bool.eq_false_iff]
          intro hhidden
          have hvisible := hnames dir (List.mem_of_mem_dropLast hdir)
          rw [(hiddenLossy_iff dir).mpr (dotted_of_hiddenText hhidden)] at hvisible
          cases hvisible
        · rintro ⟨t, ht, rfl⟩
          obtain ⟨names, data, hholds, hdirs, htrack⟩ := (mem_scanEntries root entries).mp ht
          obtain ⟨hregular, haudio, htext⟩ := trackFromFile_eq_some htrack
          refine ⟨_, (mem_snapshotDirectory root entries).mpr
            ⟨names, data, hholds, ?_, hregular, haudio, rfl⟩, htext.symm⟩
          intro name hname
          rw [Bool.eq_false_iff]
          intro hhidden
          exact hnone names data hholds hregular haudio hdirs name hname
            ((hiddenLossy_iff name).mp hhidden)

def hiddenFileEntries : Entries := [
  (⟨asBytes "a.mp3", by decide⟩, .file ⟨true, [1], some 5⟩),
  (⟨asBytes ".b.mp3", by decide⟩, .file ⟨true, [2], some 6⟩)]

def hiddenFileDisk : Disk FileData where
  entries := [(⟨asBytes "music", by decide⟩, .dir hiddenFileEntries)]
  cwd := []
  cwd_real := Node.real_root rfl

/-- The scanner makes a track of the hidden file, and the watcher does not see it. -/
theorem hidden_file_not_watched :
    ¬ SeeSameFiles (fun _ => 0) hiddenFileDisk (asBytes "/music") := by
  have hopen : hiddenFileDisk.openPath (asBytes "/music") = some (.dir hiddenFileEntries) := rfl
  have hscan : scanDirectorySyncStrict (fun _ => 0) hiddenFileDisk (asBytes "/music")
      (asBytes "/music") = .ok [
        ⟨0, "/music/a.mp3", none, some 1, some 5⟩, ⟨0, "/music/.b.mp3", none, some 1, some 6⟩] := by
    simp only [scanDirectorySyncStrict, hopen, hiddenFileEntries, scanEntries]
    decide +kernel
  have hsnapshot : snapshot hiddenFileDisk (asBytes "/music") =
      .ok [(asBytes "/music/a.mp3", ⟨some 5, 1⟩)] := by
    simp only [snapshot, hopen, hiddenFileEntries, snapshotDirectory]
    decide +kernel
  unfold SeeSameFiles
  rw [hscan, hsnapshot]
  simp [fromUtf8Lossy_asBytes]

end MichiServer.Scanner
