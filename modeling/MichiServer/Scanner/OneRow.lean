import MichiServer.Scanner.InLine

/-!
# One row for each file

The scan of all roots leaves one row for each audio file when the ids of the files can be told apart:
an id is of a path relative to a root, while a row is found by its full path. Before each root is
reconciled its files must have distinct ids that no row of another path has, and a row that would get
another id must not be referred to (`one_row_per_file`). Two roots with a file of one relative path
break it (`equal_relative_paths_refused`).
-/

namespace MichiServer.Scanner

open MichiServer.Files MichiServer.Text MichiServer.Interleave

section

variable (newV5 : List UInt8 → Uuid) (disk : Disk FileData)

/-- An audio file that a scan of the root reaches: its track, and the place it is at. -/
def Finds (root : Path) (t : Track) (loc : Location) : Prop :=
  ∃ base entries names data, disk.resolve root = some base ∧
    disk.openPath root = some (.dir entries) ∧ Holds entries names data ∧
    (∀ dir ∈ names.dropLast, hiddenText dir = false) ∧
    trackFromFile newV5 root (pathBelow root names) data = some t ∧ loc = base ++ names

/-- The row is of the file at the place, by the path that some root gives it. -/
def RowFor (roots : List Path) (loc : Location) (row : Track) : Prop :=
  ∃ root ∈ roots, ∃ t, Finds newV5 disk root t loc ∧ row.filePath = t.filePath

/-- Every audio file has exactly one row, and distinct files have distinct ids. -/
structure OneRowEach (roots : List Path) (lib : Library) : Prop where
  one : ∀ root ∈ roots, ∀ t loc, Finds newV5 disk root t loc →
    ∃! row, row ∈ lib.tracks ∧ RowFor newV5 disk roots loc row
  ids : ∀ loc loc' row row', row ∈ lib.tracks → row' ∈ lib.tracks →
    RowFor newV5 disk roots loc row → RowFor newV5 disk roots loc' row' → loc ≠ loc' →
    row.id ≠ row'.id

/-- What refers to the row of a file that is there refers to it afterwards. -/
def EntriesKept (roots : List Path) (lib lib' : Library) : Prop :=
  ∀ entry ∈ lib.references, ∀ row ∈ lib.tracks, row.id = entry.trackId →
    (∃ loc, RowFor newV5 disk roots loc row) →
    entry ∈ lib'.references ∧
      ∃ row' ∈ lib'.tracks, row'.id = entry.trackId ∧ row'.filePath = row.filePath

/-- The calls meet the tree: nothing fails, every path is on its device, and each root is walked as it
is. -/
structure Calm (device : Path → ℕ) (roots : List Path) (m : Moment) : Prop extends
    Shows disk True m where
  device : ∀ path, m.deviceOf path = (opened disk path).map fun _ => device path
  scan : ∀ root ∈ roots,
    match m.scan root with
    | .finished files => scanDirectorySyncStrict newV5 disk root root =
        .ok (files.map fun f => trackOf newV5 root f.1 f.2)
    | .failed reason => scanDirectorySyncStrict newV5 disk root root = .error reason
    | .cancelled => False

/-- The texts of paths tell the files of the roots apart, and a file whose text lies under a root is
scanned with that root or is where its text says. -/
structure TextsTell (roots : List Path) : Prop where
  texts : ∀ root ∈ roots, ∀ root' ∈ roots, ∀ t t' loc loc', Finds newV5 disk root t loc →
    Finds newV5 disk root' t' loc' → (t.filePath = t'.filePath ↔ loc = loc')
  spelled : ∀ root ∈ roots, ∀ root' ∈ roots, ∀ t loc, Finds newV5 disk root' t loc →
    pathStartsWith (asBytes t.filePath) root = true →
    (∃ t' loc', Finds newV5 disk root t' loc' ∧ t'.filePath = t.filePath) ∨
      opened disk (asBytes t.filePath) ≠ none

end

def Accepted (lib : Library) (root : Path) (device : Option ℕ) (tracks : List Track) : Prop :=
  lib.rowsUnder root = [] ∨
    refusal (lib.getMountDeviceId (rootStr root)) device tracks (lib.rowsUnder root) = none ∧
      ¬ (lib.unavailable (rootStr root) = true ∧ tracks = [])

/-- The tracks of a root fit into the library: their ids are distinct and free, what refers to the rows
that will go goes with them, and the mount is accepted. -/
structure Fits (disk : Disk FileData) (device : Path → ℕ) (root : Path) (lib : Library)
    (tracks : List Track) : Prop where
  ids_apart : (tracks.map Track.id).Nodup
  ids_free : IdsFree lib tracks
  deletable : Deletable disk (tracks.map Track.id) (lib.rowsUnder root) lib
  accepted : Accepted lib root (some (device root)) tracks

/-- Before a root is scanned, what there is to find fits into the library. -/
def FitsWhenScanned (newV5 : List UInt8 → Uuid) (disk : Disk FileData) (device : Path → ℕ) :
    Call → World → Prop
  | .scanRoot root, w => ∀ tracks, scanDirectorySyncStrict newV5 disk root root = .ok tracks →
      Fits disk device root w.lib tracks
  | _, _ => True

/-! ## Scans -/

section

variable {newV5 : List UInt8 → Uuid} {disk : Disk FileData} {root : Path} {tracks : List Track}
  {t t' : Track} {loc : Location}

/-- A track is scanned exactly where its file is found. -/
theorem mem_scanned (h : scanDirectorySyncStrict newV5 disk root root = .ok tracks) :
    t ∈ tracks ↔ ∃ loc, Finds newV5 disk root t loc := by
  unfold scanDirectorySyncStrict at h
  cases hopen : disk.openPath root with
  | none =>
    rw [hopen] at h
    cases h
  | some node =>
    rw [hopen] at h
    cases node with
    | dir entries =>
      cases h
      obtain ⟨base, hbase, -⟩ := Option.bind_eq_some_iff.mp hopen
      rw [mem_scanEntries]
      constructor
      · rintro ⟨names, data, hholds, hdirs, ht⟩
        exact ⟨base ++ names, base, entries, names, data, hbase, hopen, hholds, hdirs, ht, rfl⟩
      · rintro ⟨loc, base', entries', names, data, -, hopen', hholds, hdirs, ht, -⟩
        grind
    | file data => cases h
    | link target => cases h

theorem Finds.id_eq (h : Finds newV5 disk root t loc) (h' : Finds newV5 disk root t' loc) :
    t.id = t'.id := by
  obtain ⟨base, entries, names, data, hbase, -, -, -, ht, rfl⟩ := h
  obtain ⟨base', entries', names', data', hbase', -, -, -, ht', heq⟩ := h'
  rw [hbase] at hbase'
  cases hbase'
  rw [List.append_cancel_left heq] at ht
  unfold trackFromFile at ht ht'
  split at ht
  · cases ht
  · split at ht'
    · cases ht'
    · cases ht
      cases ht'
      rfl

theorem paths_nodup_of_ids {roots : List Path} (htell : TextsTell newV5 disk roots)
    (hroot : root ∈ roots) (h : scanDirectorySyncStrict newV5 disk root root = .ok tracks)
    (hids : (tracks.map Track.id).Nodup) : (tracks.map Track.filePath).Nodup := by
  apply List.Nodup.map_on _ (List.Nodup.of_map _ hids)
  intro t ht t' ht' hpath
  obtain ⟨loc, hfinds⟩ := (mem_scanned h).mp ht
  obtain ⟨loc', hfinds'⟩ := (mem_scanned h).mp ht'
  cases (htell.texts root hroot root hroot t t' loc loc' hfinds hfinds').mp hpath
  exact List.inj_on_of_nodup_map hids ht ht' (hfinds.id_eq hfinds')

end

/-! ## What a reconciliation keeps -/

/-- The files that have rows keep them, and what refers to them stays. -/
structure Keeps (newV5 : List UInt8 → Uuid) (disk : Disk FileData) (roots : List Path)
    (lib lib' : Library) : Prop where
  rows : ∀ row ∈ lib.tracks, (∃ loc, RowFor newV5 disk roots loc row) →
    ∃ row' ∈ lib'.tracks, row'.filePath = row.filePath
  entries : EntriesKept newV5 disk roots lib lib'

section

variable {newV5 : List UInt8 → Uuid} {disk : Disk FileData} {roots : List Path} {root : Path}
  {tracks : List Track} {lib lib₁ lib' : Library}

theorem Keeps.of_same (htracks : lib'.tracks = lib.tracks)
    (hreferences : lib'.references = lib.references) : Keeps newV5 disk roots lib lib' := by
  constructor
  · intro row hrow _
    exact ⟨row, htracks ▸ hrow, rfl⟩
  · intro entry hentry row hrow hid _
    exact ⟨hreferences ▸ hentry, row, htracks ▸ hrow, hid, rfl⟩

theorem Keeps.trans (h : Keeps newV5 disk roots lib lib₁)
    (h' : Keeps newV5 disk roots lib₁ lib') : Keeps newV5 disk roots lib lib' := by
  have hfor : ∀ {row row' : Track}, row'.filePath = row.filePath →
      (∃ loc, RowFor newV5 disk roots loc row) → ∃ loc, RowFor newV5 disk roots loc row' := by
    rintro row row' hpath ⟨loc, root, hroot, t, hfinds, hrow⟩
    exact ⟨loc, root, hroot, t, hfinds, hpath.trans hrow⟩
  constructor
  · intro row hrow hloc
    obtain ⟨row₁, hrow₁, hpath₁⟩ := h.rows row hrow hloc
    obtain ⟨row', hrow', hpath'⟩ := h'.rows row₁ hrow₁ (hfor hpath₁ hloc)
    exact ⟨row', hrow', hpath'.trans hpath₁⟩
  · intro entry hentry row hrow hid hloc
    obtain ⟨hentry₁, row₁, hrow₁, hid₁, hpath₁⟩ := h.entries entry hentry row hrow hid hloc
    obtain ⟨hentry', row', hrow', hid', hpath'⟩ :=
      h'.entries entry hentry₁ row₁ hrow₁ hid₁ (hfor hpath₁ hloc)
    exact ⟨hentry', row', hrow', hid', hpath'.trans hpath₁⟩

theorem not_gone (htell : TextsTell newV5 disk roots) (hroot : root ∈ roots)
    (hscan : scanDirectorySyncStrict newV5 disk root root = .ok tracks) {row : Track}
    (hloc : ∃ loc, RowFor newV5 disk roots loc row)
    (hpath : row.filePath ∉ tracks.map Track.filePath) (hunder : row ∈ lib.rowsUnder root) :
    ¬ Gone disk (tracks.map Track.id) row := by
  rintro ⟨-, hnothing⟩
  obtain ⟨loc, root', hroot', t, hfinds, hrow⟩ := hloc
  have hstarts : pathStartsWith (asBytes t.filePath) root = true := by
    rw [← hrow]
    exact (List.mem_filter.mp hunder).2
  rcases htell.spelled root hroot root' hroot' t loc hfinds hstarts with
    ⟨t', loc', hfinds', hsame⟩ | hthere
  · grind [mem_scanned]
  · rw [hrow] at hnothing
    exact hthere hnothing

/-- What is in line with a scan has one row for each file. -/
theorem InLine.keeps (htell : TextsTell newV5 disk roots) (hroot : root ∈ roots)
    (hscan : scanDirectorySyncStrict newV5 disk root root = .ok tracks)
    (hfree : IdsFree lib tracks) (h : InLine disk tracks (lib.rowsUnder root) lib lib') :
    Keeps newV5 disk roots lib lib' := by
  have hkept : ∀ row ∈ lib.tracks, (∃ loc, RowFor newV5 disk roots loc row) →
      row.filePath ∉ tracks.map Track.filePath → row ∈ lib'.tracks :=
    fun row hrow hloc hpath => h.kept row hrow hpath (not_gone htell hroot hscan hloc hpath)
  constructor
  · intro row hrow hloc
    by_cases hpath : row.filePath ∈ tracks.map Track.filePath
    · obtain ⟨t, ht, hsame⟩ := List.mem_map.mp hpath
      obtain ⟨row', hrow', hrowOf⟩ := h.scanned t ht
      exact ⟨row', hrow', hrowOf.filePath.trans hsame⟩
    · exact ⟨row, hkept row hrow hloc hpath, rfl⟩
  · intro entry hentry row hrow hid hloc
    by_cases hpath : row.filePath ∈ tracks.map Track.filePath
    · obtain ⟨t, ht, hsame⟩ := List.mem_map.mp hpath
      obtain ⟨earlier, later, hsplit⟩ := List.append_of_mem ht
      -- a row that is referred to keeps its id
      have hsameId : row.id = t.id := by
        apply ((hfree earlier t later hsplit row hrow).2 hsame.symm).resolve_right
        grind [Library.refers]
      obtain ⟨row', hrow', hrowOf⟩ := h.scanned t ht
      refine ⟨(h.references entry).mpr ⟨hentry, ?_⟩, row', hrow',
        hrowOf.id.trans (hsameId.symm.trans hid), hrowOf.filePath.trans hsame⟩
      intro existing _ hgone heq
      apply hgone.1
      rw [← heq, ← hid, hsameId]
      exact List.mem_map_of_mem ht
    · refine ⟨(h.references entry).mpr ⟨hentry, ?_⟩, row, hkept row hrow hloc hpath, hid, rfl⟩
      intro existing hexisting hgone heq
      have hsame : row = existing :=
        Library.eq_of_id hrow (List.mem_filter.mp hexisting).1 (hid.trans heq)
      grind [not_gone]

theorem oneRowEach_of_rows (htell : TextsTell newV5 disk roots)
    (h : ∀ root ∈ roots, ∀ t loc, Finds newV5 disk root t loc →
      ∃ row ∈ lib.tracks, row.filePath = t.filePath) : OneRowEach newV5 disk roots lib := by
  constructor
  · intro root hroot t loc hfinds
    obtain ⟨row, hrow, hpath⟩ := h root hroot t loc hfinds
    refine ⟨row, ⟨hrow, root, hroot, t, hfinds, hpath⟩, ?_⟩
    rintro other ⟨hother, root', hroot', t', hfinds', hpath'⟩
    have hsame := (htell.texts root' hroot' root hroot t' t loc loc hfinds' hfinds).mpr rfl
    grind [Library.eq_of_path]
  · rintro loc loc' row row' hrow hrow' ⟨root, hroot, t, hfinds, hpath⟩
      ⟨root', hroot', t', hfinds', hpath'⟩ hne hid
    apply hne
    apply (htell.texts root hroot root' hroot' t t' loc loc' hfinds hfinds').mp
    rw [← hpath, ← hpath', Library.eq_of_id hrow hrow' hid]

end

/-! ## The scan of all roots -/

section

variable {o : Outside} {disk : Disk FileData} {device : Path → ℕ} {roots : List Path} {w : World}
  {root : Path} {tracks : List Track}

theorem exec_device_calm (hcalm : ∀ n, Calm o.newV5 disk device roots (o.history n))
    (hopened : opened disk root = some .dir) :
    (exec o (.getPathDeviceId root) w).1 = some (device root) := by
  have hm := hcalm w.clock
  have hpresent := hm.present root
  rw [hopened, Moment.present] at hpresent
  simp only [exec]
  split at hpresent
  · cases hpresent
  next hfails => rw [if_neg hfails, hm.device, hopened, Option.map_some]

/-- A scan that fits is reconciled. -/
theorem reconcileScanned_fits (hcalm : ∀ n, Calm o.newV5 disk device roots (o.history n))
    (hopened : opened disk root = some .dir) (hfits : Fits disk device root w.lib tracks)
    (hpaths : (tracks.map Track.filePath).Nodup) :
    Shown o disk True
      (fun r w' => r = .ok () ∧ InLine disk tracks (w.lib.rowsUnder root) w.lib w'.lib)
      (reconcileScanned root tracks) w := by
  have hdb : ∀ n, (o.history n).dbError = none := fun n => (hcalm n).answers trivial
  have hwrite : ∀ w' : World, w'.lib = w.lib →
      Shown o disk True
        (fun r w'' => r = .ok () ∧ InLine disk tracks (w.lib.rowsUnder root) w.lib w''.lib)
        (writeRoot root tracks (w.lib.rowsUnder root) (some (device root))) w' := by
    intro w' hlib
    apply (writeRoot_in_line root _ (fun existing h => hlib ▸ (List.mem_filter.mp h).1) hpaths).mono
    rintro r w'' ⟨hinline, hok⟩
    rw [hlib] at hinline hok
    have hr := hok trivial hfits.ids_apart hfits.ids_free hfits.deletable
    exact ⟨hr, hinline hr⟩
  refine Shown.step fun _ => Shown.step fun _ => ?_
  rw [exec_device_calm hcalm hopened]
  generalize hw₁ : (exec o (.getPathDeviceId root) w).2 = w₁
  have hlib₁ : w₁.lib = w.lib := by rw [← hw₁]; rfl
  simp only [exec, World.query_ok (hdb _)]
  apply Prog.Meets.bind
  apply (disappeared_shown hopened).mono
  rintro gone w₂ ⟨rfl, hsame⟩
  have hlib₂ : w₂.lib = w.lib := hsame.trans hlib₁
  refine Shown.step fun _ => ?_
  simp only [exec, World.query_ok (hdb _)]
  rw [hlib₁, hlib₂]
  apply Prog.Meets.ite
  · intro _
    exact hwrite w₂.tick hlib₂
  · intro hsome
    have haccepted := hfits.accepted.resolve_left fun hnil => hsome (List.isEmpty_iff.mpr hnil)
    split
    next reason hrefusal =>
      cases hrefusal.symm.trans haccepted.1
    · refine Shown.step fun _ => ?_
      simp only [exec, World.query_ok (hdb _)]
      apply Prog.Meets.ite
      · intro hempty
        rw [Bool.and_eq_true, List.isEmpty_iff] at hempty
        refine (haccepted.2 ?_).elim
        rwa [show w₂.tick.lib = w.lib from hlib₂] at hempty
      · intro _
        exact hwrite _ hlib₂

/-- On a calm disk a scan succeeds. -/
theorem scan_answer_calm {m : Moment} (hm : Calm o.newV5 disk device roots m) (hroot : root ∈ roots)
    (hopened : opened disk root = some .dir) :
    ∃ tracks, scanDirectorySyncStrict o.newV5 disk root root = .ok tracks ∧
      scanRootCancellable o.newV5 root (m.scan root) = .success (dedupIds [] tracks) := by
  have hwalk := hm.scan root hroot
  cases hscan : m.scan root with
  | finished files =>
    rw [hscan] at hwalk
    exact ⟨_, hwalk, rfl⟩
  | failed reason =>
    rw [hscan] at hwalk
    unfold opened at hopened
    unfold scanDirectorySyncStrict at hwalk
    cases hopen : disk.openPath root with
    | none =>
      rw [hopen] at hopened
      cases hopened
    | some node =>
      rw [hopen] at hopened hwalk
      cases node with
      | dir entries => cases hwalk
      | file data => cases hopened
      | link target => cases hopened
  | cancelled =>
    rw [hscan] at hwalk
    exact hwalk.elim

theorem shown_meets (hcalm : ∀ n, Calm o.newV5 disk device roots (o.history n)) {α : Type}
    {Post : α → World → Prop} {p : CallProg α} (h : Shown o disk True Post p w) :
    p.Meets (exec o) (FitsWhenScanned o.newV5 disk device) (fun _ _ => True) Post w :=
  h.allow fun _ w _ => (hcalm w.clock).toShows

/-- A scan of all the roots keeps one row for each file. -/
theorem scanJob_keeps (hcalm : ∀ n, Calm o.newV5 disk device roots (o.history n))
    (htell : TextsTell o.newV5 disk roots) (rest : List Path) (hrest : ∀ root ∈ rest, root ∈ roots) :
    (scanJob rest).Meets (exec o) (FitsWhenScanned o.newV5 disk device) (fun _ _ => True)
      (fun r w' => r = .ok () ∧ Keeps o.newV5 disk roots w.lib w'.lib ∧
        ∀ root ∈ rest, ∀ t loc, Finds o.newV5 disk root t loc →
          ∃ row ∈ w'.lib.tracks, row.filePath = t.filePath) w := by
  induction rest generalizing w with
  | nil => exact ⟨rfl, .of_same rfl rfl, fun root hroot => absurd hroot List.not_mem_nil⟩
  | cons root rest ih =>
    rw [List.forall_mem_cons] at hrest
    refine Prog.Meets.step fun _ => ⟨trivial, ?_⟩
    apply Prog.Meets.ite
    · intro hcancelled
      simp only [exec, (hcalm _).goes_on, Bool.false_eq_true] at hcancelled
    · intro _
      refine Prog.Meets.step fun _ => ⟨trivial, ?_⟩
      have hpresent := (hcalm w.tick.clock).present root
      by_cases hopened : opened disk root = some .dir
      · simp only [exec, hpresent, hopened]
        refine Prog.Meets.step fun hfits => ⟨trivial, ?_⟩
        obtain ⟨tracks, hscan, hanswer⟩ := scan_answer_calm (hcalm w.tick.tick.clock) hrest.1 hopened
        have hfits : Fits disk device root w.lib tracks := hfits tracks hscan
        have hpaths := paths_nodup_of_ids htell hrest.1 hscan hfits.ids_apart
        rw [show (exec o (.scanRoot root) w.tick.tick).1 = .success tracks by
          rw [exec, hanswer, dedupIds_of_nodup hfits.ids_apart (by simp)]]
        generalize hw₃ : (exec o (.scanRoot root) w.tick.tick).2 = w₃
        have hlib₃ : w₃.lib = w.lib := by rw [← hw₃]; rfl
        apply Prog.Meets.bind
        rw [← hlib₃] at hfits
        apply (shown_meets hcalm (reconcileScanned_fits hcalm hopened hfits hpaths)).mono
        rintro r w₄ ⟨rfl, hinline⟩
        rw [hlib₃] at hinline hfits
        have hkeeps := hinline.keeps htell hrest.1 hscan hfits.ids_free
        apply (ih hrest.2).mono
        rintro r w' ⟨hr, hkeeps', hfound⟩
        refine ⟨hr, hkeeps.trans hkeeps', List.forall_mem_cons.mpr ⟨?_, hfound⟩⟩
        intro t loc hfinds
        obtain ⟨row, hrow, hrowOf⟩ := hinline.scanned t ((mem_scanned hscan).mpr ⟨loc, hfinds⟩)
        obtain ⟨row', hrow', hpath⟩ := hkeeps'.rows row hrow
          ⟨loc, root, hrest.1, t, hfinds, hrowOf.filePath⟩
        exact ⟨row', hrow', hpath.trans hrowOf.filePath⟩
      · have hanswer : ∃ error, (exec o (.readDir root) w.tick).1 = .error error := by
          simp only [exec, hpresent]
          split
          next hdir => exact (hopened hdir).elim
          · exact ⟨_, rfl⟩
          · exact ⟨_, rfl⟩
        obtain ⟨error, herror⟩ := hanswer
        rw [show (exec o (.readDir root) (exec o .isCancelled w).2).1 = _ from herror]
        refine Prog.Meets.step fun _ => ⟨trivial, ?_⟩
        obtain ⟨htracks, hreferences⟩ := exec_update_rows (o := o) (rootStr root) "unavailable"
          error none w.tick.tick
        apply (ih hrest.2).mono
        rintro r w' ⟨hr, hkeeps', hfound⟩
        refine ⟨hr, (Keeps.of_same htracks hreferences).trans hkeeps',
          List.forall_mem_cons.mpr ⟨?_, hfound⟩⟩
        rintro t loc ⟨base, entries, names, data, -, hopen, -⟩
        simp [opened, hopen] at hopened

end

/-- The scan of all roots, from any library, goes through and leaves exactly one row for each audio
file, with an id of its own, and what referred to the row of a file that is there refers to it
afterwards, provided that before each root is scanned what there is to find fits into the library. -/
theorem one_row_per_file (o : Outside) (disk : Disk FileData) (device : Path → ℕ)
    (roots : List Path) (w : World)
    (hcalm : ∀ n, Calm o.newV5 disk device roots (o.history n))
    (htell : TextsTell o.newV5 disk roots)
    (h : (scanJob roots).Along (exec o) (FitsWhenScanned o.newV5 disk device) w) :
    let r := (scanJob roots).play (exec o) w
    r.1 = .ok () ∧ OneRowEach o.newV5 disk roots r.2.lib ∧
      EntriesKept o.newV5 disk roots w.lib r.2.lib := by
  have hmeets := scanJob_keeps (w := w) hcalm htell roots fun _ hroot => hroot
  obtain ⟨-, hr, hkeeps, hfound⟩ := hmeets.along h
  exact ⟨hr, oneRowEach_of_rows htell hfound, hkeeps.entries⟩

/-! ## Two roots -/

def numberOf : List UInt8 → ℕ
  | [] => 0
  | b :: rest => 256 * numberOf rest + b.toNat + 1

/-- Two paths have two numbers. -/
theorem numberOf_injective : Function.Injective numberOf := by
  intro name
  induction name with
  | nil =>
    intro other h
    cases other with
    | nil => rfl
    | cons b rest =>
      simp only [numberOf] at h
      omega
  | cons b rest ih =>
    intro other h
    cases other with
    | nil =>
      simp only [numberOf] at h
      omega
    | cons c others =>
      simp only [numberOf] at h
      have hb := b.toNat_lt
      have hc := c.toNat_lt
      rw [ih (show numberOf rest = numberOf others by omega),
        UInt8.toNat_inj.mp (show b.toNat = c.toNat by omega)]

def xMp3 : FileName := ⟨asBytes "x.mp3", by decide⟩

def yMp3 : FileName := ⟨asBytes "y.mp3", by decide⟩

def dirA : FileName := ⟨asBytes "a", by decide⟩

def dirB : FileName := ⟨asBytes "b", by decide⟩

def oneByte : FileData := ⟨true, [1], some 5⟩

def twoRootDisk (second : FileName) : Disk FileData where
  entries := [(dirA, .dir [(xMp3, .file oneByte)]), (dirB, .dir [(second, .file oneByte)])]
  cwd := []
  cwd_real := Node.real_root rfl

def twoRoots : List Path := [asBytes "/a", asBytes "/b"]

def twoRootOutside (second : FileName) : Outside where
  newV5 := numberOf
  sha256Hex _ := ""
  history _ := {
    deviceOf path := (opened (twoRootDisk second) path).map fun _ => 1
    stored _ path := opened (twoRootDisk second) path
    fails := false
    walk _ := none
    scan root := .finished [(join root (if root = asBytes "/a" then xMp3 else second).bytes,
      some oneByte.fingerprint)]
    cancelled := false
    dbError := none }

section

variable {newV5 : List UInt8 → Uuid} {disk : Disk FileData} {root : Path} {base loc : Location}
  {name : FileName} {data : FileData} {t found : Track}

theorem finds_single (hresolve : disk.resolve root = some base)
    (hopen : disk.openPath root = some (.dir [(name, .file data)]))
    (hfound : trackFromFile newV5 root (join root name.bytes) data = some found) :
    Finds newV5 disk root t loc ↔ loc = base ++ [name] ∧ t = found := by
  constructor
  · rintro ⟨base', entries, names, data', hresolve', hopen', hholds, -, ht, rfl⟩
    rw [hresolve] at hresolve'
    rw [hopen] at hopen'
    cases hresolve'
    cases hopen'
    rcases holds_file.mp hholds with ⟨rfl, rfl⟩ | hnone
    · exact ⟨rfl, Option.some.inj (ht.symm.trans hfound)⟩
    · exact (not_holds_nil hnone).elim
  · rintro ⟨rfl, rfl⟩
    exact ⟨base, _, [name], data, hresolve, hopen, .file List.mem_cons_self, by simp, hfound, rfl⟩

theorem scan_single (hopen : disk.openPath root = some (.dir [(name, .file data)]))
    (hfound : trackFromFile newV5 root (join root name.bytes) data = some found) :
    scanDirectorySyncStrict newV5 disk root root = .ok [found] := by
  simp [scanDirectorySyncStrict, hopen, scanEntries, hfound]

end

def trackIn (root : Path) (name : FileName) : Track :=
  trackOf numberOf root (join root name.bytes) (some oneByte.fingerprint)

theorem found_in {root : Path} {name : FileName} (h : isAudioFile (join root name.bytes) = true) :
    trackFromFile numberOf root (join root name.bytes) oneByte = some (trackIn root name) := by
  simp [trackFromFile, oneByte, trackIn, h]

theorem audio_a : isAudioFile (join (asBytes "/a") xMp3.bytes) = true := by decide +kernel

theorem finds_in_a {second : FileName} {t : Track} {loc : Location} :
    Finds numberOf (twoRootDisk second) (asBytes "/a") t loc ↔
      loc = [dirA] ++ [xMp3] ∧ t = trackIn (asBytes "/a") xMp3 :=
  finds_single rfl rfl (found_in audio_a)

section

variable {second : FileName} (hsecond : second = xMp3 ∨ second = yMp3)

include hsecond

theorem audio_b : isAudioFile (join (asBytes "/b") second.bytes) = true := by
  rcases hsecond with rfl | rfl <;> decide +kernel

theorem finds_in_b {t : Track} {loc : Location} :
    Finds numberOf (twoRootDisk second) (asBytes "/b") t loc ↔
      loc = [dirB] ++ [second] ∧ t = trackIn (asBytes "/b") second := by
  have hresolve : (twoRootDisk second).resolve (asBytes "/b") = some [dirB] := rfl
  exact finds_single hresolve rfl (found_in (audio_b hsecond))

theorem twoRoots_calm (n : ℕ) :
    Calm numberOf (twoRootDisk second) (fun _ => 1) twoRoots
      ((twoRootOutside second).history n) := by
  constructor
  · constructor
    · intro path
      simp only [Moment.present, twoRootOutside]
      cases opened (twoRootDisk second) path <;> rfl
    · rfl
    · exact fun _ => rfl
  · exact fun path => rfl
  · intro root hroot
    rcases List.mem_pair.mp hroot with rfl | rfl
    · exact scan_single rfl (found_in audio_a)
    · exact scan_single rfl (found_in (audio_b hsecond))

end

def oneEntryLibrary : Library where
  tracks := [trackIn (asBytes "/a") xMp3]
  references := [⟨.playlistTracks, 1, (trackIn (asBytes "/a") xMp3).id⟩]
  mountGuard := [⟨"/a", "online", "", some 1⟩]
  ids_nodup := List.nodup_singleton _
  paths_nodup := List.nodup_singleton _
  referred := by simp

/-- The texts of the paths tell the files of the two roots apart. -/
theorem twoRoots_tell {second : FileName} (hsecond : second = xMp3 ∨ second = yMp3) :
    TextsTell numberOf (twoRootDisk second) twoRoots := by
  have ha : (trackIn (asBytes "/a") xMp3).filePath = "/a/x.mp3" := by decide +kernel
  have hb : (trackIn (asBytes "/b") second).filePath ≠ "/a/x.mp3" ∧
      pathStartsWith (asBytes (trackIn (asBytes "/b") second).filePath) (asBytes "/a") = false ∧
      pathStartsWith (asBytes "/a/x.mp3") (asBytes "/b") = false := by
    rcases hsecond with rfl | rfl <;> decide +kernel
  have hloc : [dirA] ++ [xMp3] ≠ [dirB] ++ [second] := by
    intro h
    exact absurd (List.cons.inj h).1 (by decide)
  constructor
  · intro root hroot root' hroot' t t' loc loc' hfinds hfinds'
    rcases List.mem_pair.mp hroot with rfl | rfl <;> rcases List.mem_pair.mp hroot' with rfl | rfl
    · obtain ⟨rfl, rfl⟩ := finds_in_a.mp hfinds
      obtain ⟨rfl, rfl⟩ := finds_in_a.mp hfinds'
      simp
    · obtain ⟨rfl, rfl⟩ := finds_in_a.mp hfinds
      grind [finds_in_b]
    · obtain ⟨rfl, rfl⟩ := (finds_in_b hsecond).mp hfinds
      obtain ⟨rfl, rfl⟩ := finds_in_a.mp hfinds'
      simp only [ha, hb.1, hloc.symm]
    · grind [finds_in_b]
  · intro root hroot root' hroot' t loc hfinds hstarts
    rcases List.mem_pair.mp hroot with rfl | rfl <;> rcases List.mem_pair.mp hroot' with rfl | rfl
    · exact .inl ⟨t, loc, hfinds, rfl⟩
    · grind [finds_in_b]
    · obtain ⟨rfl, rfl⟩ := finds_in_a.mp hfinds
      rw [ha, hb.2.2] at hstarts
      cases hstarts
    · exact .inl ⟨t, loc, hfinds, rfl⟩

def HasEntry : Call → World → Prop
  | .scanRoot root, w => root ∈ twoRoots ∧ w.lib.tracks = oneEntryLibrary.tracks ∧
      w.lib.references = oneEntryLibrary.references ∧ w.lib.getMountDeviceId "/a" = some 1 ∧
      w.lib.unavailable "/a" = false
  | _, _ => True

instance : (c : Call) → (w : World) → Decidable (HasEntry c w)
  | .scanRoot _, _ => inferInstanceAs (Decidable (_ ∧ _))
  | .snapshot _, _ | .getPathDeviceId _, _ | .exists _, _ | .isDir _, _ | .isFile _, _
  | .readDir _, _ | .metadata _, _ | .computeFileContentHash _, _ | .isCancelled, _
  | .getMountDeviceId _, _ | .getMountStates _, _ | .listTracks, _
  | .findTrackByPath _, _ | .updateMountState .., _ | .upsertTrack _, _
  | .upsertTracks _, _ | .deleteTrack _, _ => inferInstanceAs (Decidable True)

theorem idsFree_single {lib : Library} {t : Track}
    (h : ∀ row ∈ lib.tracks, (row.id = t.id → row.filePath = t.filePath) ∧
      (row.filePath = t.filePath → row.id = t.id ∨ lib.refers row.id = false)) :
    IdsFree lib [t] := by
  intro earlier other later hsplit row hrow
  cases earlier with
  | nil =>
    grind
  | cons first rest => simp at hsplit

/-- Files of different relative paths: both have rows, and the playlist keeps its entry. -/
theorem one_row_per_file_two_roots :
    let o := twoRootOutside yMp3
    let w := { newServer.world with lib := oneEntryLibrary }
    let r := (scanJob twoRoots).play (exec o) w
    r.2.lib.tracks.map Track.filePath = ["/a/x.mp3", "/b/y.mp3"] ∧
    r.1 = .ok () ∧ OneRowEach numberOf (twoRootDisk yMp3) twoRoots r.2.lib ∧
    EntriesKept numberOf (twoRootDisk yMp3) twoRoots oneEntryLibrary r.2.lib := by
  refine ⟨by decide +kernel, one_row_per_file _ _ (fun _ => 1) _ _ (twoRoots_calm (.inr rfl))
    (twoRoots_tell (.inr rfl)) ?_⟩
  have hentry : (scanJob twoRoots).Along (exec (twoRootOutside yMp3)) HasEntry
      { newServer.world with lib := oneEntryLibrary } := by decide +kernel
  apply Prog.Along.mono _ hentry
  intro c w hc
  cases c with
  | scanRoot root =>
    obtain ⟨hroot, htracks, hreferences, hdevice, havailable⟩ := hc
    intro tracks hscan
    have hrow : ∀ row ∈ w.lib.tracks, row = trackIn (asBytes "/a") xMp3 := by
      intro row hrow
      rw [htracks] at hrow
      exact List.mem_singleton.mp hrow
    have hunder : ∀ existing ∈ w.lib.rowsUnder root, existing = trackIn (asBytes "/a") xMp3 :=
      fun existing hexisting => hrow existing (List.mem_filter.mp hexisting).1
    rcases List.mem_pair.mp hroot with rfl | rfl
    · cases (scan_single rfl (found_in audio_a)).symm.trans hscan
      constructor
      · exact List.nodup_singleton _
      · grind [idsFree_single]
      · intro existing hexisting hgone
        rw [hunder existing hexisting] at hgone
        exact (hgone.1 List.mem_cons_self).elim
      · refine .inr ⟨?_, by simp⟩
        rw [rootStr, fromUtf8Lossy_asBytes, hdevice]
        rfl
    · cases (scan_single rfl (found_in (audio_b (.inr rfl)))).symm.trans hscan
      have hnone : w.lib.rowsUnder (asBytes "/b") = [] := by
        rw [Library.rowsUnder, htracks]
        decide +kernel
      constructor
      · exact List.nodup_singleton _
      · apply idsFree_single
        intro row hmem
        rw [hrow row hmem]
        exact ⟨fun h => absurd h (by decide +kernel), fun h => absurd h (by decide +kernel)⟩
      · rw [hnone]
        exact fun existing hexisting => absurd hexisting List.not_mem_nil
      · exact .inl hnone
  | _ => trivial

/-- Files of one relative path: the second root is refused, and its file has no row. -/
theorem equal_relative_paths_refused :
    let o := twoRootOutside xMp3
    let r := (scanJob twoRoots).play (exec o) newServer.world
    Function.Injective o.newV5 ∧
    (∀ n, Calm o.newV5 (twoRootDisk xMp3) (fun _ => 1) twoRoots (o.history n)) ∧
    Finds o.newV5 (twoRootDisk xMp3) (asBytes "/b") (trackIn (asBytes "/b") xMp3)
      ([dirB] ++ [xMp3]) ∧
    r.1 = .error "reconcile error: UNIQUE constraint failed: tracks.id" ∧
    r.2.lib.tracks.map Track.filePath = ["/a/x.mp3"] ∧
    ¬ OneRowEach o.newV5 (twoRootDisk xMp3) twoRoots r.2.lib := by
  intro o r
  have hfinds : Finds o.newV5 (twoRootDisk xMp3) (asBytes "/b")
      (trackIn (asBytes "/b") xMp3) ([dirB] ++ [xMp3]) := (finds_in_b (.inl rfl)).mpr ⟨rfl, rfl⟩
  have hrows : r.2.lib.tracks.map Track.filePath = ["/a/x.mp3"] := by decide +kernel
  refine ⟨numberOf_injective, twoRoots_calm (.inl rfl), hfinds, by decide +kernel, hrows, ?_⟩
  intro hone
  obtain ⟨row, ⟨hrow, root, hroot, t, hfinds', hpath⟩, -⟩ :=
    hone.one (asBytes "/b") (by decide) _ _ hfinds
  have hmem : row.filePath ∈ r.2.lib.tracks.map Track.filePath := List.mem_map_of_mem hrow
  rw [hrows, List.mem_singleton, hpath] at hmem
  have htell := twoRoots_tell (.inl rfl)
  have hfirst : Finds numberOf (twoRootDisk xMp3) (asBytes "/a")
      (trackIn (asBytes "/a") xMp3) ([dirA] ++ [xMp3]) := finds_in_a.mpr ⟨rfl, rfl⟩
  have hsame := (htell.texts root hroot (asBytes "/a") (by decide) _ _ _ _ hfinds' hfirst).mp
    (hmem.trans (by decide +kernel))
  exact absurd (List.cons.inj hsame).1 (by decide)

end MichiServer.Scanner
