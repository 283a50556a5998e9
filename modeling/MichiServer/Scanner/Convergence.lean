import MichiServer.Scanner.Known
import MichiServer.Scanner.OneRow

/-!
# Where the watcher converges

Whenever the watcher keeps a snapshot, the library agrees with it, provided that the first snapshot is
reconciled or agrees already, that no write fails once a snapshot has taken the place of the one before,
and that the texts of paths tell the files apart. A quiet poll then leaves exactly the audio files of the
tree (`watcher_converges`). The watcher does not ask for the first of these, and it forgets the second:
what was different before it started stays so (`restart_stays_stale`).
-/

namespace MichiServer.Scanner

open MichiServer.Files MichiServer.Text MichiServer.Interleave

def Call.Answered : (c : Call) → c.Resp → Prop
  | .snapshot _, r => ∃ current, r = some (.ok current)
  | .scanRoot _, r => ∃ tracks, r = .success tracks
  | .readDir _, r => ∃ a, r = .ok a
  | .getMountDeviceId _, r => ∃ a, r = .ok a
  | .getMountStates _, r => ∃ a, r = .ok a
  | .listTracks, r => ∃ a, r = .ok a
  | .findTrackByPath _, r => ∃ a, r = .ok a
  | .updateMountState .., r => ∃ a, r = .ok a
  | .upsertTrack _, r => ∃ a, r = .ok a
  | .upsertTracks _, r => ∃ a, r = .ok a
  | .deleteTrack _, r => ∃ a, r = .ok a
  | _, _ => True

def Call.marksUnavailable : Call → Bool
  | .updateMountState _ state _ _ => state = "unavailable"
  | _ => false

/-- The call is made once the new snapshot is kept, whatever comes of it. -/
def Call.isFinal (comparing : Bool) : Call → Bool
  | .findTrackByPath _ | .upsertTrack _ => true
  | .deleteTrack _ => comparing
  | _ => false

def comparing : Option (Option Snapshot) → Bool
  | some (some _) => true
  | _ => false

/-- What a call of a poll meets: one tree all the time, without failures of the file system other than
of a walk; a database that may fail, but not a final write nor a mark on the mount. Where the poll is
quiet, nothing fails and no mount is marked. -/
structure Watched (o : Outside) (disk : Disk FileData) (root : Path) (comparing : Bool) (quiet : Prop)
    (c : Call) (w : World) : Prop where
  shows : Shows disk False (o.history w.clock)
  walk : ∀ current, (o.history w.clock).walk root = some (.ok current) → IsSnapshot disk root current
  scan : match (o.history w.clock).scan root with
    | .finished files => scanDirectorySyncStrict o.newV5 disk root root =
        .ok (files.map fun f => trackOf o.newV5 root f.1 f.2)
    | .failed _ => True
    | .cancelled => False
  final : c.isFinal comparing = true → c.Answered (exec o c w).1
  marks : c.marksUnavailable = true → (o.history w.clock).dbError = none
  quiet : quiet → c.Answered (exec o c w).1 ∧ c.marksUnavailable = false

def Seen (disk : Disk FileData) (root : Path) (previous : Option (Option Snapshot)) (path : Path) :
    Prop :=
  (∃ files f, snapshot disk root = .ok files ∧ (path, f) ∈ files) ∨
    ∃ before, previous = some (some before) ∧ path ∈ before

/-- What a poll that meets this tree can bring the library in line with: nothing is hidden, ids and
texts tell the files apart, what is no file of the tree any more is gone, also for the rows when the
poll compares nothing. A first poll finds no recorded device, or a library that agrees. -/
structure Watchable (newV5 : List UInt8 → Uuid) (disk : Disk FileData) (root : Path)
    (previous : Option (Option Snapshot)) (lib : Library) : Prop where
  twin_free : disk.TwinFree
  none_hidden : NoneHidden disk root
  ids_apart : ∀ tracks, scanDirectorySyncStrict newV5 disk root root = .ok tracks →
    (tracks.map Track.id).Nodup
  texts_apart : ∀ path other, Seen disk root previous path → Seen disk root previous other →
    fromUtf8Lossy path = fromUtf8Lossy other → path = other
  under : ∀ files, snapshot disk root = .ok files → ∀ f ∈ files,
    pathStartsWith (asBytes (fromUtf8Lossy f.1)) root = true
  vanished : ∀ files before, snapshot disk root = .ok files → previous = some (some before) →
    ∀ path ∈ before, (∀ f, (path, f) ∉ files) → opened disk path = none
  strays : comparing previous = false → ∀ files, snapshot disk root = .ok files →
    ∀ row ∈ lib.rowsUnder root, (∀ f ∈ files, fromUtf8Lossy f.1 ≠ row.filePath) →
      opened disk (asBytes row.filePath) = none
  first : previous = none → lib.getMountDeviceId (rootStr root) = none ∨
    ∀ current, IsSnapshot disk root current → Agrees root (fun path => current.lookup path) lib

/-- The tracks under the root are exactly the audio files of the tree, with their sizes and
modification times. -/
def Converged (newV5 : List UInt8 → Uuid) (disk : Disk FileData) (root : Path) (lib : Library) :
    Prop :=
  ∃ tracks, scanDirectorySyncStrict newV5 disk root root = .ok tracks ∧ ∀ text stamp,
    (∃ row ∈ lib.rowsUnder root, row.filePath = text ∧ row.stamp = stamp) ↔
      ∃ t ∈ tracks, t.filePath = text ∧ t.stamp = stamp

abbrev Watches (o : Outside) (disk : Disk FileData) (root : Path) (comparing : Bool) (quiet : Prop)
    {α : Type} (Post : α → World → Prop) (p : CallProg α) (w : World) : Prop :=
  p.Meets (exec o) (Watched o disk root comparing quiet) (fun _ _ => True) Post w

section

variable {o : Outside} {disk : Disk FileData} {root : Path} {comparing : Bool} {quiet : Prop}
  {w : World}

theorem Watches.step {c : Call} {β : Type} {f : c.Resp → CallProg β} {Q : β → World → Prop}
    (h : Watched o disk root comparing quiet c w →
      Watches o disk root comparing quiet Q (f (exec o c w).1) (exec o c w).2) :
    Watches o disk root comparing quiet Q (call c >>= f) w :=
  fun hm => ⟨trivial, h hm⟩

theorem Watches.of_shown {α : Type} {Post : α → World → Prop} {p : CallProg α}
    (h : Shown o disk False Post p w) : Watches o disk root comparing quiet Post p w :=
  h.allow fun _ _ hm => hm.shows

theorem not_quiet {c : Call} (hm : Watched o disk root comparing quiet c w)
    (herror : ¬ c.Answered (exec o c w).1) : ¬ quiet :=
  fun hquiet => herror (hm.quiet hquiet).1

theorem query_error {α : Type} {m : Moment} {f : Library → α} {e : String}
    (he : w.query m f = (.error e, w.tick)) : ¬ ∃ a, (w.query m f).1 = .ok a := by
  rw [he]
  rintro ⟨a, ha⟩
  cases ha

/-! ## Reconciliations -/

/-- Where all is quiet, the missing rows can be deleted. -/
theorem deleteMissing_quiet (scanned : List Uuid) (rows : List Track) :
    Watches o disk root comparing quiet (fun r _ => quiet → r = .ok ())
      (deleteMissing scanned rows) w := by
  induction rows generalizing w with
  | nil => exact fun _ => rfl
  | cons existing rest ih =>
    apply Prog.Meets.ite
    · exact fun _ => ih
    · intro _
      refine Watches.step fun _ => ?_
      apply Prog.Meets.ite
      · exact fun _ => ih
      · intro _
        refine Watches.step fun hm => ?_
        split
        · exact ih
        next e he =>
          intro hquiet
          obtain ⟨a, ha⟩ := (hm.quiet hquiet).1
          cases he.symm.trans ha

/-- And a root can be written. -/
theorem writeRoot_quiet (tracks rootExisting : List Track) (currentDevId : Option ℕ) :
    Watches o disk root comparing quiet (fun r _ => quiet → r = .ok ())
      (writeRoot root tracks rootExisting currentDevId) w := by
  apply Prog.Meets.bind
  apply (Prog.Meets.top _).mono
  intro upserts w₁ _
  cases upserts with
  | none => exact fun _ => rfl
  | some upserts =>
    refine Watches.step fun _ => ?_
    apply Prog.Meets.bind
    have hupserted : Watches o disk root comparing quiet (fun r _ => quiet → r = .ok ())
        (if upserts.isEmpty then pure (.ok ()) else call (.upsertTracks upserts))
        (exec o (.updateMountState (rootStr root) "online" "" currentDevId) w₁).2 := by
      apply Prog.Meets.ite
      · exact fun _ _ => rfl
      · intro _ hm
        refine ⟨trivial, fun hquiet => ?_⟩
        obtain ⟨a, ha⟩ := (hm.quiet hquiet).1
        exact ha
    apply hupserted.mono
    intro r w₂ hr
    cases r with
    | error e => exact fun hquiet => nomatch hr hquiet
    | ok done =>
      refine Watches.step fun _ => ?_
      apply Prog.Meets.ite
      · exact fun _ _ => rfl
      · exact fun _ => deleteMissing_quiet _ _

theorem preserve_watched (reason : String) :
    Watches o disk root comparing quiet
      (fun _ w' => ¬ quiet ∧ w'.lib.unavailable (rootStr root) = true) (preserve root reason) w := by
  refine Watches.step fun hm => ?_
  refine ⟨fun hquiet => ?_, ?_⟩
  · have hmarks := (hm.quiet hquiet).2
    cases hmarks
  · have hexec := World.database_ok (w := w) (f := fun lib =>
      .ok ((), lib.updateMountState (rootStr root) "unavailable" reason none)) (hm.marks rfl) rfl
    grind [exec, rootStr, Library.unavailable_update]

theorem writeRoot_watched {tracks rootExisting : List Track} (currentDevId : Option ℕ)
    (hexisting : ∀ existing ∈ rootExisting, existing ∈ w.lib.tracks)
    (hpaths : (tracks.map Track.filePath).Nodup) :
    Watches o disk root comparing quiet
      (fun r w' => (quiet → r = .ok ()) ∧
        (r = .ok () → InLine disk tracks rootExisting w.lib w'.lib))
      (writeRoot root tracks rootExisting currentDevId) w := by
  apply ((writeRoot_quiet tracks rootExisting currentDevId).and
    (Watches.of_shown (writeRoot_in_line root currentDevId hexisting hpaths))).mono
  intro r w' h
  exact ⟨h.1, h.2.1⟩

/-- A reconciliation is quiet only if it goes through, and then either marks the mount or brings the
library in line. -/
def Reconciled (disk : Disk FileData) (root : Path) (quiet : Prop) (tracks : List Track)
    (lib : Library) (r : Except String Unit) (w' : World) : Prop :=
  (quiet → r = .ok ()) ∧ (r = .ok () → (¬ quiet ∧ w'.lib.unavailable (rootStr root) = true) ∨
    InLine disk tracks (lib.rowsUnder root) lib w'.lib)

theorem preserve_reconciled {tracks : List Track} {lib : Library} (reason : String) :
    Watches o disk root comparing quiet (Reconciled disk root quiet tracks lib)
      (preserve root reason) w := by
  apply (preserve_watched reason).mono
  intro r w' h
  exact ⟨fun hquiet => absurd hquiet h.1, fun _ => .inl h⟩

/-- Behind the check of the mount the root is reconciled. -/
theorem checkMount_watched {tracks : List Track} {lib : Library} (hsame : w.lib = lib)
    (recordedDevId currentDevId : Option ℕ) (hpaths : (tracks.map Track.filePath).Nodup) :
    Watches o disk root comparing quiet (Reconciled disk root quiet tracks lib)
      (checkMount root tracks (lib.rowsUnder root) recordedDevId currentDevId) w := by
  subst hsame
  have hwrite : ∀ w' : World, w'.lib = w.lib →
      Watches o disk root comparing quiet (Reconciled disk root quiet tracks w.lib)
        (writeRoot root tracks (w.lib.rowsUnder root) currentDevId) w' := by
    intro w' hlib
    apply (writeRoot_watched currentDevId (fun existing h => hlib ▸ (List.mem_filter.mp h).1)
      hpaths).mono
    intro r w'' h
    rw [hlib] at h
    exact ⟨h.1, fun hr => .inr (h.2 hr)⟩
  apply Prog.Meets.ite
  · exact fun _ => hwrite w rfl
  · intro _
    split
    · exact preserve_reconciled _
    · refine Watches.step fun hm => ?_
      rcases w.query_cases (o.history w.clock) fun lib => lib.unavailable (rootStr root) with
        ⟨e, he⟩ | he
      · simp only [exec, he]
        exact ⟨fun hquiet => absurd hquiet (not_quiet hm (query_error he)), fun h => by cases h⟩
      · simp only [exec, he]
        apply Prog.Meets.ite
        · exact fun _ => preserve_reconciled _
        · exact fun _ => hwrite w.tick rfl

/-- A root that was scanned is reconciled. -/
theorem reconcileScanned_watched {tracks : List Track}
    (hpaths : (tracks.map Track.filePath).Nodup) :
    Watches o disk root comparing quiet (Reconciled disk root quiet tracks w.lib)
      (reconcileScanned root tracks) w := by
  refine Watches.step fun _ => Watches.step fun hm => ?_
  generalize hw₁ : (exec o (.getPathDeviceId root) w).2 = w₁ at hm ⊢
  have hlib₁ : w₁.lib = w.lib := by rw [← hw₁]; rfl
  rcases w₁.query_cases (o.history w₁.clock) fun lib => lib.getMountDeviceId (rootStr root) with
    ⟨e, he⟩ | he
  · simp only [exec, he]
    exact ⟨fun hquiet => absurd hquiet (not_quiet hm (query_error he)), fun h => by cases h⟩
  · simp only [exec, he]
    apply Prog.Meets.bind
    have hsame : Watches o disk root comparing quiet (fun _ w' => w'.lib = w₁.lib)
        (disappeared root) w₁.tick := by
      refine Watches.step fun _ => ?_
      apply Prog.Meets.ite
      · intro _
        refine Watches.step fun _ => ?_
        exact rfl
      · exact fun _ => rfl
    apply hsame.mono
    intro gone w₂ hlib
    have hlib₂ : w₂.lib = w.lib := hlib.trans hlib₁
    apply Prog.Meets.ite
    · exact fun _ => preserve_reconciled _
    · intro _
      refine Watches.step fun hm₂ => ?_
      rcases w₂.query_cases (o.history w₂.clock) Library.tracks with ⟨e, he₂⟩ | he₂
      · simp only [exec, he₂]
        exact ⟨fun hquiet => absurd hquiet (not_quiet hm₂ (query_error he₂)), fun h => by cases h⟩
      · simp only [exec, he₂]
        rw [hlib₂]
        exact checkMount_watched (w := w₂.tick) hlib₂ _ _ hpaths

-- what is kept once the reconciliation has come to an end
/-- What is kept for the next poll is the snapshot of what is in line. -/
theorem kept_watched (current : Snapshot) (tracks : List Track) (r : Except String Unit)
    (w₂ : World) : (quiet → r = .ok ()) →
    (r = .ok () → (¬ quiet ∧ w₂.lib.unavailable (rootStr root) = true) ∨
      scanDirectorySyncStrict o.newV5 disk root root = .ok tracks ∧
        InLine disk tracks (w.lib.rowsUnder root) w.lib w₂.lib) →
    Watches o disk root comparing quiet
      (fun r w' => (∀ kept, r = some kept → kept = current) ∧ (r.isSome = true ∨ quiet →
        ∃ tracks, scanDirectorySyncStrict o.newV5 disk root root = .ok tracks ∧
          InLine disk tracks (w.lib.rowsUnder root) w.lib w'.lib))
      (match r with
        | .error _ => pure none
        | .ok () => do
          match ← call (.getMountStates (rootStr root)) with
          | .error _ => pure none
          | .ok unavailable => pure (if unavailable then none else some current)) w₂ := by
  intro hr hdone
  cases r with
  | error e =>
    refine ⟨fun _ h => (by cases h), ?_⟩
    rintro (hsome | hquiet)
    · cases hsome
    · cases hr hquiet
  | ok done =>
    refine Watches.step fun hm => ?_
    rcases w₂.query_cases (o.history w₂.clock) fun lib => lib.unavailable (rootStr root) with
      ⟨e, he⟩ | he
    · simp only [exec, he]
      refine ⟨fun _ h => (by cases h), ?_⟩
      rintro (hsome | hquiet)
      · cases hsome
      · exact absurd hquiet (not_quiet hm (query_error he))
    · simp only [exec, he]
      refine ⟨?_, ?_⟩
      · simp
      · intro hsome
        rcases hdone rfl with ⟨hnot, hmarked⟩ | hinline
        · grind
        · exact ⟨tracks, hinline⟩

/-- After a scan the library is in line with the snapshot. -/
theorem rescan_watched (current : Snapshot)
    (hids : ∀ tracks, scanDirectorySyncStrict o.newV5 disk root root = .ok tracks →
      (tracks.map Track.id).Nodup)
    (hpaths : ∀ tracks, scanDirectorySyncStrict o.newV5 disk root root = .ok tracks →
      (tracks.map Track.filePath).Nodup) :
    Watches o disk root comparing quiet
      (fun r w' => (∀ kept, r = some kept → kept = current) ∧ (r.isSome = true ∨ quiet →
        ∃ tracks, scanDirectorySyncStrict o.newV5 disk root root = .ok tracks ∧
          InLine disk tracks (w.lib.rowsUnder root) w.lib w'.lib))
      (rescan root current) w := by
  refine Watches.step fun hm => ?_
  have hlib : (exec o (.scanRoot root) w).2.lib = w.lib := rfl
  generalize (exec o (.scanRoot root) w).2 = w₁ at hlib ⊢
  have hwalk := hm.scan
  apply Prog.Meets.bind
  simp only [exec]
  cases hscan : (o.history w.clock).scan root with
  | finished files =>
    rw [hscan] at hwalk
    rw [scanRootCancellable, dedupIds_of_nodup (hids _ hwalk) (by simp)]
    apply (reconcileScanned_watched (hpaths _ hwalk)).mono
    intro r w₂ hr
    rw [hlib] at hr
    exact kept_watched current _ r w₂ hr.1 fun hok => (hr.2 hok).imp_right fun hinline => ⟨hwalk, hinline⟩
  | failed reason =>
    apply (preserve_watched reason).mono
    intro r w₂ hr
    exact kept_watched current [] r w₂ (fun hquiet => absurd hquiet hr.1) fun _ => .inl hr
  | cancelled =>
    rw [hscan] at hwalk
    exact hwalk.elim

/-! ## Comparisons -/

theorem Agrees.of_tracks {known : Path → Option Fingerprint} {lib lib' : Library}
    (h : Agrees root known lib) (htracks : lib'.tracks = lib.tracks) : Agrees root known lib' := by
  intro text stamp
  rw [← h text stamp, Library.rowsUnder, htracks]
  rfl

/-- A tree and what is known of it while a poll goes through the differences: every file of the new
snapshot is there as it is known, its text lies under the root, and texts tell all paths apart. -/
structure Compares (disk : Disk FileData) (root : Path) (current : Snapshot) (apart : Path → Prop) :
    Prop where
  opens : ∀ path f, current.lookup path = some f → ∃ data, opened disk path = some (.file data) ∧
    data.regular = true ∧ isAudioFile path = true ∧ data.fingerprint = f
  under : ∀ path f, current.lookup path = some f →
    pathStartsWith (asBytes (fromUtf8Lossy path)) root = true
  seen : ∀ path f, current.lookup path = some f → apart path
  texts : ∀ path other, apart path → apart other → fromUtf8Lossy path = fromUtf8Lossy other →
    path = other

theorem Shows.file {calm : Prop} {m : Moment} (h : Shows disk calm m) {path : Path} {data : FileData}
    (hopened : opened disk path = some (.file data)) : m.file? path = some data := by
  rw [Moment.file?, h.present, hopened]

/-- The track of a changed file is read from the disk. -/
theorem changedTrack_watched (previous : Snapshot) {path : Path} {data : FileData}
    (hopened : opened disk path = some (.file data)) (hregular : data.regular = true)
    (haudio : isAudioFile path = true) :
    Watches o disk root comparing quiet
      (fun r w' => w'.lib = w.lib ∧ ∃ t, r = some t ∧ t.filePath = fromUtf8Lossy path ∧
        t.stamp = data.fingerprint.stamp)
      (changedTrack o.newV5 root previous path) w := by
  apply Prog.Meets.bind
  have hscan : Watches o disk root comparing quiet
      (fun r w' => w'.lib = w.lib ∧ ∃ t, r = some t ∧ t.filePath = fromUtf8Lossy path ∧
        t.stamp = data.fingerprint.stamp) (scanFile o.newV5 root path) w := by
    refine Watches.step fun hm => ?_
    have hfile : (exec o (.isFile path) w).1 = true := by
      simp only [exec, hm.shows.file hopened]
      exact hregular
    apply Prog.Meets.ite
    · grind
    · intro _
      refine Watches.step fun hm' => ?_
      have hmeta : (exec o (.metadata path) (exec o (.isFile path) w).2).1 =
          some data.fingerprint :=
        congrArg (Option.map FileData.fingerprint) (hm'.shows.file hopened)
      rw [hmeta]
      exact ⟨rfl, _, rfl, rfl, stamp_trackOf o.newV5 root path (some data.fingerprint)⟩
  apply hscan.mono
  rintro found w₁ ⟨hlib, t, rfl, hpath, hstamp⟩
  apply Prog.Meets.ite
  · intro _
    apply Prog.Meets.bind
    apply (Watches.of_shown (addHash_shown path t)).mono
    rintro t' w₂ ⟨hrow, hsame⟩
    exact ⟨hsame.trans hlib, t', rfl, hrow.filePath.trans hpath, hrow.stamp.trans hstamp⟩
  · exact fun _ => ⟨hlib, t, rfl, hpath, hstamp⟩

/-- The changed files are stored, one by one. -/
theorem upsertChanged_watched (previous current : Snapshot) (apart : Path → Prop)
    (hcompares : Compares disk root current apart) (paths : List Path)
    (hpaths : ∀ path ∈ paths, path ∈ current) (known : Path → Option Fingerprint)
    (hknown : ∀ path f, known path = some f → apart path) (hagrees : Agrees root known w.lib) :
    Watches o disk root comparing quiet
      (fun goOn w' => goOn = true ∧
        Agrees root (fun path => if path ∈ paths then current.lookup path else known path) w'.lib)
      (upsertChanged o.newV5 root previous paths) w := by
  induction paths generalizing w known with
  | nil =>
    refine ⟨rfl, ?_⟩
    simpa using hagrees
  | cons path rest ih =>
    rw [List.forall_mem_cons] at hpaths
    obtain ⟨f, hf⟩ := Option.isSome_iff_exists.mp (AList.lookup_isSome.mpr hpaths.1)
    obtain ⟨data, hopened, hregular, haudio, rfl⟩ := hcompares.opens path f hf
    refine Watches.step fun hm => ?_
    apply Prog.Meets.ite
    · intro hcancelled
      simp only [exec, hm.shows.goes_on, Bool.false_eq_true] at hcancelled
    · intro _
      apply Prog.Meets.bind
      apply (changedTrack_watched previous hopened hregular haudio).mono
      rintro found w₁ ⟨hlib, t, rfl, hpath, hstamp⟩
      have hlib₁ : w₁.lib = w.lib := hlib
      refine Watches.step fun hm' => ?_
      rcases exec_upsertTrack (o := o) t w₁ with ⟨e, he⟩ | ⟨lib, hupsert, he⟩
      · obtain ⟨a, ha⟩ := hm'.final rfl
        rw [he] at ha
        cases ha
      · rw [he]
        rw [hlib₁] at hupsert
        have hagrees' : Agrees root (Function.update known path (some data.fingerprint)) lib := by
          apply hagrees.upsert hupsert hpath hstamp
          · rw [hpath]
            exact hcompares.under path _ hf
          · intro other g hother htext
            exact hcompares.texts other path (hknown other g hother) (hcompares.seen path _ hf) htext
        apply (ih hpaths.2 (Function.update known path (some data.fingerprint)) ?_ hagrees').mono
        · grind
        · intro other g hother
          by_cases hsame : other = path
          · subst hsame
            exact hcompares.seen other _ hf
          · grind

/-- The rows of the vanished files are removed, one by one. -/
theorem removeVanished_watched (apart : Path → Prop)
    (htexts : ∀ path other, apart path → apart other → fromUtf8Lossy path = fromUtf8Lossy other →
      path = other)
    (paths : List Path) (hgone : ∀ path ∈ paths, opened disk path = none ∧ apart path)
    (known : Path → Option Fingerprint) (hknown : ∀ path f, known path = some f → apart path)
    (hagrees : Agrees root known w.lib) :
    Watches o disk root true quiet
      (fun _ w' => Agrees root (fun path => if path ∈ paths then none else known path) w'.lib)
      (removeVanished paths) w := by
  induction paths generalizing w known with
  | nil =>
    show Agrees root _ w.lib
    simpa using hagrees
  | cons path rest ih =>
    rw [List.forall_mem_cons] at hgone
    obtain ⟨⟨habsent, hapart⟩, hrest⟩ := hgone
    have hothers : ∀ other g, known other = some g → fromUtf8Lossy other = fromUtf8Lossy path →
        other = path := fun other g hother htext =>
      htexts other path (hknown other g hother) hapart htext
    -- the rest, once this path is not known
    have hdone : ∀ w' : World, Agrees root (Function.update known path none) w'.lib →
        Watches o disk root true quiet
          (fun _ w' => Agrees root (fun other => if other ∈ path :: rest then none else known other)
            w'.lib) (removeVanished rest) w' := by
      intro w' hagrees'
      apply (ih hrest (Function.update known path none) ?_ hagrees').mono
      · grind
      · grind
    refine Watches.step fun hm => ?_
    apply Prog.Meets.ite
    · intro hcancelled
      simp only [exec, hm.shows.goes_on, Bool.false_eq_true] at hcancelled
    · intro _
      refine Watches.step fun hm₁ => ?_
      apply Prog.Meets.ite
      · intro hexists
        have hthere : ((o.history (exec o .isCancelled w).2.clock).present path).isSome = true :=
          hexists
        rw [hm₁.shows.present, habsent] at hthere
        cases hthere
      · intro _
        refine Watches.step fun hm₂ => ?_
        generalize hw₂ : (exec o (.exists path) (exec o .isCancelled w).2).2 = w₂ at hm₂ ⊢
        have hlib₂ : w₂.lib = w.lib := by rw [← hw₂]; rfl
        rcases w₂.query_cases (o.history w₂.clock) fun lib =>
          lib.findTrackByPath (fromUtf8Lossy path) with ⟨e, he⟩ | he
        · exact absurd (hm₂.final rfl) (query_error he)
        · simp only [exec, he]
          rw [hlib₂]
          cases hfind : w.lib.findTrackByPath (fromUtf8Lossy path) with
          | none =>
            apply hdone w₂.tick
            rw [Function.update_eq_self_iff.mpr (hagrees.absent hfind).symm]
            exact hlib₂ ▸ hagrees
          | some t =>
            refine Watches.step fun hm₃ => ?_
            rcases exec_deleteTrack (o := o) t.id w₂.tick with ⟨e, he₃⟩ | ⟨deleted, lib, hdelete, he₃⟩
            · obtain ⟨a, ha⟩ := hm₃.final rfl
              rw [he₃] at ha
              cases ha
            · rw [he₃]
              apply hdone
              rw [show w₂.tick.lib = w.lib from hlib₂] at hdelete
              exact hagrees.delete hfind hdelete hothers

/-- What is known after the changes is the current snapshot. -/
theorem known_after (previous current : Snapshot) (path : Path) :
    (if path ∈ vanished previous current then none
      else if path ∈ changed previous current then current.lookup path
      else previous.lookup path) = current.lookup path := by
  by_cases hcurrent : path ∈ current
  · obtain ⟨f, hf⟩ := Option.isSome_iff_exists.mp (AList.lookup_isSome.mpr hcurrent)
    rw [if_neg (by simp [vanished, hcurrent])]
    split
    · rfl
    next hsame =>
      rw [hf]
      by_contra hother
      apply hsame
      refine List.mem_map.mpr ⟨⟨path, f⟩, List.mem_filter.mpr ⟨AList.mem_lookup_iff.mp hf, ?_⟩, rfl⟩
      simpa using hother
  · rw [AList.lookup_eq_none.mpr hcurrent]
    split
    · rfl
    next hnot =>
      split
      · rfl
      · rw [AList.lookup_eq_none]
        intro hprevious
        exact hnot (List.mem_filter.mpr ⟨hprevious, by simpa using hcurrent⟩)

/-- After the changes the library agrees with the snapshot. -/
theorem writeChanges_watched {previous current : Snapshot} {currentDevId : Option ℕ}
    {apart : Path → Prop} (hdevice : currentDevId.isNone = false)
    (hcompares : Compares disk root current apart)
    (hvanished : ∀ path ∈ previous, apart path ∧ (path ∉ current → opened disk path = none))
    (hagrees : Agrees root (fun path => previous.lookup path) w.lib) :
    Watches o disk root true quiet
      (fun r w' => r = some current ∧ Agrees root (fun path => current.lookup path) w'.lib)
      (writeChanges o.newV5 root previous current currentDevId) w := by
  refine Watches.step fun _ => ?_
  have hrows := (exec_update_rows (o := o) (rootStr root) "online" "" currentDevId w).1
  generalize (exec o (.updateMountState (rootStr root) "online" "" currentDevId) w).2 = w₁
    at hrows ⊢
  rw [if_neg (by simp [hdevice])]
  have hprevious : ∀ path f, previous.lookup path = some f → apart path := fun path f hf =>
    (hvanished path (AList.lookup_isSome.mp (by simp [hf]))).1
  have hchanged : ∀ path ∈ changed previous current, path ∈ current := by
    intro path hpath
    obtain ⟨f, hf, rfl⟩ := List.mem_map.mp hpath
    exact List.mem_map_of_mem (List.mem_filter.mp hf).1
  apply Prog.Meets.bind
  apply (upsertChanged_watched previous current apart hcompares _ hchanged _ hprevious
    (hagrees.of_tracks hrows)).mono
  rintro goOn w₂ ⟨rfl, hupserted⟩
  rw [if_pos rfl]
  apply Prog.Meets.bind
  have hgone : ∀ path ∈ vanished previous current, opened disk path = none ∧ apart path := by
    intro path hpath
    obtain ⟨hkey, hnot⟩ := List.mem_filter.mp hpath
    obtain ⟨hapart, hopened⟩ := hvanished path hkey
    exact ⟨hopened (by simpa using hnot), hapart⟩
  apply (removeVanished_watched apart hcompares.texts _ hgone _ ?_ hupserted).mono
  · intro _ w₃ hafter
    refine ⟨rfl, ?_⟩
    simpa only [known_after] using hafter
  · intro path f hf
    split at hf
    · exact hcompares.seen path f hf
    · exact hprevious path f hf

/-! ## Polls -/

section

variable {newV5 : List UInt8 → Uuid} {previous : Option (Option Snapshot)} {lib lib' : Library}
  {tracks : List Track} {current : Snapshot} (h : Watchable newV5 disk root previous lib)

include h

theorem Watchable.paths_apart (hcurrent : IsSnapshot disk root current)
    (hscan : scanDirectorySyncStrict newV5 disk root root = .ok tracks) :
    (tracks.map Track.filePath).Nodup := by
  obtain ⟨files, hsnapshot, -⟩ := hcurrent
  have hids := h.ids_apart tracks hscan
  apply List.Nodup.map_on _ hids.of_map
  intro t ht other hother hpath
  apply List.inj_on_of_nodup_map hids ht hother
  obtain ⟨f, hf, rfl⟩ := (mem_scan_iff_snapshot h.none_hidden hscan hsnapshot t).mp ht
  obtain ⟨g, hg, rfl⟩ := (mem_scan_iff_snapshot h.none_hidden hscan hsnapshot other).mp hother
  have hsame := h.texts_apart f.1 g.1 (.inl ⟨files, f.2, hsnapshot, hf⟩)
    (.inl ⟨files, g.2, hsnapshot, hg⟩) hpath
  exact congrArg (trackIdFromLibraryPath newV5 root) hsame

/-- What is in line agrees with the snapshot. -/
theorem Watchable.agrees (hcurrent : IsSnapshot disk root current)
    (hscan : scanDirectorySyncStrict newV5 disk root root = .ok tracks)
    (hcompares : Scanner.comparing previous = false)
    (hinline : InLine disk tracks (lib.rowsUnder root) lib lib') :
    Agrees root (fun path => current.lookup path) lib' := by
  obtain ⟨files, hsnapshot, hlookup⟩ := hcurrent
  have halike := scan_snapshot_alike h.none_hidden hscan hsnapshot
  apply hinline.agrees
  · intro t ht
    obtain ⟨f, hf, htext, -⟩ := (halike _ _).mp ⟨t, ht, rfl, rfl⟩
    rw [← htext]
    exact h.under files hsnapshot f hf
  · intro row hrow hpath
    apply h.strays hcompares files hsnapshot row hrow
    intro f hf htext
    obtain ⟨t, ht, hsame, -⟩ := (halike _ _).mpr ⟨f, hf, htext, rfl⟩
    exact hpath (List.mem_map.mpr ⟨t, ht, hsame⟩)
  · intro text stamp
    rw [halike]
    simp only [Prod.exists, hlookup]

theorem Watchable.compares (hcurrent : IsSnapshot disk root current) :
    Compares disk root current (Seen disk root previous) := by
  obtain ⟨files, hsnapshot, hlookup⟩ := hcurrent
  constructor
  · intro path f hf
    exact opened_of_snapshot h.twin_free hsnapshot ((hlookup path f).mp hf)
  · intro path f hf
    exact h.under files hsnapshot (path, f) ((hlookup path f).mp hf)
  · intro path f hf
    exact .inl ⟨files, f, hsnapshot, (hlookup path f).mp hf⟩
  · exact h.texts_apart

end

theorem IsSnapshot.opened_root {current : Snapshot} (h : IsSnapshot disk root current) :
    opened disk root = some .dir := by
  obtain ⟨files, hsnapshot, -⟩ := h
  grind [snapshot, opened]

theorem Shows.device {calm : Prop} {m : Moment} (h : Shows disk calm m)
    (hopened : opened disk root = some .dir) :
    (if m.fails then none else m.deviceOf root).isNone = false := by
  have hpresent := (h.present root).trans hopened
  unfold Moment.present at hpresent
  split at hpresent
  · cases hpresent
  next hfails =>
    rw [if_neg hfails]
    cases hdevice : m.deviceOf root with
    | none => simp [hdevice] at hpresent
    | some d => rfl

/-- After a poll the library agrees with the snapshot that is kept, and after a quiet one with the tree. -/
structure Polled (disk : Disk FileData) (root : Path) (quiet : Prop) (r : Option Snapshot)
    (w' : World) : Prop where
  kept : ∀ kept, r = some kept → Agrees root (fun path => kept.lookup path) w'.lib
  quiet : quiet → ∃ current, IsSnapshot disk root current ∧
    Agrees root (fun path => current.lookup path) w'.lib

section

variable {previous : Option (Option Snapshot)} {lib : Library} {current : Snapshot}
  (h : Watchable o.newV5 disk root previous lib) (hcurrent : IsSnapshot disk root current)

theorem Polled.of_agrees {w' : World} (hcurrent : IsSnapshot disk root current)
    (hagrees : Agrees root (fun path => current.lookup path) w'.lib) :
    Polled disk root quiet (some current) w' := by
  refine ⟨fun kept hkept => ?_, fun _ => ⟨current, hcurrent, hagrees⟩⟩
  rw [← Option.some.inj hkept]
  exact hagrees

include h hcurrent

theorem rescan_polled (hcompares : Scanner.comparing previous = false) (hlib : w.lib = lib) :
    Watches o disk root (Scanner.comparing previous) quiet (Polled disk root quiet)
      (rescan root current) w := by
  apply (rescan_watched current h.ids_apart fun tracks => h.paths_apart hcurrent).mono
  rintro r w' ⟨hkept, hdone⟩
  have hagrees : r.isSome = true ∨ quiet →
      Agrees root (fun path => current.lookup path) w'.lib := by
    intro hend
    obtain ⟨tracks, hscan, hinline⟩ := hdone hend
    rw [hlib] at hinline
    exact h.agrees hcurrent hscan hcompares hinline
  refine ⟨fun kept hr => ?_, fun hquiet => ⟨current, hcurrent, hagrees (.inr hquiet)⟩⟩
  rw [hkept kept hr]
  exact hagrees (.inl (by simp [hr]))

theorem baseline_polled (hprevious : previous = none) (hlib : w.lib = lib)
    (hrecorded : ¬ (lib.getMountDeviceId (rootStr root)).isNone = true)
    (currentDevId : Option ℕ) :
    Watches o disk root (Scanner.comparing previous) quiet (Polled disk root quiet)
      (do
        let _ ← call (.updateMountState (rootStr root) "online" "" currentDevId)
        pure (some current)) w := by
  have hfirst : Agrees root (fun path => current.lookup path) w.lib := by
    rcases h.first hprevious with hnone | hfirst
    · simp [hnone] at hrecorded
    · exact hlib ▸ hfirst current hcurrent
  refine Watches.step fun _ => Polled.of_agrees hcurrent (hfirst.of_tracks ?_)
  simp [exec_update_rows, rootStr]

theorem writeChanges_polled {before : Snapshot} (hprevious : previous = some (some before))
    (hagrees : Agrees root (fun path => before.lookup path) w.lib) {currentDevId : Option ℕ}
    (hdevice : currentDevId.isNone = false) :
    Watches o disk root (Scanner.comparing previous) quiet (Polled disk root quiet)
      (writeChanges o.newV5 root before current currentDevId) w := by
  subst hprevious
  apply (writeChanges_watched hdevice (h.compares hcurrent) ?_ hagrees).mono
  · rintro r w' ⟨rfl, hafter⟩
    exact Polled.of_agrees hcurrent hafter
  · intro path hpath
    refine ⟨.inr ⟨before, rfl, hpath⟩, fun hnot => ?_⟩
    obtain ⟨files, hsnapshot, hlookup⟩ := hcurrent
    apply h.vanished files before hsnapshot rfl path hpath
    intro f hf
    exact hnot (AList.lookup_isSome.mp (by simp [(hlookup path f).mpr hf]))

end

/-- After a poll the library agrees with the disk. -/
theorem pollRoot_watched {previous : Option (Option Snapshot)}
    (h : Watchable o.newV5 disk root previous w.lib)
    (hknown : ∀ before, previous = some (some before) →
      Agrees root (fun path => before.lookup path) w.lib) :
    Watches o disk root (Scanner.comparing previous) quiet (Polled disk root quiet)
      (pollRoot o.newV5 root previous) w := by
  refine Watches.step fun hm => ?_
  have hunanswered : (¬ ∃ current, (o.history w.clock).walk root = some (.ok current)) →
      ∀ w' : World, Polled disk root quiet none w' := fun hfailed w' =>
    ⟨nofun, fun hquiet => absurd hquiet (not_quiet hm hfailed)⟩
  cases hwalk : (o.history w.clock).walk root with
  | none =>
    simp only [exec, hwalk]
    exact hunanswered (by simp [hwalk]) _
  | some walked =>
    cases walked with
    | error e =>
      simp only [exec, hwalk]
      exact Watches.step fun _ => hunanswered (by simp [hwalk]) _
    | ok current =>
      have hcurrent := hm.walk current hwalk
      simp only [exec, hwalk]
      refine Watches.step fun hm₁ => ?_
      have hdevice : (exec o (.getPathDeviceId root) w.tick).1.isNone = false :=
        hm₁.shows.device hcurrent.opened_root
      have hlib₂ : (exec o (.getPathDeviceId root) w.tick).2.lib = w.lib := rfl
      generalize (exec o (.getPathDeviceId root) w.tick).1 = currentDevId at hdevice ⊢
      generalize (exec o (.getPathDeviceId root) w.tick).2 = w₂ at hlib₂ ⊢
      refine Watches.step fun hm₂ => ?_
      rcases w₂.query_cases (o.history w₂.clock) fun lib =>
        lib.getMountDeviceId (rootStr root) with ⟨e, he⟩ | he
      · simp only [exec, he]
        exact ⟨nofun, fun hquiet => absurd hquiet (not_quiet hm₂ (query_error he))⟩
      · simp only [exec, he]
        have hlib₃ : w₂.tick.lib = w.lib := hlib₂
        generalize w₂.tick = w₃ at hlib₃ ⊢
        rw [hlib₂]
        apply Prog.Meets.ite
        · intro _
          refine Watches.step fun hm₃ => ⟨nofun, fun hquiet => ?_⟩
          have hmarks := (hm₃.quiet hquiet).2
          cases hmarks
        · intro _
          cases previous with
          | none =>
            apply Prog.Meets.ite
            · exact fun _ => rescan_polled h hcurrent rfl hlib₃
            · grind [baseline_polled]
          | some entry =>
            cases entry with
            | none => exact rescan_polled h hcurrent rfl hlib₃
            | some before =>
              grind [writeChanges_polled]

/-! ## Runs -/

theorem Watchable.converged {newV5 : List UInt8 → Uuid} {previous : Option (Option Snapshot)}
    {lib lib' : Library} {current : Snapshot} (h : Watchable newV5 disk root previous lib)
    (hcurrent : IsSnapshot disk root current)
    (hagrees : Agrees root (fun path => current.lookup path) lib') :
    Converged newV5 disk root lib' := by
  obtain ⟨files, hsnapshot, hlookup⟩ := hcurrent
  have hscan : ∃ tracks, scanDirectorySyncStrict newV5 disk root root = .ok tracks := by
    unfold snapshot at hsnapshot
    unfold scanDirectorySyncStrict
    split at hsnapshot
    next entries hopen => exact ⟨_, rfl⟩
    all_goals cases hsnapshot
  obtain ⟨tracks, hscan⟩ := hscan
  refine ⟨tracks, hscan, fun text stamp => ?_⟩
  rw [hagrees text stamp, scan_snapshot_alike h.none_hidden hscan hsnapshot]
  simp only [Prod.exists, hlookup]

end

/-- A poll of the root that meets this tree, which it can bring the library in line with. -/
structure PollWatches (o : Outside) (disk : Disk FileData) (root : Path) (quiet : Prop)
    (s : Server) : Prop where
  watchable : Watchable o.newV5 disk root (s.snapshots root) s.world.lib
  watched : s.Along o (fun _ => Watched o disk root (comparing (s.snapshots root)) quiet)
    (.pollRoot root)

/-- The watcher of one root goes on or is restarted, and its polls meet trees. -/
def WatchesTrees (o : Outside) (root : Path) (s : Server) : Job → Prop
  | .pollRoot root' => root' = root ∧ ∃ disk, PollWatches o disk root False s
  | .restartWatcher => True
  | _ => False

def KnownAgrees (root : Path) (s : Server) : Prop :=
  ∀ before, s.snapshots root = some (some before) →
    Agrees root (fun path => before.lookup path) s.world.lib

section

variable {o : Outside} {disk : Disk FileData} {root : Path} {quiet : Prop} {s : Server}

theorem poll_kept (hs : KnownAgrees root s) (h : PollWatches o disk root quiet s) :
    KnownAgrees root (s.step o (.pollRoot root)) ∧
      (quiet → Converged o.newV5 disk root (s.step o (.pollRoot root)).world.lib) := by
  have hpoll : Watches o disk root (comparing (s.snapshots root)) quiet
      (fun snapshots w' => Polled disk root quiet ((snapshots root).join) w')
      (Job.prog o.newV5 s.snapshots (.pollRoot root)) s.world := by
    apply Prog.Meets.bind
    apply (pollRoot_watched h.watchable hs).mono
    intro entry w' hpolled
    show Polled disk root quiet (Function.update s.snapshots root (some entry) root).join w'
    simpa using hpolled
  obtain ⟨-, hpolled⟩ := hpoll.along h.watched
  constructor
  · intro before hbefore
    apply hpolled.kept before
    exact congrArg Option.join hbefore
  · intro hquiet
    obtain ⟨current, hcurrent, hagrees⟩ := hpolled.quiet hquiet
    exact h.watchable.converged hcurrent hagrees

theorem run_known (hs : KnownAgrees root s) {jobs : List Job}
    (h : Logic.Trace.Obeys (Server.step o) (WatchesTrees o root) s jobs) :
    KnownAgrees root (s.run o jobs) := by
  apply Logic.Trace.run_invariant _ hs h
  intro s job hs hjob
  cases job with
  | pollRoot root' =>
    obtain ⟨rfl, disk, hpoll⟩ := hjob
    exact (poll_kept hs hpoll).1
  | restartWatcher => exact nofun
  | reconcileRoot _ => exact hjob.elim
  | scanLibrary _ => exact hjob.elim
  | importFiles _ _ => exact hjob.elim

end

/-- From any library, after any run of polls and restarts of the watcher whose polls meet trees, a
quiet poll leaves exactly the audio files of the tree it meets. -/
theorem watcher_converges (o : Outside) (root : Path) (s : Server) (jobs : List Job)
    (disk : Disk FileData) (hnew : s.snapshots root = none)
    (hjobs : Logic.Trace.Obeys (Server.step o) (WatchesTrees o root) s jobs)
    (hquiet : PollWatches o disk root True (s.run o jobs)) :
    Converged o.newV5 disk root ((s.run o jobs).step o (.pollRoot root)).world.lib := by
  have hknown : KnownAgrees root s := by
    intro before hbefore
    rw [hnew] at hbefore
    cases hbefore
  exact (poll_kept (run_known hknown hjobs) hquiet).2 trivial

/-! ## One file -/

instance decidableIsOk {ε α : Type} : (r : Except ε α) → Decidable (∃ a, r = .ok a)
  | .ok a => isTrue ⟨a, rfl⟩
  | .error _ => isFalse nofun

instance : (r : Option (Except String Snapshot)) → Decidable (∃ current, r = some (.ok current))
  | some (.ok current) => isTrue ⟨current, rfl⟩
  | some (.error _) => isFalse nofun
  | none => isFalse nofun

instance : (r : ScanResult) → Decidable (∃ tracks, r = .success tracks)
  | .success tracks => isTrue ⟨tracks, rfl⟩
  | .partialScan _ _ => isFalse nofun
  | .unavailable _ => isFalse nofun
  | .cancelled => isFalse nofun

instance : (c : Call) → (r : c.Resp) → Decidable (c.Answered r)
  | .snapshot _, _ | .scanRoot _, _ | .readDir _, _ | .getMountDeviceId _, _
  | .getMountStates _, _ | .listTracks, _ | .findTrackByPath _, _ | .updateMountState .., _
  | .upsertTrack _, _ | .upsertTracks _, _ | .deleteTrack _, _ =>
    inferInstanceAs (Decidable (∃ _, _))
  | .getPathDeviceId _, _ | .exists _, _ | .isDir _, _ | .isFile _, _ | .metadata _, _
  | .computeFileContentHash _, _ | .isCancelled, _ => inferInstanceAs (Decidable True)

def twoBytes : FileData := ⟨true, [1, 2], some 9⟩

def xPath : Path := join (asBytes "/a") xMp3.bytes

def oneFileDisk (data : FileData) : Disk FileData where
  entries := [(dirA, .dir [(xMp3, .file data)])]
  cwd := []
  cwd_real := Node.real_root rfl

def oneFileMoment (data : FileData) : Moment where
  deviceOf path := (opened (oneFileDisk data) path).map fun _ => 1
  stored _ path := opened (oneFileDisk data) path
  fails := false
  walk _ := some (.ok (AList.singleton xPath data.fingerprint))
  scan _ := .finished [(xPath, some data.fingerprint)]
  cancelled := false
  dbError := none

def replacedAt (n : ℕ) : Outside where
  newV5 := numberOf
  sha256Hex _ := ""
  history k := oneFileMoment (if k < n then oneByte else twoBytes)

section

variable {data : FileData}

theorem one_file_snapshot (hregular : data.regular = true) :
    snapshot (oneFileDisk data) (asBytes "/a") = .ok [(xPath, data.fingerprint)] := by
  have hopen : (oneFileDisk data).openPath (asBytes "/a") =
      some (.dir [(xMp3, .file data)]) := rfl
  have hshown : hiddenLossy xMp3 = false := by decide +kernel
  simp [snapshot, hopen, snapshotDirectory, hshown, hregular, audio_a, xPath]

theorem one_file_scan (hregular : data.regular = true) :
    scanDirectorySyncStrict numberOf (oneFileDisk data) (asBytes "/a") (asBytes "/a") =
      .ok [trackOf numberOf (asBytes "/a") xPath (some data.fingerprint)] :=
  scan_single rfl (by simp [trackFromFile, hregular, audio_a, xPath])

theorem one_file_is_snapshot (hregular : data.regular = true) :
    IsSnapshot (oneFileDisk data) (asBytes "/a") (AList.singleton xPath data.fingerprint) := by
  refine ⟨_, one_file_snapshot hregular, fun path f => ?_⟩
  rw [← Option.mem_def, AList.mem_lookup_iff]
  simp

theorem find_single {name other : FileName} {rest : Location} {child node : Node FileData}
    (h : (Node.dir [(name, child)]).find (other :: rest) = some node) :
    child.find rest = some node := by
  by_cases hsame : name.bytes = other.bytes
  · simpa [Node.find, Node.entry?, hsame] using h
  · simp [Node.find, Node.entry?, hsame] at h

/-- A root of one file can be watched. -/
theorem one_file_watchable (hregular : data.regular = true) {previous : Option (Option Snapshot)}
    {lib : Library} (hprevious : ∀ before, previous = some (some before) → before.keys = [xPath])
    (hrows : ∀ row ∈ lib.tracks, row.filePath = fromUtf8Lossy xPath)
    (hfirst : previous = none → lib.getMountDeviceId "/a" = none) :
    Watchable numberOf (oneFileDisk data) (asBytes "/a") previous lib := by
  have hfiles : ∀ files, snapshot (oneFileDisk data) (asBytes "/a") = .ok files →
      files = [(xPath, data.fingerprint)] := fun files hfiles =>
    (Except.ok.inj ((one_file_snapshot hregular).symm.trans hfiles)).symm
  have hseen : ∀ path, Seen (oneFileDisk data) (asBytes "/a") previous path → path = xPath := by
    rintro path (⟨files, f, hsnapshot, hmem⟩ | ⟨before, hbefore, hmem⟩)
    · grind
    · have hkey : path ∈ before.keys := hmem
      grind
  constructor
  · intro loc entries hdir
    -- the root and `/a` have one entry each, and there are no other directories
    cases loc with
    | nil =>
      cases hdir
      exact List.nodup_singleton _
    | cons name rest =>
      have hinner := find_single hdir
      cases rest with
      | nil =>
        cases hinner
        exact List.nodup_singleton _
      | cons other more =>
        have hfile := find_single hinner
        cases more <;> cases hfile
  · intro entries hopen names other hholds _ _ _ name hname
    cases hopen
    rcases holds_file.mp hholds with ⟨rfl, -⟩ | hnil
    · rw [List.mem_singleton.mp hname]
      decide
    · exact (not_holds_nil hnil).elim
  · grind [one_file_scan]
  · grind
  · intro files hsnapshot f hf
    rw [hfiles files hsnapshot, List.mem_singleton] at hf
    subst hf
    show pathStartsWith (asBytes (fromUtf8Lossy xPath)) (asBytes "/a") = true
    decide +kernel
  · intro files before hsnapshot hbefore path hpath hnot
    have hkey : path ∈ before.keys := hpath
    grind
  · intro _ files hsnapshot row hrow hnot
    rw [hfiles files hsnapshot, List.forall_mem_singleton] at hnot
    exact (hnot (hrows row (List.mem_filter.mp hrow).1).symm).elim
  · grind [rootStr, fromUtf8Lossy_asBytes]

def AnsweredWith (n : ℕ) (early : Bool) (c : Call) (w : World) : Prop :=
  decide (w.clock < n) = early ∧ c.Answered (exec (replacedAt n) c w).1 ∧
    c.marksUnavailable = false

instance (n : ℕ) (early : Bool) (c : Call) (w : World) : Decidable (AnsweredWith n early c w) :=
  inferInstanceAs (Decidable (_ ∧ _ ∧ _))

/-- A run that is answered is watched. -/
theorem watched_of_answered {n : ℕ} {comparing : Bool} {quiet : Prop} {s : Server} (early : Bool)
    (h : s.Along (replacedAt n) (fun _ => AnsweredWith n early) (.pollRoot (asBytes "/a"))) :
    s.Along (replacedAt n) (fun _ => Watched (replacedAt n)
      (oneFileDisk (if early then oneByte else twoBytes)) (asBytes "/a") comparing quiet)
      (.pollRoot (asBytes "/a")) := by
  apply Prog.Along.mono _ h
  rintro c w ⟨hclock, hanswered, hmarks⟩
  have hhistory : (replacedAt n).history w.clock =
      oneFileMoment (if early then oneByte else twoBytes) := by
    show oneFileMoment _ = _
    subst hclock
    simp
  have hregular : (if early then oneByte else twoBytes).regular = true := by
    cases early <;> rfl
  generalize (if early then oneByte else twoBytes) = data at hhistory hregular ⊢
  constructor
  · rw [hhistory]
    constructor
    · intro path
      simp only [Moment.present, oneFileMoment]
      cases opened (oneFileDisk data) path <;> rfl
    · rfl
    · exact fun _ => rfl
  · rw [hhistory]
    intro current hcurrent
    cases hcurrent
    exact one_file_is_snapshot hregular
  · rw [hhistory]
    exact one_file_scan hregular
  · exact fun _ => hanswered
  · exact fun _ => by rw [hhistory]; rfl
  · exact fun _ => ⟨hanswered, hmarks⟩

end

def polledOnce : Server := newServer.run (replacedAt 14) [.pollRoot (asBytes "/a")]

theorem polledOnce_watchable :
    Watchable numberOf (oneFileDisk twoBytes) (asBytes "/a")
      (polledOnce.snapshots (asBytes "/a")) polledOnce.world.lib := by
  have hkeys : (match polledOnce.snapshots (asBytes "/a") with
      | some (some before) => before.keys
      | _ => []) = [xPath] := by decide +kernel
  have hsome : (polledOnce.snapshots (asBytes "/a")).isSome = true := by decide +kernel
  apply one_file_watchable rfl
  · intro before hbefore
    rwa [hbefore] at hkeys
  · decide +kernel
  · grind

/-- The watcher starts with an empty library, and between its first two polls the file is replaced. -/
theorem watcher_converges_replaced :
    polledOnce.world.lib.tracks.map Track.stamp = [oneByte.fingerprint.stamp] ∧
    Converged numberOf (oneFileDisk twoBytes) (asBytes "/a")
      (polledOnce.step (replacedAt 14) (.pollRoot (asBytes "/a"))).world.lib := by
  refine ⟨by decide +kernel, watcher_converges (replacedAt 14) (asBytes "/a") newServer
    [.pollRoot (asBytes "/a")] (oneFileDisk twoBytes) rfl ⟨⟨rfl, oneFileDisk oneByte, ?_⟩,
    trivial⟩ ?_⟩
  · constructor
    · exact one_file_watchable rfl nofun nofun fun _ => rfl
    · exact watched_of_answered true (by decide +kernel)
  · have halong : polledOnce.Along (replacedAt 14) (fun _ => AnsweredWith 14 false)
        (.pollRoot (asBytes "/a")) := by decide +kernel
    exact ⟨polledOnce_watchable, watched_of_answered false halong⟩

def restarted : Server where
  world := { newServer.world with
    lib := {
      tracks := [trackIn (asBytes "/a") xMp3]
      references := []
      mountGuard := [⟨"/a", "online", "", some 1⟩]
      ids_nodup := oneEntryLibrary.ids_nodup
      paths_nodup := oneEntryLibrary.paths_nodup
      referred := by simp } }
  snapshots _ := none

/-- Nothing fails, nothing changes, two polls come to their end, and the row still has the size and the
time of the file that was replaced. -/
theorem restart_stays_stale :
    let o := replacedAt 0
    let s := restarted.step o (.pollRoot (asBytes "/a"))
    (∀ quiet, restarted.Along o (fun _ => Watched o (oneFileDisk twoBytes) (asBytes "/a")
      (comparing (restarted.snapshots (asBytes "/a"))) quiet) (.pollRoot (asBytes "/a"))) ∧
    (∀ quiet, s.Along o (fun _ => Watched o (oneFileDisk twoBytes) (asBytes "/a")
      (comparing (s.snapshots (asBytes "/a"))) quiet) (.pollRoot (asBytes "/a"))) ∧
    ¬ Converged o.newV5 (oneFileDisk twoBytes) (asBytes "/a")
      (s.step o (.pollRoot (asBytes "/a"))).world.lib := by
  intro o s
  refine ⟨fun quiet => watched_of_answered false (by decide +kernel),
    fun quiet => watched_of_answered false (by decide +kernel), ?_⟩
  rintro ⟨tracks, hscan, hrows⟩
  have hregular : twoBytes.regular = true := rfl
  cases (one_file_scan hregular).symm.trans hscan
  have hstale : ∃ row ∈ (s.step o (.pollRoot (asBytes "/a"))).world.lib.rowsUnder (asBytes "/a"),
      row.filePath = fromUtf8Lossy xPath ∧ row.stamp = oneByte.fingerprint.stamp := by
    decide +kernel
  obtain ⟨t, ht, -, hstamp⟩ := (hrows _ _).mp hstale
  rw [List.mem_singleton] at ht
  rw [ht] at hstamp
  exact absurd hstamp (by decide +kernel)

end MichiServer.Scanner
