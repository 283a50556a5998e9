import MichiServer.Scanner.Jobs

/-!
# Mounts that come and go

When a row is deleted its file is not on the trusted device, provided that the last question whether
the file exists was answered truly: it did not fail, it was put to the device whose id the job had
read, and nothing was put in the file's place since. The jobs ask for the id once, and then believe
every answer: where the mount goes away in between, or a call fails, rows of stored files are deleted
(`lost_mount_deletes`).
-/

namespace MichiServer.Scanner

open MichiServer.Files MichiServer.Text MichiServer.Interleave

def Job.root? : Job → Option Path
  | pollRoot root | reconcileRoot root => some root
  | restartWatcher | scanLibrary _ | importFiles _ _ => none

section

variable (history : ℕ → Moment)

/-- The file of this path text is stored on the device at this moment. -/
def StoredAt (t : ℕ) (device : ℕ) (filePath : String) : Prop :=
  ∃ path data, (history t).stored device path = some (.file data) ∧
    fromUtf8Lossy path = filePath

/-- The last answer that a file does not exist is to be believed: the call did not fail and was
answered by the device whose id was read, and whatever that device stores by now under the same text is
at the path that was asked for and was there when it was asked for. -/
def TrueAnswer (w : World) : Prop :=
  ∃ d path t, w.deviceSeen = some d ∧ w.asked = some (path, t) ∧ (history t).fails = false ∧
    (history t).deviceOf path = some d ∧
    ∀ p data, (history w.clock).stored d p = some (.file data) →
      fromUtf8Lossy p = fromUtf8Lossy path → p = path ∧ ((history t).stored d path).isSome

def DeletesAfterTrueAnswer (_ : Job) : Call → World → Prop
  | .deleteTrack _, w => TrueAnswer history w
  | _, _ => True

/-- No deleted row is of a file that is stored on the device that is trusted for the root. -/
def SparesStored (job : Job) : Call → World → Prop
  | .deleteTrack id, w => ∀ root device row, job.root? = some root →
      w.lib.getMountDeviceId (rootStr root) = some device → row ∈ w.lib.tracks → row.id = id →
      ¬ StoredAt history w.clock device row.filePath
  | _, _ => True

end

def Call.isDeletion : Call → Bool
  | deleteTrack _ => true
  | _ => false

section

variable {o : Outside} {root : Path} {job : Job} {w w' : World}

/-- A program of a job whose deletions are after true answers spares stored files. -/
abbrev Spares (o : Outside) (job : Job) {α : Type}
    (Post : α → World → Prop) (p : CallProg α) (w : World) : Prop :=
  p.Meets (exec o) (DeletesAfterTrueAnswer o.history job)
    (SparesStored o.history job) Post w

/-- The device that is trusted for the root, if there is one, is the one whose id was read, if one
was. -/
def TrustedIsSeen (root : Path) (w : World) : Prop :=
  ∀ device d, w.lib.getMountDeviceId (rootStr root) = some device → w.deviceSeen = some d →
    device = d

theorem spares_delete {id : Uuid} {path : Path} {t : ℕ} (hroot : job.root? = some root)
    (htrusted : TrustedIsSeen root w) (hasked : w.asked = some (path, t))
    (habsent : (o.history t).present path = none)
    (hrow : ∀ row ∈ w.lib.tracks, row.id = id → row.filePath = fromUtf8Lossy path)
    (hallowed : DeletesAfterTrueAnswer o.history job (.deleteTrack id) w) :
    SparesStored o.history job (.deleteTrack id) w := by
  rintro root' device row hroot' hdevice hmem hid ⟨p, data, hstored, htext⟩
  obtain ⟨d, path', t', hseen, hasked', hfails, hon, hthere⟩ := hallowed
  rw [hasked] at hasked'
  cases hasked'
  rw [hroot] at hroot'
  cases hroot'
  have hd := htrusted device d hdevice hseen
  grind [Moment.present]

theorem Spares.step {c : Call} {β : Type} {f : c.Resp → CallProg β} {Q : β → World → Prop}
    (h : Spares o job Q (f (exec o c w).1)
      (exec o c w).2) (hc : c.isDeletion = false) :
    Spares o job Q (call c >>= f) w := by
  intro _
  refine ⟨?_, h⟩
  cases c with
  | deleteTrack id => cases hc
  | _ => trivial

theorem Spares.delete {id : Uuid} {β : Type} {f : Except String Bool → CallProg β}
    {Q : β → World → Prop}
    (hspares : DeletesAfterTrueAnswer o.history job (.deleteTrack id) w →
      SparesStored o.history job (.deleteTrack id) w)
    (h : Spares o job Q (f (exec o (.deleteTrack id) w).1)
      (exec o (.deleteTrack id) w).2) :
    Spares o job Q (call (.deleteTrack id) >>= f) w :=
  fun hallowed => ⟨hspares hallowed, h⟩

/-- The library has no more rows than before and trusts the same devices, and the job has read the
same id. -/
structure Kept (w w' : World) : Prop where
  tracks : ∀ {row : Track}, row ∈ w'.lib.tracks → row ∈ w.lib.tracks
  device : ∀ path, w'.lib.getMountDeviceId path = w.lib.getMountDeviceId path
  seen : w'.deviceSeen = w.deviceSeen

theorem Kept.trusted (h : Kept w w') (htrusted : TrustedIsSeen root w) : TrustedIsSeen root w' := by
  intro device d hdevice hseen
  rw [h.device] at hdevice
  rw [h.seen] at hseen
  exact htrusted device d hdevice hseen

theorem delete_kept (id : Uuid) (w : World) :
    Kept w (exec o (.deleteTrack id) w).2 := by
  rcases exec_deleteTrack (o := o) id w with ⟨e, he⟩ | ⟨deleted, lib, hok, he⟩
  · rw [he]
    exact ⟨fun h => h, fun _ => rfl, rfl⟩
  · rw [he]
    refine ⟨fun h => ((Library.mem_deleteTrack hok).mp h).1, fun path => ?_, rfl⟩
    simp only [Library.getMountDeviceId, Library.mountGuard_deleteTrack hok]

/-! ## reconcile_root -/

theorem keepHash_spares (rootExisting : List Track) (t : Track) :
    Spares o job
      (fun t' w' => t'.id = t.id ∧ w'.lib = w.lib ∧ w'.deviceSeen = w.deviceSeen)
      (keepHash rootExisting t) w := by
  have hadd : Spares o job
      (fun t' w' => t'.id = t.id ∧ w'.lib = w.lib ∧ w'.deviceSeen = w.deviceSeen)
      (addHash (asBytes t.filePath) t) w := by
    refine Spares.step ?_ rfl
    split <;> exact ⟨rfl, rfl, rfl⟩
  unfold keepHash
  split
  · exact ⟨rfl, rfl, rfl⟩
  · apply Prog.Meets.ite
    · exact fun _ => ⟨rfl, rfl, rfl⟩
    · intro _
      exact Prog.Meets.ite (fun _ => hadd) fun _ => ⟨rfl, rfl, rfl⟩

/-- The tracks to store are chosen without a write. -/
theorem tracksToUpsert_spares (rootExisting tracks : List Track) :
    Spares o job
      (fun upserts w' => w'.lib = w.lib ∧ w'.deviceSeen = w.deviceSeen ∧
        ∀ ts, upserts = some ts → ts.map Track.id = tracks.map Track.id)
      (tracksToUpsert rootExisting tracks) w := by
  induction tracks generalizing w with
  | nil =>
    refine ⟨rfl, rfl, ?_⟩
    intro ts hts
    cases hts
    rfl
  | cons t rest ih =>
    refine Spares.step ?_ rfl
    apply Prog.Meets.ite
    · exact fun _ => ⟨rfl, rfl, fun ts hts => nomatch hts⟩
    · intro _
      apply Prog.Meets.bind
      apply (keepHash_spares rootExisting t).mono
      rintro t' w₁ ⟨hid, hlib, hseen⟩
      apply Prog.Meets.bind
      apply ih.mono
      rintro others w₂ ⟨hlib', hseen', hids⟩
      refine ⟨hlib'.trans hlib, hseen'.trans hseen, ?_⟩
      intro ts hts
      cases others with
      | none => cases hts
      | some others =>
        grind

def AsListed (scanned : List Uuid) (rest : List Track) (w : World) : Prop :=
  ∀ existing ∈ rest, existing.id ∉ scanned → ∀ row ∈ w.lib.tracks, row.id = existing.id →
    row = existing

/-- Rows are deleted only while their device is seen. -/
theorem deleteMissing_spares (hroot : job.root? = some root) (scanned : List Uuid)
    (rest : List Track) (htrusted : TrustedIsSeen root w) (hlisted : AsListed scanned rest w) :
    Spares o job (fun _ _ => True) (deleteMissing scanned rest) w := by
  induction rest generalizing w with
  | nil => trivial
  | cons existing rest ih =>
    have hrest : AsListed scanned rest w := fun e he => hlisted e (List.mem_cons_of_mem _ he)
    apply Prog.Meets.ite
    · exact fun _ => ih htrusted hrest
    · intro hmissing
      refine Spares.step ?_ rfl
      apply Prog.Meets.ite
      · exact fun _ => ih htrusted hrest
      · intro habsent
        have hnone := Option.not_isSome_iff_eq_none.mp habsent
        refine Spares.delete (fun hallowed => ?_) ?_
        · refine spares_delete hroot htrusted rfl hnone ?_ hallowed
          intro row hrow hid
          rw [hlisted existing List.mem_cons_self hmissing row hrow hid, fromUtf8Lossy_asBytes]
        · have hafter := delete_kept (o := o) existing.id
            (exec o (.exists (asBytes existing.filePath)) w).2
          split
          · apply ih
            · exact hafter.trusted htrusted
            · intro e he hnew row hrow
              exact hrest e he hnew row (hafter.tracks hrow)
          · trivial

theorem update_kept (root : Path) (state reason : String) (deviceId : Option ℕ) (w : World) :
    let w' := (exec o
      (.updateMountState (rootStr root) state reason deviceId) w).2
    w'.lib.tracks = w.lib.tracks ∧ w'.deviceSeen = w.deviceSeen ∧
      ∀ device, w'.lib.getMountDeviceId (rootStr root) = some device →
        deviceId = some device ∨ w.lib.getMountDeviceId (rootStr root) = some device := by
  intro w'
  rcases exec_updateMountState (o := o) (rootStr root) state reason deviceId w with ⟨e, he⟩ | he
  · simp only [w', he]
    exact ⟨rfl, rfl, fun device h => .inr h⟩
  · simp only [w', he]
    exact ⟨rfl, rfl, fun device h => w.lib.getMountDeviceId_update h⟩

theorem upsertTracks_kept (tracks : List Track) (w : World) :
    let w' := (exec o (.upsertTracks tracks) w).2
    w'.lib.mountGuard = w.lib.mountGuard ∧ w'.deviceSeen = w.deviceSeen ∧
      ∀ row ∈ w'.lib.tracks, row.id ∉ tracks.map Track.id → row ∈ w.lib.tracks := by
  intro w'
  rcases exec_upsertTracks (o := o) tracks w with ⟨e, he⟩ | ⟨lib, hlib, he⟩
  · simp only [w', he]
    exact ⟨rfl, rfl, fun row hrow _ => hrow⟩
  · simp only [w', he]
    refine ⟨Library.mountGuard_upsertTracks hlib, rfl, ?_⟩
    grind [Library.mem_of_upsertTracks]

/-- A root that is written spares the stored rows. -/
theorem writeRoot_spares (hroot : job.root? = some root) (tracks rootExisting : List Track)
    (hlisted : ∀ existing ∈ rootExisting, existing ∈ w.lib.tracks)
    (htrusted : rootExisting ≠ [] → TrustedIsSeen root w) :
    Spares o job (fun _ _ => True)
      (writeRoot root tracks rootExisting w.deviceSeen) w := by
  apply Prog.Meets.bind
  apply (tracksToUpsert_spares rootExisting tracks).mono
  rintro upserts w₁ ⟨hlib, hseen, hids⟩
  cases upserts with
  | none => trivial
  | some upserts =>
    have hids := hids upserts rfl
    refine Spares.step ?_ rfl
    obtain ⟨hrows, hseen', hdevice⟩ := update_kept (o := o)
      root "online" "" w.deviceSeen w₁
    generalize (exec o _ w₁).2 = w₂ at hrows hseen' hdevice ⊢
    have htrusted₂ : rootExisting ≠ [] → TrustedIsSeen root w₂ := by
      intro hsome device d hd hread
      rw [hseen', hseen] at hread
      rcases hdevice device hd with h | h
      · exact Option.some.inj (h.symm.trans hread)
      · rw [hlib] at h
        exact htrusted hsome device d h hread
    have hmissing : ∀ w₃ : World, w₃.deviceSeen = w₂.deviceSeen →
        w₃.lib.mountGuard = w₂.lib.mountGuard →
        (∀ row ∈ w₃.lib.tracks, row.id ∉ upserts.map Track.id → row ∈ w₂.lib.tracks) →
        Spares o job (fun _ _ => True)
          (deleteMissing (tracks.map Track.id) rootExisting) w₃ := by
      intro w₃ hseen₃ hguard hrows₃
      by_cases hnil : rootExisting = []
      · rw [hnil]
        trivial
      · apply deleteMissing_spares hroot
        · intro device d hd hread
          rw [hseen₃] at hread
          rw [Library.getMountDeviceId, hguard] at hd
          exact htrusted₂ hnil device d hd hread
        · intro existing hexisting hnew row hrow hid
          grind [Library.eq_of_id]
    apply Prog.Meets.bind
    have hsaved : Spares o job
        (fun _ w₃ => w₃.lib.mountGuard = w₂.lib.mountGuard ∧ w₃.deviceSeen = w₂.deviceSeen ∧
          ∀ row ∈ w₃.lib.tracks, row.id ∉ upserts.map Track.id → row ∈ w₂.lib.tracks)
        (if upserts.isEmpty then pure (.ok ()) else call (.upsertTracks upserts)) w₂ := by
      apply Prog.Meets.ite
      · exact fun _ => ⟨rfl, rfl, fun row hrow _ => hrow⟩
      · exact fun _ _ => ⟨trivial, upsertTracks_kept upserts w₂⟩
    apply hsaved.mono
    rintro saved w₃ ⟨hguard, hseen₃, hrows₃⟩
    split
    · trivial
    · refine Spares.step ?_ rfl
      apply Prog.Meets.ite
      · exact fun _ => trivial
      · exact fun _ => hmissing _ hseen₃ hguard hrows₃

theorem preserve_spares (root : Path) (reason : String) :
    Spares o job (fun _ _ => True) (preserve root reason) w :=
  Spares.step trivial rfl

/-- A root whose mount is checked spares them. -/
theorem checkMount_spares (hroot : job.root? = some root) (tracks rootExisting : List Track)
    {recordedDevId : Option ℕ}
    (hlisted : ∀ existing ∈ rootExisting, existing ∈ w.lib.tracks)
    (hrecorded : w.lib.getMountDeviceId (rootStr root) = recordedDevId) :
    Spares o job (fun _ _ => True)
      (checkMount root tracks rootExisting recordedDevId w.deviceSeen) w := by
  apply Prog.Meets.ite
  · grind [writeRoot_spares]
  · intro _
    split
    · exact preserve_spares root _
    next hrefusal =>
      refine Spares.step ?_ rfl
      split
      · trivial
      · apply Prog.Meets.ite
        · exact fun _ => preserve_spares root _
        · intro _
          -- nothing is refused, so a recorded id is the one that was read
          have htrusted : TrustedIsSeen root w := by
            intro device d hd hread
            grind [refusal]
          have hworld : (exec o (.getMountStates (rootStr root)) w).2 = w.tick :=
            w.query_world _ _
          rw [hworld]
          exact writeRoot_spares (w := w.tick) hroot tracks rootExisting hlisted fun _ => htrusted

/-- A reconciliation spares them. -/
theorem reconcileScanned_spares (hroot : job.root? = some root) (tracks : List Track) :
    Spares o job (fun _ _ => True) (reconcileScanned root tracks) w := by
  refine Spares.step ?_ rfl
  generalize hworld : (exec o (.getPathDeviceId root) w).2 = w₁
  have hseen : (exec o (.getPathDeviceId root) w).1 = w₁.deviceSeen := by
    rw [← hworld]
    rfl
  rw [hseen]
  refine Spares.step ?_ rfl
  rcases w₁.query_cases (o.history w₁.clock) fun lib => lib.getMountDeviceId (rootStr root) with
    ⟨e, he⟩ | hrecorded
  · simp only [exec, he]
    trivial
  · simp only [exec, hrecorded]
    apply Prog.Meets.bind
    have hdisappeared : Spares o job
        (fun _ w₂ => w₂.lib = w₁.lib ∧ w₂.deviceSeen = w₁.deviceSeen) (disappeared root)
        w₁.tick := by
      refine Spares.step ?_ rfl
      apply Prog.Meets.ite
      · intro _
        refine Spares.step ?_ rfl
        exact ⟨rfl, rfl⟩
      · exact fun _ => ⟨rfl, rfl⟩
    apply hdisappeared.mono
    rintro gone w₂ ⟨hlib, hseen₂⟩
    apply Prog.Meets.ite
    · exact fun _ => preserve_spares root _
    · intro _
      refine Spares.step ?_ rfl
      rcases w₂.query_cases (o.history w₂.clock) Library.tracks with ⟨e, he⟩ | hlist
      · simp only [exec, he]
        trivial
      · simp only [exec, hlist]
        rw [← hseen₂]
        apply checkMount_spares (w := w₂.tick) hroot
        · exact fun existing hexisting => (List.mem_filter.mp hexisting).1
        · rw [show w₂.tick.lib = w₁.lib from hlib]

theorem reconcileRoot_spares (hroot : job.root? = some root) (scanResult : ScanResult) :
    Spares o job (fun _ _ => True) (reconcileRoot root scanResult) w := by
  cases scanResult with
  | success tracks => exact reconcileScanned_spares hroot tracks
  | unavailable reason => exact preserve_spares root reason
  | cancelled => trivial
  | partialScan tracks e =>
    apply Prog.Meets.ite
    · exact fun _ => trivial
    · exact fun _ _ => ⟨trivial, trivial⟩

/-! ## poll_root -/

theorem rescan_spares (hroot : job.root? = some root) (current : Snapshot) :
    Spares o job (fun _ _ => True) (rescan root current) w := by
  refine Spares.step ?_ rfl
  apply Prog.Meets.bind
  apply (reconcileRoot_spares hroot _).mono
  intro r w₁ _
  cases r with
  | error e => trivial
  | ok done =>
    refine Spares.step ?_ rfl
    split <;> trivial

theorem upsertTrack_trusted (t : Track) (htrusted : TrustedIsSeen root w) :
    TrustedIsSeen root (exec o (.upsertTrack t) w).2 := by
  rcases exec_upsertTrack (o := o) t w with ⟨e, he⟩ | ⟨lib, hlib, he⟩
  · rw [he]
    exact htrusted
  · rw [he]
    intro device d hd
    rw [Library.getMountDeviceId, Library.mountGuard_upsertTrack hlib] at hd
    exact htrusted device d hd

/-- A changed file is read without a write. -/
theorem changedTrack_spares (previous : Snapshot) (path : Path) :
    Spares o job
      (fun _ w' => w'.lib = w.lib ∧ w'.deviceSeen = w.deviceSeen)
      (changedTrack o.newV5 root previous path) w := by
  apply Prog.Meets.bind
  have hscan : Spares o job
      (fun _ w' => w'.lib = w.lib ∧ w'.deviceSeen = w.deviceSeen)
      (scanFile o.newV5 root path) w := by
    refine Spares.step ?_ rfl
    apply Prog.Meets.ite
    · exact fun _ => ⟨rfl, rfl⟩
    · intro _
      refine Spares.step ?_ rfl
      exact ⟨rfl, rfl⟩
  apply hscan.mono
  rintro found w₁ hsame
  cases found with
  | none => exact hsame
  | some t =>
    apply Prog.Meets.ite
    · intro _
      apply Prog.Meets.bind
      refine Spares.step ?_ rfl
      split <;> exact hsame
    · exact fun _ => hsame

/-- The changed files are stored without a deletion. -/
theorem upsertChanged_spares (previous : Snapshot) (paths : List Path)
    (htrusted : TrustedIsSeen root w) :
    Spares o job (fun _ w' => TrustedIsSeen root w')
      (upsertChanged o.newV5 root previous paths) w := by
  induction paths generalizing w with
  | nil => exact htrusted
  | cons path rest ih =>
    refine Spares.step ?_ rfl
    apply Prog.Meets.ite
    · exact fun _ => htrusted
    · intro _
      apply Prog.Meets.bind
      apply (changedTrack_spares previous path).mono
      rintro found w₁ ⟨hlib, hseen⟩
      have htrusted₁ : TrustedIsSeen root w₁ := by
        intro device d hd hread
        rw [hlib] at hd
        rw [hseen] at hread
        exact htrusted device d hd hread
      cases found with
      | none => exact ih htrusted₁
      | some t =>
        refine Spares.step ?_ rfl
        exact ih (upsertTrack_trusted t htrusted₁)

/-- The vanished ones go only while their device is seen. -/
theorem removeVanished_spares (hroot : job.root? = some root) (paths : List Path)
    (htrusted : TrustedIsSeen root w) :
    Spares o job (fun _ _ => True) (removeVanished paths) w := by
  induction paths generalizing w with
  | nil => trivial
  | cons path rest ih =>
    refine Spares.step ?_ rfl
    apply Prog.Meets.ite
    · exact fun _ => trivial
    · intro _
      refine Spares.step ?_ rfl
      apply Prog.Meets.ite
      · exact fun _ => ih htrusted
      · intro habsent
        have hnone := Option.not_isSome_iff_eq_none.mp habsent
        refine Spares.step ?_ rfl
        generalize hw₂ : (exec o (.exists path)
          (exec o .isCancelled w).2).2 = w₂
        have htrusted₂ : TrustedIsSeen root w₂ := by
          rw [← hw₂]
          exact htrusted
        rcases w₂.query_cases (o.history w₂.clock) fun lib =>
            lib.findTrackByPath (fromUtf8Lossy path) with ⟨e, he⟩ | hfind
        · simp only [exec, he]
          exact ih htrusted₂
        · simp only [exec, hfind]
          cases ht : w₂.lib.findTrackByPath (fromUtf8Lossy path) with
          | none => exact ih htrusted₂
          | some t =>
            obtain ⟨hmem, hpath⟩ := Library.findTrackByPath_eq_some.mp ht
            refine Spares.delete (fun hallowed => ?_) ?_
            · refine spares_delete (w := w₂.tick) hroot htrusted₂ (by rw [← hw₂]; rfl) hnone ?_
                hallowed
              intro row hrow hid
              rw [Library.eq_of_id hrow hmem hid, hpath]
            · exact ih ((delete_kept t.id w₂.tick).trusted htrusted₂)

/-- Changes that are written spare the stored rows. -/
theorem writeChanges_spares (hroot : job.root? = some root) (previous current : Snapshot)
    (htrusted : TrustedIsSeen root w) :
    Spares o job (fun _ _ => True)
      (writeChanges o.newV5 root previous current w.deviceSeen) w := by
  refine Spares.step ?_ rfl
  obtain ⟨-, hseen, hdevice⟩ := update_kept (o := o)
    root "online" "" w.deviceSeen w
  have htrusted₁ : TrustedIsSeen root (exec o
      (.updateMountState (rootStr root) "online" "" w.deviceSeen) w).2 := by
    intro device d hd hread
    rw [hseen] at hread
    rcases hdevice device hd with h | h
    · exact Option.some.inj (h.symm.trans hread)
    · exact htrusted device d h hread
  apply Prog.Meets.ite
  · exact fun _ => trivial
  · intro _
    apply Prog.Meets.bind
    apply (upsertChanged_spares previous _ htrusted₁).mono
    rintro goOn w₂ htrusted₂
    apply Prog.Meets.ite
    · intro _
      apply Prog.Meets.bind
      exact (removeVanished_spares hroot _ htrusted₂).mono fun _ _ _ => trivial
    · exact fun _ => trivial

/-- A poll spares them. -/
theorem pollRoot_spares (hroot : job.root? = some root) (previous : Option (Option Snapshot)) :
    Spares o job (fun _ _ => True) (pollRoot o.newV5 root previous) w := by
  refine Spares.step ?_ rfl
  split
  · trivial
  · refine Spares.step ?_ rfl
    trivial
  next current _ =>
    refine Spares.step ?_ rfl
    generalize hworld : (exec o (.getPathDeviceId root)
      (exec o (.snapshot root) w).2).2 = w₁
    have hseen : (exec o (.getPathDeviceId root)
        (exec o (.snapshot root) w).2).1 = w₁.deviceSeen := by
      rw [← hworld]
      rfl
    rw [hseen]
    refine Spares.step ?_ rfl
    rcases w₁.query_cases (o.history w₁.clock) fun lib => lib.getMountDeviceId (rootStr root) with
      ⟨e, he⟩ | hrecorded
    · simp only [exec, he]
      trivial
    · simp only [exec, hrecorded]
      apply Prog.Meets.ite
      · intro _
        refine Spares.step ?_ rfl
        trivial
      · intro hsame
        cases previous with
        | none =>
          apply Prog.Meets.ite
          · exact fun _ => rescan_spares hroot current
          · intro _
            refine Spares.step ?_ rfl
            trivial
        | some previous =>
          cases previous with
          | none => exact rescan_spares hroot current
          | some previous =>
            apply writeChanges_spares (w := w₁.tick) hroot
            intro device d hd hread
            by_contra hne
            apply hsame
            rw [show w₁.lib.getMountDeviceId (rootStr root) = some device from hd,
              show w₁.deviceSeen = some d from hread]
            exact decide_eq_true hne

/-! ## Jobs and runs -/

theorem spares_of_no_root (hroot : job.root? = none) {α : Type} (p : CallProg α) :
    Spares o job (fun _ _ => True) p w := by
  induction p generalizing w with
  | ret a => trivial
  | act c k ih =>
    intro _
    refine ⟨?_, ih _⟩
    cases c with
    | deleteTrack id =>
      intro root device row hsome
      rw [hroot] at hsome
      cases hsome
    | _ => trivial

theorem job_spares (snapshots : Path → Option (Option Snapshot)) (w : World) :
    Spares o job (fun _ _ => True) (job.prog o.newV5 snapshots) w := by
  cases job with
  | pollRoot root =>
    apply Prog.Meets.bind
    exact (pollRoot_spares rfl (snapshots root)).mono fun _ _ _ => trivial
  | reconcileRoot root =>
    refine Spares.step ?_ rfl
    apply Prog.Meets.bind
    exact (reconcileRoot_spares rfl _).mono fun _ _ _ => trivial
  | restartWatcher => exact spares_of_no_root rfl _
  | scanLibrary musicPaths => exact spares_of_no_root rfl _
  | importFiles finalDir committedFiles => exact spares_of_no_root rfl _

end

/-- In a run in which rows are deleted only after true answers, no row is deleted whose file is stored
on the device that is trusted for the root. -/
theorem run_spares_stored (o : Outside) (s : Server) (jobs : List Job)
    (h : s.Obeys o (DeletesAfterTrueAnswer o.history) jobs) :
    s.Obeys o (SparesStored o.history) jobs :=
  Logic.Trace.obeys_of_invariant (I := fun _ => True) (fun _ _ _ _ => trivial)
    (fun s _ _ hallowed => ((job_spares s.snapshots s.world).along hallowed).1) trivial h

/-! ## Two runs -/

/-- A moment at which the root `/m` is on a device, and device 1 stores these files in it. -/
def smallMoment (device : Option ℕ) (files : List String) : Moment where
  deviceOf _ := device
  stored d path :=
    if d ≠ 1 then none
    else if path = asBytes "/m" then some .dir
    else if files.any fun f => path = asBytes f then some (.file ⟨true, [], none⟩)
    else none
  fails := false
  walk _ := some (.ok ∅)
  scan _ := .finished []
  cancelled := false
  dbError := none

/-- A library with one track under `/m`, whose device is known to be 1. -/
def smallServer : Server where
  world := {
    lib := {
      tracks := [⟨7, "/m/a.mp3", none, none, none⟩]
      references := []
      mountGuard := [⟨"/m", "online", "", some 1⟩]
      ids_nodup := by decide
      paths_nodup := by decide
      referred := by simp }
    clock := 0
    deviceSeen := none
    asked := none
    stampsRead := [] }
  snapshots _ := none

def gone : Outside where
  newV5 _ := 0
  sha256Hex _ := ""
  history _ := smallMoment (some 1) []

def AskedOnDevice (_ : Job) (c : Call) (w : World) : Prop :=
  c.isDeletion = true → w.deviceSeen = some 1 ∧ w.asked.isSome = true

instance (job : Job) (c : Call) (w : World) : Decidable (AskedOnDevice job c w) :=
  inferInstanceAs (Decidable (_ → _))

/-- The file is gone, and its row is deleted after a true answer. -/
theorem run_spares_stored_gone :
    (smallServer.run gone [.reconcileRoot (asBytes "/m")]).world.lib.tracks = [] ∧
    smallServer.Obeys gone (SparesStored gone.history) [.reconcileRoot (asBytes "/m")] := by
  refine ⟨by decide +kernel, run_spares_stored _ _ _ ⟨?_, trivial⟩⟩
  have hasked : smallServer.Along gone AskedOnDevice (.reconcileRoot (asBytes "/m")) := by
    decide +kernel
  apply Prog.Along.mono _ hasked
  intro c w hc
  cases c with
  | deleteTrack id =>
    obtain ⟨hseen, hsome⟩ := hc rfl
    obtain ⟨⟨path, t⟩, hasked⟩ := Option.isSome_iff_exists.mp hsome
    refine ⟨1, path, t, hseen, hasked, rfl, rfl, ?_⟩
    intro p data hstored
    simp [gone, smallMoment] at hstored
  | _ => trivial

def away : Outside where
  newV5 _ := 0
  sha256Hex _ := ""
  history t := smallMoment (if t = 0 ∨ t = 9 then none else some 1) ["/m/a.mp3"]

/-- The file is stored on the trusted device all the time, and its row is deleted. -/
theorem lost_mount_deletes :
    (∀ t, StoredAt away.history t 1 "/m/a.mp3") ∧
    smallServer.world.lib.getMountDeviceId (rootStr (asBytes "/m")) = some 1 ∧
    smallServer.world.lib.tracks.map Track.filePath = ["/m/a.mp3"] ∧
    let after := (smallServer.run away [.reconcileRoot (asBytes "/m")]).world.lib
    after.getMountDeviceId (rootStr (asBytes "/m")) = some 1 ∧ after.tracks = [] := by
  refine ⟨?_, by decide +kernel, by decide +kernel, by decide +kernel⟩
  intro t
  refine ⟨asBytes "/m/a.mp3", ⟨true, [], none⟩, ?_, fromUtf8Lossy_asBytes _⟩
  simp only [away, smallMoment]
  decide

end MichiServer.Scanner
