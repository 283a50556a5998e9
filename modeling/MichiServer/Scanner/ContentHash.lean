import MichiServer.Scanner.Jobs
import MichiServer.Text.Hex

/-!
# Hashes and the versions they are of

The size and the modification time of a row are those of some version of its file, and the hash should
be that version's. The two are read by different calls and an upsert without a hash keeps the old one.
The hashes stay right when each file that is hashed is still the version whose stamp was read, when an
imported file is what its checksum says, and when no upsert brings a new stamp without a hash to a row
that has one (`run_hashes_agree`).
-/

namespace MichiServer.Scanner

open MichiServer.Files MichiServer.Text MichiServer.Interleave

section

variable (o : Outside)

/-- The hash of the track, if it has one, is of a version of its file that has the stamp of the track
and was there before this moment. -/
def Hashed (n : ℕ) (t : Track) : Prop :=
  ∀ hash, t.contentHash = some hash → ∃ m < n, ∃ device path data,
    (o.history m).stored device path = some (.file data) ∧ fromUtf8Lossy path = t.filePath ∧
      data.fingerprint.stamp = t.stamp ∧ hash = o.sha256Hex data.content

/-- Every hash in the library is of the version whose stamp is beside it. -/
def HashesAgree (w : World) : Prop := ∀ row ∈ w.lib.tracks, Hashed o w.clock row

/-- The track brings a hash, or its stamp is that of the row whose hash is kept. -/
def BringsHash (lib : Library) (t : Track) : Prop :=
  t.contentHash = none → ∀ row ∈ lib.tracks, row.filePath = t.filePath →
    row.contentHash.isSome = true → row.stamp = t.stamp

instance (lib : Library) (t : Track) : Decidable (BringsHash lib t) :=
  inferInstanceAs (Decidable (_ → ∀ _ ∈ _, _))

/-- Every one of the tracks does, in the library as the ones before it leave it. -/
def BringHashes : Library → List Track → Prop
  | _, [] => True
  | lib, t :: rest => BringsHash lib t ∧
      match lib.upsertTrack t with
      | .ok lib' => BringHashes lib' rest
      | .error _ => True

instance : (lib : Library) → (tracks : List Track) → Decidable (BringHashes lib tracks)
  | _, [] => inferInstanceAs (Decidable True)
  | lib, t :: rest =>
    have : Decidable (match lib.upsertTrack t with
        | .ok lib' => BringHashes lib' rest
        | .error _ => True) :=
      match lib.upsertTrack t with
      | .ok lib' => instDecidableBringHashes lib' rest
      | .error _ => inferInstanceAs (Decidable True)
    inferInstanceAs (Decidable (_ ∧ _))

def IsImported (job : Job) (path : Path) (w : World) : Prop :=
  match job with
  | .importFiles _ files => ∀ f ∈ files, f.1 = path →
      ∃ data ∈ (o.history w.clock).file? path, o.sha256Hex data.content = f.2
  | _ => True

instance (job : Job) (path : Path) (w : World) : Decidable (IsImported o job path w) := by
  unfold IsImported
  cases job <;> infer_instance

/-- What hashes depend on: a file that is hashed has the stamp that was read of it, an imported file
has its checksum, and no new stamp comes without a hash to a row that has one. -/
def HashesInTime (job : Job) : Call → World → Prop
  | .computeFileContentHash path, w => ∀ read ∈ w.stampsRead, read.1 = path →
      ∀ data ∈ (o.history w.clock).file? path, data.fingerprint.stamp = read.2
  | .metadata path, w => IsImported o job path w
  | .upsertTrack t, w => BringsHash w.lib t
  | .upsertTracks tracks, w => BringHashes w.lib tracks
  | _, _ => True

instance (job : Job) : (c : Call) → (w : World) → Decidable (HashesInTime o job c w)
  | .computeFileContentHash _, _ => inferInstanceAs (Decidable (∀ _ ∈ _, _ → _))
  | .metadata _, _ => inferInstanceAs (Decidable (IsImported ..))
  | .upsertTrack _, _ => inferInstanceAs (Decidable (BringsHash ..))
  | .upsertTracks _, _ => inferInstanceAs (Decidable (BringHashes ..))
  | .snapshot _, _ | .scanRoot _, _ | .getPathDeviceId _, _ | .exists _, _ | .isDir _, _
  | .isFile _, _ | .readDir _, _ | .isCancelled, _ | .getMountDeviceId _, _ | .getMountStates _, _
  | .listTracks, _ | .findTrackByPath _, _ | .updateMountState .., _
  | .deleteTrack _, _ => inferInstanceAs (Decidable True)

end

def Call.written : Call → List Track
  | upsertTrack t => [t]
  | upsertTracks tracks => tracks
  | _ => []

section

variable {o : Outside} {job : Job} {w : World} {n m : ℕ} {t : Track}

theorem Hashed.mono (h : Hashed o n t) (hle : n ≤ m) :
    Hashed o m t := by
  intro hash hsome
  obtain ⟨k, hk, hversion⟩ := h hash hsome
  exact ⟨k, Nat.lt_of_lt_of_le hk hle, hversion⟩

theorem Hashed.same {t' : Track} (h : Hashed o n t)
    (hhash : t'.contentHash = t.contentHash) (hpath : t'.filePath = t.filePath)
    (hstamp : t'.stamp = t.stamp) : Hashed o n t' := by
  intro hash hsome
  rw [hhash] at hsome
  rw [hpath, hstamp]
  exact h hash hsome

theorem hashed_of_none (h : t.contentHash = none) : Hashed o n t := by
  intro hash hsome
  rw [h] at hsome
  cases hsome

theorem hashed_of_file {path : Path} {data : FileData} {hash : String}
    (hfile : (o.history n).file? path = some data) (hpath : fromUtf8Lossy path = t.filePath)
    (hstamp : data.fingerprint.stamp = t.stamp) (hhash : hash = o.sha256Hex data.content)
    (hsome : t.contentHash = some hash) (hlt : n < m) : Hashed o m t := by
  intro hash' hsome'
  rw [hsome] at hsome'
  cases hsome'
  have hstored : ∃ device, (o.history n).stored device path = some (.file data) := by
    unfold Moment.file? at hfile
    split at hfile
    next found hpresent =>
      cases hfile
      unfold Moment.present at hpresent
      split at hpresent
      · cases hpresent
      · obtain ⟨device, -, hdevice⟩ := Option.bind_eq_some_iff.mp hpresent
        exact ⟨device, hdevice⟩
    · cases hfile
  grind

theorem hashed_upsert {lib lib' : Library} (hrows : ∀ row ∈ lib.tracks, Hashed o n row)
    (ht : Hashed o n t) (hbrings : BringsHash lib t)
    (h : lib.upsertTrack t = .ok lib') : ∀ row ∈ lib'.tracks, Hashed o n row := by
  intro row hrow
  rcases (Library.mem_upsertTrack h).mp hrow with rfl | ⟨hold, -⟩
  · cases hhash : t.contentHash with
    | some hash => exact ht.same (by simp [Library.upserted, hhash]) rfl rfl
    | none =>
      cases hfind : lib.findTrackByPath t.filePath with
      | none => exact hashed_of_none (by simp [Library.upserted, hhash, hfind])
      | some old =>
        obtain ⟨hmem, hpath⟩ := Library.findTrackByPath_eq_some.mp hfind
        cases hkept : old.contentHash with
        | none => exact hashed_of_none (by simp [Library.upserted, hhash, hfind, hkept])
        | some hash =>
          have hstamp := hbrings hhash old hmem hpath (by rw [hkept]; rfl)
          exact (hrows old hmem).same (by simp [Library.upserted, hhash, hfind, hkept]) hpath.symm
            hstamp.symm
  · exact hrows row hold

theorem hashed_upsertTracks {tracks : List Track} {lib lib' : Library}
    (hrows : ∀ row ∈ lib.tracks, Hashed o n row)
    (htracks : ∀ t ∈ tracks, Hashed o n t) (hbring : BringHashes lib tracks)
    (h : lib.upsertTracks tracks = .ok lib') :
    ∀ row ∈ lib'.tracks, Hashed o n row := by
  induction tracks generalizing lib with
  | nil =>
    cases h
    exact hrows
  | cons t rest ih =>
    rw [List.forall_mem_cons] at htracks
    obtain ⟨hbrings, hrest⟩ := hbring
    grind [Library.upsertTracks, hashed_upsert]

/-- A call that writes no row leaves none that was not there. -/
theorem exec_rows {c : Call} (hc : c.written = []) {row : Track}
    (hrow : row ∈ (exec o c w).2.lib.tracks) : row ∈ w.lib.tracks := by
  have hquery : ∀ {α : Type} (m : Moment) (f : Library → α),
      row ∈ (w.query m f).2.lib.tracks → row ∈ w.lib.tracks := by
    intro α m f h
    rwa [w.query_world] at h
  cases c with
  | upsertTrack t => cases hc
  | upsertTracks tracks =>
    cases hc
    rcases exec_upsertTracks (o := o) [] w with ⟨e, he⟩ | ⟨lib, hlib, he⟩
    · rwa [he] at hrow
    · cases hlib
      rwa [he] at hrow
  | deleteTrack id =>
    rcases exec_deleteTrack (o := o) id w with ⟨e, he⟩ | ⟨deleted, lib, hlib, he⟩
    · rwa [he] at hrow
    · grind [Library.mem_deleteTrack]
  | updateMountState path state reason deviceId =>
    rcases exec_updateMountState (o := o) path state reason deviceId w with ⟨e, he⟩ | he
    · rwa [he] at hrow
    · rwa [he] at hrow
  | getMountDeviceId path => exact hquery _ _ hrow
  | getMountStates path => exact hquery _ _ hrow
  | listTracks => exact hquery _ _ hrow
  | findTrackByPath path => exact hquery _ _ hrow
  | _ => exact hrow

/-- A call in time keeps the hashes right. -/
theorem exec_agrees {c : Call} (hagree : HashesAgree o w) (hallowed : HashesInTime o job c w)
    (hwritten : ∀ t ∈ c.written, Hashed o w.clock t) : HashesAgree o (exec o c w).2 := by
  have hnow : ∀ row ∈ (exec o c w).2.lib.tracks, Hashed o w.clock row := by
    by_cases hc : c.written = []
    · exact fun row hrow => hagree row (exec_rows hc hrow)
    · cases c with
      | upsertTrack t =>
        rcases exec_upsertTrack (o := o) t w with ⟨e, he⟩ | ⟨lib, hlib, he⟩
        · rw [he]
          exact hagree
        · rw [he]
          exact hashed_upsert hagree (hwritten t List.mem_cons_self) hallowed hlib
      | upsertTracks tracks =>
        rcases exec_upsertTracks (o := o) tracks w with ⟨e, he⟩ | ⟨lib, hlib, he⟩
        · rw [he]
          exact hagree
        · rw [he]
          exact hashed_upsertTracks hagree hwritten hallowed hlib
      | _ => exact (hc rfl).elim
  intro row hrow
  rw [exec_clock]
  exact (hnow row hrow).mono (Nat.le_succ _)

theorem exec_stamps {c : Call} (w : World) (hscan : ∀ root, c ≠ .scanRoot root)
    (hmetadata : ∀ path, c ≠ .metadata path) :
    (exec o c w).2.stampsRead = w.stampsRead := by
  have hdatabase : ∀ {α : Type} (m : Moment) (f : Library → Except String (α × Library)),
      (w.database m f).2.stampsRead = w.stampsRead := by
    intro α m f
    rcases w.database_cases m f with ⟨e, he⟩ | ⟨a, lib, -, he⟩ <;> rw [he] <;> rfl
  cases c with
  | scanRoot root => exact (hscan root rfl).elim
  | metadata path => exact (hmetadata path rfl).elim
  | _ => first | rfl | exact hdatabase _ _

/-! ## Programs that keep the hashes right -/

/-- From right hashes, as long as they are in time, they are right at every call and at the end. -/
def KeepsHashes (o : Outside) (job : Job) {α : Type} (Post : α → World → Prop) (p : CallProg α)
    (w : World) : Prop :=
  HashesAgree o w → p.Meets (exec o) (HashesInTime o job) (fun _ w' => HashesAgree o w')
    (fun a w' => HashesAgree o w' ∧ w.clock ≤ w'.clock ∧ Post a w') w

namespace KeepsHashes

variable {α β : Type} {P : α → World → Prop} {Q : β → World → Prop}

theorem pure {a : α} (h : P a w) : KeepsHashes o job P (Pure.pure a) w :=
  fun hagree => ⟨hagree, le_rfl, h⟩

theorem bind {p : CallProg α} {f : α → CallProg β} (hp : KeepsHashes o job P p w)
    (hf : ∀ a w', w.clock ≤ w'.clock → HashesAgree o w' → P a w' → KeepsHashes o job Q (f a) w') :
    KeepsHashes o job Q (p >>= f) w := by
  intro hagree
  apply Prog.Meets.bind
  apply (hp hagree).mono
  rintro a w' ⟨hagree', hle, ha⟩
  apply (hf a w' hle hagree' ha hagree').mono
  grind

theorem step {c : Call} {f : c.Resp → CallProg β}
    (hwritten : ∀ t ∈ c.written, Hashed o w.clock t)
    (h : HashesInTime o job c w →
      KeepsHashes o job Q (f (exec o c w).1) (exec o c w).2) :
    KeepsHashes o job Q (call c >>= f) w := by
  intro hagree hallowed
  refine ⟨hagree, ?_⟩
  apply (h hallowed (exec_agrees hagree hallowed hwritten)).mono
  grind [exec_clock]

theorem read {c : Call} {f : c.Resp → CallProg β}
    (h : KeepsHashes o job Q (f (exec o c w).1) (exec o c w).2) (hc : c.written = []) :
    KeepsHashes o job Q (call c >>= f) w :=
  step (by rw [hc]; exact fun t ht => absurd ht List.not_mem_nil) fun _ => h

theorem ite {c : Prop} [Decidable c] {p q : CallProg α} (hp : c → KeepsHashes o job P p w)
    (hq : ¬ c → KeepsHashes o job P q w) : KeepsHashes o job P (if c then p else q) w := by
  grind

end KeepsHashes

/-- The track of a file has no hash, and the stamp that was read last. An imported file's has its
checksum for a hash. -/
structure FreshTrack (o : Outside) (job : Job) (path : Path) (t : Track) (w : World) : Prop where
  no_hash : t.contentHash = none
  filePath : t.filePath = fromUtf8Lossy path
  read : w.stampsRead = [(path, t.stamp)]
  imported : ∀ finalDir files checksum, job = .importFiles finalDir files →
    (path, checksum) ∈ files → Hashed o w.clock { t with contentHash := some checksum }

/-- The track of a scanned file is fresh. -/
theorem scanFile_hashes (root path : Path) :
    KeepsHashes o job (fun r w' => ∀ t, r = some t → FreshTrack o job path t w')
      (scanFile o.newV5 root path) w := by
  refine KeepsHashes.read ?_ rfl
  apply KeepsHashes.ite
  · exact fun _ => .pure fun t ht => nomatch ht
  · intro _
    refine KeepsHashes.step (fun t ht => absurd ht List.not_mem_nil) fun hintime => ?_
    apply KeepsHashes.pure
    intro t ht
    cases ht
    refine ⟨rfl, rfl, ?_, ?_⟩
    · rw [stamp_trackOf]
      rfl
    · rintro finalDir files checksum rfl hmem
      obtain ⟨data, hfile, hchecksum⟩ := hintime (path, checksum) hmem rfl
      refine hashed_of_file hfile rfl ?_ hchecksum.symm rfl (Nat.lt_succ_self _)
      have hstamp := stamp_trackOf o.newV5 root path (some data.fingerprint)
      simp only [exec] at hfile ⊢
      rw [hfile]
      exact hstamp.symm

/-! ## reconcile_root -/

/-- A track without a hash, whose stamp was read from the file that its path text names. -/
def Unhashed (t : Track) (w : World) : Prop :=
  t.contentHash = none ∧ (asBytes t.filePath, t.stamp) ∈ w.stampsRead

theorem addHash_hashes {path : Path} (hnone : t.contentHash = none)
    (hread : (path, t.stamp) ∈ w.stampsRead) (hpath : fromUtf8Lossy path = t.filePath) :
    KeepsHashes o job
      (fun t' w' => Hashed o w'.clock t' ∧ w'.stampsRead = w.stampsRead) (addHash path t) w := by
  refine KeepsHashes.step (fun t ht => absurd ht List.not_mem_nil) fun hintime => ?_
  cases hfile : (o.history w.clock).file? path with
  | none =>
    simp only [exec, hfile]
    exact .pure ⟨hashed_of_none hnone, rfl⟩
  | some data =>
    have hstamp := hintime (path, t.stamp) hread rfl data hfile
    simp only [exec, hfile]
    exact .pure ⟨hashed_of_file hfile hpath hstamp rfl rfl (Nat.lt_succ_self _), rfl⟩

theorem stamp_of_unchanged {existing : Track} (h : fingerprintUnchanged existing t = true) :
    existing.stamp = t.stamp := by
  grind [fingerprintUnchanged, Track.stamp]

/-- The hash that is kept is that of the row, where its stamp is. -/
theorem keepHash_hashes {rootExisting : List Track} (ht : Unhashed t w)
    (hrows : ∀ row ∈ rootExisting, Hashed o w.clock row) :
    KeepsHashes o job (fun t' w' => Hashed o w'.clock t' ∧ w'.stampsRead = w.stampsRead)
      (keepHash rootExisting t) w := by
  obtain ⟨hnone, hread⟩ := ht
  unfold keepHash
  split
  · exact .pure ⟨hashed_of_none hnone, rfl⟩
  next existing hfind =>
    have hpath : existing.filePath = t.filePath := by simpa using List.find?_some hfind
    apply KeepsHashes.ite
    · intro hsame
      rw [Bool.and_eq_true] at hsame
      have hstamp := stamp_of_unchanged hsame.1
      apply KeepsHashes.pure
      exact ⟨(hrows existing (List.mem_of_find?_eq_some hfind)).same rfl hpath.symm hstamp.symm,
        rfl⟩
    · intro _
      apply KeepsHashes.ite
      · exact fun _ => addHash_hashes hnone hread (fromUtf8Lossy_asBytes _)
      · exact fun _ => .pure ⟨hashed_of_none hnone, rfl⟩

/-- The hashes of the tracks to store are right. -/
theorem tracksToUpsert_hashes {rootExisting : List Track} (tracks : List Track)
    (htracks : ∀ t ∈ tracks, Unhashed t w) (hrows : ∀ row ∈ rootExisting, Hashed o w.clock row) :
    KeepsHashes o job (fun r w' => ∀ upserts, r = some upserts → ∀ t ∈ upserts, Hashed o w'.clock t)
      (tracksToUpsert rootExisting tracks) w := by
  induction tracks generalizing w with
  | nil =>
    apply KeepsHashes.pure
    rintro upserts ⟨⟩ t ht
    exact absurd ht List.not_mem_nil
  | cons t rest ih =>
    rw [List.forall_mem_cons] at htracks
    refine KeepsHashes.read ?_ rfl
    apply KeepsHashes.ite
    · exact fun _ => .pure fun upserts h => nomatch h
    · intro _
      apply KeepsHashes.bind (keepHash_hashes (w := w.tick) htracks.1 fun row hrow =>
        (hrows row hrow).mono (Nat.le_succ _))
      rintro t' w₁ hle - ⟨ht', hstamps⟩
      have hrest : ∀ t ∈ rest, Unhashed t w₁ := by
        intro other hother
        obtain ⟨hnone, hread⟩ := htracks.2 other hother
        exact ⟨hnone, hstamps ▸ hread⟩
      apply KeepsHashes.bind (ih hrest fun row hrow =>
        (hrows row hrow).mono ((Nat.le_succ _).trans hle))
      rintro others w₂ hle' - hothers
      apply KeepsHashes.pure
      intro upserts hupserts
      obtain ⟨others, rfl, rfl⟩ := Option.map_eq_some_iff.mp hupserts
      exact List.forall_mem_cons.mpr ⟨ht'.mono hle', hothers others rfl⟩

theorem deleteMissing_hashes (scanned : List Uuid) (rows : List Track) :
    KeepsHashes o job (fun _ _ => True) (deleteMissing scanned rows) w := by
  induction rows generalizing w with
  | nil => exact .pure trivial
  | cons existing rest ih =>
    apply KeepsHashes.ite
    · exact fun _ => ih
    · intro _
      refine KeepsHashes.read ?_ rfl
      apply KeepsHashes.ite
      · exact fun _ => ih
      · intro _
        refine KeepsHashes.read ?_ rfl
        split
        · exact ih
        · exact .pure trivial

theorem preserve_hashes (root : Path) (reason : String) :
    KeepsHashes o job (fun _ _ => True) (preserve root reason) w :=
  KeepsHashes.read (.pure trivial) rfl

theorem upsertAll_hashes {tracks : List Track} (htracks : ∀ t ∈ tracks, Hashed o w.clock t) :
    KeepsHashes o job (fun _ _ => True)
      (if tracks.isEmpty then pure (.ok ()) else call (.upsertTracks tracks)) w := by
  apply KeepsHashes.ite
  · exact fun _ => .pure trivial
  · exact fun _ => KeepsHashes.step htracks fun _ => .pure trivial

/-- To write a root keeps the hashes right. -/
theorem writeRoot_hashes {tracks rootExisting : List Track} (root : Path)
    (currentDevId : Option ℕ) (htracks : ∀ t ∈ tracks, Unhashed t w)
    (hrows : ∀ row ∈ rootExisting, Hashed o w.clock row) :
    KeepsHashes o job (fun _ _ => True) (writeRoot root tracks rootExisting currentDevId) w := by
  apply KeepsHashes.bind (tracksToUpsert_hashes tracks htracks hrows)
  rintro upserts w₁ - - hupserts
  cases upserts with
  | none => exact .pure trivial
  | some upserts =>
    refine KeepsHashes.read ?_ rfl
    apply KeepsHashes.bind (upsertAll_hashes fun t ht => ?_)
    · rintro r w₂ - - -
      cases r with
      | error e => exact .pure trivial
      | ok done =>
        refine KeepsHashes.read ?_ rfl
        apply KeepsHashes.ite
        · exact fun _ => .pure trivial
        · exact fun _ => deleteMissing_hashes _ _
    · rw [exec_clock]
      exact (hupserts upserts rfl t ht).mono (Nat.le_succ _)

/-- So does it behind the check of the mount. -/
theorem checkMount_hashes {tracks rootExisting : List Track} (root : Path)
    (recordedDevId currentDevId : Option ℕ) (htracks : ∀ t ∈ tracks, Unhashed t w)
    (hrows : ∀ row ∈ rootExisting, Hashed o w.clock row) :
    KeepsHashes o job (fun _ _ => True)
      (checkMount root tracks rootExisting recordedDevId currentDevId) w := by
  apply KeepsHashes.ite
  · exact fun _ => writeRoot_hashes root currentDevId htracks hrows
  · intro _
    split
    · exact preserve_hashes root _
    · refine KeepsHashes.read ?_ rfl
      split
      · exact .pure trivial
      · apply KeepsHashes.ite
        · exact fun _ => preserve_hashes root _
        · intro _
          apply writeRoot_hashes root currentDevId
          · intro t ht
            obtain ⟨hnone, hread⟩ := htracks t ht
            refine ⟨hnone, ?_⟩
            rwa [exec_stamps (c := .getMountStates _) w nofun nofun]
          · intro row hrow
            rw [exec_clock]
            exact (hrows row hrow).mono (Nat.le_succ _)

theorem disappeared_hashes (root : Path) :
    KeepsHashes o job (fun _ w' => w'.stampsRead = w.stampsRead) (disappeared root) w := by
  refine KeepsHashes.read ?_ rfl
  apply KeepsHashes.ite
  · intro _
    refine KeepsHashes.read ?_ rfl
    exact .pure rfl
  · exact fun _ => .pure rfl

/-- A reconciliation keeps the hashes right. -/
theorem reconcileScanned_hashes {tracks : List Track} (root : Path)
    (htracks : ∀ t ∈ tracks, Unhashed t w) :
    KeepsHashes o job (fun _ _ => True) (reconcileScanned root tracks) w := by
  refine KeepsHashes.read (KeepsHashes.read ?_ rfl) rfl
  split
  · exact .pure trivial
  · apply KeepsHashes.bind (disappeared_hashes root)
    rintro gone w₁ - hagree hstamps
    apply KeepsHashes.ite
    · exact fun _ => preserve_hashes root _
    · intro _
      refine KeepsHashes.read ?_ rfl
      rcases w₁.query_cases (o.history w₁.clock) Library.tracks with ⟨e, he⟩ | hlist
      · simp only [exec, he]
        exact .pure trivial
      · simp only [exec, hlist]
        apply checkMount_hashes (w := w₁.tick) root
        · intro t ht
          obtain ⟨hnone, hread⟩ := htracks t ht
          refine ⟨hnone, ?_⟩
          rw [show w₁.tick.stampsRead = _ from hstamps, exec_stamps (c := .getMountDeviceId _) _ nofun nofun]
          exact hread
        · intro row hrow
          exact (hagree row (List.mem_filter.mp hrow).1).mono (Nat.le_succ _)

def ScanResult.tracks : ScanResult → List Track
  | success tracks | partialScan tracks _ => tracks
  | unavailable _ | cancelled => []

theorem reconcileRoot_hashes {scanResult : ScanResult} (root : Path)
    (h : ∀ t ∈ scanResult.tracks, Unhashed t w) :
    KeepsHashes o job (fun _ _ => True) (reconcileRoot root scanResult) w := by
  cases scanResult with
  | success tracks => exact reconcileScanned_hashes root h
  | unavailable reason => exact preserve_hashes root reason
  | cancelled => exact .pure trivial
  | partialScan tracks error => exact upsertAll_hashes fun t ht => hashed_of_none (h t ht).1

/-! ## Scans and polls -/

theorem mem_of_dedupIds {seen : List Uuid} {tracks : List Track}
    (h : t ∈ dedupIds seen tracks) : t ∈ tracks := by
  induction tracks generalizing seen with
  | nil => cases h
  | cons first rest ih =>
    grind [dedupIds]

theorem unhashed_of_scan {root : Path} :
    ∀ t ∈ (exec o (.scanRoot root) w).1.tracks, Unhashed t (exec o (.scanRoot root) w).2 := by
  intro t ht
  simp only [exec] at ht ⊢
  cases hscan : (o.history w.clock).scan root with
  | finished files =>
    rw [hscan] at ht
    refine ⟨?_, List.mem_map.mpr ⟨t, ht, rfl⟩⟩
    obtain ⟨f, -, rfl⟩ := List.mem_map.mp (mem_of_dedupIds ht)
    rfl
  | failed reason =>
    rw [hscan] at ht
    cases ht
  | cancelled =>
    rw [hscan] at ht
    cases ht

theorem rescan_hashes (root : Path) (current : Snapshot) :
    KeepsHashes o job (fun _ _ => True) (rescan root current) w := by
  refine KeepsHashes.read ?_ rfl
  apply KeepsHashes.bind (reconcileRoot_hashes root unhashed_of_scan)
  rintro r w₁ - - -
  cases r with
  | error e => exact .pure trivial
  | ok done =>
    refine KeepsHashes.read ?_ rfl
    split <;> exact .pure trivial

theorem changedTrack_hashes (root : Path) (previous : Snapshot) (path : Path) :
    KeepsHashes o job (fun r w' => ∀ t, r = some t → Hashed o w'.clock t)
      (changedTrack o.newV5 root previous path) w := by
  apply KeepsHashes.bind (scanFile_hashes root path)
  rintro found w₁ - - hfresh
  cases found with
  | none => exact .pure fun t ht => nomatch ht
  | some t =>
    obtain ⟨hnone, hpath, hread, -⟩ := hfresh t rfl
    apply KeepsHashes.ite
    · intro _
      apply KeepsHashes.bind (addHash_hashes hnone (by rw [hread]; exact List.mem_cons_self)
        hpath.symm)
      grind [KeepsHashes.pure]
    · grind [KeepsHashes.pure, hashed_of_none]

theorem upsertChanged_hashes (root : Path) (previous : Snapshot) (paths : List Path) :
    KeepsHashes o job (fun _ _ => True) (upsertChanged o.newV5 root previous paths) w := by
  induction paths generalizing w with
  | nil => exact .pure trivial
  | cons path rest ih =>
    refine KeepsHashes.read ?_ rfl
    apply KeepsHashes.ite
    · exact fun _ => .pure trivial
    · intro _
      apply KeepsHashes.bind (changedTrack_hashes root previous path)
      rintro found w₁ - - hfound
      cases found with
      | none => exact ih
      | some t =>
        refine KeepsHashes.step ?_ fun _ => ih
        intro t' ht'
        rw [List.mem_singleton.mp ht']
        exact hfound t rfl

theorem removeVanished_hashes (paths : List Path) :
    KeepsHashes o job (fun _ _ => True) (removeVanished paths) w := by
  induction paths generalizing w with
  | nil => exact .pure trivial
  | cons path rest ih =>
    refine KeepsHashes.read ?_ rfl
    apply KeepsHashes.ite
    · exact fun _ => .pure trivial
    · intro _
      refine KeepsHashes.read ?_ rfl
      apply KeepsHashes.ite
      · exact fun _ => ih
      · intro _
        refine KeepsHashes.read ?_ rfl
        split
        · exact KeepsHashes.read ih rfl
        · exact ih
        · exact ih

theorem writeChanges_hashes (root : Path) (previous current : Snapshot)
    (currentDevId : Option ℕ) :
    KeepsHashes o job (fun _ _ => True)
      (writeChanges o.newV5 root previous current currentDevId) w := by
  refine KeepsHashes.read ?_ rfl
  apply KeepsHashes.ite
  · exact fun _ => .pure trivial
  · intro _
    apply KeepsHashes.bind (upsertChanged_hashes root previous _)
    rintro goOn w₁ - - -
    apply KeepsHashes.ite
    · intro _
      apply KeepsHashes.bind (removeVanished_hashes _)
      exact fun _ _ _ _ _ => .pure trivial
    · exact fun _ => .pure trivial

theorem pollRoot_hashes (root : Path) (previous : Option (Option Snapshot)) :
    KeepsHashes o job (fun _ _ => True) (pollRoot o.newV5 root previous) w := by
  refine KeepsHashes.read ?_ rfl
  split
  · exact .pure trivial
  · exact KeepsHashes.read (.pure trivial) rfl
  next current _ =>
    refine KeepsHashes.read (KeepsHashes.read ?_ rfl) rfl
    split
    · exact .pure trivial
    · apply KeepsHashes.ite
      · exact fun _ => KeepsHashes.read (.pure trivial) rfl
      · intro _
        split
        · apply KeepsHashes.ite
          · exact fun _ => rescan_hashes root current
          · exact fun _ => KeepsHashes.read (.pure trivial) rfl
        · exact rescan_hashes root current
        · exact writeChanges_hashes root _ current _

/-! ## The other jobs -/

theorem scanDirectories_hashes (paths : List Path) :
    KeepsHashes o job (fun found _ => ∀ t ∈ found, t.contentHash = none)
      (scanDirectories paths) w := by
  induction paths generalizing w with
  | nil => exact .pure fun t ht => absurd ht List.not_mem_nil
  | cons path rest ih =>
    refine KeepsHashes.read ?_ rfl
    have hnone : ∀ t ∈ (exec o (.scanRoot path) w).1.tracks, t.contentHash = none :=
      fun t ht => (unhashed_of_scan t ht).1
    apply KeepsHashes.bind ih
    rintro others w₁ - - hothers
    have happend : ∀ tracks : List Track, (∀ t ∈ tracks, t.contentHash = none) →
        ∀ t ∈ tracks ++ others, t.contentHash = none :=
      fun tracks htracks => List.forall_mem_append.mpr ⟨htracks, hothers⟩
    cases hr : (exec o (.scanRoot path) w).1 with
    | success tracks => exact .pure (happend tracks (by rwa [hr] at hnone))
    | partialScan tracks error => exact .pure (happend tracks (by rwa [hr] at hnone))
    | unavailable reason => exact .pure hothers
    | cancelled => exact .pure hothers

theorem scanLibrary_hashes (musicPaths : List Path) :
    KeepsHashes o job (fun _ _ => True) (scanLibrary musicPaths) w := by
  apply KeepsHashes.bind (scanDirectories_hashes musicPaths)
  rintro found w₁ - - hfound
  exact upsertAll_hashes fun t ht => hashed_of_none (hfound t (mem_of_dedupIds ht))

/-- The tracks of an import have the hashes of its files. -/
theorem importedTracks_hashes {finalDir : Path} {committedFiles : List (Path × String)}
    (hjob : job = .importFiles finalDir committedFiles) (files : List (Path × String))
    (hfiles : ∀ f ∈ files, f ∈ committedFiles) :
    KeepsHashes o job (fun tracks w' => ∀ t ∈ tracks, Hashed o w'.clock t)
      (importedTracks o.newV5 finalDir files) w := by
  induction files generalizing w with
  | nil => exact .pure fun t ht => absurd ht List.not_mem_nil
  | cons f rest ih =>
    obtain ⟨dest, checksum⟩ := f
    rw [List.forall_mem_cons] at hfiles
    apply KeepsHashes.bind (scanFile_hashes finalDir dest)
    rintro found w₁ - - hfresh
    apply KeepsHashes.bind (ih hfiles.2)
    rintro others w₂ hle - hothers
    cases found with
    | none => exact .pure hothers
    | some t =>
      apply KeepsHashes.pure
      have ht := (hfresh t rfl).imported finalDir committedFiles checksum hjob hfiles.1
      exact List.forall_mem_cons.mpr ⟨ht.mono hle, hothers⟩

/-- Each job keeps the hashes right. -/
theorem job_hashes (job : Job) (snapshots : Path → Option (Option Snapshot)) (w : World) :
    KeepsHashes o job (fun _ _ => True) (job.prog o.newV5 snapshots) w := by
  cases job with
  | pollRoot root =>
    apply KeepsHashes.bind (pollRoot_hashes root (snapshots root))
    exact fun _ _ _ _ _ => .pure trivial
  | restartWatcher => exact .pure trivial
  | reconcileRoot root =>
    refine KeepsHashes.read ?_ rfl
    apply KeepsHashes.bind (reconcileRoot_hashes root unhashed_of_scan)
    exact fun _ _ _ _ _ => .pure trivial
  | scanLibrary musicPaths =>
    apply KeepsHashes.bind (scanLibrary_hashes musicPaths)
    exact fun _ _ _ _ _ => .pure trivial
  | importFiles finalDir committedFiles =>
    apply KeepsHashes.bind (P := fun _ _ => True)
    · apply KeepsHashes.bind (importedTracks_hashes rfl committedFiles fun _ hf => hf)
      rintro tracks w₁ - - htracks
      exact upsertAll_hashes htracks
    · exact fun _ _ _ _ _ => .pure trivial

end

/-- In a run whose hashes are in time, every hash in the library is of the version whose stamp is
beside it, at every call and at the end. -/
theorem run_hashes_agree (o : Outside) (s : Server) (jobs : List Job)
    (hs : HashesAgree o s.world) (h : s.Obeys o (HashesInTime o) jobs) :
    s.Obeys o (fun _ _ w => HashesAgree o w) jobs ∧ HashesAgree o (s.run o jobs).world := by
  have hjob : ∀ (s : Server) (job : Job), HashesAgree o s.world →
      s.Along o (HashesInTime o) job →
        s.Along o (fun _ _ w => HashesAgree o w) job ∧ HashesAgree o (s.step o job).world := by
    intro s job hagree hintime
    obtain ⟨halong, hend, -⟩ := (job_hashes job s.snapshots s.world hagree).along hintime
    exact ⟨halong, hend⟩
  constructor
  · exact Logic.Trace.obeys_of_invariant (fun s job hs hintime => (hjob s job hs hintime).2)
      (fun s job hs hintime => (hjob s job hs hintime).1) hs h
  · exact Logic.Trace.run_invariant (fun s job hs hintime => (hjob s job hs hintime).2) hs h

/-! ## Two runs -/

def replaced (t : ℕ) : FileData :=
  if t < 3 then ⟨true, [1], some 0⟩ else ⟨true, [2, 2], some 7⟩

def replacedMoment (fails : Bool) (t : ℕ) : Moment where
  deviceOf _ := some 1
  stored d path :=
    if d ≠ 1 then none
    else if path = asBytes "/m" then some .dir
    else if path = asBytes "/m/a.mp3" then some (.file (replaced t))
    else none
  fails := fails
  walk _ := some (.ok ∅)
  scan _ := .finished [(asBytes "/m/a.mp3", some (replaced t).fingerprint)]
  cancelled := false
  dbError := none

def replacing (failing : Option ℕ) : Outside where
  newV5 _ := 0
  sha256Hex := Hex.encode
  history t := replacedMoment (failing = some t) t

theorem replaced_of_stored {fails : Bool} {t device : ℕ} {path : Path} {data : FileData}
    (h : (replacedMoment fails t).stored device path = some (.file data)) : data = replaced t := by
  grind [replacedMoment]

def replacedJobs : List Job :=
  [.importFiles (asBytes "/m") [(asBytes "/m/a.mp3", "01")], .reconcileRoot (asBytes "/m")]

/-- The hash follows the file. -/
theorem run_hashes_agree_replaced :
    let after := (newServer.run (replacing none) replacedJobs).world
    after.lib.tracks = [⟨0, "/m/a.mp3", some "0202", some 2, some 7⟩] ∧
      HashesAgree (replacing none) after :=
  ⟨by decide +kernel,
    (run_hashes_agree (replacing none) newServer replacedJobs (by simp [HashesAgree, newServer])
      (by decide +kernel)).2⟩

/-- The file is imported and replaced, and its hash cannot be computed when the root is reconciled:
the row has the stamp of the second version and the hash of the first, which later scans keep. -/
theorem failed_hash_disagrees :
    let o := replacing (some 11)
    (∀ t t' device path data data', (o.history t).stored device path = some (.file data) →
      (o.history t').stored device path = some (.file data') →
      data.fingerprint = data'.fingerprint → data = data') ∧
    HashesAgree o newServer.world ∧
    (newServer.run o replacedJobs).world.lib.tracks =
      [⟨0, "/m/a.mp3", some "01", some 2, some 7⟩] ∧
    ¬ HashesAgree o (newServer.run o replacedJobs).world ∧
    ¬ HashesAgree o
      (newServer.run o (replacedJobs ++ [.reconcileRoot (asBytes "/m")])).world := by
  intro o
  have hrows : ∀ w : World, w.lib.tracks = [⟨0, "/m/a.mp3", some "01", some 2, some 7⟩] →
      ¬ HashesAgree o w := by
    intro w hw hagree
    have hrow := hagree ⟨0, "/m/a.mp3", some "01", some 2, some 7⟩ (by rw [hw]; simp)
    obtain ⟨m, -, device, path, data, hstored, -, hstamp, hhash⟩ := hrow "01" rfl
    cases replaced_of_stored hstored
    unfold replaced at hstamp hhash
    split at hstamp
    · exact absurd hstamp (by decide)
    next hlate =>
      rw [if_neg hlate] at hhash
      exact absurd hhash (by decide +kernel)
  refine ⟨?_, by simp [HashesAgree, newServer], by decide +kernel, hrows _ (by decide +kernel),
    hrows _ (by decide +kernel)⟩
  intro t t' device path data data' hdata hdata' hsame
  cases replaced_of_stored hdata
  cases replaced_of_stored hdata'
  unfold replaced at hsame ⊢
  split_ifs at hsame ⊢
  · rfl
  · exact absurd hsame (by decide)
  · exact absurd hsame (by decide)
  · rfl

end MichiServer.Scanner
