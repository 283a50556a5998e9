import MichiServer.Import.AllOrNothing
import MichiServer.Import.Names
import MichiServer.Interleave.Solo
import Mathlib.Algebra.BigOperators.Group.Finset.Basic

/-!
# The names and the mapping of a session

A session from its creation on: uploads that are accepted, restarts and changes of the library in
between, and a commit. What the manifest and the row say of it is what the uploads have made of it
(`Counted`): each new content is counted once, and reserves a name that no other file has. At the
commit every file is scanned under its name, so that the id it was promised is that of its row; only a
file whose scan fails is left out, and is answered for all the same.
-/

namespace MichiServer.Import

open MichiServer.Files MichiServer.Interleave MichiServer.Text
open MichiServer.Queue (ApiError v1Error)

/-! ## Rows by the id of a track -/

namespace TrackTable

variable {table table' : TrackTable} {t u : Track} {tracks : List Track}

def HasRow (table : TrackTable) (t : Track) : Prop :=
  ∃ row ∈ table.rows, row.id = t.id ∧ row.filePath = t.filePath ∧ row.contentHash = t.contentHash

theorem hasRow_of_upsertTrack (h : table.upsertTrack t = .ok table')
    (hhash : t.contentHash.isSome) : table'.HasRow t := by
  obtain ⟨hash, hhash⟩ := Option.isSome_iff_exists.mp hhash
  rcases upsertTrack_cases h with ⟨⟨row, hrow, hpath⟩, heq⟩ | heq <;> rw [HasRow, heq]
  · refine ⟨_, List.mem_map.mpr ⟨row, hrow, rfl⟩, ?_⟩
    rw [if_pos hpath, hhash]
    exact ⟨rfl, rfl, rfl⟩
  · simp

theorem HasRow.upsertTrack (hrow : table.HasRow t) (h : table.upsertTrack u = .ok table')
    (hpath : t.filePath ≠ u.filePath) : table'.HasRow t := by
  obtain ⟨row, hmem, hid, hrowPath, hhash⟩ := hrow
  rcases upsertTrack_cases h with ⟨-, heq⟩ | heq <;> rw [HasRow, heq]
  · refine ⟨row, List.mem_map.mpr ⟨row, hmem, ?_⟩, hid, hrowPath, hhash⟩
    exact if_neg fun hsame => hpath (hrowPath.symm.trans hsame)
  · exact ⟨row, List.mem_append_left _ hmem, hid, hrowPath, hhash⟩

theorem HasRow.upsertTracks (hrow : table.HasRow t) (h : table.upsertTracks tracks = .ok table')
    (hpath : t.filePath ∉ tracks.map Track.filePath) : table'.HasRow t := by
  induction tracks generalizing table with
  | nil =>
    cases h
    exact hrow
  | cons u rest ih =>
    rw [List.map_cons, List.mem_cons, not_or] at hpath
    rw [TrackTable.upsertTracks] at h
    split at h
    next table₁ hfirst => exact ih (hrow.upsertTrack hfirst hpath.1) h hpath.2
    next => cases h

theorem hasRow_of_upsertTracks (h : table.upsertTracks tracks = .ok table')
    (hpaths : (tracks.map Track.filePath).Nodup) (hhash : ∀ t ∈ tracks, t.contentHash.isSome)
    (ht : t ∈ tracks) : table'.HasRow t := by
  induction tracks generalizing table with
  | nil => cases ht
  | cons u rest ih =>
    rw [List.map_cons, List.nodup_cons] at hpaths
    rw [TrackTable.upsertTracks] at h
    split at h
    next table₁ hfirst =>
      rcases List.mem_cons.mp ht with rfl | ht
      · exact (hasRow_of_upsertTrack hfirst (hhash t List.mem_cons_self)).upsertTracks h hpaths.1
      · grind
    next => cases h

end TrackTable

/-! ## Paths that are text -/

structure Setting.Configured (s : Setting) : Prop where
  musicPaths : ∀ path ∈ s.musicPaths, ∃ t : String, path = asBytes t
  cachePath : ∃ t : String, s.cachePath = asBytes t

theorem text_join (base path : String) : ∃ t, join (asBytes base) (asBytes path) = asBytes t := by
  unfold join
  split
  · exact ⟨path, rfl⟩
  · split
    · exact ⟨base ++ path, (asBytes_append _ _).symm⟩
    · refine ⟨base ++ ("/" ++ path), ?_⟩
      rw [asBytes_append, asBytes_append]
      rfl

theorem join_name_inj {base name name' : Path} (hname : slash ∉ name) (hname' : slash ∉ name')
    (h : join base name = join base name') : name = name' := by
  rw [join, join, isAbsolute_of_not_mem hname, isAbsolute_of_not_mem hname',
    if_neg Bool.false_ne_true, if_neg Bool.false_ne_true] at h
  split at h
  · exact List.append_cancel_left h
  · exact List.cons.inj (List.append_cancel_left h) |>.2

section

variable {s : Setting}

theorem text_finalDir (h : s.Configured) : ∃ t, s.finalDir = asBytes t := by
  unfold Setting.finalDir
  cases hpaths : s.musicPaths with
  | nil =>
    obtain ⟨cache, hcache⟩ := h.cachePath
    obtain ⟨staging, hstaging⟩ := text_join cache "import_staging"
    rw [List.head?_nil, Option.getD_none, Setting.sessionDir, hcache, hstaging]
    exact text_join _ _
  | cons path rest =>
    rw [List.head?_cons, Option.getD_some]
    exact h.musicPaths path (by rw [hpaths]; exact List.mem_cons_self)

theorem dest_inj (h : s.Configured) {file other : ImportFile}
    (hfile : IsName (asBytes file.safeName)) (hother : IsName (asBytes other.safeName))
    (heq : s.dest file = s.dest other) : file.safeName = other.safeName := by
  obtain ⟨dir, hdir⟩ := text_finalDir h
  obtain ⟨t, ht⟩ := text_join dir file.safeName
  obtain ⟨t', ht'⟩ := text_join dir other.safeName
  unfold Setting.dest at heq
  rw [hdir, ht, ht', fromUtf8Lossy_asBytes, fromUtf8Lossy_asBytes] at heq
  rw [heq, ← ht'] at ht
  exact asBytes_inj (join_name_inj hfile.no_slash hother.no_slash ht)

end

/-! ## Rules -/

section Rules

variable {Ok : ImportAct → StepEnv → Prop} {i : TaskId} {α β : Type} {w : ImportWorld}

/-- A part of a request that runs by itself, of whose errors nothing is said. -/
abbrev Leads (Ok : ImportAct → StepEnv → Prop) (i : TaskId) (Q : α → ImportWorld → Prop)
    (x : ImportM α) (w : ImportWorld) : Prop :=
  Yields (Discipline.alone ImportWorld Ok) semantics i Q x w

variable {Q : α → ImportWorld → Prop}

theorem alone_step {a : ImportAct} {Q : a.Resp → ImportWorld → Prop}
    (h : ∀ env, Ok a env → Q (exec i a env w).1 (exec i a env w).2) :
    Outline (Discipline.alone ImportWorld Ok) semantics i Q (step a) w := Outline.alone h

theorem leads_sure {p : Prog ImportAct.Resp β} {f : β → ImportM α}
    (h : Outline (Discipline.alone ImportWorld Ok) semantics i (fun b => Leads Ok i Q (f b)) p w) :
    Leads Ok i Q (sure p >>= f) w :=
  (Yields.lift h).bind fun _ _ hb => hb

theorem leads_io_last {p : Prog ImportAct.Resp (Except String α)} {onError : String → ApiError}
    (h : Outline (Discipline.alone ImportWorld Ok) semantics i
      (fun r w' => ∀ a, r = .ok a → Q a w') p w) :
    Leads Ok i Q (io onError p) w := by
  refine ⟨Outline.bind (h.mono fun r w' hr => ?_)⟩
  cases r with
  | error e => exact nofun
  | ok a =>
    intro a' ha
    cases ha
    exact hr a rfl

theorem leads_io {p : Prog ImportAct.Resp (Except String β)} {f : β → ImportM α}
    {onError : String → ApiError}
    (h : Outline (Discipline.alone ImportWorld Ok) semantics i
      (fun r w' => ∀ b, r = .ok b → Leads Ok i Q (f b) w') p w) :
    Leads Ok i Q (io onError p >>= f) w :=
  (leads_io_last h).bind fun _ _ hb => hb

theorem leads_rejectIf {c : Prop} [Decidable c] {error : ApiError} {f : Unit → ImportM α}
    (h : ¬ c → Leads Ok i Q (f ()) w) : Leads Ok i Q (rejectIf c error >>= f) w := by
  by_cases hc : c
  · rw [rejectIf, if_pos hc]
    exact Yields.throw error
  · rw [rejectIf, if_neg hc]
    exact h hc

theorem leads_require {x : Option α} {error : ApiError} (h : ∀ a, x = some a → Q a w) :
    Leads Ok i Q (require x error) w := by
  cases x with
  | none => exact Yields.throw error
  | some a => exact Yields.pure (h a rfl)

theorem eq_of_unlessFails {env : StepEnv} {w w' : ImportWorld} {u : Unit}
    (h : (unlessFails env w w').1 = .ok u) : (unlessFails env w w').2 = w' := by
  unfold unlessFails at h ⊢
  split at h
  · cases h
  · rfl

theorem eq_of_inSessionDir {env : StepEnv} {w : ImportWorld} {f : SessionDir → SessionDir} {u : Unit}
    (h : (inSessionDir env w f).1 = .ok u) :
    ∃ dir, w.staging = some dir ∧ (inSessionDir env w f).2 = { w with staging := some (f dir) } := by
  grind [inSessionDir, eq_of_unlessFails]

end Rules

/-! ## The session as it stands -/

def ImportWorld.progress (w : ImportWorld) : Option (ℕ × ℕ) :=
  w.row.map fun row => (row.importedTracks, row.totalSizeBytes)

/-- The session is what the manifest holds, the entry says the same, if there is one, and so does the
progress in the row. -/
structure Current (σ : ImportSessionState) (w : ImportWorld) : Prop where
  manifest : w.staging.bind SessionDir.manifest = some σ
  entry : w.sessions = none ∨ w.sessions = some σ
  progress : w.progress = some (σ.importedTracks, σ.totalSizeBytes)

section

variable {σ : ImportSessionState} {w w' : ImportWorld} {Ok : ImportAct → StepEnv → Prop} {i : TaskId}

theorem Current.same (h : Current σ w) (hstaging : w'.staging = w.staging)
    (hsessions : w'.sessions = w.sessions) (hrow : w'.row = w.row) : Current σ w' where
  manifest := by rw [hstaging]; exact h.manifest
  entry := by rw [hsessions]; exact h.entry
  progress := by rw [ImportWorld.progress, hrow]; exact h.progress

theorem Current.lock {a : ImportAct} (h : Current σ w) (ha : a.locks) (env : StepEnv) :
    Current σ (exec i a env w).2 := by
  cases a with
  | getSessionLock =>
    rcases getSessionLock_cases i env w with ⟨l, -, heq⟩ | ⟨-, heq⟩ <;> rw [heq] <;>
      exact h.same rfl rfl rfl
  | lock | dropGuard => exact h.same rfl rfl rfl
  | _ => exact ha.elim

theorem Current.tick (h : Current σ w) (t : ImportTick) : Current σ (tick t w) := by
  cases t with
  | restart => exact ⟨h.manifest, .inl rfl, h.progress⟩
  | elsewhere library tracks => exact h.same rfl rfl rfl

theorem checkedRow_leads :
    Leads Ok i (fun row w' => w' = w ∧ w.row = some row) checkedRow w := by
  refine leads_io (alone_step fun env _ row hrow => leads_require fun r hr => ⟨rfl, ?_⟩)
  rw [← hr, eq_of_reads hrow]

theorem recoveredSession_leads (h : Current σ w) :
    Leads Ok i (fun session w' => session = σ ∧ Current σ w') recoveredSession w := by
  refine leads_sure (Outline.bind (alone_step fun env _ => ?_))
  rcases h.entry with hnone | hsome
  · rw [show (exec i .sessionsGet env w).1 = none from hnone]
    refine Outline.bind (alone_step fun env' _ => ?_)
    cases hread : (exec i .readManifest env' w).1 with
    | none =>
      rw [show (exec i .readManifest env' (exec i .sessionsGet env w).2).1 = none from hread]
      exact Yields.throw _
    | some session =>
      rw [show (exec i .readManifest env' (exec i .sessionsGet env w).2).1 = some session
        from hread]
      have hsession : session = σ := eq_of_readManifest hread h.manifest
      refine Outline.bind (alone_step fun env'' _ => ?_)
      exact Yields.pure ⟨hsession, h.manifest, .inr (congrArg some hsession), h.progress⟩
  · rw [show (exec i .sessionsGet env w).1 = some σ from hsome]
    exact Yields.pure ⟨rfl, h⟩

end

/-! ## An upload -/

def Setting.trackId (s : Setting) (name : String) : Uuid :=
  Scanner.trackIdFromLibraryPath s.newV5 s.finalDir (join s.finalDir (asBytes name))

/-- What an accepted upload makes of the session: its content is one of those seen, or it is counted
and has a file. -/
inductive Counted (s : Setting) (σ : ImportSessionState) (upload : ImportUpload) :
    ImportSessionState → Prop
  | duplicate {data : List UInt8} :
      s.base64Decode upload.data = some data → s.computeSha256 data ∈ σ.seenHashes →
      Counted s σ upload σ
  | stored {data : List UInt8} {ext : String} {file : ImportFile} :
      s.base64Decode upload.data = some data → s.computeSha256 data ∉ σ.seenHashes →
      isAllowedExtension upload.filename = true → toLowercase ext ∈ allowedAudioExts →
      file.safeName = resolveSafeName σ.files (s.sanitizeFilename upload.filename)
        (s.computeSha256 data) ext →
      file.checksum = s.computeSha256 data → file.remoteTrackId = s.trackId file.safeName →
      Counted s σ upload { σ with
        importedTracks := σ.importedTracks + 1
        totalSizeBytes := σ.totalSizeBytes + data.length
        seenHashes := σ.seenHashes ++ [s.computeSha256 data]
        files := σ.files ++ [file] }

section Upload

variable {s : Setting} {σ : ImportSessionState} {w : ImportWorld} {Ok : ImportAct → StepEnv → Prop}
  {i : TaskId} {upload : ImportUpload}

variable {data : List UInt8} {σ' : ImportSessionState} {env : StepEnv}

theorem checkData_ok {dataHash : String} (h : checkData s upload = .ok (data, dataHash)) :
    s.base64Decode upload.data = some data ∧ dataHash = s.computeSha256 data := by
  grind [checkData]

theorem only_stageFile_aside {name : String} :
    Only (fun a => a.steers = false) (stageFile name data).run := by
  refine Only.try_bind (only_sure (only_step rfl)) fun there => ?_
  refine Only.ite (Only.pure _) ?_
  refine Only.try_bind (only_io (only_step rfl)) fun _ => ?_
  exact Only.try_bind (only_io (only_step rfl)) fun _ => only_io (only_step rfl)

theorem written_of_write_manifest {u : Unit}
    (h : (exec i (.writeManifestTmp σ') env w).1 = .ok u) :
    (exec i (.writeManifestTmp σ') env w).2.staging.bind SessionDir.manifestTmp = some σ' ∧
      (exec i (.writeManifestTmp σ') env w).2.row = w.row := by
  grind [eq_of_inSessionDir, exec]

theorem manifest_of_rename {u : Unit} (h : (exec i .renameManifest env w).1 = .ok u)
    (htmp : w.staging.bind SessionDir.manifestTmp = some σ') :
    (exec i .renameManifest env w).2.staging.bind SessionDir.manifest = some σ' ∧
      (exec i .renameManifest env w).2.row = w.row := by
  grind [eq_of_inSessionDir, exec]

theorem saveManifest_leads {onError : String → ApiError} :
    Leads Ok i (fun _ w' => w'.staging.bind SessionDir.manifest = some σ' ∧ w'.row = w.row)
      (saveManifest onError σ') w := by
  refine leads_io (alone_step fun env _ u hu => leads_io_last (alone_step fun env' _ u' hu' => ?_))
  grind [written_of_write_manifest, manifest_of_rename]

theorem progress_of_update {importedTracks sizeBytes : ℕ} {u : Unit} (hrow : w.row.isSome)
    (h : (exec i (.updateImportSessionProgress importedTracks sizeBytes) env w).1 = .ok u) :
    ∃ row : ImportSessionDb,
      (exec i (.updateImportSessionProgress importedTracks sizeBytes) env w).2 =
        { w with row := some row } ∧
      row.importedTracks = importedTracks ∧ row.totalSizeBytes = sizeBytes := by
  obtain ⟨row, hrow⟩ := Option.isSome_iff_exists.mp hrow
  refine ⟨{ row with importedTracks := importedTracks, totalSizeBytes := sizeBytes },
    (eq_of_unlessFails h).trans ?_, rfl, rfl⟩
  simp only [ImportWorld.setRow, hrow, Option.map_some]

theorem saved_leads {onError onError' : String → ApiError}
    {answer : ImportAnswer} (hrow : w.row.isSome) :
    Leads Ok i (fun _ w' => Current σ' w')
      (do
        saveManifest onError σ'
        sure (step (.sessionsInsert σ'))
        io onError'
          (step (.updateImportSessionProgress σ'.importedTracks σ'.totalSizeBytes))
        return answer : ImportM ImportAnswer) w := by
  refine saveManifest_leads.bind fun _ w₁ hw₁ => ?_
  refine leads_sure (alone_step fun env _ => leads_io (alone_step fun env' _ u hu => ?_))
  obtain ⟨row, heq, himported, hsize⟩ := progress_of_update (by rw [← hw₁.2] at hrow; exact hrow) hu
  rw [heq]
  refine Yields.pure ⟨hw₁.1, .inr rfl, ?_⟩
  simp only [ImportWorld.progress, Option.map_some, himported, hsize]

/-- An upload that is new and allowed is stored and counted. -/
theorem storeUpload_leads (hrow : w.row.isSome) (hdata : s.base64Decode upload.data = some data)
    (hnew : s.computeSha256 data ∉ σ.seenHashes)
    (hallowed : isAllowedExtension upload.filename = true) :
    Leads Ok i (fun _ w' => ∃ σ', Counted s σ upload σ' ∧ Current σ' w')
      (storeUpload s upload σ data (s.computeSha256 data)) w := by
  refine leads_io (alone_step fun env _ u _ => ?_)
  have hcreated : (exec i (.createDirAll .staging) env w).2.row.isSome :=
    unlessFails_keeps (P := fun w' => w'.row.isSome) hrow hrow
  have hstaged : Leads Ok i (fun _ w' => w'.row.isSome)
      (stageFile (s.computeSha256 data ++ "." ++
        toLowercase ((extensionText upload.filename).getD "")) data)
      (exec i (.createDirAll .staging) env w).2 := by
    refine Yields.of_only only_stageFile_aside (fun a env w ha hw => ?_) hcreated
    rwa [show (semantics.exec i a env w).2.row = w.row from (exec_aside ha).row]
  refine hstaged.bind fun _ w₁ hw₁ => leads_sure (alone_step fun env' _ => ?_)
  have hmarked : (exec i (.setImportSessionStatus .uploading none) env' w₁).2.row.isSome :=
    unlessFails_keeps (P := fun w' => w'.row.isSome) hw₁
      (by rwa [ImportWorld.setRow, Option.isSome_map])
  obtain ⟨e, he, hmem⟩ := allowed_extension hallowed
  have hcontains : allowedAudioExts.contains
      (toLowercase ((extensionText upload.filename).getD "")) = true := by
    rw [he]
    exact List.contains_iff_mem.mpr hmem
  rw [if_pos hcontains]
  refine (saved_leads hmarked).mono fun _ w' hw' => ⟨_, ?_, hw'⟩
  have hext : toLowercase (toLowercase e) ∈ allowedAudioExts := toLowercase_allowed hmem
  refine .stored hdata hnew hallowed hext ?_ rfl rfl
  rw [he]
  rfl

/-- An upload that is accepted is counted. -/
theorem acceptUpload_leads (h : Current σ w) :
    Leads Ok i (fun _ w' => ∃ σ', Counted s σ upload σ' ∧ Current σ' w') (acceptUpload s upload) w := by
  refine (recoveredSession_leads h).bind fun session w₁ hw₁ => ?_
  obtain ⟨rfl, hcurrent⟩ := hw₁
  have hrow : w₁.row.isSome := by
    have hsome := congrArg Option.isSome hcurrent.progress
    rwa [ImportWorld.progress, Option.isSome_map] at hsome
  refine leads_rejectIf fun hallowed => ?_
  refine Yields.bind (Q := fun r w' => w' = w₁ ∧ checkData s upload = .ok r)
    (Yields.ofExcept fun r hr => ⟨rfl, hr⟩) fun r w₂ hr => ?_
  obtain ⟨rfl, hr⟩ := hr
  obtain ⟨data, dataHash⟩ := r
  obtain ⟨hdata, rfl⟩ := checkData_ok hr
  refine leads_rejectIf fun _ => Yields.ite (fun hseen => ?_) fun hnew => ?_
  · refine leads_io (alone_step fun env _ u hu => ?_)
    obtain ⟨row, heq, himported, hsize⟩ := progress_of_update hrow hu
    rw [heq]
    refine Yields.pure ⟨session, .duplicate hdata (List.contains_iff_mem.mp hseen), hcurrent.manifest,
      hcurrent.entry, ?_⟩
    simp only [ImportWorld.progress, Option.map_some, himported, hsize]
  · grind [storeUpload_leads]

theorem uploadUnderGuard_leads (h : Current σ w) :
    Leads Ok i (fun _ w' => ∃ σ', Counted s σ upload σ' ∧ Current σ' w')
      (uploadUnderGuard s upload) w := by
  refine checkedRow_leads.bind fun row w₁ hw₁ => ?_
  obtain ⟨rfl, -⟩ := hw₁
  exact leads_rejectIf fun _ => acceptUpload_leads h

theorem withSessionLock_alone {Q : Except ApiError ImportAnswer → ImportWorld → Prop}
    {body : LockId → Bool → Prog ImportAct.Resp (Except ApiError ImportAnswer)} (h : Current σ w)
    (hbody : ∀ l closed w', Current σ w' →
      Outline (Discipline.alone ImportWorld Ok) semantics i Q (body l closed) w') :
    Outline (Discipline.alone ImportWorld Ok) semantics i Q (withSessionLock body) w := by
  refine Outline.bind (alone_step fun env _ => Outline.bind (alone_step fun env' _ => ?_))
  refine hbody _ _ _ (Current.lock (Current.lock h ?_ env) ?_ env') <;> trivial

theorem leave_alone {l : LockId} {answer : Except ApiError ImportAnswer}
    {Q : Except ApiError ImportAnswer → ImportWorld → Prop}
    (h : ∀ env, Q answer (exec i (.dropGuard l (some answer)) env w).2) :
    Outline (Discipline.alone ImportWorld Ok) semantics i Q (leave l answer) w :=
  Outline.bind (alone_step fun env _ => h env)

theorem import_upload_alone (h : Current σ w) :
    Outline (Discipline.alone ImportWorld Ok) semantics i (fun r w' => ∀ answer, r = .ok answer →
      ∃ σ', Counted s σ upload σ' ∧ Current σ' w') (importUploadHandler s upload) w := by
  refine withSessionLock_alone h fun l closed w₁ hw₁ => ?_
  cases closed with
  | true => exact leave_alone fun env => nofun
  | false =>
    refine Outline.bind ((uploadUnderGuard_leads hw₁).outline.mono fun r w₂ hr => ?_)
    refine leave_alone fun env answer hanswer => ?_
    obtain ⟨σ', hcounted, hcurrent⟩ := hr answer hanswer
    exact ⟨σ', hcounted, hcurrent.lock (a := .dropGuard l (some r)) trivial env⟩

end Upload

/-! ## A commit -/

section Commit

variable {s : Setting} {σ : ImportSessionState} {w : ImportWorld} {i : TaskId}

/-- What may be drawn for a step: a scan of a file that is there succeeds. -/
def scans (a : ImportAct) (env : StepEnv) : Bool :=
  match a with
  | .scan _ _ => env.fails.isNone
  | _ => true

abbrev Scanning {α : Type} (i : TaskId) (Q : α → ImportWorld → Prop) (x : ImportM α)
    (w : ImportWorld) : Prop :=
  Leads (fun a env => scans a env = true) i Q x w

variable {p : Place} {files : List ImportFile} {done : List (ImportFile × String)}
  {file : ImportFile} {tracks : List Track} {table : TrackTable}

theorem there_of_put {name other : String} {content : List UInt8}
    (hdir : p = .staging → w.staging.isSome) (h : other = name ∨ (w.files p other).isSome) :
    ((w.put p name (some content)).files p other).isSome := by
  have hput : ∀ d : Directory, (other = name ∨ (d other).isSome) →
      (d.put name (some content) other).isSome := by
    grind [Directory.put]
  cases p with
  | library => exact hput w.library h
  | staging =>
    obtain ⟨dir, hdir⟩ := Option.isSome_iff_exists.mp (hdir rfl)
    simp only [ImportWorld.files, ImportWorld.put, hdir, Option.map_some, Option.getD_some] at h ⊢
    exact hput dir.files h

theorem eq_of_writeFile {name : String} {data : List UInt8} {env : StepEnv} {u : Unit}
    (h : (writeFile env w p name data).1 = .ok u) :
    (writeFile env w p name data).2 = w.put p name (some data) := by
  grind [writeFile]

theorem put_of_copy {src dest : String} {env : StepEnv} {u : Unit}
    (h : (exec i (.copy src p dest) env w).1 = .ok u) :
    w.staging.isSome ∧ ∃ content, (exec i (.copy src p dest) env w).2 = w.put p dest (some content) := by
  cases hsrc : w.files .staging src with
  | none =>
    simp only [exec, hsrc] at h
    cases h
  | some content =>
    simp only [exec, hsrc] at h ⊢
    refine ⟨?_, content, eq_of_writeFile h⟩
    cases hnone : w.staging with
    | none => simp [ImportWorld.files, hnone] at hsrc
    | some dir => rfl

/-- The files that are committed are those of the session, and they are there. -/
structure Placed (s : Setting) (files : List ImportFile) (done : List (ImportFile × String))
    (w : ImportWorld) : Prop where
  files : done.map Prod.fst = files
  there : ∀ entry ∈ done, (w.files s.finalPlace entry.1.safeName).isSome

theorem Placed.snoc {w' : ImportWorld} {status : String} (h : Placed s files done w)
    (hkept : ∀ name, (w.files s.finalPlace name).isSome → (w'.files s.finalPlace name).isSome)
    (hfile : (w'.files s.finalPlace file.safeName).isSome) :
    Placed s (files ++ [file]) (done ++ [(file, status)]) w' where
  files := by rw [List.map_append, h.files]; rfl
  there entry hentry := by
    rcases List.mem_append.mp hentry with hold | hlast
    · exact hkept _ (h.there entry hold)
    · rwa [List.mem_singleton.mp hlast]

theorem leads_exists {α : Type} {Q : α → ImportWorld → Prop} {name : String} {f : Bool → ImportM α}
    (h : ∀ there : Bool, (there = true → (w.files p name).isSome) → Scanning i Q (f there) w) :
    Scanning i Q (sure (step (.exists_ p name)) >>= f) w :=
  leads_sure (alone_step fun env _ => h (env.fails.isNone && (w.files p name).isSome)
    fun hthere => (Bool.and_eq_true_iff.mp hthere).2)

/-- Each file is placed, in the order of the session. -/
theorem copyFiles_leads {files before : List ImportFile} {newly : List String}
    (h : Placed s before done w) :
    Scanning i (fun r w' => Placed s (before ++ files) r.2 w') (copyFiles s newly done files) w := by
  induction files generalizing before newly done w with
  | nil =>
    rw [List.append_nil]
    exact Yields.pure h
  | cons file rest ih =>
    rw [List.append_cons]
    refine leads_exists fun staged _ => leads_exists fun there hthere => ?_
    refine Yields.ite (fun hpresent => ?_) fun _ => ?_
    · exact ih (h.snoc (fun _ hname => hname) (hthere hpresent))
    refine leads_exists fun found _ => Yields.ite (fun _ => ?_) fun _ => ?_
    · exact Yields.throw_after _ _
    · refine leads_sure (alone_step fun env _ => ?_)
      cases hcopied : (exec i (.copy (if staged then file.stagingFilename else file.safeName)
        s.finalPlace file.safeName) env w).1 with
      | error e => exact Yields.throw_after _ _
      | ok u =>
        obtain ⟨hstaging, content, heq⟩ := put_of_copy hcopied
        rw [heq]
        exact ih (h.snoc (fun _ hname => there_of_put (fun _ => hstaging) (.inr hname))
          (there_of_put (fun _ => hstaging) (.inl rfl)))

structure TrackOf (s : Setting) (file : ImportFile) (t : Track) : Prop where
  id : t.id = file.remoteTrackId
  filePath : t.filePath = s.dest file
  contentHash : t.contentHash = some file.checksum

structure TracksOf (s : Setting) (files : List ImportFile) (tracks : List Track) : Prop where
  paths : tracks.map Track.filePath = files.map s.dest
  hashed : ∀ t ∈ tracks, t.contentHash.isSome
  complete : ∀ file ∈ files, ∃ t ∈ tracks, TrackOf s file t

theorem TracksOf.cons {t : Track} (ht : TrackOf s file t) (h : TracksOf s files tracks) :
    TracksOf s (file :: files) (t :: tracks) where
  paths := by rw [List.map_cons, List.map_cons, ht.filePath, h.paths]
  hashed := List.forall_mem_cons.mpr ⟨by rw [ht.contentHash]; rfl, h.hashed⟩
  complete := List.forall_mem_cons.mpr ⟨⟨t, List.mem_cons_self, ht⟩, fun file hfile => by
    obtain ⟨u, hu, htrack⟩ := h.complete file hfile
    exact ⟨u, List.mem_cons_of_mem _ hu, htrack⟩⟩

/-- The files have the names they were given: each one is an audio file's, and its id is promised by
the name. -/
structure Named (s : Setting) (files : List ImportFile) : Prop where
  names : (files.map ImportFile.safeName).Nodup
  audio : ∀ file ∈ files, ∃ stem ext, AudioName file.safeName stem ext
  ids : ∀ file ∈ files, file.remoteTrackId = s.trackId file.safeName

theorem scanSingleFile_leads {stem ext : String}
    (haudio : AudioName file.safeName stem ext) (hid : file.remoteTrackId = s.trackId file.safeName)
    (hthere : (w.files s.finalPlace file.safeName).isSome) :
    Scanning i (fun track w' => w' = w ∧ ∃ t, track = some t ∧ TrackOf s file t)
      (scanSingleFile s file) w := by
  refine leads_sure (alone_step fun env hscans => ?_)
  have htags : exec i (.scan s.finalPlace file.safeName) env w =
      (some (env.now, env.durationMs), w) := Prod.ext (if_pos ⟨hscans, hthere⟩) rfl
  rw [htags]
  refine Yields.pure ⟨rfl, {
    id := s.trackId file.safeName
    filePath := s.dest file
    contentHash := some file.checksum
    durationMs := env.durationMs
    updatedAt := env.now }, ?_, hid.symm, rfl, rfl⟩
  rw [Option.filter_some, haudio.isAudioFile]
  rfl

theorem scanFiles_leads (hnamed : ∀ file ∈ files, (∃ stem ext, AudioName file.safeName stem ext) ∧
      file.remoteTrackId = s.trackId file.safeName) (h : Placed s files done w) :
    Scanning i (fun tracks w' => w' = w ∧ TracksOf s files tracks)
      (scanFiles s done) w := by
  induction done generalizing files with
  | nil =>
    cases h.files
    exact Yields.pure ⟨rfl, rfl, nofun, nofun⟩
  | cons entry rest ih =>
    obtain ⟨file, status⟩ := entry
    cases h.files
    obtain ⟨⟨stem, ext, haudio⟩, hid⟩ := hnamed file List.mem_cons_self
    refine (scanSingleFile_leads haudio hid (h.there _ List.mem_cons_self)).bind fun track w₁ hw₁ => ?_
    obtain ⟨rfl, t, rfl, ht⟩ := hw₁
    refine (ih (fun other hother => hnamed other (List.mem_cons_of_mem _ hother))
      ⟨rfl, fun other hother => h.there other (List.mem_cons_of_mem _ hother)⟩).bind
      fun tracks w₂ hw₂ => ?_
    obtain ⟨rfl, htracks⟩ := hw₂
    exact Yields.pure ⟨rfl, .cons ht htracks⟩

def Rowed (files : List ImportFile) (table : TrackTable) : Prop :=
  ∀ file ∈ files, ∃ row ∈ table.rows, row.id = file.remoteTrackId ∧
    row.contentHash = some file.checksum

theorem rowed_of_upsertTracks {table table' : TrackTable} (hpaths : (files.map s.dest).Nodup)
    (h : TracksOf s files tracks) (hupsert : table.upsertTracks tracks = .ok table') :
    Rowed files table' := by
  rw [← h.paths] at hpaths
  intro file hfile
  obtain ⟨t, ht, htrack⟩ := h.complete file hfile
  obtain ⟨row, hrow, hid, -, hhash⟩ := TrackTable.hasRow_of_upsertTracks hupsert hpaths h.hashed ht
  exact ⟨row, hrow, hid.trans htrack.id, hhash.trans htrack.contentHash⟩

theorem storeTracks_leads {newly : List String}
    (hpaths : (files.map s.dest).Nodup) (h : TracksOf s files tracks) :
    Scanning i (fun _ w' => Rowed files w'.tracks) (storeTracks s newly tracks) w := by
  refine Yields.ite (fun hempty => ?_) fun _ => ?_
  · refine Yields.pure fun file hfile => ?_
    obtain ⟨t, ht, -⟩ := h.complete file hfile
    rw [List.isEmpty_iff.mp hempty] at ht
    cases ht
  · refine leads_sure (alone_step fun env _ => ?_)
    cases hstored : (exec i (.upsertTracks tracks) env w).1 with
    | error e => exact Yields.throw_after _ _
    | ok u =>
      refine Yields.pure ?_
      grind [exec, upsert, eq_of_unlessFails, rowed_of_upsertTracks]

/-- What a commit is answered with, when its scans succeed: the totals of the session, and a mapping of
its files, each with a row. -/
structure Answers (files : List ImportFile) (mapping : List Mapped) (table : TrackTable) : Prop where
  checksums : mapping.map Mapped.checksum = files.map ImportFile.checksum
  rows : ∀ entry ∈ mapping, ∃ row ∈ table.rows, row.id = entry.remoteTrackId ∧
    row.contentHash = some entry.checksum

theorem mapped_remote (tracks : List Track) (file : ImportFile) (status : String) :
    (mapped tracks file status).remoteTrackId = file.remoteTrackId := by
  have hfound : ∀ id : Uuid, ((tracks.find? fun t => t.id = id).map Track.id).getD id = id := by
    intro id
    cases hfind : tracks.find? fun t => t.id = id with
    | none => rfl
    | some t =>
      grind
  exact hfound file.remoteTrackId

theorem answers_of_rowed (hdone : done.map Prod.fst = files) (h : Rowed files table) :
    Answers files (done.map fun (file, status) => mapped tracks file status) table where
  checksums := by
    rw [← hdone, List.map_map, List.map_map]
    rfl
  rows entry hentry := by
    obtain ⟨⟨file, status⟩, hmem, rfl⟩ := List.mem_map.mp hentry
    rw [mapped_remote]
    exact h file (hdone ▸ List.mem_map.mpr ⟨_, hmem, rfl⟩)

theorem importFiles_leads (hnamed : Named s σ.files) (hpaths : (σ.files.map s.dest).Nodup) :
    Scanning i (fun mapping w' => Answers σ.files mapping w'.tracks) (importFiles s σ) w := by
  refine leads_io (alone_step fun env _ u _ => leads_io (alone_step fun env' _ u' _ => ?_))
  refine (Yields.any (prevalidate s σ.files)).bind fun _ w₁ _ => ?_
  have hstart : Placed s [] [] w₁ := ⟨rfl, nofun⟩
  refine (copyFiles_leads hstart).bind fun copied w₂ hplaced => ?_
  obtain ⟨newly, done⟩ := copied
  rw [List.nil_append] at hplaced
  refine (scanFiles_leads (fun file hfile => ⟨hnamed.audio file hfile, hnamed.ids file hfile⟩)
    hplaced).bind fun tracks w₃ hscanned => ?_
  refine (Yields.any (findConflict tracks)).bind fun conflict w₄ _ => ?_
  refine Yields.ite (fun _ => ?_) fun _ => ?_
  · exact (Yields.any (removeCopied s newly)).bind fun _ _ _ => Yields.throw_after _ _
  · refine (storeTracks_leads hpaths hscanned.2).bind fun _ w₅ hrowed => ?_
    exact Yields.pure (answers_of_rowed hplaced.files hrowed)

theorem markCommitted_leads (h : w.tracks = table) :
    Scanning i (fun _ w' => w'.tracks = table) markCommitted w := by
  refine leads_io (alone_step fun env _ u _ => leads_io_last (alone_step fun env' _ u' _ => ?_))
  have hmarked : (exec i (.setImportSessionStatus .committed none) env w).2.tracks = table :=
    unlessFails_keeps (P := fun w' => w'.tracks = table) h h
  exact unlessFails_keeps (P := fun w' => w'.tracks = table) hmarked hmarked

theorem commitUnderGuard_leads (h : Current σ w) (hnamed : Named s σ.files)
    (hpaths : (σ.files.map s.dest).Nodup) :
    Scanning i (fun answer w' => ∃ mapping,
      answer = .committed σ.importedTracks σ.totalSizeBytes mapping ∧
        Answers σ.files mapping w'.tracks) (commitUnderGuard s) w := by
  refine checkedRow_leads.bind fun row w₁ hw₁ => ?_
  obtain ⟨rfl, -⟩ := hw₁
  refine leads_rejectIf fun _ => leads_rejectIf fun _ => ?_
  refine (recoveredSession_leads h).bind fun session w₂ hw₂ => ?_
  obtain ⟨rfl, -⟩ := hw₂
  refine (importFiles_leads hnamed hpaths).bind fun mapping w₃ hanswers => ?_
  refine (markCommitted_leads rfl).bind fun _ w₄ hw₄ => ?_
  exact Yields.pure ⟨mapping, rfl, hw₄ ▸ hanswers⟩

theorem finishCommit_alone {Ok : ImportAct → StepEnv → Prop} {l : LockId} {answer : ImportAnswer}
    (h : w.tracks = table) :
    Outline (Discipline.alone ImportWorld Ok) semantics i
      (fun r w' => r = .ok answer ∧ w'.tracks = table) (finishCommit l answer) w := by
  have hrest : ∀ {α : Type} {p : Prog ImportAct.Resp α} {w : ImportWorld}, Only ImportAct.finishes p →
      w.tracks = table → Outline (Discipline.alone ImportWorld Ok) semantics i
        (fun _ w' => w'.tracks = table) p w := fun hp hw =>
    Outline.of_only hp (fun a env w ha hw => (exec_finishes ha env w).2.2.trans hw) hw
  refine Outline.bind ((hrest (only_step (a := .sessionsRemove) trivial) h).mono fun _ w₁ h₁ => ?_)
  refine Outline.bind ((hrest only_finishes_cleanup h₁).mono fun _ w₂ h₂ => ?_)
  refine Outline.bind ((hrest (only_step (a := .setGuard l) trivial) h₂).mono fun _ w₃ h₃ => ?_)
  exact Outline.bind ((hrest (only_finishes_release l) h₃).mono fun _ w₄ h₄ => ⟨rfl, h₄⟩)

theorem import_commit_alone (h : Current σ w) (hnamed : Named s σ.files)
    (hpaths : (σ.files.map s.dest).Nodup) :
    Outline (Discipline.alone ImportWorld fun a env => scans a env = true) semantics i
      (fun r w' => ∀ answer, r = .ok answer → ∃ mapping,
        answer = .committed σ.importedTracks σ.totalSizeBytes mapping ∧
          Answers σ.files mapping w'.tracks) (importCommitHandler s) w := by
  refine withSessionLock_alone h fun l closed w₁ hw₁ => ?_
  cases closed with
  | true => exact leave_alone fun env => nofun
  | false =>
    refine Outline.bind ((commitUnderGuard_leads hw₁ hnamed hpaths).outline.mono fun r w₂ hr => ?_)
    cases r with
    | error e => exact leave_alone fun env => nofun
    | ok answer =>
      obtain ⟨mapping, hanswer, hanswers⟩ := hr answer rfl
      refine (finishCommit_alone (l := l) rfl).mono fun r w₃ hr answer' hanswer' => ?_
      grind

end Commit

/-! ## A session from its beginning -/

section Session

variable {s : Setting} {σ : ImportSessionState} {w w' : ImportWorld} {i : TaskId}
  {Ok : ImportAct → StepEnv → Prop}

def Setting.newSession (s : Setting) (body : ImportSessionRequest) : ImportSessionState where
  sessionId := s.sessionId
  totalTracks := body.totalTracks
  totalPlaylists := body.totalPlaylists

theorem progress_of_create {row : ImportSessionDb} {env : StepEnv} {u : Unit}
    (h : (exec i (.createImportSession row) env w).1 = .ok u) :
    (exec i (.createImportSession row) env w).2.progress =
      some (row.importedTracks, row.totalSizeBytes) := by
  simp only [exec, insertRow] at h ⊢
  split at h
  · cases h
  next hnone =>
    rw [if_neg hnone, eq_of_unlessFails h]
    rfl

theorem progress_of_status (i : TaskId) (status : ImportState) (message : Option String) {progress : Option (ℕ × ℕ)}
    (h : w.progress = progress) (env : StepEnv) :
    (exec i (.setImportSessionStatus status message) env w).2.progress = progress := by
  refine unlessFails_keeps (P := fun w' => w'.progress = progress) h (Eq.trans ?_ h)
  unfold ImportWorld.progress ImportWorld.setRow
  rw [Option.map_map]
  congr 1
  grind [unlessTerminal]

theorem import_session_leads (body : ImportSessionRequest) :
    Leads Ok i (fun _ w' => Current (s.newSession body) w') (importSessionHandler s body) w := by
  refine leads_sure (alone_step fun env _ => leads_rejectIf fun _ => leads_rejectIf fun _ => ?_)
  refine leads_sure ((Outline.any (step .sessionsLen) _).mono fun (active : ℕ) w₁ _ => ?_)
  refine leads_rejectIf fun _ => leads_io (alone_step fun env₁ _ u hu => ?_)
  have hcreated := progress_of_create hu
  refine leads_io (alone_step fun env₂ _ u' _ => leads_io (alone_step fun env₃ _ u'' _ => ?_))
  refine saveManifest_leads.bind fun _ w₂ hw₂ => leads_sure (alone_step fun env₄ _ => ?_)
  have hmarked := progress_of_status i .created none hcreated env₂
  have hprogress : w₂.progress = some (0, 0) := by
    rw [ImportWorld.progress, hw₂.2]
    exact unlessFails_keeps (P := fun w' => w'.progress = some (0, 0)) hmarked hmarked
  exact Yields.pure ⟨hw₂.1, .inr rfl, hprogress⟩

/-- Accepted uploads to one session, the last one first, from its creation on. The server may be
restarted in between, and the library may change. -/
inductive Uploads (s : Setting) : List ImportUpload → ImportWorld → Prop
  | created {i : TaskId} {envs : ℕ → StepEnv} {body : ImportSessionRequest} {answer : ImportAnswer}
      {w w' : ImportWorld} :
      (importSessionHandler s body).run.solo semantics i envs w = (.ok answer, w') →
      Uploads s [] w'
  | upload {i : TaskId} {envs : ℕ → StepEnv} {upload : ImportUpload} {answer : ImportAnswer}
      {uploads : List ImportUpload} {w w' : ImportWorld} :
      Uploads s uploads w →
      (importUploadHandler s upload).solo semantics i envs w = (.ok answer, w') →
      Uploads s (upload :: uploads) w'
  | tick {uploads : List ImportUpload} {w : ImportWorld} (t : ImportTick) :
      Uploads s uploads w → Uploads s uploads (tick t w)

def contents (s : Setting) (uploads : List ImportUpload) : Finset (List UInt8) :=
  (uploads.filterMap fun upload => s.base64Decode upload.data).toFinset

structure SessionOf (s : Setting) (uploads : List ImportUpload) (σ : ImportSessionState) : Prop where
  named : Named s σ.files
  seen : σ.seenHashes = σ.files.map ImportFile.checksum
  hashes : ∀ hash, hash ∈ σ.seenHashes ↔ ∃ data ∈ contents s uploads, s.computeSha256 data = hash

structure Totals (s : Setting) (uploads : List ImportUpload) (σ : ImportSessionState) : Prop where
  files : σ.files.length = (contents s uploads).card
  tracks : σ.importedTracks = (contents s uploads).card
  bytes : σ.totalSizeBytes = ∑ data ∈ contents s uploads, data.length

variable {upload : ImportUpload} {uploads : List ImportUpload}

theorem contents_cons {data : List UInt8} (h : s.base64Decode upload.data = some data) :
    contents s (upload :: uploads) = insert data (contents s uploads) := by
  have hcons : (upload :: uploads).filterMap (fun upload => s.base64Decode upload.data) =
      data :: uploads.filterMap fun upload => s.base64Decode upload.data := List.filterMap_cons_some h
  rw [contents, hcons, List.toFinset_cons, contents]

theorem contents_mono :
    contents s uploads ⊆ contents s (upload :: uploads) := by
  intro data hdata
  rw [contents, List.mem_toFinset, List.mem_filterMap] at hdata ⊢
  grind

/-- The session that counts an upload is the session of one upload more. -/
theorem sessionOf_counted (hs : s.Documented)
    {σ' : ImportSessionState} (h : SessionOf s uploads σ) (hcounted : Counted s σ upload σ') :
    SessionOf s (upload :: uploads) σ' := by
  cases hcounted with
  | @duplicate data hdata hseen =>
    refine ⟨h.named, h.seen, fun hash => ?_⟩
    rw [contents_cons hdata, h.hashes, Finset.exists_mem_insert, or_iff_right_of_imp]
    rintro rfl
    exact (h.hashes _).mp hseen
  | @stored data ext file hdata hnew hallowed hext hname hsum hid =>
    have hother : ∀ other ∈ σ.files, other.checksum ≠ s.computeSha256 data := by
      intro other hother heq
      rw [h.seen, ← heq] at hnew
      exact hnew (List.mem_map_of_mem hother)
    have hfresh := fresh_resolveSafeName hs hallowed hext hother
    rw [← hname] at hfresh
    refine ⟨⟨?_, ?_, ?_⟩, ?_, fun hash => ?_⟩
    · rw [List.map_append, List.map_singleton, ← List.concat_eq_append]
      exact h.named.names.concat hfresh.fresh
    · exact List.forall_mem_append.mpr ⟨h.named.audio, List.forall_mem_singleton.mpr hfresh.audio⟩
    · exact List.forall_mem_append.mpr ⟨h.named.ids, List.forall_mem_singleton.mpr hid⟩
    · rw [h.seen, List.map_append, List.map_singleton, hsum]
    · rw [contents_cons hdata, Finset.exists_mem_insert, List.mem_append, h.hashes,
        List.mem_singleton, or_comm, eq_comm]

/-- So are its totals, where no two contents have one checksum. -/
theorem totals_counted {σ' : ImportSessionState}
    (hinj : Set.InjOn s.computeSha256 (contents s (upload :: uploads))) (h : SessionOf s uploads σ)
    (htotals : Totals s uploads σ) (hcounted : Counted s σ upload σ') :
    Totals s (upload :: uploads) σ' := by
  cases hcounted with
  | @duplicate data hdata hseen =>
    rw [contents_cons hdata] at hinj
    obtain ⟨other, hother, heq⟩ := (h.hashes _).mp hseen
    have hsame : other = data := hinj (by simp [hother]) (by simp) heq
    have hcontents : contents s (upload :: uploads) = contents s uploads := by
      rw [contents_cons hdata, Finset.insert_eq_of_mem (hsame ▸ hother)]
    exact ⟨hcontents ▸ htotals.files, hcontents ▸ htotals.tracks, hcontents ▸ htotals.bytes⟩
  | @stored data ext file hdata hnew hallowed hext hname hsum hid =>
    have hnot : data ∉ contents s uploads := fun hmem => hnew ((h.hashes _).mpr ⟨data, hmem, rfl⟩)
    refine ⟨?_, ?_, ?_⟩ <;> rw [contents_cons hdata]
    · rw [Finset.card_insert_of_notMem hnot, List.length_append, htotals.files]
      rfl
    · rw [Finset.card_insert_of_notMem hnot, htotals.tracks]
    · rw [Finset.sum_insert hnot, ← htotals.bytes]
      exact Nat.add_comm _ _

/-- After any uploads the session is the one of these uploads. -/
theorem current_of_uploads (hs : s.Documented) (h : Uploads s uploads w) :
    ∃ σ, Current σ w ∧ SessionOf s uploads σ ∧
      (Set.InjOn s.computeSha256 (contents s uploads) → Totals s uploads σ) := by
  induction h with
  | @created i envs body answer w w' h =>
    have hleads : Leads (fun _ _ => True) i (fun _ w' => Current (s.newSession body) w')
        (importSessionHandler s body) w := import_session_leads body
    have hsolo := hleads.outline.solo_alone (undisturbed_of_forall (fun _ _ _ => trivial) _ envs w)
    rw [h] at hsolo
    refine ⟨s.newSession body, hsolo answer rfl, ⟨⟨List.nodup_nil, nofun, nofun⟩, rfl, ?_⟩, fun _ => ?_⟩
    · exact fun hash => ⟨nofun, fun ⟨data, hdata, _⟩ => absurd hdata (Finset.notMem_empty data)⟩
    · exact ⟨rfl, rfl, rfl⟩
  | @upload i envs upload answer uploads w w' hbefore h ih =>
    obtain ⟨σ, hcurrent, hsession, htotals⟩ := ih
    have halone : Outline (Discipline.alone ImportWorld fun _ _ => True) semantics i
        (fun r w' => ∀ answer, r = .ok answer → ∃ σ', Counted s σ upload σ' ∧ Current σ' w')
        (importUploadHandler s upload) w := import_upload_alone hcurrent
    have hsolo := halone.solo_alone (undisturbed_of_forall (fun _ _ _ => trivial) _ envs w)
    rw [h] at hsolo
    obtain ⟨σ', hcounted, hcurrent'⟩ := hsolo answer rfl
    refine ⟨σ', hcurrent', sessionOf_counted hs hsession hcounted, fun hinj => ?_⟩
    have hbefore := hinj.mono (Finset.coe_subset.mpr contents_mono)
    exact totals_counted hinj hsession (htotals hbefore) hcounted
  | @tick uploads w t hbefore ih =>
    obtain ⟨σ, hcurrent, hsession, htotals⟩ := ih
    exact ⟨σ, hcurrent.tick t, hsession, htotals⟩

structure Inside (dir : Path) (name : String) : Prop where
  is_name : IsName (asBytes name)
  components : (components (join dir (asBytes name))).filter (· ≠ []) =
    (components dir).filter (· ≠ []) ++ [asBytes name]

theorem AudioName.inside {name stem ext : String} (h : AudioName name stem ext) (dir : Path) :
    Inside dir name := ⟨h.is_name, components_join dir h.is_name⟩

/-- What accepted uploads have reserved: distinct names directly inside the library, and totals that are
those of the distinct contents, where no two of these have one hash. -/
structure Reserved (s : Setting) (uploads : List ImportUpload) (σ : ImportSessionState)
    (w : ImportWorld) : Prop where
  current : Current σ w
  names : (σ.files.map ImportFile.safeName).Nodup
  inside : ∀ file ∈ σ.files, Inside s.finalDir file.safeName
  totals : Set.InjOn s.computeSha256 (contents s uploads) → Totals s uploads σ

/-- **Names and mapping.** After any accepted uploads to a session the names are reserved and the totals
counted; and in the mapping of a commit whose scans succeed every id is that of a row with the hash. -/
theorem names_and_mapping (s : Setting) (hs : s.Documented) (hpaths : s.Configured)
    (uploads : List ImportUpload) (w : ImportWorld) (h : Uploads s uploads w) :
    ∃ σ, Reserved s uploads σ w ∧ ∀ (i : TaskId) (envs : ℕ → StepEnv) (answer : ImportAnswer),
      (importCommitHandler s).Undisturbed semantics i (fun a env _ => scans a env = true) envs w →
      ((importCommitHandler s).solo semantics i envs w).1 = .ok answer →
      ∃ mapping, answer = .committed σ.importedTracks σ.totalSizeBytes mapping ∧
        Answers σ.files mapping ((importCommitHandler s).solo semantics i envs w).2.tracks := by
  obtain ⟨σ, hcurrent, hsession, htotals⟩ := current_of_uploads hs h
  have hnames : ∀ file ∈ σ.files, Inside s.finalDir file.safeName := by
    intro file hfile
    obtain ⟨stem, ext, haudio⟩ := hsession.named.audio file hfile
    exact haudio.inside _
  have hdest : (σ.files.map s.dest).Nodup := by
    refine List.pairwise_map.mpr ?_
    refine (List.pairwise_map.mp hsession.named.names).imp_of_mem fun hfile hother hne heq => hne ?_
    exact dest_inj hpaths (hnames _ hfile).is_name (hnames _ hother).is_name heq
  refine ⟨σ, ⟨hcurrent, hsession.named.names, hnames, htotals⟩, fun i envs answer hscans hanswer => ?_⟩
  exact (import_commit_alone hcurrent hsession.named hdest).solo_alone hscans answer hanswer

end Session

/-! ## Two files of one name -/

/-- A server with one music path, and the hashes and ids of two contents. -/
def pairSetting : Setting where
  computeSha256 data :=
    if data = [1, 2] then "a12871fee210fb8619291eaea194581cbd2531e4b23759d225f6806923f63222"
    else "084fed08b978af4d7d196a7446a86b58009e636b611db16211b65a9aadff29c5"
  base64Decode text := if text = "AQI=" then some [1, 2] else if text = "Aw==" then some [3] else none
  uuidParseStr _ := none
  uuidToString _ := "00000000-0000-0000-0000-000000000001"
  newV5 name :=
    if name = asBytes "a.mp3" then 209686230244810217001074439686407401380
    else 243245403376526316237115166452509320610
  isAlphanumeric := Char.isAlphanum
  toRfc3339 _ := "1970-01-01T01:00:00+00:00"
  musicPaths := [asBytes "/music"]
  cachePath := asBytes "/cache"
  sessionId := 1

theorem pair_documented : pairSetting.Documented where
  isAlphanumeric _ _ := rfl
  computeSha256 data := by
    by_cases h : data = [1, 2]
    · exact ⟨(Hex.decode "a12871fee210fb8619291eaea194581cbd2531e4b23759d225f6806923f63222").getD [],
        (if_pos h).trans (by decide +kernel)⟩
    · exact ⟨(Hex.decode "084fed08b978af4d7d196a7446a86b58009e636b611db16211b65a9aadff29c5").getD [],
        (if_neg h).trans (by decide +kernel)⟩

theorem pair_configured : pairSetting.Configured where
  musicPaths _ hpath := ⟨"/music", List.mem_singleton.mp hpath⟩
  cachePath := ⟨"/cache", rfl⟩

/-- The session when it has been created, with an empty library, and when the first file has been
uploaded. -/
def pairCreated : ImportWorld :=
  ((importSessionHandler pairSetting ⟨2, 0⟩).run.solo semantics 0 (fun _ => {})
    { library := fun _ => none, tracks := ⟨[], []⟩ }).2

def pairFirst : ImportUpload where
  filename := "a.mp3"
  hash := none
  data := "AQI="

def pairUploaded : ImportWorld :=
  ((importUploadHandler pairSetting pairFirst).solo semantics 1 (fun _ => {}) pairCreated).2

theorem pair_uploads : Uploads pairSetting [pairFirst] pairUploaded := by
  have hcreated : ((importSessionHandler pairSetting ⟨2, 0⟩).run.solo semantics 0 (fun _ => {})
      { library := fun _ => none, tracks := ⟨[], []⟩ }).1 =
      .ok (.session 1 "1970-01-01T01:00:00+00:00") := by decide +kernel
  have hfirst : ((importUploadHandler pairSetting pairFirst).solo semantics 1 (fun _ => {})
      pairCreated).1 = .ok (.uploaded none (some 209686230244810217001074439686407401380)
        "a12871fee210fb8619291eaea194581cbd2531e4b23759d225f6806923f63222") := by decide +kernel
  exact .upload (.created (Prod.ext hcreated rfl)) (Prod.ext hfirst rfl)

def pairSecond : ImportUpload where
  filename := "x/a.mp3"
  hash := none
  data := "Aw=="

def pairBoth : ImportWorld :=
  ((importUploadHandler pairSetting pairSecond).solo semantics 2 (fun _ => {}) pairUploaded).2

/-- The second file gets another name, and both are committed. -/
theorem names_and_mapping_pair :
    ∃ σ mapping, Reserved pairSetting [pairSecond, pairFirst] σ pairBoth ∧
      ((importCommitHandler pairSetting).solo semantics 3 (fun _ => {}) pairBoth).1 =
        .ok (.committed σ.importedTracks σ.totalSizeBytes mapping) ∧
      Answers σ.files mapping
        ((importCommitHandler pairSetting).solo semantics 3 (fun _ => {}) pairBoth).2.tracks := by
  have hsecond : ((importUploadHandler pairSetting pairSecond).solo semantics 2 (fun _ => {})
      pairUploaded).1 = .ok (.uploaded none (some 243245403376526316237115166452509320610)
        "084fed08b978af4d7d196a7446a86b58009e636b611db16211b65a9aadff29c5") := by decide +kernel
  obtain ⟨σ, hreserved, hcommit⟩ := names_and_mapping pairSetting pair_documented pair_configured
    [pairSecond, pairFirst] pairBoth (.upload pair_uploads (Prod.ext hsecond rfl))
  have hanswer : ((importCommitHandler pairSetting).solo semantics 3 (fun _ => {}) pairBoth).1 =
      .ok (.committed 2 3 [
        { localTrackId := 209686230244810217001074439686407401380, status := "inserted",
          remoteTrackId := 209686230244810217001074439686407401380,
          checksum := "a12871fee210fb8619291eaea194581cbd2531e4b23759d225f6806923f63222" },
        { localTrackId := 243245403376526316237115166452509320610, status := "inserted",
          remoteTrackId := 243245403376526316237115166452509320610,
          checksum := "084fed08b978af4d7d196a7446a86b58009e636b611db16211b65a9aadff29c5" }]) := by
    decide +kernel
  obtain ⟨mapping, heq, hanswers⟩ := hcommit 3 (fun _ => {}) _ (by decide +kernel) hanswer
  grind

/-- The file cannot be looked at when the commit comes to scan it: the commit succeeds, and the mapping has
the id of no row. -/
theorem unscanned_is_mapped :
    Uploads pairSetting [pairFirst] pairUploaded ∧
      ∃ envs : ℕ → StepEnv,
        ((importCommitHandler pairSetting).solo semantics 2 envs pairUploaded).1 =
          .ok (.committed 1 2 [
            { localTrackId := 209686230244810217001074439686407401380, status := "inserted",
              remoteTrackId := 209686230244810217001074439686407401380,
              checksum := "a12871fee210fb8619291eaea194581cbd2531e4b23759d225f6806923f63222" }]) ∧
        ∀ row ∈ ((importCommitHandler pairSetting).solo semantics 2 envs pairUploaded).2.tracks.rows,
          row.id ≠ 209686230244810217001074439686407401380 :=
  ⟨pair_uploads, fun n => if n = 11 then { fails := some "Input/output error (os error 5)" } else {},
    by decide +kernel, by decide +kernel⟩

end MichiServer.Import
