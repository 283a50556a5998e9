import MichiServer.Import.Outlines

/-!
# The outline of each request

An upload, a commit and a rollback look at the row under the guard, so they know the session to be
open before they do anything to it; the cleanup goes by the guard alone. What a request does to an
open session is of the kind that leaves it open, up to the one update of the row that makes it
terminal, and only then is the session taken down.
-/

namespace MichiServer.Import

open MichiServer.Interleave
open MichiServer.Queue (ApiError)

/-! ## Parts that leave an open session open -/

section

variable {α : Type} {A : ImportAct → Prop} {onError : String → ApiError}

theorem only_step {a : ImportAct} (h : A a) : Only A (step a) := Only.perform h

theorem only_sure {p : Prog ImportAct.Resp α} (h : Only A p) : Only A (sure p).run := Only.lift h

theorem only_io {p : Prog ImportAct.Resp (Except String α)} (h : Only A p) :
    Only A (io onError p).run := by
  refine Only.bind h fun r => ?_
  cases r <;> trivial

theorem only_rejectIf {c : Prop} [Decidable c] {error : ApiError} :
    Only A (rejectIf c error).run := Only.ite (Only.throw _) (Only.pure _)

theorem only_require {x : Option α} {error : ApiError} : Only A (require x error).run := by
  cases x <;> trivial

theorem only_ofExcept {r : Except ApiError α} :
    Only A (MonadExcept.ofExcept r : ImportM α).run := by
  cases r <;> trivial

end

section

variable (s : Setting)

theorem only_recoveredSession : Only ImportAct.ordinary recoveredSession.run := by
  refine Only.try_bind (only_sure ?_) fun _ => only_require
  refine Only.bind (only_step trivial) fun entry => ?_
  cases entry with
  | some session => trivial
  | none =>
    refine Only.bind (only_step trivial) fun manifest => ?_
    cases manifest with
    | some recovered => exact Only.bind (only_step trivial) fun _ => trivial
    | none => trivial

theorem only_saveManifest {A : ImportAct → Prop} {onError : String → ApiError}
    {session : ImportSessionState} (hwrite : A (.writeManifestTmp session))
    (hrename : A .renameManifest) : Only A (saveManifest onError session).run :=
  Only.try_bind (only_io (only_step hwrite)) fun _ => only_io (only_step hrename)

theorem only_stageFile {name : String} {data : List UInt8} :
    Only ImportAct.ordinary (stageFile name data).run := by
  refine Only.try_bind (only_sure (only_step trivial)) fun there => ?_
  refine Only.ite (Only.pure _) ?_
  refine Only.try_bind (only_io (only_step trivial)) fun _ => ?_
  exact Only.try_bind (only_io (only_step trivial)) fun _ => only_io (only_step trivial)

theorem uploading_not_terminal : ImportState.uploading.asStr ∉ terminalStatuses := by decide

theorem committing_not_terminal : ImportState.committing.asStr ∉ terminalStatuses := by decide

theorem failed_not_terminal : ImportState.failed.asStr ∉ terminalStatuses := by decide

theorem only_storeUpload {upload : ImportUpload} {session : ImportSessionState}
    {data : List UInt8} {dataHash : String} :
    Only ImportAct.ordinary (storeUpload s upload session data dataHash).run := by
  refine Only.try_bind (only_io (only_step trivial)) fun _ => ?_
  refine Only.try_bind only_stageFile fun _ => ?_
  refine Only.try_bind (only_sure (only_step uploading_not_terminal)) fun _ => ?_
  refine Only.try_bind (only_saveManifest trivial trivial) fun _ => ?_
  refine Only.try_bind (only_sure (only_step trivial)) fun _ => ?_
  exact Only.try_bind (only_io (only_step trivial)) fun _ => Only.pure _

theorem only_acceptUpload {upload : ImportUpload} :
    Only ImportAct.ordinary (acceptUpload s upload).run := by
  refine Only.try_bind only_recoveredSession fun session => ?_
  refine Only.try_bind only_rejectIf fun _ => ?_
  refine Only.try_bind only_ofExcept fun checked => ?_
  refine Only.try_bind only_rejectIf fun _ => ?_
  refine Only.ite ?_ (only_storeUpload s)
  exact Only.try_bind (only_io (only_step trivial)) fun _ => Only.pure _

theorem only_prevalidate (files : List ImportFile) :
    Only ImportAct.ordinary (prevalidate s files).run := by
  induction files with
  | nil => trivial
  | cons file rest ih =>
    refine Only.try_bind (only_sure (only_step trivial)) fun there => Only.ite ?_ ih
    refine Only.try_bind (only_io (only_step trivial)) fun existingData => Only.ite ?_ ih
    exact Only.try_bind (only_sure (only_step failed_not_terminal)) fun _ => Only.throw _

theorem only_removeCopied (newly : List String) :
    Only ImportAct.ordinary (removeCopied s newly).run := by
  induction newly with
  | nil => trivial
  | cons name rest ih => exact Only.try_bind (only_sure (only_step trivial)) fun _ => ih

theorem only_copyFiles (files : List ImportFile) (newly : List String)
    (done : List (ImportFile × String)) :
    Only ImportAct.ordinary (copyFiles s newly done files).run := by
  induction files generalizing newly done with
  | nil => trivial
  | cons file rest ih =>
    refine Only.try_bind (only_sure (only_step trivial)) fun staged => ?_
    refine Only.try_bind (only_sure (only_step trivial)) fun there => Only.ite (ih _ _) ?_
    refine Only.try_bind (only_sure (only_step trivial)) fun found => Only.ite ?_ ?_
    · exact Only.try_bind (only_removeCopied s newly) fun _ => Only.throw _
    · refine Only.try_bind (only_sure (only_step trivial)) fun copied => ?_
      grind [Only.try_bind, only_removeCopied, Only.throw]

theorem only_scanFiles (committedFiles : List (ImportFile × String)) :
    Only ImportAct.ordinary (scanFiles s committedFiles).run := by
  induction committedFiles with
  | nil => trivial
  | cons entry rest ih =>
    have hscan : Only ImportAct.ordinary (scanSingleFile s entry.1).run :=
      Only.try_bind (only_sure (only_step trivial)) fun _ => Only.pure _
    exact Only.try_bind hscan fun _ => Only.try_bind ih fun _ => Only.pure _

theorem only_findConflict (tracks : List Track) :
    Only ImportAct.ordinary (findConflict tracks).run := by
  induction tracks with
  | nil => trivial
  | cons track rest ih =>
    cases hhash : track.contentHash with
    | none => rwa [findConflict, hhash]
    | some hash =>
      rw [findConflict, hhash]
      exact Only.try_bind (only_sure (only_step trivial)) fun found => Only.ite (Only.pure _) ih

theorem only_storeTracks (newly : List String) (tracks : List Track) :
    Only ImportAct.ordinary (storeTracks s newly tracks).run := by
  refine Only.ite (Only.pure _) (Only.try_bind (only_sure (only_step trivial)) fun stored => ?_)
  grind [Only.pure, Only.try_bind, only_removeCopied, Only.throw]

theorem only_importFiles (session : ImportSessionState) :
    Only ImportAct.ordinary (importFiles s session).run := by
  refine Only.try_bind (only_io (only_step committing_not_terminal)) fun _ => ?_
  refine Only.try_bind (only_io (only_step trivial)) fun _ => ?_
  refine Only.try_bind (only_prevalidate s _) fun _ => ?_
  refine Only.try_bind (only_copyFiles s _ _ _) fun copied => ?_
  refine Only.try_bind (only_scanFiles s _) fun importedTracks => ?_
  refine Only.try_bind (only_findConflict _) fun conflict => Only.ite ?_ ?_
  · refine Only.try_bind (only_removeCopied s _) fun _ => ?_
    exact Only.try_bind (only_sure (only_step failed_not_terminal)) fun _ => Only.throw _
  · exact Only.try_bind (only_storeTracks s _ _) fun _ => Only.pure _

end

/-! ## The requests -/

section

variable {process : TaskId → ℕ} {i : TaskId} {l : LockId} {w : ImportWorld}

/-- How a part of a request ends that has the guard of an open lock: with `F` if it succeeds. -/
def Guarded {ε α : Type} (i : TaskId) (l : LockId) (F : ImportWorld → Prop) (r : Except ε α)
    (w : ImportWorld) : Prop :=
  HasGuard i l none w ∧ ∀ a, r = .ok a → F w

variable {α : Type} {status : String} {env : StepEnv}

theorem guarded_of_only {x : ImportM α} (hx : Only ImportAct.ordinary x.run)
    (hw : Known process i (Open i l) w) :
    Outlined process i (fun r => Known process i (Guarded i l (Open i l) r)) x.run w :=
  (open_of_only hx hw).mono fun _ _ h => ⟨h.process, h.fact.guard, fun _ _ => h.fact⟩

theorem guarded_bind {α β : Type} {F G : ImportWorld → Prop} {x : ImportM α} {f : α → ImportM β}
    (hx : Outlined process i (fun r => Known process i (Guarded i l F r)) x.run w)
    (hf : ∀ a w', Known process i F w' →
      Outlined process i (fun r => Known process i (Guarded i l G r)) (f a).run w') :
    Outlined process i (fun r => Known process i (Guarded i l G r)) (x >>= f).run w :=
  Outline.try_bind hx (fun a w' h => hf a w' ⟨h.process, h.fact.2 a rfl⟩)
    fun _ _ h => ⟨h.process, h.fact.1, nofun⟩

theorem guarded_row {G : ImportWorld → Prop} {f : ImportSessionDb → ImportM α}
    (hw : Known process i (HasGuard i l none) w)
    (hf : ∀ row w', Known process i (fun w' => HasGuard i l none w' ∧ w'.row = some row) w' →
      Outlined process i (fun r => Known process i (Guarded i l G r)) (f row).run w') :
    Outlined process i (fun r => Known process i (Guarded i l G r)) (checkedRow >>= f).run w :=
  Outline.try_bind (checkedRow_outline hw)
    (fun row w' h => hf row w' ⟨h.process, h.fact.1, h.fact.2 _ rfl⟩)
    fun _ _ h => ⟨h.process, h.fact.1, nofun⟩

theorem guarded_rejectIf {c : Prop} [Decidable c] {error : ApiError}
    {G : ImportWorld → Prop} {f : Unit → ImportM α} (hw : Known process i (HasGuard i l none) w)
    (hf : ¬ c → Outlined process i (fun r => Known process i (Guarded i l G r)) (f ()).run w) :
    Outlined process i (fun r => Known process i (Guarded i l G r)) (rejectIf c error >>= f).run w := by
  by_cases hc : c
  · rw [rejectIf, if_pos hc]
    exact ⟨hw.process, hw.fact, nofun⟩
  · rw [rejectIf, if_neg hc]
    exact hf hc

/-! ### Uploads -/

variable (s : Setting)

theorem uploadUnderGuard_outline (upload : ImportUpload)
    (hw : Known process i (HasGuard i l none) w) :
    Outlined process i (fun r => Known process i (Guarded i l (Open i l) r))
      (uploadUnderGuard s upload).run w := by
  refine guarded_row hw fun row w' hw' => ?_
  refine guarded_rejectIf ⟨hw'.process, hw'.fact.1⟩ fun hstatus => ?_
  have hopen : Open i l w' := open_of_row hw'.fact.1 hw'.fact.2 hstatus
  exact guarded_of_only (only_acceptUpload s) ⟨hw'.process, hopen⟩

theorem import_upload_outline (upload : ImportUpload) :
    Outlined process i (fun _ _ => True) (importUploadHandler s upload) w := by
  refine withSessionLock_outline fun l c w₁ hguard => ?_
  cases c with
  | some j => exact leave_guarded hguard rfl
  | none =>
    refine Outline.bind ((uploadUnderGuard_outline s upload hguard).mono fun r w₂ hw₂ => ?_)
    cases r with
    | error e => exact leave_guarded ⟨hw₂.process, hw₂.fact.1⟩ rfl
    | ok answer =>
      exact leave_outline stable_open ⟨hw₂.process, hw₂.fact.2 answer rfl⟩ fun w' h =>
        ⟨⟨none, h.guard⟩, fun _ => h.not_terminal⟩

/-! ### Commits -/

def Committed (i : TaskId) (l : LockId) (w : ImportWorld) : Prop :=
  HasGuard i l none w ∧ w.status = some "committed"

theorem Committed.closing (h : Committed i l w) : Closing i l none w := by
  refine ⟨h.1, ?_⟩
  rw [ImportWorld.terminal, h.2]
  decide

theorem stable_committed : Stable process i (Committed i l) := fun w w' hcalm hw hw' h =>
  ⟨stable_guard w w' hcalm hw hw' h.1, (hcalm.settled h.closing.terminal).trans h.2⟩

theorem status_of_update {f : ImportSessionDb → ImportSessionDb} (env : StepEnv)
    (hopen : Open i l w) (hf : ∀ row, (f row).status = status) :
    let r := unlessFails env w (w.setRow (unlessTerminal f))
    HasGuard i l none r.2 ∧ ∀ a, r.1 = .ok a → r.2.status = some status := by
  have hterminal : w.terminal = false := Bool.eq_false_iff.mpr hopen.not_terminal
  unfold unlessFails
  split
  · exact ⟨hopen.guard, nofun⟩
  · exact ⟨hopen.guard, fun _ _ => status_setRow_unlessTerminal hterminal hf hopen.row⟩

/-- The outline of marking the session, under its lock. -/
theorem markCommitted_outline (hw : Known process i (Open i l) w) :
    Outlined process i (fun r => Known process i (Guarded i l (Closing i l none) r))
      markCommitted.run w := by
  have hmark : Outlined process i (fun r => Known process i
      (Guarded i l (Committed i l) r)) (step (.setImportSessionStatus .committed none)) w :=
    outline_step stable_open hw fun w' _ h => ⟨fun _ => ⟨l, h.guard⟩, fun env => by
      have hupdate := status_of_update env h (f := fun row =>
        { row with status := ImportState.committed.asStr, errorMessage := none }) fun _ => rfl
      exact ⟨hupdate.1, fun a ha => ⟨hupdate.1, hupdate.2 a ha⟩⟩⟩
  refine guarded_bind (F := Committed i l) (io_outline (hmark.mono fun r w' h => ?_))
    fun _ w₁ hw₁ => ?_
  · cases r with
    | ok _ => exact ⟨h.process, h.fact.1, fun _ _ => h.fact.2 _ rfl⟩
    | error e => exact ⟨h.process, h.fact.1, nofun⟩
  have hclose : Outlined process i (fun _ => Known process i (Committed i l))
      (step .closeImportSession) w₁ :=
    outline_keeping stable_committed hw₁ fun w' _ h => ⟨h.2, fun env => by
      have hstep : RowStep w' (exec i .closeImportSession env w').2 := exec_row_step rfl h.2
      refine ⟨?_, (hstep.settled h.closing.terminal).trans h.2⟩
      rw [HasGuard, hstep.locks, hstep.process]
      exact h.1⟩
  exact io_outline (hclose.mono fun r w' h => ⟨h.process, h.fact.1, fun _ _ => h.fact.closing⟩)

theorem commitUnderGuard_outline (hw : Known process i (HasGuard i l none) w) :
    Outlined process i (fun r => Known process i (Guarded i l (Closing i l none) r))
      (commitUnderGuard s).run w := by
  refine guarded_row hw fun row w₁ hw₁ => ?_
  have hguard : Known process i (HasGuard i l none) w₁ := ⟨hw₁.process, hw₁.fact.1⟩
  refine guarded_rejectIf hguard fun hnot => guarded_rejectIf hguard fun hnot' => ?_
  have hstatus : row.status ∉ terminalStatuses := by
    simp only [terminalStatuses, List.mem_cons, List.not_mem_nil, or_false]
    tauto
  have hopen : Open i l w₁ := open_of_row hw₁.fact.1 hw₁.fact.2 hstatus
  refine guarded_bind (guarded_of_only only_recoveredSession ⟨hw₁.process, hopen⟩)
    fun session w₂ hw₂ => ?_
  refine guarded_bind (guarded_of_only (only_importFiles s session) hw₂) fun mapping w₃ hw₃ => ?_
  exact guarded_bind (markCommitted_outline hw₃) fun _ w₄ hw₄ =>
    ⟨hw₄.process, hw₄.fact.guard, fun _ _ => hw₄.fact⟩

theorem finishCommit_outline {answer : ImportAnswer} (hw : Known process i (Closing i l none) w) :
    Outlined process i (fun _ _ => True) (finishCommit l answer) w := by
  refine Outline.bind ((tear_down_closing (only_step (a := .sessionsRemove) trivial) hw).mono fun _ w₁ hw₁ => ?_)
  refine Outline.bind ((tear_down_closing only_cleanupSessionDir hw₁).mono fun _ w₂ hw₂ => ?_)
  refine Outline.bind ((setGuard_outline hw₂).mono fun _ w₃ hw₃ => ?_)
  exact Outline.bind ((releaseLock_outline hw₃).mono fun _ _ _ => trivial)

theorem import_commit_outline :
    Outlined process i (fun _ _ => True) (importCommitHandler s) w := by
  refine withSessionLock_outline fun l c w₁ hguard => ?_
  cases c with
  | some j => exact leave_guarded hguard rfl
  | none =>
    refine Outline.bind ((commitUnderGuard_outline s hguard).mono fun r w₂ hw₂ => ?_)
    cases r with
    | error e => exact leave_guarded ⟨hw₂.process, hw₂.fact.1⟩ rfl
    | ok answer => exact finishCommit_outline ⟨hw₂.process, hw₂.fact.2 answer rfl⟩

/-! ### Rollbacks -/

theorem rollbackAnswer_rejects {answer : Except ApiError ImportAnswer}
    (h : rollbackAnswer status = some answer) : accepted (some answer) = false := by
  unfold rollbackAnswer at h
  split at h
  · cases h
    rfl
  · split at h
    · cases h
      rfl
    · split at h <;> cases h
      rfl

theorem not_terminal_of_rollbackAnswer (h : rollbackAnswer status = none) :
    status ∉ terminalStatuses := by
  grind [rollbackAnswer, terminalStatuses]

theorem finishRollback_outline (hw : Known process i (Closing i l none) w) :
    Outlined process i (fun _ _ => True) (finishRollback l) w := by
  refine Outline.bind ((setGuard_outline hw).mono fun _ w₁ hw₁ => ?_)
  refine Outline.bind ((tear_down_closed (only_step (a := .sessionsRemove) trivial) hw₁).mono fun _ w₂ hw₂ => ?_)
  refine Outline.bind ((tear_down_closed only_cleanupSessionDir hw₂).mono fun _ w₃ hw₃ => ?_)
  exact Outline.bind ((releaseLock_outline hw₃).mono fun _ _ _ => trivial)

theorem closing_of_update {f : ImportSessionDb → ImportSessionDb}
    (hstatus : status ∈ terminalStatuses) (hopen : Open i l w) (hf : ∀ row, (f row).status = status) :
    let r := unlessFails env w (w.setRow (unlessTerminal f))
    HasGuard i l none r.2 ∧ ∀ a, r.1 = .ok a → Closing i l none r.2 := by
  have hupdate := status_of_update env hopen hf
  refine ⟨hupdate.1, fun a ha => ⟨hupdate.1, ?_⟩⟩
  grind [ImportWorld.terminal]

theorem rollBack_outline (hw : Known process i (Open i l) w) :
    Outlined process i (fun _ _ => True) (rollBack l false) w := by
  have hmark : Outlined process i (fun r => Known process i (Guarded i l (Closing i l none) r))
      (step (.setImportSessionStatus .rolledBack none)) w :=
    outline_step stable_open hw fun w' _ h => ⟨fun _ => ⟨l, h.guard⟩, fun env =>
      closing_of_update (f := fun row =>
        { row with status := ImportState.rolledBack.asStr, errorMessage := none }) (by decide) h
        fun _ => rfl⟩
  refine Outline.bind (hmark.mono fun r w₁ hw₁ => ?_)
  cases r with
  | error e => exact leave_guarded ⟨hw₁.process, hw₁.fact.1⟩ rfl
  | ok a => exact finishRollback_outline ⟨hw₁.process, hw₁.fact.2 a rfl⟩

theorem import_rollback_outline :
    Outlined process i (fun _ _ => True) importRollbackHandler w := by
  refine withSessionLock_outline fun l c w₁ hguard => ?_
  refine Outline.bind ((checkedRow_outline hguard).mono fun r w₂ hw₂ => ?_)
  have hguard₂ : Known process i (HasGuard i l c) w₂ := ⟨hw₂.process, hw₂.fact.1⟩
  cases r with
  | error e => exact leave_guarded hguard₂ rfl
  | ok row =>
    have hrow : w₂.row = some row := hw₂.fact.2 _ rfl
    cases hanswer : rollbackAnswer row.status with
    | some answer =>
      grind [leave_guarded, rollbackAnswer_rejects]
    | none =>
      simp only [hanswer]
      cases c with
      | some j => exact leave_guarded hguard₂ rfl
      | none =>
        have hopen := open_of_row hguard₂.fact hrow (not_terminal_of_rollbackAnswer hanswer)
        exact rollBack_outline ⟨hguard₂.process, hopen⟩

theorem row_of_exec {a : ImportAct} (hpre : StepPre i w a) (h : w.row.isSome) :
    (exec i a env w).2.row.isSome := by
  by_cases haside : a.steers = false
  · rw [(exec_aside haside).row]
    exact h
  by_cases hrow : a.updatesRow = true
  · exact (exec_row_step hrow hpre).row h
  cases a with
  | getSessionLock =>
    rcases getSessionLock_cases i env w with ⟨l, -, heq⟩ | ⟨-, heq⟩ <;> rw [heq] <;> exact h
  | lock | setGuard | dropGuard | removeSessionLock => exact h
  | createImportSession | setImportSessionStatus | updateImportSessionProgress
  | closeImportSession | expireImportSession => exact absurd rfl hrow
  | _ => exact absurd rfl haside

/-! ### Creating a session -/

def ImportAct.preparing (a : ImportAct) : Prop := ∀ i w, w.row.isSome → StepPre i w a

theorem outline_of_preparing {p : Prog ImportAct.Resp α} (hp : Only ImportAct.preparing p)
    (hw : Known process i (fun w => w.row.isSome) w) :
    Outlined process i (fun _ _ => True) p w := by
  induction p generalizing w with
  | ret a => trivial
  | act a k ih =>
    have hstep : Outlined process i (fun _ => Known process i fun w => w.row.isSome) (step a) w :=
      outline_keeping stable_row hw fun w' _ hrow =>
        ⟨hp.1 i w' hrow, fun _ => row_of_exec (hp.1 i w' hrow) hrow⟩
    exact Outline.bind (p := step a) (f := k) (hstep.mono fun r w' hw' => ih r (hp.2 r) hw')

theorem outline_sure {a : ImportAct} {f : a.Resp → ImportM α} (ha : ∀ w, StepPre i w a)
    (hf : ∀ r w', Outlined process i (fun _ _ => True) (f r).run w') :
    Outlined process i (fun _ _ => True) (sure (step a) >>= f).run w := by
  have hstep : Outlined process i (fun _ => Known process i fun _ => True) (step a) w :=
    outline_first w fun w' _ => ⟨ha w', fun _ => trivial⟩
  exact Outline.try_bind (E := fun _ _ => True) (Outline.lift (hstep.mono fun _ _ _ => trivial))
    (fun r w' _ => hf r w') fun _ _ _ => trivial

theorem outline_rejectIf {c : Prop} [Decidable c] {error : ApiError}
    {f : Unit → ImportM α} (hf : Outlined process i (fun _ _ => True) (f ()).run w) :
    Outlined process i (fun _ _ => True) (rejectIf c error >>= f).run w := by
  by_cases hc : c
  · rw [rejectIf, if_pos hc]
    trivial
  · rw [rejectIf, if_neg hc]
    exact hf

/-- The outline of a commit or of a rollback by name. -/
theorem import_session_outline (body : ImportSessionRequest) :
    Outlined process i (fun _ _ => True) (importSessionHandler s body).run w := by
  refine outline_sure (fun _ => trivial) fun now w₁ => outline_rejectIf (outline_rejectIf ?_)
  refine outline_sure (fun _ => trivial) fun (active : ℕ) w₂ => outline_rejectIf ?_
  have hcreate : ∀ row : ImportSessionDb, row.status = "active" →
      Outlined process i (fun r => Known process i fun w' => r = .ok () → w'.row.isSome)
        (step (.createImportSession row)) w₂ := by
    intro row hstatus
    have hactive : row.status ∉ terminalStatuses := by
      rw [hstatus]
      decide
    refine outline_first w₂ fun w' _ => ⟨hactive, fun env hcreated => ?_⟩
    grind [row_of_exec, exec, insertRow, unlessFails]
  refine Outline.try_bind (E := fun r => Known process i fun w' => r = .ok () → w'.row.isSome)
    (io_outline ((hcreate _ rfl).mono fun r w' h => ?_)) (fun _ w₃ hw₃ => ?_) fun _ _ _ => trivial
  · cases r with
    | ok a => exact ⟨h.process, fun _ => h.fact rfl⟩
    | error e => exact ⟨h.process, fun h => by cases h⟩
  refine outline_of_preparing ?_ ⟨hw₃.process, hw₃.fact rfl⟩
  have hcreated : ImportAct.preparing (.setImportSessionStatus .created none) :=
    fun _ _ _ hmem => absurd hmem (by decide)
  refine Only.try_bind (only_io (only_step hcreated)) fun _ => ?_
  have hstaging : ImportAct.preparing (.createDirAll .staging) := fun _ _ hrow => hrow
  refine Only.try_bind (only_io (only_step hstaging)) fun _ => ?_
  refine Only.try_bind (only_saveManifest (fun _ _ _ => trivial) fun _ _ _ => trivial) fun _ => ?_
  exact Only.try_bind (only_sure (only_step fun _ _ _ => trivial)) fun _ => Only.pure _

/-! ### The cleanup -/

theorem finishCleanup_outline (hw : Known process i (Closing i l none) w) :
    Outlined process i (fun _ _ => True) (finishCleanup l) w := by
  refine Outline.bind ((setGuard_outline hw).mono fun _ w₁ hw₁ => ?_)
  refine Outline.bind ((tear_down_closed only_cleanupSessionDir hw₁).mono fun _ w₂ hw₂ => ?_)
  refine Outline.bind ((tear_down_closed (only_step (a := .sessionsRemove) trivial) hw₂).mono
    fun _ w₃ hw₃ => ?_)
  exact releaseLock_outline hw₃

theorem closing_of_expire (hguard : HasGuard i l none w) (hrow : w.row.isSome) :
    let r := exec i .expireImportSession env w
    HasGuard i l none r.2 ∧ ∀ a, r.1 = .ok a → Closing i l none r.2 := by
  cases hterminal : w.terminal with
  | false =>
    exact closing_of_update (f := fun row => { row with status := "expired" }) (by decide)
      ⟨hguard, hrow, Bool.eq_false_iff.mp hterminal⟩ fun _ => rfl
  | true =>
    have hstep : RowStep w (exec i .expireImportSession env w).2 :=
      exec_row_step rfl ⟨l, hguard⟩
    have hguard' : HasGuard i l none (exec i .expireImportSession env w).2 := by
      rw [HasGuard, hstep.locks, hstep.process]
      exact hguard
    exact ⟨hguard', fun _ _ => ⟨hguard', hstep.terminal hterminal⟩⟩

theorem dropGuard_outline {c : Option TaskId} (hw : Known process i (HasGuard i l c) w) :
    Outlined process i (fun _ _ => True) (step (.dropGuard l none)) w := by
  have hdrop : Outlined process i (fun _ => Known process i fun _ => True)
      (step (.dropGuard l none)) w :=
    outline_step stable_guard hw fun w' _ h => ⟨⟨⟨c, h⟩, nofun⟩, fun _ => trivial⟩
  exact hdrop.mono fun _ _ _ => trivial

theorem expireSession_outline (hw : Known process i (fun w => w.row.isSome) w) :
    Outlined process i (fun _ _ => True) expireSession w := by
  have hfirst : Outlined process i (fun l => Known process i fun w' => Listed l w' ∧ w'.row.isSome)
      (step .getSessionLock) w :=
    outline_step stable_row hw fun w' hinv hrow => ⟨trivial, fun env =>
      ⟨listed_of_getSessionLock hinv env, row_of_exec (a := .getSessionLock) trivial hrow⟩⟩
  refine lock_outline stable_row (fun _ _ _ h => h) hfirst fun l c w₁ hw₁ => ?_
  cases c with
  | some j => exact dropGuard_outline ⟨hw₁.process, hw₁.fact.1⟩
  | none =>
    have hexpire : Outlined process i (fun r => Known process i (Guarded i l (Closing i l none) r))
        (step .expireImportSession) w₁ :=
      outline_step (stable_guard.and stable_row) hw₁ fun w' _ h =>
        ⟨⟨l, h.1⟩, fun env => closing_of_expire h.1 h.2⟩
    refine Outline.bind (hexpire.mono fun r w₂ hw₂ => ?_)
    cases r with
    | error e => exact dropGuard_outline ⟨hw₂.process, hw₂.fact.1⟩
    | ok a => exact finishCleanup_outline ⟨hw₂.process, hw₂.fact.2 a rfl⟩

theorem removeOrphan_outline (hw : Known process i (fun w => w.row.isSome) w) :
    Outlined process i (fun _ _ => True) removeOrphan w := by
  have hread : Outlined process i (fun r => Known process i fun _ => r ≠ .ok none)
      (step .getImportSessionFull) w := by
    refine outline_step stable_row hw fun w' _ hrow => ⟨trivial, fun env hnone => ?_⟩
    grind [exec, reads]
  refine Outline.bind (hread.mono fun r w₁ hw₁ => ?_)
  have hfound := hw₁.fact
  rcases r with _ | _ | _
  · trivial
  · exact absurd rfl hfound
  · trivial

/-- The outline of a round of the cleanup. -/
theorem cleanupRound_outline :
    Outlined process i (fun _ _ => True) (cleanupRound s) w := by
  have hnow : Outlined process i (fun _ => Known process i fun _ => True) (step .now) w :=
    outline_first w fun w' _ => ⟨trivial, fun _ => trivial⟩
  refine Outline.bind (hnow.mono fun now w₁ _ => ?_)
  have hlist : ∀ cutoff, Outlined process i
      (fun r => Known process i fun w' => r.toOption = some true → w'.row.isSome)
      (step (.listExpiredImportSessions cutoff)) w₁ := by
    intro cutoff
    refine outline_first w₁ fun w' _ => ⟨trivial, fun env hlisted => ?_⟩
    simp only [exec, reads] at hlisted ⊢
    split at hlisted
    · cases hlisted
    · cases hrow : w'.row with
      | none => simp only [hrow, Option.any_none, Except.toOption] at hlisted; cases hlisted
      | some row => rfl
  refine Outline.bind ((hlist _).mono fun listed w₂ hw₂ => ?_)
  have hrest : ∀ w₃, Outlined process i (fun _ _ => True) (do
      let found : Bool ← step .sessionDirExists
      if found then removeOrphan) w₃ := by
    intro w₃
    have hfound : Outlined process i (fun r => Known process i fun w' => r = true → w'.row.isSome)
        (step .sessionDirExists) w₃ :=
      outline_first w₃ fun w' hinv => ⟨trivial, fun env hfound => by
        simp only [exec, Bool.and_eq_true] at hfound
        exact hinv.staged hfound.2⟩
    refine Outline.bind (hfound.mono fun found w₄ hw₄ => ?_)
    cases found with
    | false => trivial
    | true => exact removeOrphan_outline ⟨hw₄.process, hw₄.fact rfl⟩
  by_cases hlisted : listed.toOption = some true
  · simp only [if_pos hlisted]
    exact Outline.bind ((expireSession_outline ⟨hw₂.process, hw₂.fact hlisted⟩).mono
      fun _ w₃ _ => hrest w₃)
  · simp only [if_neg hlisted]
    exact hrest w₂

/-! ### Every request -/

theorem program_outline (request : ImportRequest) :
    Outlined process i (fun _ _ => True) (request.program s) w := by
  cases request with
  | session body => exact Outline.bind ((import_session_outline s body).mono fun _ _ _ => trivial)
  | upload body => exact Outline.bind ((import_upload_outline s body).mono fun _ _ _ => trivial)
  | commit => exact Outline.bind ((import_commit_outline s).mono fun _ _ _ => trivial)
  | rollback => exact Outline.bind (import_rollback_outline.mono fun _ _ _ => trivial)
  | cleanup => exact Outline.bind ((cleanupRound_outline s).mono fun _ _ _ => trivial)

end

end MichiServer.Import
