import MichiServer.Import.Commit
import MichiServer.Import.Requests
import MichiServer.Logic.Trace

/-!
# Commits that end in nothing or all

A session that commits and rollbacks are tried on, one after the other. Each of them fails where it
fails, or the process goes down before one of its steps and is started again. As long as each is spared
what nothing makes good, the session ends up committed, with every file and its track, or with the
library and the table as they were; and no commit is refused for what an earlier one has left.
-/

namespace MichiServer.Import

open MichiServer.Files MichiServer.Interleave
open MichiServer.Queue (ApiError v1Error)

variable {s : Setting} {σ : ImportSessionState} {w₀ : ImportWorld} {w : ImportWorld × Bool}

/-! ## The row and the session -/

theorem checkedRow_solo (hw : Whole s σ w₀ w.1) :
    Solo s σ w₀ (Ended s σ w₀ fun row w' => w' = w ∧ w.1.row = some row) checkedRow.run w := by
  refine io_bind (commit_step (fun _ => hw) fun env _ => ?_)
  cases hr : (exec 0 .getImportSessionFull env w.1).1 with
  | error e => exact ended_error hw (by decide)
  | ok row =>
    cases eq_of_reads hr
    cases hrow : w.1.row with
    | none => exact ended_error hw (by decide)
    | some row => exact ⟨rfl, rfl⟩

theorem working_of_row (hw : Whole s σ w₀ w.1) {row : ImportSessionDb} (hrow : w.1.row = some row)
    (hstatus : row.status ∉ terminalStatuses) : Working σ w₀ [] w := by
  have hopen : ¬ w.1.terminal := fun hterminal => by
    obtain ⟨_, hrow', hmem⟩ := terminal_iff.mp hterminal
    cases hrow.symm.trans hrow'
    exact hstatus hmem
  rcases hw with h | ⟨hcommitted, -⟩
  · obtain ⟨hstaging, hentry⟩ := h.staged hopen
    exact ⟨h.tracks, hstaging, hentry, by rw [hrow]; rfl, hopen, nofun, fun name _ => by rw [h.library],
      fun _ => rfl⟩
  · exact absurd hcommitted (not_committed_of_not_terminal hopen)

theorem eq_of_readManifest {i : TaskId} {env : StepEnv} {w : ImportWorld} {session : ImportSessionState}
    (h : (exec i .readManifest env w).1 = some session)
    (hmanifest : w.staging.bind SessionDir.manifest = some σ) : session = σ := by
  have hread : (if env.fails.isSome then none else w.staging.bind SessionDir.manifest) =
      some session := h
  grind

/-- Alone, the session that is recovered is the one that was stored. -/
theorem recoveredSession_solo (hprepared : Prepared s σ w₀) (hw : Working σ w₀ [] w) :
    Solo s σ w₀ (Ended s σ w₀ fun session w' => session = σ ∧ Working σ w₀ [] w')
      recoveredSession.run w := by
  refine sure_bind (Outline.bind (commit_step (a := .sessionsGet) hw.pre fun env _ => ?_))
  rcases hw.entry with hnone | hsome
  · rw [show (exec 0 .sessionsGet env w.1).1 = none from hnone]
    refine Outline.bind (commit_step (a := .readManifest) hw.pre fun env' _ => ?_)
    cases hmanifest : (exec 0 .readManifest env' w.1).1 with
    | none =>
      rw [show (exec 0 .readManifest env' (exec 0 .sessionsGet env w.1).2).1 = none from hmanifest]
      exact ended_error (F := fun session w' => session = σ ∧ Working σ w₀ [] w') hw.whole (by decide)
    | some session =>
      rw [show (exec 0 .readManifest env' (exec 0 .sessionsGet env w.1).2).1 = some session from hmanifest]
      have hsession : session = σ := by
        refine eq_of_readManifest hmanifest ?_
        rw [hw.staging]
        exact hprepared.manifest
      subst hsession
      refine Outline.bind (commit_step (a := .sessionsInsert session) hw.pre fun env'' _ => ?_)
      exact ⟨rfl, { hw with entry := .inr rfl }⟩
  · rw [show (exec 0 .sessionsGet env w.1).1 = some σ from hsome]
    exact ⟨rfl, hw⟩

/-! ## A request that is done -/

def ImportAct.finishes : ImportAct → Prop
  | .getSessionLock | .lock _ | .setGuard _ | .dropGuard _ _ | .removeSessionLock => True
  | .sessionsRemove | .sessionDirExists | .removeDirAll => True
  | _ => False

def Over (s : Setting) (σ : ImportSessionState) (w₀ w : ImportWorld) : Prop :=
  w.terminal ∧ Whole s σ w₀ w

theorem Over.same {w w' : ImportWorld} (h : Over s σ w₀ w) (hrow : w'.row = w.row)
    (hlibrary : w'.library = w.library) (htracks : w'.tracks = w.tracks) : Over s σ w₀ w' := by
  have hstatus : w'.status = w.status := congrArg (Option.map ImportSessionDb.status) hrow
  have hterminal : w'.terminal := by
    rw [terminal_of_status hstatus]
    exact h.1
  refine ⟨hterminal, h.2.imp (fun hu => ?_) fun hc => ⟨hstatus.trans hc.1, fun file hfile => ?_⟩⟩
  · exact ⟨hlibrary.trans hu.library, htracks.trans hu.tracks, by rw [hstatus]; exact hu.not_committed,
      fun hopen => absurd hterminal hopen⟩
  · rw [HasFile, hlibrary, htracks]
    exact hc.2 file hfile

theorem exec_finishes {a : ImportAct} (ha : a.finishes) {i : TaskId} (env : StepEnv) (w : ImportWorld) :
    (exec i a env w).2.row = w.row ∧ (exec i a env w).2.library = w.library ∧
      (exec i a env w).2.tracks = w.tracks := by
  cases a with
  | getSessionLock =>
    rcases getSessionLock_cases i env w with ⟨l, -, heq⟩ | ⟨-, heq⟩ <;> rw [heq] <;>
      exact ⟨rfl, rfl, rfl⟩
  | lock | setGuard | dropGuard | removeSessionLock | sessionsRemove | sessionDirExists =>
    exact ⟨rfl, rfl, rfl⟩
  | removeDirAll =>
    exact unlessFails_keeps (P := fun w' => w'.row = w.row ∧ w'.library = w.library ∧
      w'.tracks = w.tracks) ⟨rfl, rfl, rfl⟩ ⟨rfl, rfl, rfl⟩
  | _ => exact ha.elim

theorem over_of_only {α : Type} {p : Prog ImportAct.Resp α} (hp : Only ImportAct.finishes p)
    (hw : Over s σ w₀ w.1) : Solo s σ w₀ (fun _ w' => Over s σ w₀ w'.1) p w := by
  induction p generalizing w with
  | ret a => exact hw
  | act a k ih =>
    have hstep : Solo s σ w₀ (fun _ w' => Over s σ w₀ w'.1) (step a) w := by
      refine commit_step (fun _ => hw.2) fun env _ => ?_
      obtain ⟨hrow, hlibrary, htracks⟩ := exec_finishes hp.1 env w.1
      exact hw.same hrow hlibrary htracks
    exact Outline.bind (p := step a) (f := k) (hstep.mono fun r w' hw' => ih r (hp.2 r) hw')

def ImportAct.locks : ImportAct → Prop
  | .getSessionLock | .lock _ | .dropGuard _ _ => True
  | _ => False

/-- To take a lock changes nothing that is stored. -/
theorem lock_step {a : ImportAct} (ha : a.locks) (hw : Whole s σ w₀ w.1) :
    Solo s σ w₀ (fun _ w' => Whole s σ w₀ w'.1 ∧ w'.2 = w.2) (step a) w := by
  have hsame : ∀ w' : ImportWorld, w'.row = w.1.row → w'.library = w.1.library →
      w'.tracks = w.1.tracks → w'.staging = w.1.staging → w'.sessions = w.1.sessions →
      Whole s σ w₀ w' := by
    intro w' hrow hlibrary htracks hstaging hsessions
    have hstatus : w'.status = w.1.status := congrArg (Option.map ImportSessionDb.status) hrow
    refine hw.imp (fun hu => ⟨hlibrary.trans hu.library, htracks.trans hu.tracks, ?_, ?_⟩)
      fun hc => ⟨hstatus.trans hc.1, fun file hfile => ?_⟩
    · rw [hstatus]
      exact hu.not_committed
    · rw [terminal_of_status hstatus, hstaging, hsessions]
      exact hu.staged
    · rw [HasFile, hlibrary, htracks]
      exact hc.2 file hfile
  refine commit_step (fun _ => hw) fun env _ => ?_
  cases a with
  | getSessionLock =>
    rcases getSessionLock_cases 0 env w.1 with ⟨l, -, heq⟩ | ⟨-, heq⟩ <;> rw [heq] <;>
      exact ⟨hsame _ rfl rfl rfl rfl rfl, rfl⟩
  | lock | dropGuard => exact ⟨hsame _ rfl rfl rfl rfl rfl, rfl⟩
  | _ => exact ha.elim

/-! ## The requests -/

/-- How a request is answered: a conflict is one that was there before. -/
def Answered (s : Setting) (σ : ImportSessionState) (w₀ : ImportWorld)
    (answer : Except ApiError ImportAnswer) : Prop :=
  ∀ e, answer = .error e → e.code = "DESTINATION_CONFLICT" → Conflicting s σ w₀

abbrev Finished (s : Setting) (σ : ImportSessionState) (w₀ : ImportWorld)
    (answer : Except ApiError ImportAnswer) (w : ImportWorld × Bool) : Prop :=
  Answered s σ w₀ answer ∧ Whole s σ w₀ w.1

theorem leave_solo {l : LockId} {answer : Except ApiError ImportAnswer}
    (hanswer : Answered s σ w₀ answer) (hw : Whole s σ w₀ w.1) :
    Solo s σ w₀ (Finished s σ w₀) (leave l answer) w :=
  Outline.bind ((lock_step (a := .dropGuard l (some answer)) trivial hw).mono fun _ _ hw' =>
    ⟨hanswer, hw'.1⟩)

theorem leave_error_solo {l : LockId} {status : ℕ} {code message : String}
    (hw : Whole s σ w₀ w.1) (hcode : code ≠ "DESTINATION_CONFLICT") :
    Solo s σ w₀ (Finished s σ w₀) (leave l (.error (v1Error status code message))) w :=
  leave_solo (fun e he hconflict => by cases he; exact absurd hconflict hcode) hw

theorem withSessionLock_solo
    {body : LockId → Bool → Prog ImportAct.Resp (Except ApiError ImportAnswer)}
    (hw : Whole s σ w₀ w.1) (htouched : w.2 = false)
    (hbody : ∀ l closed w', Whole s σ w₀ w'.1 → w'.2 = false →
      Solo s σ w₀ (Finished s σ w₀) (body l closed) w') :
    Solo s σ w₀ (Finished s σ w₀) (withSessionLock body) w := by
  refine Outline.bind ((lock_step (a := .getSessionLock) trivial hw).mono fun l w₁ hw₁ => ?_)
  refine Outline.bind ((lock_step (a := .lock l) trivial hw₁.1).mono fun closed w₂ hw₂ => ?_)
  exact hbody l closed w₂ hw₂.1 (hw₂.2.trans (hw₁.2.trans htouched))

theorem commitUnderGuard_solo (hprepared : Prepared s σ w₀) (hw : Whole s σ w₀ w.1) :
    Solo s σ w₀ (Ended s σ w₀ fun _ w' => w'.1.status = some "committed" ∧ Stored s σ w'.1)
      (commitUnderGuard s).run w := by
  refine ended_bind (checkedRow_solo hw) fun row w₁ hw₁ => ?_
  obtain ⟨rfl, hrow⟩ := hw₁
  refine ended_rejectIf hw (by decide) fun hnot => ended_rejectIf hw (by decide) fun hnot' => ?_
  have hstatus : row.status ∉ terminalStatuses := by
    grind [terminalStatuses]
  have hworking := working_of_row hw hrow hstatus
  refine ended_bind (recoveredSession_solo hprepared hworking) fun session w₂ hw₂ => ?_
  obtain ⟨rfl, hworking₂⟩ := hw₂
  refine ended_bind (importFiles_solo hprepared hworking₂) fun mapping w₃ hw₃ => ?_
  exact ended_bind (markCommitted_solo hw₃) fun _ w₄ hw₄ => hw₄

theorem only_finishes_cleanup : Only ImportAct.finishes cleanupSessionDir := by
  refine Only.bind (Only.perform trivial) fun there => ?_
  split
  · exact Only.bind (Only.perform trivial) fun _ => trivial
  · trivial

theorem only_finishes_release (l : LockId) : Only ImportAct.finishes (releaseLock l) :=
  Only.bind (Only.perform trivial) fun _ => Only.perform trivial

theorem over_bind {α β : Type} {p : Prog ImportAct.Resp β} {f : β → Prog ImportAct.Resp α}
    {Q : α → ImportWorld × Bool → Prop} (hp : Only ImportAct.finishes p) (hw : Over s σ w₀ w.1)
    (hf : ∀ b w', Over s σ w₀ w'.1 → Solo s σ w₀ Q (f b) w') : Solo s σ w₀ Q (p >>= f) w :=
  Outline.bind ((over_of_only hp hw).mono hf)

theorem finishCommit_solo {l : LockId} {answer : ImportAnswer} (hw : Over s σ w₀ w.1) :
    Solo s σ w₀ (Finished s σ w₀) (finishCommit l answer) w := by
  refine over_bind (only_step (a := .sessionsRemove) trivial) hw fun _ w₁ hw₁ => ?_
  refine over_bind only_finishes_cleanup hw₁ fun _ w₂ hw₂ => ?_
  refine over_bind (only_step (a := .setGuard l) trivial) hw₂ fun _ w₃ hw₃ => ?_
  exact over_bind (only_finishes_release l) hw₃ fun _ w₄ hw₄ => ⟨nofun, hw₄.2⟩

theorem finishRollback_solo {l : LockId} (hw : Over s σ w₀ w.1) :
    Solo s σ w₀ (Finished s σ w₀) (finishRollback l) w := by
  refine over_bind (only_step (a := .setGuard l) trivial) hw fun _ w₁ hw₁ => ?_
  refine over_bind (only_step (a := .sessionsRemove) trivial) hw₁ fun _ w₂ hw₂ => ?_
  refine over_bind only_finishes_cleanup hw₂ fun _ w₃ hw₃ => ?_
  exact over_bind (only_finishes_release l) hw₃ fun _ w₄ hw₄ => ⟨nofun, hw₄.2⟩

theorem terminal_of_committed {w : ImportWorld} (h : w.status = some "committed") : w.terminal := by
  rw [ImportWorld.terminal, h]
  decide

theorem import_commit_solo (hprepared : Prepared s σ w₀) (hw : Whole s σ w₀ w.1)
    (htouched : w.2 = false) :
    Solo s σ w₀ (Finished s σ w₀) (importCommitHandler s) w := by
  refine withSessionLock_solo hw htouched fun l closed w₁ hw₁ _ => ?_
  cases closed with
  | true => exact leave_error_solo hw₁ (by decide)
  | false =>
    refine Outline.bind ((commitUnderGuard_solo hprepared hw₁).mono fun r w₂ hw₂ => ?_)
    cases r with
    | error e =>
      refine leave_solo (fun e' he hconflict => ?_) hw₂.1
      cases he
      exact hw₂.2 hconflict
    | ok answer => exact finishCommit_solo ⟨terminal_of_committed hw₂.1, .inr hw₂⟩

theorem answered_rollback {status : String} {answer : Except ApiError ImportAnswer}
    (h : rollbackAnswer status = some answer) : Answered s σ w₀ answer := by
  intro e he hconflict
  subst he
  unfold rollbackAnswer at h
  split at h
  · cases h
    exact absurd hconflict (by decide)
  · split at h
    · cases h
    · split at h <;> cases h
      exact absurd hconflict (by decide)

/-- A rollback takes back what the commit copied. -/
theorem rollBack_solo {l : LockId} (hw : Working σ w₀ [] w) (closed : Bool) :
    Solo s σ w₀ (Finished s σ w₀) (rollBack l closed) w := by
  cases closed with
  | true => exact leave_solo nofun hw.whole
  | false =>
    refine Outline.bind (commit_step (a := .setImportSessionStatus .rolledBack none) hw.pre
      fun env _ => ?_)
    let mark : ImportSessionDb → ImportSessionDb := fun row =>
      { row with status := ImportState.rolledBack.asStr, errorMessage := none }
    cases hfails : env.fails with
    | some e =>
      have heq : exec 0 (.setImportSessionStatus .rolledBack none) env w.1 = (.error e, w.1) := by
        simp only [exec, unlessFails, hfails]
        rfl
      rw [heq]
      exact leave_error_solo hw.whole (by decide)
    | none =>
      have heq : exec 0 (.setImportSessionStatus .rolledBack none) env w.1 =
          (.ok (), w.1.setRow (unlessTerminal mark)) := by
        simp only [exec, unlessFails, hfails]
        rfl
      rw [heq]
      have hstatus : (w.1.setRow (unlessTerminal mark)).status = some "rolled_back" :=
        status_setRow_unlessTerminal (Bool.eq_false_iff.mpr hw.not_terminal) (fun _ => rfl) hw.row
      have hterminal : (w.1.setRow (unlessTerminal mark)).terminal := by
        rw [ImportWorld.terminal, hstatus]
        decide
      refine finishRollback_solo ⟨hterminal, .inl ⟨hw.untouched.library, hw.tracks, ?_, fun hopen =>
        absurd hterminal hopen⟩⟩
      rw [hstatus]
      decide

theorem import_rollback_solo (hw : Whole s σ w₀ w.1) (htouched : w.2 = false) :
    Solo s σ w₀ (Finished s σ w₀) importRollbackHandler w := by
  refine withSessionLock_solo hw htouched fun l closed w₁ hw₁ _ => ?_
  refine Outline.bind ((checkedRow_solo hw₁).mono fun r w₂ hw₂ => ?_)
  cases r with
  | error e =>
    refine leave_solo (fun e' he hconflict => ?_) hw₂.1
    cases he
    exact hw₂.2 hconflict
  | ok row =>
    obtain ⟨rfl, hrow⟩ := hw₂
    cases hanswer : rollbackAnswer row.status with
    | some answer =>
      simp only [hanswer]
      exact leave_solo (answered_rollback hanswer) hw₁
    | none =>
      grind [rollBack_solo, working_of_row, not_terminal_of_rollbackAnswer]

/-! ## Trials -/

inductive Ending where
  | commit
  | rollback

def Ending.program (s : Setting) :
    Ending → Prog ImportAct.Resp (Except ApiError ImportAnswer)
  | commit => importCommitHandler s
  | rollback => importRollbackHandler

/-- A request, what is drawn for its steps, and the number of steps it is given: where it needs more,
the process goes down. -/
structure Trial where
  request : Ending
  envs : ℕ → StepEnv
  steps : ℕ

namespace Trial

variable (s : Setting) (w : ImportWorld) (t : Trial)

def cut : Prog ImportAct.Resp (Except ApiError ImportAnswer) × ImportWorld × Bool :=
  (t.request.program s).cut tracked 0 t.steps t.envs (w, false)

def answer : Option (Except ApiError ImportAnswer) :=
  match t.cut s w with
  | (.ret answer, _) => some answer
  | (.act _ _, _) => none

def after : ImportWorld :=
  match t.cut s w with
  | (.ret _, w') => w'.1
  | (.act _ _, w') => tick .restart w'.1

/-- The trial is spared the failures that nothing makes good, and the process does not go down while it
has stored something that the row does not tell of. -/
def Spared : Prop :=
  (t.request.program s).Spared tracked 0 (fun a env w => careful a env w.2 = true)
    (fun w => w.2 = false) t.steps t.envs (w, false)

instance : Decidable (t.Spared s w) :=
  inferInstanceAs (Decidable (Prog.Spared tracked 0 _ _ _ _ _ _))

end Trial

/-- What a trial leaves: the session committed with all of its files and their tracks, or the library
and the tracks as they were; and no commit is refused for what another one has left. -/
structure AllOrNothing (s : Setting) (σ : ImportSessionState) (w₀ w : ImportWorld) (t : Trial) :
    Prop where
  outcome : (t.after s w).status = some "committed" ∧ Stored s σ (t.after s w) ∨
    (t.after s w).status ≠ some "committed" ∧ (t.after s w).library = w₀.library ∧
      (t.after s w).tracks = w₀.tracks
  answer : ∀ answer, t.answer s w = some answer → Answered s σ w₀ answer

theorem Whole.restart {w : ImportWorld} (h : Whole s σ w₀ w) : Whole s σ w₀ (tick .restart w) :=
  h.imp (fun hu => ⟨hu.library, hu.tracks, hu.not_committed, fun hopen => ⟨(hu.staged hopen).1, .inl rfl⟩⟩)
    fun hc => hc

theorem trial_whole (hprepared : Prepared s σ w₀) {w : ImportWorld} {t : Trial}
    (hw : Whole s σ w₀ w) (hspared : t.Spared s w) :
    Whole s σ w₀ (t.after s w) ∧ ∀ answer, t.answer s w = some answer → Answered s σ w₀ answer := by
  have houtline : Solo s σ w₀ (Finished s σ w₀) (t.request.program s) (w, false) := by
    cases hrequest : t.request with
    | commit => exact import_commit_solo hprepared hw rfl
    | rollback => exact import_rollback_solo hw rfl
  have hcut := houtline.cut trivial (fun _ _ _ _ _ _ => trivial) hspared
  rw [Trial.after, Trial.answer, Trial.cut]
  revert hcut
  generalize (t.request.program s).cut tracked 0 t.steps t.envs (w, false) = left
  intro hcut
  obtain ⟨rest, w'⟩ := left
  cases rest with
  | ret answer => exact ⟨hcut.2, fun _ h => by cases h; exact hcut.1⟩
  | act a k => exact ⟨(hcut.1 hcut.2).restart, nofun⟩

/-- **All or nothing.** A session that is fit to be committed, and any commits and rollbacks on it that
are spared: each of them leaves it committed with every file and a track for it, or with the library
and the tracks as they were. -/
theorem commit_all_or_nothing (s : Setting) (σ : ImportSessionState) (w₀ : ImportWorld)
    (hprepared : Prepared s σ w₀) (trials : List Trial)
    (h : Logic.Trace.Obeys (Trial.after s) (fun w t => t.Spared s w) w₀ trials) :
    Logic.Trace.Obeys (Trial.after s) (AllOrNothing s σ w₀) w₀ trials := by
  have hstart : Whole s σ w₀ w₀ :=
    .inl ⟨rfl, rfl, hprepared.not_committed, fun _ => ⟨rfl, hprepared.entry⟩⟩
  refine Logic.Trace.obeys_of_invariant (I := Whole s σ w₀)
    (fun w t hw hspared => (trial_whole hprepared hw hspared).1) (fun w t hw hspared => ?_) hstart h
  obtain ⟨hwhole, hanswer⟩ := trial_whole hprepared hw hspared
  refine ⟨?_, hanswer⟩
  rcases hwhole with hu | hc
  · exact .inr ⟨hu.not_committed, hu.library, hu.tracks⟩
  · exact .inl hc

/-- A server with one music path, whose checksum tells two bytes from everything else. -/
def smallSetting : Setting where
  computeSha256 data := if data = [1, 2] then "ab" else "00"
  base64Decode _ := none
  uuidParseStr _ := none
  uuidToString _ := "0"
  newV5 _ := 7
  isAlphanumeric _ := true
  toRfc3339 _ := ""
  musicPaths := [Text.asBytes "/m"]
  cachePath := Text.asBytes "/c"
  sessionId := 0

def smallFile : ImportFile where
  localTrackId := none
  filename := "a.mp3"
  safeName := "a.mp3"
  stagingFilename := "ab.mp3"
  checksum := "ab"
  sizeBytes := 2
  remoteTrackId := 7

def smallSession : ImportSessionState where
  sessionId := 0
  totalTracks := 1
  totalPlaylists := 0
  files := [smallFile]

def smallWorld : ImportWorld where
  row := some { totalTracks := 1, totalPlaylists := 0, status := "created", expiresAt := "" }
  staging := some {
    files := Directory.put (fun _ => none) "ab.mp3" (some [1, 2])
    manifest := some smallSession }
  library _ := none
  tracks := ⟨[], []⟩

theorem small_prepared : Prepared smallSetting smallSession smallWorld where
  musicPaths := by decide
  not_committed := by decide
  manifest := rfl
  entry := .inl rfl
  staged file hfile := by
    cases List.mem_singleton.mp hfile
    exact ⟨[1, 2], rfl, rfl⟩
  audio file hfile := by
    cases List.mem_singleton.mp hfile
    decide +kernel
  named file hfile other hother _ := by
    cases List.mem_singleton.mp hfile
    cases List.mem_singleton.mp hother
    rfl

/-- A copy fails at once, the process goes down before the next one, the third commit succeeds; it is
not rolled back. -/
theorem commit_all_or_nothing_small :
    Logic.Trace.Obeys (Trial.after smallSetting) (AllOrNothing smallSetting smallSession smallWorld)
      smallWorld
      [⟨.commit, fun n => if n = 12 then { fails := some "disk full" } else {}, 100⟩,
        ⟨.commit, fun _ => {}, 7⟩, ⟨.commit, fun _ => {}, 100⟩, ⟨.rollback, fun _ => {}, 100⟩] :=
  commit_all_or_nothing smallSetting smallSession smallWorld small_prepared _ (by decide +kernel)

def crashInCopy : Trial where
  request := .commit
  envs n := if n = 12 then { fails := some "the process goes down", written := some 1 } else {}
  steps := 13

/-- What is left of the copy is taken for another file: the next commit is refused for it, and neither
that nor a rollback removes it. -/
theorem partial_copy_stays :
    Prepared smallSetting smallSession smallWorld ∧
      ((Trial.mk .commit (fun _ => {}) 100).answer smallSetting
        (crashInCopy.after smallSetting smallWorld)).any (fun answer =>
          answer matches .error ⟨409, "DESTINATION_CONFLICT", _⟩) ∧
      ¬ AllOrNothing smallSetting smallSession smallWorld
        (crashInCopy.after smallSetting smallWorld) ⟨.commit, fun _ => {}, 100⟩ ∧
      ¬ AllOrNothing smallSetting smallSession smallWorld
        (crashInCopy.after smallSetting smallWorld) ⟨.rollback, fun _ => {}, 100⟩ := by
  refine ⟨small_prepared, by decide +kernel, fun h => ?_, fun h => ?_⟩
  · rcases h.outcome with ⟨hcommitted, -⟩ | ⟨-, hlibrary, -⟩
    · exact absurd hcommitted (by decide +kernel)
    · exact absurd (congrFun hlibrary "a.mp3") (by decide +kernel)
  · rcases h.outcome with ⟨hcommitted, -⟩ | ⟨-, hlibrary, -⟩
    · exact absurd hcommitted (by decide +kernel)
    · exact absurd (congrFun hlibrary "a.mp3") (by decide +kernel)

end MichiServer.Import
