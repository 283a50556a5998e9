import MichiServer.Import.Steps
import MichiServer.Interleave.History

/-!
# The requests on a session, outlined

Every request is outlined under the discipline: whatever the others do, each of its steps has what the
step needs. A request that finds its session open knows as much until it closes the session itself, so
what it does in between only has to be of the kind that leaves the row open (`ImportAct.ordinary`).
-/

namespace MichiServer.Import

open MichiServer.Interleave
open MichiServer.Queue (ApiError)

/-! ## What a request knows -/

section

variable (process : TaskId → ℕ) (i : TaskId)

structure Known (F : ImportWorld → Prop) (w : ImportWorld) : Prop where
  process : w.process = process i
  fact : F w

/-- What the others do does not undo the fact, as long as the process runs. -/
def Stable (F : ImportWorld → Prop) : Prop :=
  ∀ w w', Calm process i w w' → w.process = process i → w'.process = process i → F w → F w'

def Listed (l : LockId) (w : ImportWorld) : Prop :=
  ∃ lk, w.locks[l]? = some lk ∧ lk.process = w.process

/-- The request has the guard of an open lock, and the row is there and is not terminal. -/
structure Open (l : LockId) (w : ImportWorld) : Prop where
  guard : HasGuard i l none w
  row : w.row.isSome
  not_terminal : ¬ w.terminal

structure Closing (l : LockId) (c : Option TaskId) (w : ImportWorld) : Prop where
  guard : HasGuard i l c w
  terminal : w.terminal

variable {process i} {l : LockId} {c : Option TaskId} {w w' : ImportWorld}

theorem stable_listed : Stable process i (Listed l) := by
  rintro w w' hcalm hw hw' ⟨lk, hlk, hp⟩
  obtain ⟨lk', hlk', hsame⟩ := hcalm.kept l lk hlk
  exact ⟨lk', hlk', by rw [hsame, hp, hw, hw']⟩

theorem stable_guard : Stable process i (HasGuard i l c) :=
  fun _ _ hcalm hw hw' h => (hcalm.undisturbed hw hw').guard l c h

theorem stable_row : Stable process i fun w => w.row.isSome :=
  fun _ _ hcalm _ _ h => hcalm.row h

theorem stable_open : Stable process i (Open i l) := fun _ _ hcalm hw hw' h =>
  ⟨(hcalm.undisturbed hw hw').guard l none h.guard, hcalm.row h.row, fun hterminal =>
    h.not_terminal ((hcalm.undisturbed hw hw').alone ⟨l, h.guard⟩ hterminal)⟩

theorem stable_closing : Stable process i (Closing i l c) := fun _ _ hcalm hw hw' h =>
  ⟨(hcalm.undisturbed hw hw').guard l c h.guard, by
    rw [terminal_of_status (hcalm.settled h.terminal)]
    exact h.terminal⟩

theorem stable_closer : Stable process i (Closer i) :=
  fun _ _ hcalm hw hw' h => (hcalm.undisturbed hw hw').closer h

theorem Stable.and {F G : ImportWorld → Prop} (hF : Stable process i F) (hG : Stable process i G) :
    Stable process i fun w => F w ∧ G w :=
  fun w w' hcalm hw hw' h => ⟨hF w w' hcalm hw hw' h.1, hG w w' hcalm hw hw' h.2⟩

/-! ## One step -/

theorem exec_process (a : ImportAct) (env : StepEnv) (w : ImportWorld) :
    (exec i a env w).2.process = w.process := by
  by_cases haside : a.steers = false
  · exact (exec_aside haside).process
  have hunless : ∀ w', w'.process = w.process → (unlessFails env w w').2.process = w.process :=
    fun w' h => unlessFails_keeps (P := fun w' => w'.process = w.process) rfl h
  cases a with
  | getSessionLock =>
    rcases getSessionLock_cases i env w with ⟨l, -, heq⟩ | ⟨-, heq⟩ <;> rw [heq]
  | lock | setGuard | dropGuard | removeSessionLock => rfl
  | createImportSession row =>
    grind [exec, insertRow]
  | setImportSessionStatus | updateImportSessionProgress | closeImportSession
  | expireImportSession => exact hunless _ rfl
  | _ => exact absurd rfl haside

variable {a : ImportAct} {F : ImportWorld → Prop} {α : Type} {p : Prog ImportAct.Resp α}

theorem outline_first {Q : a.Resp → ImportWorld → Prop} (w : ImportWorld)
    (h : ∀ w', ImportInv w' → StepPre i w' a ∧
      ∀ env, Q (exec i a env w').1 (exec i a env w').2) :
    Outline (importDiscipline process) semantics i (fun r => Known process i (Q r)) (step a) w := by
  refine Outline.perform fun w' _ hinv => ⟨fun _ => (h w' hinv).1, fun env hok => ⟨?_, ?_⟩⟩
  · exact (exec_process a env w').trans hok
  · exact (h w' hinv).2 env

theorem outline_step {Q : a.Resp → ImportWorld → Prop}
    (hF : Stable process i F) (hw : Known process i F w)
    (h : ∀ w', ImportInv w' → F w' → StepPre i w' a ∧
      ∀ env, Q (exec i a env w').1 (exec i a env w').2) :
    Outline (importDiscipline process) semantics i (fun r => Known process i (Q r)) (step a) w := by
  refine Outline.perform fun w' hcalm hinv => ⟨fun hp => ?_, fun env hok => ⟨?_, ?_⟩⟩
  · exact (h w' hinv (hF w w' hcalm hw.process hp hw.fact)).1
  · exact (exec_process a env w').trans hok
  · exact (h w' hinv (hF w w' hcalm hw.process hok hw.fact)).2 env

theorem outline_keeping (hF : Stable process i F) (hw : Known process i F w)
    (h : ∀ w', ImportInv w' → F w' → StepPre i w' a ∧ ∀ env, F (exec i a env w').2) :
    Outline (importDiscipline process) semantics i (fun _ => Known process i F) (step a) w :=
  outline_step hF hw h

/-! ## Steps that leave the row open -/

/-- The step makes no row terminal, and needs no more than an open session. -/
def ImportAct.ordinary : ImportAct → Prop
  | .getSessionLock | .lock _ | .setGuard _ | .dropGuard _ _ | .removeSessionLock => False
  | .createImportSession _ | .closeImportSession | .expireImportSession => False
  | .setImportSessionStatus status _ => status.asStr ∉ terminalStatuses
  | .removeDirAll => False
  | _ => True

theorem status_setRow {f : ImportSessionDb → ImportSessionDb}
    (hf : ∀ row, (f row).status = row.status) : (w.setRow f).status = w.status := by
  rw [ImportWorld.status, ImportWorld.setRow, Option.map_map]
  exact congrArg (fun g => Option.map g w.row) (funext hf)

/-- An ordinary act may be taken under an open lock, and leaves it open. -/
theorem open_of_ordinary (ha : a.ordinary) (h : Open i l w) :
    StepPre i w a ∧ ∀ env, Open i l (exec i a env w).2 := by
  have hpre : StepPre i w a := by
    cases a with
    | getSessionLock | lock | setGuard | dropGuard | removeSessionLock
    | createImportSession | closeImportSession | expireImportSession | removeDirAll =>
      exact ha.elim
    | setImportSessionStatus => exact fun hmem => absurd hmem ha
    | createDirAll p =>
      cases p with
      | library => trivial
      | staging => exact h.row
    | create | write | copy | removeFile => exact h.not_terminal
    | _ => trivial
  refine ⟨hpre, fun env => ?_⟩
  by_cases haside : a.steers = false
  · have hsame : Aside w (exec i a env w).2 := exec_aside haside
    have hstatus : (exec i a env w).2.status = w.status :=
      congrArg (Option.map ImportSessionDb.status) hsame.row
    refine ⟨?_, by rw [hsame.row]; exact h.row, by rw [terminal_of_status hstatus]; exact h.not_terminal⟩
    rw [HasGuard, hsame.locks, hsame.process]
    exact h.guard
  · have hrow : a.updatesRow = true := by
      cases a with
      | setImportSessionStatus | updateImportSessionProgress => rfl
      | getSessionLock | lock | setGuard | dropGuard | removeSessionLock
      | createImportSession | closeImportSession | expireImportSession => exact ha.elim
      | _ => exact absurd rfl haside
    have hstep : RowStep w (exec i a env w).2 := exec_row_step hrow hpre
    refine ⟨?_, hstep.row h.row, fun hterminal => ?_⟩
    · rw [HasGuard, hstep.locks, hstep.process]
      exact h.guard
    · refine absurd hterminal ?_
      cases a with
      | setImportSessionStatus status errorMessage =>
        have hstatus : status.asStr ∉ terminalStatuses := ha
        exact unlessFails_keeps (P := fun w' => ¬ w'.terminal) h.not_terminal
          fun hterminal => h.not_terminal (terminal_setRow
            (f := fun row => { row with status := status.asStr, errorMessage := errorMessage })
            (fun _ => hstatus) hterminal)
      | updateImportSessionProgress importedTracks sizeBytes =>
        have hsame := status_setRow (w := w) (f := fun row =>
          { row with importedTracks := importedTracks, totalSizeBytes := sizeBytes })
          fun _ => rfl
        refine unlessFails_keeps (P := fun w' => ¬ w'.terminal) h.not_terminal ?_
        rw [terminal_of_status hsame]
        exact h.not_terminal
      | createImportSession | closeImportSession | expireImportSession => exact ha.elim
      | _ => cases hrow

theorem open_of_only (hp : Only ImportAct.ordinary p) (hw : Known process i (Open i l) w) :
    Outline (importDiscipline process) semantics i (fun _ => Known process i (Open i l)) p w := by
  induction p generalizing w with
  | ret a => exact hw
  | act a k ih =>
    have hstep := outline_keeping stable_open hw fun w' _ h => open_of_ordinary hp.1 h
    exact Outline.bind (p := step a) (f := k) (hstep.mono fun r w' hw' => ih r (hp.2 r) hw')

/-! ## The guard -/

abbrev Outlined {α : Type} (process : TaskId → ℕ) (i : TaskId) (Q : α → ImportWorld → Prop)
    (p : Prog ImportAct.Resp α) (w : ImportWorld) : Prop :=
  Outline (importDiscipline process) semantics i Q p w

theorem listed_of_getSessionLock (hinv : ImportInv w) (env : StepEnv) :
    Listed (exec i .getSessionLock env w).1 (exec i .getSessionLock env w).2 := by
  rcases getSessionLock_cases i env w with ⟨l, hl, heq⟩ | ⟨-, heq⟩
  · rw [heq]
    exact hinv.listed l hl
  · rw [heq]
    refine ⟨{ process := w.process }, ?_, rfl⟩
    simp

theorem guard_of_lock (h : Listed l w) (env : StepEnv) :
    ∃ c, HasGuard i l c (exec i (.lock l) env w).2 ∧ (exec i (.lock l) env w).1 = c.isSome := by
  obtain ⟨lk, hlk, hp⟩ := h
  refine ⟨lk.closedBy, ?_, ?_⟩
  · rw [HasGuard, exec, getElem?_setLock, hlk]
    simp only [Option.map_some, hp]
    rfl
  · rw [exec, hlk]
    rfl

/-- What is done under the session's lock, when the lock has been taken. -/
theorem lock_outline {Q : α → ImportWorld → Prop}
    {body : LockId → Bool → Prog ImportAct.Resp α} (hF : Stable process i F)
    (hkept : ∀ l env w, F w → F (exec i (.lock l) env w).2)
    (hfirst : Outlined process i (fun l => Known process i fun w' => Listed l w' ∧ F w')
      (step .getSessionLock) w)
    (hbody : ∀ l c w', Known process i (fun w' => HasGuard i l c w' ∧ F w') w' →
      Outlined process i Q (body l c.isSome) w') :
    Outlined process i Q (do
      let sessionLock : LockId ← step .getSessionLock
      let closed : Bool ← step (.lock sessionLock)
      body sessionLock closed) w := by
  refine Outline.bind (hfirst.mono fun l w₁ hw₁ => ?_)
  have hsecond : Outlined process i
      (fun closed => Known process i fun w' => ∃ c, (HasGuard i l c w' ∧ F w') ∧ closed = c.isSome)
      (step (.lock l)) w₁ :=
    outline_step (stable_listed.and hF) hw₁ fun w' _ hfact => ⟨trivial, fun env => by
      obtain ⟨c, hguard, hclosed⟩ := guard_of_lock hfact.1 env
      exact ⟨c, ⟨hguard, hkept l env w' hfact.2⟩, hclosed⟩⟩
  refine Outline.bind (hsecond.mono fun closed w₂ hw₂ => ?_)
  obtain ⟨hprocess, c, hfact, rfl⟩ := hw₂
  exact hbody l c w₂ ⟨hprocess, hfact⟩

theorem withSessionLock_outline
    {body : LockId → Bool → Prog ImportAct.Resp (Except ApiError ImportAnswer)}
    (hbody : ∀ l c w', Known process i (HasGuard i l c) w' →
      Outlined process i (fun _ _ => True) (body l c.isSome) w') :
    Outlined process i (fun _ _ => True) (withSessionLock body) w := by
  have hfirst : Outlined process i (fun l => Known process i fun w' => Listed l w' ∧ True)
      (step .getSessionLock) w :=
    outline_first w fun w' hinv => ⟨trivial, fun env =>
      ⟨listed_of_getSessionLock hinv env, trivial⟩⟩
  exact lock_outline (fun _ _ _ _ _ h => h) (fun _ _ _ h => h) hfirst fun l c w' hw' =>
    hbody l c w' ⟨hw'.process, hw'.fact.1⟩

theorem leave_outline {answer : Except ApiError ImportAnswer}
    (hF : Stable process i F) (hw : Known process i F w)
    (hanswer : ∀ w', F w' →
      (∃ c, HasGuard i l c w') ∧ (accepted (some answer) → ¬ w'.terminal)) :
    Outlined process i (fun _ _ => True) (leave l answer) w := by
  have hstep : Outlined process i (fun _ => Known process i fun _ => True)
      (step (.dropGuard l (some answer))) w :=
    outline_step hF hw fun w' _ hfact => ⟨hanswer w' hfact, fun _ => trivial⟩
  exact Outline.bind (hstep.mono fun _ _ _ => trivial)

theorem leave_guarded {answer : Except ApiError ImportAnswer} (hw : Known process i (HasGuard i l c) w)
    (hanswer : accepted (some answer) = false) :
    Outlined process i (fun _ _ => True) (leave l answer) w :=
  leave_outline stable_guard hw fun _ hguard =>
    ⟨⟨c, hguard⟩, fun haccepted => by rw [hanswer] at haccepted; cases haccepted⟩

/-! ## The first look at the row -/

theorem io_outline {onError : String → ApiError} {p : Prog ImportAct.Resp (Except String α)}
    {E : Except ApiError α → ImportWorld → Prop}
    (h : Outlined process i (fun r => E (r.mapError onError)) p w) :
    Outlined process i E (io onError p).run w := by
  refine Outline.bind (h.mono fun r w' hr => ?_)
  cases r <;> exact hr

def RowFound {ε : Type} (i : TaskId) (l : LockId) (c : Option TaskId)
    (r : Except ε (Option ImportSessionDb)) (w : ImportWorld) : Prop :=
  HasGuard i l c w ∧ ∀ row, r = .ok row → w.row = row

theorem checkedRow_outline (hw : Known process i (HasGuard i l c) w) :
    Outlined process i (fun r => Known process i (RowFound i l c (r.map some))) checkedRow.run w := by
  have hread : Outlined process i (fun r => Known process i (RowFound i l c r))
      (step .getImportSessionFull) w := by
    refine outline_step stable_guard hw fun w' _ hguard => ⟨trivial, fun env => ⟨hguard, ?_⟩⟩
    grind [exec, reads]
  have hio : Outlined process i (fun r => Known process i (RowFound i l c r))
      (io (fun e => databaseError ("failed to verify session status from database: " ++ e))
        (step .getImportSessionFull)).run w :=
    io_outline (hread.mono fun r w' hr => by
      cases r with
      | ok row => exact ⟨hr.process, hr.fact.1, fun _ h => by cases h; exact hr.fact.2 _ rfl⟩
      | error e => exact ⟨hr.process, hr.fact.1, fun _ h => by cases h⟩)
  refine Outline.try_bind hio (fun row w' hr => ?_) fun e w' hr => ⟨hr.process, hr.fact.1, fun _ h => by cases h⟩
  cases row with
  | none => exact ⟨hr.process, hr.fact.1, fun _ h => by cases h⟩
  | some row => exact ⟨hr.process, hr.fact.1, fun _ h => by cases h; exact hr.fact.2 _ rfl⟩

theorem open_of_row {row : ImportSessionDb} (hguard : HasGuard i l none w) (hrow : w.row = some row)
    (hstatus : row.status ∉ terminalStatuses) : Open i l w := by
  refine ⟨hguard, by rw [hrow]; rfl, fun hterminal => ?_⟩
  obtain ⟨_, hrow', hmem⟩ := terminal_iff.mp hterminal
  cases hrow.symm.trans hrow'
  exact hstatus hmem

/-! ## Closing -/

def ImportAct.tearsDown : ImportAct → Prop
  | .sessionsRemove | .sessionDirExists | .removeDirAll => True
  | _ => False

def Closed (i : TaskId) (l : LockId) (w : ImportWorld) : Prop :=
  Closing i l (some i) w ∧ Closer i w

theorem Aside.closing (h : Aside w w') (hclosing : Closing i l c w) : Closing i l c w' := by
  refine ⟨?_, ?_⟩
  · rw [HasGuard, h.locks, h.process]
    exact hclosing.guard
  · rw [terminal_of_status (congrArg (Option.map ImportSessionDb.status) h.row)]
    exact hclosing.terminal

theorem Aside.closer (h : Aside w w') (hcloser : Closer i w) : Closer i w' := by
  rwa [Closer, h.lock, h.locks, h.process]

theorem tear_down_outline (hF : Stable process i F) (hterminal : ∀ w', F w' → w'.terminal)
    (haside : ∀ w' w'', Aside w' w'' → F w' → F w'') (hp : Only ImportAct.tearsDown p)
    (hw : Known process i F w) : Outlined process i (fun _ => Known process i F) p w := by
  induction p generalizing w with
  | ret a => exact hw
  | act a k ih =>
    have hstep : Outlined process i (fun _ => Known process i F) (step a) w := by
      refine outline_keeping hF hw fun w' _ hfact => ?_
      have hdown := hp.1
      cases a with
      | sessionsRemove | sessionDirExists =>
        exact ⟨trivial, fun env => haside _ _ (exec_aside rfl) hfact⟩
      | removeDirAll => exact ⟨hterminal w' hfact, fun env => haside _ _ (exec_aside rfl) hfact⟩
      | _ => exact hdown.elim
    exact Outline.bind (p := step a) (f := k) (hstep.mono fun r w' hw' => ih r (hp.2 r) hw')

theorem tear_down_closing (hp : Only ImportAct.tearsDown p)
    (hw : Known process i (Closing i l c) w) :
    Outlined process i (fun _ => Known process i (Closing i l c)) p w :=
  tear_down_outline stable_closing (fun _ h => h.terminal) (fun _ _ h => h.closing) hp hw

theorem tear_down_closed (hp : Only ImportAct.tearsDown p) (hw : Known process i (Closed i l) w) :
    Outlined process i (fun _ => Known process i (Closed i l)) p w :=
  tear_down_outline (stable_closing.and stable_closer) (fun _ h => h.1.terminal)
    (fun _ _ h hclosed => ⟨h.closing hclosed.1, h.closer hclosed.2⟩) hp hw

theorem only_cleanupSessionDir : Only ImportAct.tearsDown cleanupSessionDir := by
  refine Only.bind (Only.perform trivial) fun there => ?_
  split
  · exact Only.bind (Only.perform trivial) fun _ => trivial
  · trivial

theorem setGuard_outline (hw : Known process i (Closing i l none) w) :
    Outlined process i (fun _ => Known process i (Closed i l)) (step (.setGuard l)) w := by
  refine outline_step stable_closing hw fun w' hinv h => ⟨⟨h.terminal, h.guard⟩, fun env => ?_⟩
  have hlock : (exec i (.setGuard l) env w').2.locks[l]? = some ⟨w'.process, some i, some i⟩ := by
    rw [exec, getElem?_setLock, show w'.locks[l]? = _ from h.guard]
    exact congrArg some (if_pos rfl)
  exact ⟨⟨hlock, h.terminal⟩, l, some i, hinv.open_listed l _ h.guard rfl rfl, hlock⟩

theorem releaseLock_outline (hw : Known process i (Closed i l) w) :
    Outlined process i (fun _ _ => True) (releaseLock l) w := by
  have hdrop : Outlined process i (fun _ => Known process i (Closer i)) (step (.dropGuard l none)) w := by
    refine outline_step (stable_closing.and stable_closer) hw fun w' _ h =>
      ⟨⟨⟨_, h.1.guard⟩, nofun⟩, fun env => ?_⟩
    obtain ⟨m, holder, hm, hlk⟩ := h.2
    refine ⟨m, if l = m then none else holder, hm, ?_⟩
    rw [exec, getElem?_setLock, hlk]
    split <;> rfl
  refine Outline.bind (hdrop.mono fun _ w₁ hw₁ => ?_)
  have hremove : Outlined process i (fun _ => Known process i fun _ => True)
      (step .removeSessionLock) w₁ :=
    outline_step stable_closer hw₁ fun w' _ h => ⟨h, fun _ => trivial⟩
  exact hremove.mono fun _ _ _ => trivial

end

end MichiServer.Import
