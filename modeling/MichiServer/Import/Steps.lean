import MichiServer.Import.Handlers
import MichiServer.Interleave.Outline

/-!
# What a request on a session may count on

The lock table forgets a lock only after its flag was set, and the flag is set only over a terminal
row. So of the locks of a process at most one is open, and it is the one in the table: whoever has the
guard of an open lock is alone with the session, however many locks were made before and whoever still
waits for them.

`ImportInv` says this of the shared state. `ImportPre` is what a request has established when it does
a step: it makes the row terminal only with the guard of an open lock, it sets a flag only over a
terminal row, and a lock is taken out of the table by the request that has set its flag. `Calm` is what
a request knows of everything else. What a request knows holds in its own process only: none of it
outlives a restart, and neither does the request.
-/

namespace MichiServer.Import

open MichiServer.Interleave

/-! ## Facts about the shared state -/

namespace ImportWorld

def status (w : ImportWorld) : Option String := w.row.map ImportSessionDb.status

def terminal (w : ImportWorld) : Bool := w.status.any fun status => status ∈ terminalStatuses

end ImportWorld

/-- The request has the guard of the lock, a lock of this process, with this flag. -/
def HasGuard (i : TaskId) (l : LockId) (closedBy : Option TaskId) (w : ImportWorld) : Prop :=
  w.locks[l]? = some ⟨w.process, some i, closedBy⟩

def Closer (i : TaskId) (w : ImportWorld) : Prop :=
  ∃ l holder, w.lock = some l ∧ w.locks[l]? = some ⟨w.process, holder, some i⟩

def Alone (i : TaskId) (w : ImportWorld) : Prop := ∃ l, HasGuard i l none w

structure ImportInv (w : ImportWorld) : Prop where
  past : ∀ lk ∈ w.locks, lk.process ≤ w.process
  listed : ∀ l, w.lock = some l → ∃ lk, w.locks[l]? = some lk ∧ lk.process = w.process
  open_listed : ∀ (l : LockId) lk, w.locks[l]? = some lk → lk.process = w.process →
    lk.closedBy = none → w.lock = some l
  closed_terminal : ∀ (l : LockId) lk, w.locks[l]? = some lk → lk.process = w.process →
    lk.closedBy ≠ none → w.terminal
  staged : w.staging.isSome → w.row.isSome

theorem ImportInv.alone_unique {w : ImportWorld} (h : ImportInv w) {i j : TaskId} (hi : Alone i w)
    (hj : Alone j w) : i = j := by
  obtain ⟨l, hl⟩ := hi
  obtain ⟨m, hm⟩ := hj
  have hlisted := h.open_listed l _ hl rfl rfl
  have hlisted' := h.open_listed m _ hm rfl rfl
  cases hlisted.symm.trans hlisted'
  cases hl.symm.trans hm
  rfl

theorem Closer.unique {w : ImportWorld} {i j : TaskId} (hi : Closer i w) (hj : Closer j w) :
    i = j := by
  obtain ⟨l, holder, hl, hlk⟩ := hi
  obtain ⟨m, holder', hm, hlk'⟩ := hj
  cases hl.symm.trans hm
  cases hlk.symm.trans hlk'
  rfl

/-! ## What a request has established -/

def accepted : Option (Except Queue.ApiError ImportAnswer) → Bool
  | some (.ok answer) => answer.acceptsUpload
  | _ => false

/-- What a request, in its own process, has established when it does a step. -/
def StepPre (i : TaskId) (w : ImportWorld) : ImportAct → Prop
  | .setGuard l => w.terminal ∧ HasGuard i l none w
  | .dropGuard l answer => (∃ c, HasGuard i l c w) ∧ (accepted answer → ¬ w.terminal)
  | .removeSessionLock => Closer i w
  | .createImportSession row => row.status ∉ terminalStatuses
  | .setImportSessionStatus status _ => status.asStr ∈ terminalStatuses → Alone i w
  | .closeImportSession => w.status = some "committed"
  | .expireImportSession => Alone i w
  | .createDirAll .staging => w.row.isSome
  | .removeDirAll => w.terminal
  | .create _ | .write _ _ | .copy _ _ _ | .removeFile _ _ => ¬ w.terminal
  | _ => True

section

-- The process that each request is made in.
variable (process : TaskId → ℕ)

def ImportPre (i : TaskId) (a : ImportAct) (w : ImportWorld) : Prop :=
  w.process = process i → StepPre i w a

/-! ## What a request may count on -/

/-- In its own process, what a request has is not taken from it; as long as it is alone with the
session, nobody makes the row terminal. -/
structure Undisturbed (i : TaskId) (w w' : ImportWorld) : Prop where
  guard : ∀ l c, HasGuard i l c w → HasGuard i l c w'
  closer : Closer i w → Closer i w'
  alone : Alone i w → w'.terminal → w.terminal

structure Calm (i : TaskId) (w w' : ImportWorld) : Prop where
  process_le : w.process ≤ w'.process
  row : w.row.isSome → w'.row.isSome
  settled : w.terminal → w'.status = w.status
  kept : ∀ (l : LockId) lk, w.locks[l]? = some lk →
    ∃ lk', w'.locks[l]? = some lk' ∧ lk'.process = lk.process
  undisturbed : w.process = process i → w'.process = process i → Undisturbed i w w'

variable {process}

theorem Undisturbed.refl (i : TaskId) (w : ImportWorld) : Undisturbed i w w :=
  ⟨fun _ _ h => h, fun h => h, fun _ h => h⟩

theorem Undisturbed.trans {i : TaskId} {w w' w'' : ImportWorld} (h : Undisturbed i w w')
    (h' : Undisturbed i w' w'') : Undisturbed i w w'' where
  guard l c hl := h'.guard l c (h.guard l c hl)
  closer hl := h'.closer (h.closer hl)
  alone halone hterminal := by
    obtain ⟨l, hl⟩ := halone
    exact h.alone ⟨l, hl⟩ (h'.alone ⟨l, h.guard l none hl⟩ hterminal)

theorem terminal_of_status {w w' : ImportWorld} (h : w'.status = w.status) :
    w'.terminal = w.terminal := by
  rw [ImportWorld.terminal, ImportWorld.terminal, h]

namespace Calm

variable {i : TaskId} {w w' w'' : ImportWorld}

theorem refl (i : TaskId) (w : ImportWorld) : Calm process i w w :=
  ⟨le_rfl, fun h => h, fun _ => rfl, fun _ lk h => ⟨lk, h, rfl⟩, fun _ _ => .refl i w⟩

theorem trans (h : Calm process i w w') (h' : Calm process i w' w'') : Calm process i w w'' where
  process_le := h.process_le.trans h'.process_le
  row hrow := h'.row (h.row hrow)
  settled hterminal := by
    have hstatus := h.settled hterminal
    have hterminal' : w'.terminal := by rwa [terminal_of_status hstatus]
    exact (h'.settled hterminal').trans hstatus
  kept l lk hlk := by
    obtain ⟨lk', hlk', hsame⟩ := h.kept l lk hlk
    obtain ⟨lk'', hlk'', hsame'⟩ := h'.kept l lk' hlk'
    exact ⟨lk'', hlk'', hsame'.trans hsame⟩
  undisturbed hw hw'' := by
    have hmiddle : w'.process = process i :=
      le_antisymm (h'.process_le.trans_eq hw'') (hw.symm.trans_le h.process_le)
    exact (h.undisturbed hw hmiddle).trans (h'.undisturbed hmiddle hw'')

theorem of_row (hprocess : w'.process = w.process) (hlock : w'.lock = w.lock)
    (hlocks : w'.locks = w.locks) (hrow : w.row.isSome → w'.row.isSome)
    (hsettled : w.terminal → w'.status = w.status)
    (halone : w.process = process i → Alone i w → w'.terminal → w.terminal) :
    Calm process i w w' where
  process_le := hprocess.ge
  row := hrow
  settled := hsettled
  kept l lk hlk := ⟨lk, by rwa [hlocks], rfl⟩
  undisturbed hw _ := by
    refine ⟨fun l c hl => ?_, fun hcloser => ?_, halone hw⟩
    · rwa [HasGuard, hprocess, hlocks]
    · rwa [Closer, hprocess, hlock, hlocks]

theorem of_same (hprocess : w'.process = w.process) (hlock : w'.lock = w.lock)
    (hlocks : w'.locks = w.locks) (hrow : w'.row = w.row) : Calm process i w w' := by
  have hstatus : w'.status = w.status := congrArg (Option.map ImportSessionDb.status) hrow
  exact .of_row hprocess hlock hlocks (fun h => hrow ▸ h) (fun _ => hstatus)
    fun _ _ h => terminal_of_status hstatus ▸ h

end Calm

variable (process) in
def importDiscipline : Discipline ImportAct StepEnv ImportWorld where
  Inv := ImportInv
  Pre := ImportPre process
  Ok i _ _ w := w.process = process i
  Rely i _ := Calm process i
  rely_refl i _ w := .refl i w
  rely_trans _ _ _ _ _ h h' := h.trans h'

end

/-! ## The runs -/

abbrev ImportRun := System ImportAct.Resp (Option (Except Queue.ApiError ImportAnswer)) ImportWorld

/-- The lock is free: nobody has its guard, or a request that is gone. -/
def free (s : ImportRun) (l : LockId) : Bool :=
  (s.world.locks[l]?.bind SessionLock.holder).all fun j => (s.task j).isNone

def canGo (s : ImportRun) : Option ImportAct → Bool
  | some (.lock l) => free s l
  | _ => true

/-- Only the requests of the running process do anything, and a lock is given to who waits for it only
while it is free. -/
def Allowed (process : TaskId → ℕ) (s : ImportRun) : Move StepEnv ImportTick → Prop
  | .act i _ => s.world.process = process i ∧ canGo s (s.next i) = true
  | .drop _ | .tick _ => True

instance (process : TaskId → ℕ) (s : ImportRun) :
    (m : Move StepEnv ImportTick) → Decidable (Allowed process s m)
  | .act _ _ => inferInstanceAs (Decidable (_ ∧ _))
  | .drop _ | .tick _ => inferInstanceAs (Decidable True)

/-!
## What the steps owe

Each step keeps the invariant and leaves every other request what it counts on. Most steps are aside
of the matter: they touch neither the row nor the locks. The others either update the row or change
one lock.
-/

/-! ## Steps aside -/

def ImportAct.steers : ImportAct → Bool
  | .getSessionLock | .lock _ | .setGuard _ | .dropGuard _ _ | .removeSessionLock
  | .createImportSession _ | .setImportSessionStatus _ _ | .updateImportSessionProgress _ _
  | .closeImportSession | .expireImportSession => true
  | _ => false

structure Aside (w w' : ImportWorld) : Prop where
  row : w'.row = w.row
  process : w'.process = w.process
  lock : w'.lock = w.lock
  locks : w'.locks = w.locks

theorem Aside.refl (w : ImportWorld) : Aside w w := ⟨rfl, rfl, rfl, rfl⟩

theorem Aside.calm {process : TaskId → ℕ} {i : TaskId} {w w' : ImportWorld} (h : Aside w w') :
    Calm process i w w' := .of_same h.process h.lock h.locks h.row

section

variable {process : TaskId → ℕ} {i j : TaskId} {env : StepEnv} {w w' : ImportWorld}

theorem unlessFails_cases (env : StepEnv) (w w' : ImportWorld) :
    (unlessFails env w w').2 = w ∨
      (unlessFails env w w').2 = w' ∧ (unlessFails env w w').1 = .ok () := by
  grind [unlessFails]

variable {P : ImportWorld → Prop} {a : ImportAct} {f : ImportSessionDb → ImportSessionDb}
  {l : LockId}

theorem unlessFails_keeps (h : P w) (h' : P w') :
    P (unlessFails env w w').2 := by
  grind [unlessFails_cases]

theorem inSessionDir_keeps {f : SessionDir → SessionDir} (h : P w)
    (h' : ∀ dir, w.staging = some dir → P { w with staging := some (f dir) }) :
    P (inSessionDir env w f).2 := by
  unfold inSessionDir
  split
  next dir hdir => exact unlessFails_keeps h (h' dir hdir)
  next => exact h

theorem writeFile_keeps {p : Place} {name : String} {data : List UInt8}
    (h : P w) (h' : ∀ content, P (w.put p name content)) : P (writeFile env w p name data).2 := by
  grind [writeFile]

/-- An act that steers nothing keeps what does not speak of the sessions in memory. -/
theorem exec_aside_keeps (ha : a.steers = false) (h : P w)
    (hsessions : ∀ entry, P { w with sessions := entry })
    (hstaging : ∀ dir, (w.staging.isSome ∨ a = .createDirAll .staging) →
      P { w with staging := some dir })
    (hremoved : a = .removeDirAll → P { w with staging := none })
    (htracks : ∀ table, P { w with tracks := table })
    (hput : ∀ p name content, P (w.put p name content)) : P (exec i a env w).2 := by
  cases a with
  | getSessionLock | lock | setGuard | dropGuard | removeSessionLock | createImportSession
  | setImportSessionStatus | updateImportSessionProgress | closeImportSession
  | expireImportSession => cases ha
  | now | sessionsLen | sessionsGet | getImportSessionFull | listExpiredImportSessions
  | findTracksByContentHash | sessionDirExists | readManifest | exists_ | read | scan => exact h
  | sessionsInsert entry => exact hsessions (some entry)
  | sessionsRemove => exact hsessions none
  | upsertTracks tracks =>
    simp only [exec, upsert]
    split
    · exact unlessFails_keeps h (htracks _)
    · exact h
  | createDirAll p =>
    cases p with
    | library => exact unlessFails_keeps h h
    | staging => exact unlessFails_keeps h (hstaging _ (.inr rfl))
  | removeDirAll => exact unlessFails_keeps h (hremoved rfl)
  | writeManifestTmp | renameManifest | create =>
    refine inSessionDir_keeps h fun dir hdir => hstaging _ (.inl ?_)
    rw [hdir]
    rfl
  | write name data => exact writeFile_keeps h (hput _ _)
  | syncAll => exact unlessFails_keeps h h
  | copy src p dest =>
    simp only [exec]
    split
    · exact writeFile_keeps h (hput _ _)
    · exact h
  | removeFile p name => exact unlessFails_keeps h (hput p name none)

theorem put_aside (w : ImportWorld) (p : Place) (name : String) (content : Option (List UInt8)) :
    Aside w (w.put p name content) := by
  cases p <;> exact ⟨rfl, rfl, rfl, rfl⟩

theorem exec_aside (ha : a.steers = false) : Aside w (exec i a env w).2 :=
  exec_aside_keeps ha (.refl w) (fun _ => ⟨rfl, rfl, rfl, rfl⟩) (fun _ _ => ⟨rfl, rfl, rfl, rfl⟩)
    (fun _ => ⟨rfl, rfl, rfl, rfl⟩) (fun _ => ⟨rfl, rfl, rfl, rfl⟩) (put_aside w)

theorem staged_of_aside (ha : a.steers = false) (h : (exec i a env w).2.staging.isSome) :
    w.staging.isSome ∨ a = .createDirAll .staging := by
  revert h
  refine exec_aside_keeps (P := fun w' => w'.staging.isSome →
    w.staging.isSome ∨ a = .createDirAll .staging) ha .inl (fun _ => .inl) (fun _ h _ => h)
    (fun _ h => nomatch h) (fun _ => .inl) fun p name content h => .inl ?_
  cases p with
  | library => exact h
  | staging => rwa [ImportWorld.put, Option.isSome_map] at h

/-! ## Steps on the row -/

theorem terminal_iff : w.terminal ↔ ∃ row, w.row = some row ∧ row.status ∈ terminalStatuses := by
  simp only [ImportWorld.terminal, ImportWorld.status, Option.any_map, Option.any_eq_true,
    decide_eq_true_eq]

theorem setRow_unlessTerminal (h : w.terminal) :
    w.setRow (unlessTerminal f) = w := by
  obtain ⟨row, hrow, hmem⟩ := terminal_iff.mp h
  simp only [ImportWorld.setRow, hrow, Option.map_some, unlessTerminal, if_pos hmem]
  rw [← hrow]

theorem status_setRow_unlessTerminal {status : String}
    (h : w.terminal = false) (hf : ∀ row, (f row).status = status) (hrow : w.row.isSome) :
    (w.setRow (unlessTerminal f)).status = some status := by
  obtain ⟨row, hsome⟩ := Option.isSome_iff_exists.mp hrow
  have hmem : row.status ∉ terminalStatuses := fun hmem => by
    rw [terminal_iff.mpr ⟨row, hsome, hmem⟩] at h
    cases h
  grind [ImportWorld.status, ImportWorld.setRow, unlessTerminal]

theorem terminal_setRow
    (hf : ∀ row, (f row).status ∉ terminalStatuses) (h : (w.setRow (unlessTerminal f)).terminal) :
    w.terminal := by
  obtain ⟨row, hrow, hmem⟩ := terminal_iff.mp h
  obtain ⟨old, hold, rfl⟩ := Option.map_eq_some_iff.mp hrow
  refine terminal_iff.mpr ⟨old, hold, ?_⟩
  grind [unlessTerminal]

/-- A row comes to be, or keeps its status or gets one, and nothing else changes. -/
structure RowStep (w w' : ImportWorld) : Prop where
  process : w'.process = w.process
  lock : w'.lock = w.lock
  locks : w'.locks = w.locks
  staging : w'.staging = w.staging
  row : w.row.isSome → w'.row.isSome
  settled : w.terminal → w'.status = w.status

theorem RowStep.refl (w : ImportWorld) : RowStep w w :=
  ⟨rfl, rfl, rfl, rfl, fun h => h, fun _ => rfl⟩

theorem RowStep.setRow
    (h : w.terminal → (w.setRow f).status = w.status) : RowStep w (w.setRow f) :=
  ⟨rfl, rfl, rfl, rfl, fun hrow => by rwa [ImportWorld.setRow, Option.isSome_map], h⟩

theorem RowStep.unlessTerminal :
    RowStep w (w.setRow (unlessTerminal f)) :=
  .setRow fun h => by rw [setRow_unlessTerminal h]

theorem RowStep.calm (h : RowStep w w')
    (halone : w.process = process i → Alone i w → w'.terminal → w.terminal) :
    Calm process i w w' := .of_row h.process h.lock h.locks h.row h.settled halone

theorem RowStep.terminal (h : RowStep w w') (hterminal : w.terminal) : w'.terminal := by
  rwa [terminal_of_status (h.settled hterminal)]

theorem RowStep.inv (h : RowStep w w') (hinv : ImportInv w) : ImportInv w' where
  past := by
    rw [h.locks, h.process]
    exact hinv.past
  listed := by
    rw [h.lock, h.locks, h.process]
    exact hinv.listed
  open_listed := by
    rw [h.lock, h.locks, h.process]
    exact hinv.open_listed
  closed_terminal := by
    rw [h.locks, h.process]
    exact fun l lk hlk hp hclosed => h.terminal (hinv.closed_terminal l lk hlk hp hclosed)
  staged hstaged := h.row (hinv.staged (h.staging ▸ hstaged))

def ImportAct.updatesRow : ImportAct → Bool
  | .createImportSession _ | .setImportSessionStatus _ _ | .updateImportSessionProgress _ _
  | .closeImportSession | .expireImportSession => true
  | _ => false

/-- An act that updates the row takes one of the allowed steps. -/
theorem exec_row_step (ha : a.updatesRow = true) (hpre : StepPre i w a) :
    RowStep w (exec i a env w).2 := by
  cases a with
  | createImportSession row =>
    simp only [exec, insertRow]
    split
    · exact .refl w
    next hnone =>
      refine unlessFails_keeps (.refl w) ⟨rfl, rfl, rfl, rfl, fun _ => rfl, fun hterminal => ?_⟩
      obtain ⟨old, hold, -⟩ := terminal_iff.mp hterminal
      rw [hold] at hnone
      exact absurd rfl hnone
  | setImportSessionStatus status errorMessage =>
    exact unlessFails_keeps (.refl w) .unlessTerminal
  | expireImportSession => exact unlessFails_keeps (.refl w) .unlessTerminal
  | updateImportSessionProgress importedTracks sizeBytes =>
    refine unlessFails_keeps (.refl w) (.setRow fun _ => ?_)
    simp only [ImportWorld.status, ImportWorld.setRow, Option.map_map, Function.comp_def]
  | closeImportSession =>
    refine unlessFails_keeps (.refl w) (.setRow fun _ => ?_)
    have hstatus : w.status = some "committed" := hpre
    obtain ⟨row, hrow, -⟩ := Option.map_eq_some_iff.mp hstatus
    grind [ImportWorld.status, ImportWorld.setRow]
  | _ => cases ha

/-- The act that ends a session is alone with it. -/
theorem terminal_of_exec (ha : a.updatesRow = true) (hpre : StepPre i w a)
    (hterminal : (exec i a env w).2.terminal) : w.terminal ∨ Alone i w := by
  have hunless : ∀ w', (unlessFails env w w').2.terminal → w.terminal ∨ w'.terminal := by
    grind [unlessFails_cases]
  cases a with
  | createImportSession row =>
    simp only [exec, insertRow] at hterminal
    split at hterminal
    · exact .inl hterminal
    · refine (hunless _ hterminal).imp_right fun h => ?_
      obtain ⟨_, hrow, hmem⟩ := terminal_iff.mp h
      cases hrow
      exact absurd hmem hpre
  | setImportSessionStatus status errorMessage =>
    by_cases hstatus : status.asStr ∈ terminalStatuses
    · exact .inr (hpre hstatus)
    · exact .inl ((hunless _ hterminal).elim id (terminal_setRow fun _ => hstatus))
  | expireImportSession => exact .inr hpre
  | updateImportSessionProgress importedTracks sizeBytes =>
    refine .inl ((hunless _ hterminal).elim id fun h => ?_)
    obtain ⟨_, hrow, hmem⟩ := terminal_iff.mp h
    obtain ⟨old, hold, rfl⟩ := Option.map_eq_some_iff.mp hrow
    exact terminal_iff.mpr ⟨old, hold, hmem⟩
  | closeImportSession =>
    refine .inl ?_
    rw [ImportWorld.terminal, show w.status = some "committed" from hpre]
    decide
  | _ => cases ha

/-! ## Steps on the locks -/

theorem getElem?_setLock (w : ImportWorld) (l m : LockId) (f : SessionLock → SessionLock) :
    (w.setLock l f).locks[m]? = w.locks[m]?.map fun lk => if l = m then f lk else lk := by
  rw [ImportWorld.setLock, List.getElem?_modify]
  rfl

theorem getElem?_setLock_ne {l m : LockId} (h : l ≠ m) (f : SessionLock → SessionLock) :
    (w.setLock l f).locks[m]? = w.locks[m]? := by
  rw [getElem?_setLock]
  simp only [if_neg h, Option.map_id']

theorem calm_setLock {f : SessionLock → SessionLock} (hprocess : ∀ lk, (f lk).process = lk.process)
    (hguard : w.process = process i → ∀ c, HasGuard i l c w → HasGuard i l c (w.setLock l f))
    (hcloser : w.process = process i → Closer i w → Closer i (w.setLock l f)) :
    Calm process i w (w.setLock l f) where
  process_le := le_rfl
  row := fun h => h
  settled := fun _ => rfl
  kept m lk hlk := by
    rw [getElem?_setLock, hlk]
    refine ⟨_, rfl, ?_⟩
    split
    · exact hprocess lk
    · rfl
  undisturbed hw _ := by
    refine ⟨fun m c hm => ?_, hcloser hw, fun _ h => h⟩
    by_cases hlm : l = m
    · subst hlm
      exact hguard hw c hm
    · rwa [HasGuard, getElem?_setLock_ne hlm]

/-- A change of a lock that closes it only at the end keeps the invariant. -/
theorem ImportInv.setLock (h : ImportInv w) {f : SessionLock → SessionLock}
    (hprocess : ∀ lk, (f lk).process = lk.process)
    (hopen : ∀ lk, (f lk).closedBy = none → lk.closedBy = none)
    (hclosed : ∀ lk, w.locks[l]? = some lk → lk.process = w.process → (f lk).closedBy ≠ none →
      lk.closedBy ≠ none ∨ w.terminal) :
    ImportInv (w.setLock l f) := by
  -- a lock of the new table comes from one of the old, of the same process
  have hback : ∀ (m : LockId) lk, (w.setLock l f).locks[m]? = some lk →
      ∃ old, w.locks[m]? = some old ∧ lk.process = old.process ∧
        (lk.closedBy = none → old.closedBy = none) ∧
        (lk.closedBy ≠ none → old.process = w.process → old.closedBy ≠ none ∨ w.terminal) := by
    intro m lk hlk
    rw [getElem?_setLock] at hlk
    grind
  refine ⟨fun lk hlk => ?_, fun m hm => ?_, fun m lk hlk hp hopened => ?_,
    fun m lk hlk hp hclosing => ?_, h.staged⟩
  · obtain ⟨m, hm⟩ := List.mem_iff_getElem?.mp hlk
    obtain ⟨old, hold, hsame, -⟩ := hback m lk hm
    rw [hsame]
    exact h.past old (List.mem_of_getElem? hold)
  · obtain ⟨lk, hlk, hp⟩ := h.listed m hm
    rw [getElem?_setLock, hlk]
    refine ⟨_, rfl, ?_⟩
    split
    · exact (hprocess lk).trans hp
    · exact hp
  · obtain ⟨old, hold, hsame, hkeep, -⟩ := hback m lk hlk
    exact h.open_listed m old hold (hsame ▸ hp) (hkeep hopened)
  · obtain ⟨old, hold, hsame, -, hnew⟩ := hback m lk hlk
    rcases hnew hclosing (hsame ▸ hp) with hwas | hterminal
    · exact h.closed_terminal m old hold (hsame ▸ hp) hwas
    · exact hterminal

theorem getSessionLock_cases (i : TaskId) (env : StepEnv) (w : ImportWorld) :
    (∃ l, w.lock = some l ∧ exec i .getSessionLock env w = (l, w)) ∨
      w.lock = none ∧ exec i .getSessionLock env w = (w.locks.length,
        { w with lock := some w.locks.length, locks := w.locks ++ [{ process := w.process }] }) := by
  cases hlock : w.lock with
  | some l =>
    refine .inl ⟨l, rfl, ?_⟩
    simp only [exec, hlock]
    rfl
  | none =>
    refine .inr ⟨rfl, ?_⟩
    simp only [exec, hlock]
    rfl

theorem getElem?_append_new {lk new : SessionLock} (h : w.locks[l]? = some lk) :
    (w.locks ++ [new])[l]? = some lk := by
  rw [List.getElem?_append_left (List.getElem?_eq_some_iff.mp h).1, h]

theorem getElem?_append_cases {lk new : SessionLock} (h : (w.locks ++ [new])[l]? = some lk) :
    w.locks[l]? = some lk ∨ l = w.locks.length ∧ lk = new := by
  grind

theorem calm_getSessionLock : Calm process i w (exec j .getSessionLock env w).2 := by
  rcases getSessionLock_cases j env w with ⟨l, -, heq⟩ | ⟨hnone, heq⟩
  · rw [heq]
    exact .refl i w
  · rw [heq]
    refine ⟨le_rfl, fun h => h, fun _ => rfl, fun l lk hlk => ⟨lk, getElem?_append_new hlk, rfl⟩,
      fun _ _ => ⟨fun l c hl => getElem?_append_new hl, fun hcloser => ?_, fun _ h => h⟩⟩
    obtain ⟨l, _, hl, -⟩ := hcloser
    rw [hnone] at hl
    cases hl

/-- To look a session's lock up keeps the invariant. -/
theorem ImportInv.getSessionLock (h : ImportInv w) :
    ImportInv (exec i .getSessionLock env w).2 := by
  rcases getSessionLock_cases i env w with ⟨l, -, heq⟩ | ⟨hnone, heq⟩
  · rwa [heq]
  · rw [heq]
    refine ⟨fun lk hlk => ?_, fun l hl => ?_, fun l lk hlk hp hopen => ?_, fun l lk hlk hp hc => ?_,
      h.staged⟩
    · rcases List.mem_append.mp hlk with hold | hnew
      · exact h.past lk hold
      · rw [List.mem_singleton.mp hnew]
    · cases hl
      simp
    · rcases getElem?_append_cases hlk with hold | ⟨rfl, -⟩
      · have hlisted := h.open_listed l lk hold hp hopen
        rw [hnone] at hlisted
        cases hlisted
      · rfl
    · rcases getElem?_append_cases hlk with hold | ⟨-, rfl⟩
      · exact h.closed_terminal l lk hold hp hc
      · exact absurd rfl hc

/-! ## What each step keeps -/

theorem ImportInv.aside (h : ImportInv w) (ha : a.steers = false)
    (hpre : StepPre i w a) : ImportInv (exec i a env w).2 := by
  have hsame : Aside w (exec i a env w).2 := exec_aside ha
  refine ⟨?_, ?_, ?_, ?_, fun hstaged => ?_⟩
  · rw [hsame.locks, hsame.process]
    exact h.past
  · rw [hsame.lock, hsame.locks, hsame.process]
    exact h.listed
  · rw [hsame.lock, hsame.locks, hsame.process]
    exact h.open_listed
  · have hstatus : (exec i a env w).2.status = w.status :=
      congrArg (Option.map ImportSessionDb.status) hsame.row
    rw [hsame.locks, hsame.process, terminal_of_status hstatus]
    exact h.closed_terminal
  · rw [hsame.row]
    rcases staged_of_aside ha hstaged with hold | rfl
    · exact h.staged hold
    · exact hpre

theorem ImportInv.remove_lock (h : ImportInv w) (hcloser : Closer i w) :
    ImportInv { w with lock := none } where
  past := h.past
  listed := fun _ hl => nomatch hl
  open_listed l lk hlk hp hopen := by
    obtain ⟨m, holder, hm, hclosed⟩ := hcloser
    cases hm.symm.trans (h.open_listed l lk hlk hp hopen)
    cases hclosed.symm.trans hlk
    cases hopen
  closed_terminal := h.closed_terminal
  staged := h.staged

theorem ImportInv.exec (h : ImportInv w) (hpre : StepPre i w a) :
    ImportInv (exec i a env w).2 := by
  by_cases haside : a.steers = false
  · exact h.aside haside hpre
  by_cases hrow : a.updatesRow = true
  · exact (exec_row_step hrow hpre).inv h
  cases a with
  | getSessionLock => exact h.getSessionLock
  | lock l => exact h.setLock (fun _ => rfl) (fun _ hopen => hopen) fun lk _ _ hc => .inl hc
  | setGuard l =>
    exact h.setLock (fun _ => rfl) (fun _ hopen => nomatch hopen) fun _ _ _ _ => .inr hpre.1
  | dropGuard l answer =>
    exact h.setLock (fun _ => rfl) (fun _ hopen => hopen) fun lk _ _ hc => .inl hc
  | removeSessionLock => exact h.remove_lock hpre
  | createImportSession | setImportSessionStatus | updateImportSessionProgress
  | closeImportSession | expireImportSession => exact absurd rfl hrow
  | _ => exact absurd rfl haside

/-! ## What each step leaves the others -/

theorem HasGuard.unique {c c' : Option TaskId} (h : HasGuard i l c w)
    (h' : HasGuard j l c' w) : i = j ∧ c = c' := by
  cases h.symm.trans h'
  exact ⟨rfl, rfl⟩

theorem calm_set_holder {holder : Option TaskId} (hnot : ∀ c, ¬ HasGuard i l c w) :
    Calm process i w (w.setLock l fun lk => { lk with holder := holder }) := by
  refine calm_setLock (fun _ => rfl) (fun _ c hc => absurd hc (hnot c)) fun _ hcloser => ?_
  obtain ⟨m, held, hm, hlk⟩ := hcloser
  refine ⟨m, if l = m then holder else held, hm, ?_⟩
  rw [getElem?_setLock, hlk]
  by_cases hlm : l = m
  · simp only [if_pos hlm, Option.map_some]
    rfl
  · simp only [if_neg hlm, Option.map_some]
    rfl

theorem calm_setGuard (hij : i ≠ j) (hguard : HasGuard j l none w) :
    Calm process i w (w.setLock l fun lk => { lk with closedBy := some j }) := by
  refine calm_setLock (fun _ => rfl) (fun _ c hc => absurd (hc.unique hguard).1 hij)
    fun _ hcloser => ?_
  obtain ⟨m, held, hm, hlk⟩ := hcloser
  have hlm : l ≠ m := by
    rintro rfl
    cases hguard.symm.trans hlk
  exact ⟨m, held, hm, (getElem?_setLock_ne hlm _).trans hlk⟩

theorem calm_remove_lock (hij : i ≠ j) (hcloser : Closer j w) :
    Calm process i w { w with lock := none } where
  process_le := le_rfl
  row := fun h => h
  settled := fun _ => rfl
  kept _ lk hlk := ⟨lk, hlk, rfl⟩
  undisturbed _ _ := ⟨fun _ _ h => h, fun h => absurd (h.unique hcloser) hij, fun _ h => h⟩

/-- What a process does without the lock leaves the one that holds it in calm. -/
theorem calm_exec (h : ImportInv w) (hij : i ≠ j) (hpre : StepPre j w a)
    (hfree : ∀ l, a = .lock l → ∀ c, ¬ HasGuard i l c w) :
    Calm process i w (exec j a env w).2 := by
  by_cases haside : a.steers = false
  · exact (exec_aside haside).calm
  by_cases hrow : a.updatesRow = true
  · refine (exec_row_step hrow hpre).calm fun _ halone hterminal => ?_
    rcases terminal_of_exec hrow hpre hterminal with hwas | halone'
    · exact hwas
    · exact absurd (h.alone_unique halone halone') hij
  cases a with
  | getSessionLock => exact calm_getSessionLock
  | lock l => exact calm_set_holder (hfree l rfl)
  | setGuard l => exact calm_setGuard hij hpre.2
  | dropGuard l answer =>
    obtain ⟨⟨c, hguard⟩, -⟩ := hpre
    exact calm_set_holder fun c' hc' => hij (hc'.unique hguard).1
  | removeSessionLock => exact calm_remove_lock hij hpre
  | createImportSession | setImportSessionStatus | updateImportSessionProgress
  | closeImportSession | expireImportSession => exact absurd rfl hrow
  | _ => exact absurd rfl haside

end

/-! ## Soundness -/

theorem not_guard_of_free {s : ImportRun} {i : TaskId} {a : ImportAct} {l : LockId}
    (hnext : s.next i = some a) (hfree : free s l = true) (c : Option TaskId) :
    ¬ HasGuard i l c s.world := by
  intro hguard
  obtain ⟨p, hp, -⟩ := Option.bind_eq_some_iff.mp hnext
  rw [free, show s.world.locks[l]? = _ from hguard] at hfree
  simp [hp] at hfree

theorem ImportInv.restart {w : ImportWorld} (h : ImportInv w) : ImportInv (tick .restart w) where
  past lk hlk := (h.past lk hlk).trans (Nat.le_succ _)
  listed _ hl := nomatch hl
  open_listed l lk hlk hp _ := by
    have hpast := h.past lk (List.mem_of_getElem? hlk)
    have hnew : lk.process = w.process + 1 := hp
    omega
  closed_terminal l lk hlk hp _ := by
    have hpast := h.past lk (List.mem_of_getElem? hlk)
    have hnew : lk.process = w.process + 1 := hp
    omega
  staged := h.staged

theorem calm_restart {process : TaskId → ℕ} {i : TaskId} (w : ImportWorld) :
    Calm process i w (tick .restart w) where
  process_le := Nat.le_succ _
  row := fun h => h
  settled := fun _ => rfl
  kept l lk hlk := ⟨lk, hlk, rfl⟩
  undisturbed hw hw' := by
    have hnew : w.process + 1 = process i := hw'
    omega

theorem import_sound (process : TaskId → ℕ) :
    Sound (importDiscipline process) semantics (Allowed process) where
  ok s i a env _ hallowed := hallowed.1
  inv i a env w hinv hpre hok := ImportInv.exec hinv (hpre hok)
  rely s i j a b env hij hi hj hinv _ hpre hallowed := by
    refine calm_exec hinv hij (hpre hallowed.1) fun l hl => ?_
    subst hl
    have hfree : canGo s (s.next j) = true := hallowed.2
    rw [hj] at hfree
    exact not_guard_of_free hi hfree
  tick_inv s t hinv _ := by
    cases t with
    | restart => exact ImportInv.restart hinv
    | elsewhere library tracks =>
      exact ⟨hinv.past, hinv.listed, hinv.open_listed, hinv.closed_terminal, hinv.staged⟩
  tick_rely s t i a _ _ _ _ := by
    cases t with
    | restart => exact calm_restart s.world
    | elsewhere library tracks => exact .of_same rfl rfl rfl rfl

end MichiServer.Import
