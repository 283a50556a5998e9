import MichiServer.Import.Requests

/-!
# A terminal session stays as it is

What a run of the requests on a session keeps, restarts included: once the durable status is terminal
no move changes it, no upload is accepted and no request changes the library; and the staging
directory goes only while the status is terminal.
-/

namespace MichiServer.Import

open MichiServer.Interleave
open MichiServer.Queue (ApiError)

/-! ## What the steps of a request leave alone -/

section

variable {i : TaskId} {a : ImportAct} {env : StepEnv} {w : ImportWorld}

theorem status_of_exec (hpre : StepPre i w a) (hterminal : w.terminal) :
    (exec i a env w).2.status = w.status := by
  by_cases haside : a.steers = false
  · exact congrArg (Option.map ImportSessionDb.status) (exec_aside haside).row
  by_cases hrow : a.updatesRow = true
  · exact (exec_row_step hrow hpre).settled hterminal
  cases a with
  | getSessionLock =>
    rcases getSessionLock_cases i env w with ⟨l, -, heq⟩ | ⟨-, heq⟩
    · rw [heq]
    · rw [heq]
      rfl
  | lock | setGuard | dropGuard | removeSessionLock => rfl
  | createImportSession | setImportSessionStatus | updateImportSessionProgress
  | closeImportSession | expireImportSession => exact absurd rfl hrow
  | _ => exact absurd rfl haside

theorem library_of_exec (hpre : StepPre i w a) (hterminal : w.terminal) :
    (exec i a env w).2.library = w.library := by
  have hkeeps : ∀ w', w'.library = w.library → (unlessFails env w w').2.library = w.library :=
    fun w' h => unlessFails_keeps (P := fun w' => w'.library = w.library) rfl h
  have hdir : ∀ f, (inSessionDir env w f).2.library = w.library :=
    fun f => inSessionDir_keeps (P := fun w' => w'.library = w.library) rfl fun _ _ => rfl
  cases a with
  | getSessionLock =>
    rcases getSessionLock_cases i env w with ⟨l, -, heq⟩ | ⟨-, heq⟩ <;> rw [heq]
  | create | write | copy | removeFile => exact absurd hterminal hpre
  | createImportSession row =>
    grind [exec, insertRow]
  | setImportSessionStatus | updateImportSessionProgress | closeImportSession
  | expireImportSession | removeDirAll | syncAll => exact hkeeps _ rfl
  | createDirAll p => cases p <;> exact hkeeps _ rfl
  | upsertTracks tracks =>
    grind [exec, upsert]
  | writeManifestTmp | renameManifest => exact hdir _
  | _ => rfl

/-- The staging directory goes only when the session has ended. -/
theorem staging_of_exec (hpre : StepPre i w a) (hstaged : w.staging.isSome)
    (hgone : (exec i a env w).2.staging = none) : w.terminal := by
  by_cases hremove : a = .removeDirAll
  · subst hremove
    exact hpre
  have hkept : (exec i a env w).2.staging.isSome := by
    by_cases haside : a.steers = false
    · refine exec_aside_keeps (P := fun w' => w'.staging.isSome) haside hstaged (fun _ => hstaged)
        (fun _ _ => rfl) (fun h => absurd h hremove) (fun _ => hstaged) fun p name content => ?_
      cases p with
      | library => exact hstaged
      | staging => rwa [ImportWorld.put, Option.isSome_map]
    by_cases hrow : a.updatesRow = true
    · rw [(exec_row_step hrow hpre).staging]
      exact hstaged
    cases a with
    | getSessionLock =>
      rcases getSessionLock_cases i env w with ⟨l, -, heq⟩ | ⟨-, heq⟩ <;> (rw [heq]; exact hstaged)
    | lock | setGuard | dropGuard | removeSessionLock => exact hstaged
    | createImportSession | setImportSessionStatus | updateImportSessionProgress
    | closeImportSession | expireImportSession => exact absurd rfl hrow
    | _ => exact absurd rfl haside
  rw [hgone] at hkept
  cases hkept

end

/-! ## What a request is answered with -/

section

/-- The last thing a request does before an answer that accepts an upload is to drop its guard with
this answer. -/
def Announced (answer : Option (Except ApiError ImportAnswer)) (past : List (Done ImportAct.Resp)) :
    Prop :=
  accepted answer → ∃ l, past.head?.map Sigma.fst = some (.dropGuard l answer)

abbrev Freely {α : Type} (Q : α → List (Done ImportAct.Resp) → Prop) (p : Prog ImportAct.Resp α)
    (past : List (Done ImportAct.Resp)) : Prop :=
  Chronicle (fun _ _ => True) Q p past

def Refuses (answer : Except ApiError ImportAnswer) (_ : List (Done ImportAct.Resp)) : Prop :=
  accepted (some answer) = false

variable {past : List (Done ImportAct.Resp)} (s : Setting)

theorem Refuses.announced {answer : Except ApiError ImportAnswer} (h : Refuses answer past) :
    Announced (some answer) past := fun haccepted => by
  rw [h] at haccepted
  cases haccepted

theorem freely_bind {α β : Type} {Q : β → List (Done ImportAct.Resp) → Prop}
    {p : Prog ImportAct.Resp α} {f : α → Prog ImportAct.Resp β}
    (hf : ∀ a past', Freely Q (f a) past') : Freely Q (p >>= f) past :=
  Chronicle.bind ((Chronicle.any p past).mono fun a past' _ => hf a past')

theorem refuses_bind {α : Type} {x : ImportM α} {f : α → ImportM ImportAnswer}
    (hf : ∀ a past', Freely Refuses (f a).run past') : Freely Refuses (x >>= f).run past :=
  Chronicle.try_bind (Chronicle.any x.run past) (fun a past' _ => hf a past') fun _ _ _ => rfl

theorem leave_announced (l : LockId) (answer : Except ApiError ImportAnswer) :
    Freely (fun r => Announced (some r)) (leave l answer) past :=
  Chronicle.bind (p := step (.dropGuard l (some answer))) ⟨trivial, fun _ _ => ⟨l, rfl⟩⟩

theorem upload_announced (upload : ImportUpload) :
    Freely (fun r => Announced (some r)) (importUploadHandler s upload) past := by
  refine freely_bind fun l _ => freely_bind fun closed _ => ?_
  grind [freely_bind, leave_announced]

theorem session_refuses (body : ImportSessionRequest) :
    Freely Refuses (importSessionHandler s body).run past := by
  iterate 10 refine refuses_bind fun _ _ => ?_
  rfl

theorem commit_refuses : Freely Refuses (commitUnderGuard s).run past := by
  iterate 6 refine refuses_bind fun _ _ => ?_
  rfl

theorem commit_announced :
    Freely (fun r => Announced (some r)) (importCommitHandler s) past := by
  refine freely_bind fun l _ => freely_bind fun closed _ => ?_
  cases closed with
  | true => exact leave_announced l _
  | false =>
    refine Chronicle.bind ((commit_refuses s).mono fun r past' hr => ?_)
    cases r with
    | error e => exact leave_announced l _
    | ok answer =>
      iterate 4 refine freely_bind fun _ _ => ?_
      exact Refuses.announced hr

/-- A rollback says what it has done. -/
theorem rollback_announced : Freely (fun r => Announced (some r)) importRollbackHandler past := by
  refine freely_bind fun l _ => freely_bind fun closed _ => freely_bind fun r _ => ?_
  cases r with
  | error e => exact leave_announced l _
  | ok row =>
    cases hanswer : rollbackAnswer row.status with
    | some answer =>
      simp only [hanswer]
      exact leave_announced l _
    | none =>
      simp only [hanswer]
      cases closed with
      | true => exact leave_announced l _
      | false =>
        refine freely_bind fun marked _ => ?_
        cases marked with
        | error e => exact leave_announced l _
        | ok _ =>
          iterate 4 refine freely_bind fun _ _ => ?_
          exact Refuses.announced rfl

theorem program_announced (request : ImportRequest) :
    Freely Announced (request.program s) past := by
  cases request with
  | session body =>
    exact Chronicle.bind ((session_refuses s body).mono fun _ _ h => h.announced)
  | upload body => exact Chronicle.bind ((upload_announced s body).mono fun _ _ h => h)
  | commit => exact Chronicle.bind ((commit_announced s).mono fun _ _ h => h)
  | rollback => exact Chronicle.bind (rollback_announced.mono fun _ _ h => h)
  | cleanup => exact freely_bind fun _ _ => nofun

end

/-! ## The runs -/

/-- What a move leaves of a terminal session: its status, uploads refused, the library as far as the
requests go, and the staging directory until then. -/
structure Settled (s : ImportRun) (m : Move StepEnv ImportTick) : Prop where
  status : s.world.terminal → (s.step semantics m).world.status = s.world.status
  uploads : ∀ i answer, accepted answer → (s.step semantics m).task i = some (.ret answer) →
    s.task i = some (.ret answer) ∨ ¬ s.world.terminal
  library : ∀ i env, m = .act i env → s.world.terminal →
    (s.step semantics m).world.library = s.world.library
  staging : s.world.staging.isSome → (s.step semantics m).world.staging = none → s.world.terminal

/-- Every request keeps to announcing its answer, from whatever it has done. -/
def Announcing (s : ImportRun) : Prop :=
  ∀ i, ∃ past, ∀ p, s.task i = some p → Freely Announced p past

theorem Announcing.step {s : ImportRun} (h : Announcing s) (m : Move StepEnv ImportTick) :
    Announcing (s.step semantics m) := fun i => by
  obtain ⟨past, hpast⟩ := h i
  exact ⟨_, System.chronicle_step hpast m⟩

section

variable {process : TaskId → ℕ} {s : ImportRun} {m : Move StepEnv ImportTick}

theorem step_pre (h : WellOutlined (importDiscipline process) semantics s) {i : TaskId}
    {a : ImportAct} {env : StepEnv} (hnext : s.next i = some a)
    (hallowed : Allowed process s (.act i env)) : StepPre i s.world a :=
  h.pre hnext hallowed.1

/-- A call that is accepted found the session open. -/
theorem not_terminal_of_accepted (h : WellOutlined (importDiscipline process) semantics s)
    (hannouncing : Announcing s) (hallowed : Allowed process s m) {i : TaskId}
    {answer : Option (Except ApiError ImportAnswer)} (haccepted : accepted answer)
    (hdone : (s.step semantics m).task i = some (.ret answer)) :
    s.task i = some (.ret answer) ∨ ¬ s.world.terminal := by
  cases m with
  | drop j => exact .inl (System.task_drop s hdone)
  | tick t => exact .inl hdone
  | act j env =>
    cases hnext : s.next j with
    | none =>
      rw [System.step_act_of_none hnext] at hdone
      exact .inl hdone
    | some a =>
      obtain ⟨p, hp, hpa⟩ := Option.bind_eq_some_iff.mp hnext
      cases p with
      | ret _ => cases hpa
      | act b k =>
        cases hpa
        by_cases hij : j = i
        · subst hij
          obtain ⟨past, hpast⟩ := hannouncing j
          obtain ⟨l, hlast⟩ := System.chronicle_step hpast (.act j env) _ hdone haccepted
          simp only [System.noted, hp, if_true] at hlast
          have hdropped : a = .dropGuard l answer := Option.some.inj hlast
          subst hdropped
          exact .inr ((step_pre h hnext hallowed).2 haccepted)
        · grind [System.step, System.task_set_ne]

theorem settled_of_same (hrow : (s.step semantics m).world.row = s.world.row)
    (hstaging : (s.step semantics m).world.staging = s.world.staging)
    (hlibrary : ∀ i env, m = .act i env → (s.step semantics m).world.library = s.world.library)
    (huploads : ∀ i answer, accepted answer → (s.step semantics m).task i = some (.ret answer) →
      s.task i = some (.ret answer) ∨ ¬ s.world.terminal) : Settled s m where
  status _ := congrArg (Option.map ImportSessionDb.status) hrow
  uploads := huploads
  library i env hm _ := hlibrary i env hm
  staging hstaged hgone := by
    rw [← hstaging, hgone] at hstaged
    cases hstaged

/-- No step changes an ended session, or is accepted for one. -/
theorem settled_step (h : WellOutlined (importDiscipline process) semantics s)
    (hannouncing : Announcing s) (hallowed : Allowed process s m) : Settled s m := by
  have huploads : ∀ i answer, accepted answer → (s.step semantics m).task i = some (.ret answer) →
      s.task i = some (.ret answer) ∨ ¬ s.world.terminal :=
    fun _ _ => not_terminal_of_accepted h hannouncing hallowed
  cases m with
  | drop j => exact settled_of_same rfl rfl (fun _ _ _ => rfl) huploads
  | tick t => cases t <;> exact settled_of_same rfl rfl nofun huploads
  | act j env =>
    cases hnext : s.next j with
    | none =>
      grind [semantics, System.step_act_of_none, settled_of_same]
    | some a =>
      have hworld : (s.step semantics (.act j env)).world = (exec j a env s.world).2 :=
        System.world_step_act hnext env
      have hpre : StepPre j s.world a := step_pre h hnext hallowed
      refine ⟨fun hterminal => ?_, huploads, fun _ _ _ hterminal => ?_, fun hstaged hgone => ?_⟩
      · rw [hworld]
        exact status_of_exec hpre hterminal
      · rw [hworld]
        exact library_of_exec hpre hterminal
      · grind [staging_of_exec]

end

def start (s : Setting) (requests : List ImportRequest) (library : Directory) (tracks : TrackTable) :
    ImportRun where
  tasks := requests.map fun request => some (request.program s)
  world := { library := library, tracks := tracks }

theorem start_inv (library : Directory) (tracks : TrackTable) :
    ImportInv { library := library, tracks := tracks } where
  past := nofun
  listed := nofun
  open_listed := nofun
  closed_terminal := nofun
  staged := nofun

variable {s : Setting} {requests : List ImportRequest} {library : Directory} {tracks : TrackTable}

theorem task_start {i : TaskId} {p : Prog ImportAct.Resp (Option (Except ApiError ImportAnswer))}
    (h : (start s requests library tracks).task i = some p) :
    ∃ request : ImportRequest, p = request.program s := by
  grind [System.task, start]

theorem start_outlined (process : TaskId → ℕ) :
    WellOutlined (importDiscipline process) semantics (start s requests library tracks) := by
  refine ⟨start_inv library tracks, fun i p hp => ?_⟩
  obtain ⟨request, rfl⟩ := task_start hp
  exact program_outline s request

theorem start_announcing : Announcing (start s requests library tracks) := fun i => by
  refine ⟨[], fun p hp => ?_⟩
  obtain ⟨request, rfl⟩ := task_start hp
  exact program_announced s request

/-- **Terminal sessions.** However the requests on a session come in between each other, with restarts,
locks that the table has forgotten and requests that are gone: once the durable status is terminal it
does not change, no upload is accepted and no request changes the library; the staging directory is
deleted only when a terminal status has been stored. -/
theorem terminal_settled (s : Setting) (process : TaskId → ℕ) (requests : List ImportRequest)
    (library : Directory) (tracks : TrackTable) (moves : List (Move StepEnv ImportTick))
    (h : (start s requests library tracks).Obeys semantics (Allowed process) moves) :
    (start s requests library tracks).Obeys semantics Settled moves := by
  have hrun : ∀ run : ImportRun, WellOutlined (importDiscipline process) semantics run →
      Announcing run → run.Obeys semantics (Allowed process) moves →
      run.Obeys semantics Settled moves := by
    clear h
    induction moves with
    | nil => exact fun _ _ _ _ => trivial
    | cons m moves ih =>
      intro run houtlined hannouncing hmoves
      refine ⟨settled_step houtlined hannouncing hmoves.1, ?_⟩
      exact ih _ ((import_sound process).step houtlined hmoves.1) (hannouncing.step m) hmoves.2
  exact hrun _ (start_outlined process) start_announcing h

def plainSetting : Setting where
  computeSha256 _ := "00"
  base64Decode _ := some []
  uuidParseStr _ := none
  uuidToString _ := "0"
  newV5 _ := 0
  isAlphanumeric _ := true
  toRfc3339 _ := ""
  musicPaths := []
  cachePath := []
  sessionId := 0

/-- A session is created; after a restart it is rolled back, while an upload waits for the lock, which
is refused; a commit that comes later makes a new lock. -/
theorem terminal_settled_restart :
    (start plainSetting [.session ⟨1, 0⟩, .rollback, .upload ⟨"a.mp3", none, "", none, none⟩, .commit]
      (fun _ => none) ⟨[], []⟩).Obeys semantics Settled
      (List.replicate 8 (.act 0 {}) ++ [.tick .restart, .act 1 {}, .act 2 {}] ++
        List.replicate 9 (.act 1 {}) ++ List.replicate 2 (.act 2 {}) ++
        List.replicate 4 (.act 3 {})) :=
  terminal_settled plainSetting (fun i => if i = 0 then 0 else 1) _ _ _ _ (by decide)

end MichiServer.Import
