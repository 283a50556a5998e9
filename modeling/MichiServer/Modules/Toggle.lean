import MichiServer.Interleave.Cells

/-!
# Modules that are turned on and off

`toggle_module_handler` takes a module from one state to the other under the module's transition lock.
The name enters or leaves `disabled_modules`, the token is cancelled or made anew, the runtime
information is written, and a worker starts under the new token. `sync_handler` takes the token of the
sync module under the same lock, and serves its connection under that token when it has let the lock go.

A request that is dropped lets the lock go where it stands. As long as none is dropped between two of
its writes, a module that is off runs nothing, and one that is on runs one worker at most.
-/

namespace MichiServer.Modules

open MichiServer.Interleave

/-- The names of `builtin_modules`. -/
def builtinModules : List String :=
  ["scan", "sync", "stream", "playback", "backup", "webhook", "homeassistant"]

structure ModuleRuntimeInfo where
  generation : ℕ
  actualState : String
  health : String
  lastError : Option String
deriving DecidableEq

inductive EngineCommand where
  | stop
  | setQueueEmpty
deriving DecidableEq

/-- What the server holds of one module: whether its transition lock is held, whether it is in
`disabled_modules`, its entry of `module_tokens` and of `module_runtime_info`, how many tokens were made
for it (which number them) and which of these are cancelled, the tokens that its workers and connections
run under; of playback, the commands to its engine and the output that is selected. -/
structure ModuleState where
  locked : Bool
  disabled : Bool
  token : Option ℕ
  runtime : Option ModuleRuntimeInfo
  made : ℕ
  cancelled : List ℕ
  workers : List ℕ
  sessions : List ℕ
  commands : List EngineCommand
  playbackOutputSelection : Option String
deriving DecidableEq

/-- Where a request to toggle a module stands: what it does next. -/
inductive Phase where
  | refuse
  | lock
  | look
  | remove
  | renew
  | trackOn (newToken : ℕ)
  | insert
  | cancel
  | trackOff
  | stop
  | clear (stopErr : Option String)
  | deselect (stopErr : Option String)
  | degrade (err : String)
  | answer
deriving DecidableEq

/-- Where a connection of `sync_handler` stands. -/
inductive Connecting where
  | lock
  | look
  | take
  | upgrade (syncCancel : ℕ)
deriving DecidableEq

inductive Task where
  | toggle (name : String) (enabled : Bool) (phase : Phase)
  | connect (at_ : Connecting)
deriving DecidableEq

inductive Call where
  | toggle (name : String) (enabled : Bool)
  | connect
deriving DecidableEq

/-- A task goes on, the engine answers its command so, and its connection is admitted; or it is dropped. -/
inductive Met where
  | goes (engine : Except String Unit) (admitted : Bool)
  | dropped

def Task.name : Task → String
  | toggle name _ _ => name
  | connect _ => "sync"

def Task.holds : Task → Bool
  | toggle _ _ .refuse | toggle _ _ .lock | connect .lock | connect (.upgrade _) => false
  | _ => true

section

variable (mqttHost : Bool)

def trackOn (name : String) (runtime : Option ModuleRuntimeInfo) : ModuleRuntimeInfo :=
  let entry := runtime.getD ⟨0, "active", "healthy", none⟩
  if name = "homeassistant" ∧ mqttHost = false then
    ⟨entry.generation + 1, "idle", "disabled", some "MICHI_MQTT_HOST not set"⟩
  else ⟨entry.generation + 1, "active", "healthy", none⟩

def trackOff (runtime : Option ModuleRuntimeInfo) : ModuleRuntimeInfo :=
  let entry := runtime.getD ⟨1, "disabled", "disabled", none⟩
  { entry with actualState := "disabled", health := "disabled", lastError := none }

/-- The rest of the answer, which begins with the name and what was asked for. -/
def reply (enabled : Bool) (runtime : Option ModuleRuntimeInfo) : ModuleRuntimeInfo :=
  runtime.getD (if enabled then ⟨1, "active", "healthy", none⟩ else ⟨1, "disabled", "disabled", none⟩)

/-- The modules that have a worker, which is started with them. -/
def hasWorker (name : String) : Bool := name = "sync" || (name = "homeassistant" && mqttHost)

/-- A step of `toggle_module_handler`: where it goes on, unless it ends. -/
def toggleStep (name : String) (enabled : Bool) (engine : Except String Unit) (m : ModuleState) :
    Phase → Option Phase × ModuleState
  | .refuse => (none, m)
  | .lock => if m.locked then (some .lock, m) else (some .look, { m with locked := true })
  | .look =>
    (some (if m.disabled = !enabled then .answer else if enabled then .remove else .insert), m)
  | .remove => (some .renew, { m with disabled := false })
  | .renew => (some (.trackOn m.made), { m with token := some m.made, made := m.made + 1 })
  | .trackOn newToken =>
    (some .answer,
      { m with
        runtime := some (trackOn mqttHost name m.runtime)
        workers := if hasWorker mqttHost name then newToken :: m.workers else m.workers })
  | .insert => (some .cancel, { m with disabled := true })
  | .cancel => (some .trackOff, { m with cancelled := m.token.toList ++ m.cancelled })
  | .trackOff =>
    (some (if name = "playback" then .stop else .answer), { m with runtime := some (trackOff m.runtime) })
  | .stop =>
    (some (.clear (match engine with | .ok () => none | .error e => some e)),
      { m with commands := m.commands ++ [.stop] })
  | .clear stopErr =>
    (some (.deselect (match engine with | .ok () => stopErr | .error e => some (stopErr.getD e))),
      { m with commands := m.commands ++ [.setQueueEmpty] })
  | .deselect stopErr =>
    (some (match stopErr with | none => .answer | some err => .degrade err),
      { m with playbackOutputSelection := none })
  | .degrade err =>
    (some .answer,
      { m with
        runtime := m.runtime.map fun entry =>
          { entry with actualState := "degraded", health := "degraded", lastError := some err } })
  | .answer => (none, { m with locked := false })

/-- A step of `sync_handler`. -/
def connectStep (admitted : Bool) (m : ModuleState) : Connecting → Option Connecting × ModuleState
  | .lock => if m.locked then (some .lock, m) else (some .look, { m with locked := true })
  | .look => if m.disabled then (none, { m with locked := false }) else (some .take, m)
  | .take => (m.token.map .upgrade, { m with locked := false })
  | .upgrade syncCancel =>
    (none, if admitted then { m with sessions := syncCancel :: m.sessions } else m)

namespace Task

def step (t : Task) (met : Met) (m : ModuleState) : List Task × ModuleState :=
  match met with
  | .dropped => ([], if t.holds then { m with locked := false } else m)
  | .goes engine admitted =>
    match t with
    | toggle name enabled phase =>
      let (next, m') := toggleStep mqttHost name enabled engine m phase
      (next.toList.map (toggle name enabled), m')
    | connect at_ =>
      let (next, m') := connectStep admitted m at_
      (next.toList.map connect, m')

end Task

/-- What ends of itself, or because it is cancelled: a worker of a module, or a connection. -/
inductive Ends where
  | worker (name : String) (i : ℕ)
  | session (i : ℕ)

def modules : CellMachine Call Task Met Ends String ModuleState where
  enter
    | .toggle name enabled => .toggle name enabled (if name ∈ builtinModules then .lock else .refuse)
    | .connect => .connect .lock
  key := Task.name
  step := Task.step mqttHost
  tick
    | .worker name i => (name, fun m => { m with workers := m.workers.eraseIdx i })
    | .session i => ("sync", fun m => { m with sessions := m.sessions.eraseIdx i })

/-- The modules when the server has started, as `AppState::new` and `main` leave them: streaming has no
token. -/
def started (name : String) : ModuleState where
  locked := false
  disabled := false
  token := if name ∈ builtinModules ∧ name ≠ "stream" then some 0 else none
  runtime :=
    if name ∈ builtinModules then
      some (if name = "homeassistant" ∧ mqttHost = false then
        ⟨1, "idle", "disabled", some "MICHI_MQTT_HOST not set"⟩ else ⟨1, "active", "healthy", none⟩)
    else none
  made := 1
  cancelled := []
  workers := if hasWorker mqttHost name then [0] else []
  sessions := []
  commands := []
  playbackOutputSelection := none

end

/-- The states that a module shows when it is off. -/
def offStates : List String := ["disabled", "degraded"]

def ModuleState.live (m : ModuleState) (k : ℕ) : Bool := k ∉ m.cancelled

/-- A module that no request has the lock of runs nothing when it is off, and has a token that is not
cancelled, if any, when it is on. Of its workers one at most is not cancelled, whoever has the lock. -/
structure Orderly (m : ModuleState) : Prop where
  one_worker : (m.workers.filter m.live).length ≤ 1
  off : m.locked = false → m.disabled = true → ∀ k ∈ m.workers ++ m.sessions, m.live k = false
  on : m.locked = false → m.disabled = false → ∀ k ∈ m.token, m.live k = true

abbrev ModulesPool := Pool Task (String → ModuleState)

abbrev ModulesMove := PoolMove Call Met Ends

/-- An answer is given of a module that is as it was asked for, and shows it. -/
def Answers (p : ModulesPool) : ModulesMove → Prop
  | .act i (.goes _ _) => ∀ name enabled, p.tasks[i]? = some (.toggle name enabled .answer) →
    (p.world name).disabled = !enabled ∧
      ((reply enabled (p.world name).runtime).actualState ∈ offStates ↔ enabled = false)
  | _ => True

/-- The request stands between two of its writes. -/
def Task.halfway : Task → Bool
  | toggle _ _ .renew | toggle _ _ (.trackOn _) | toggle _ _ .cancel | toggle _ _ .trackOff => true
  | _ => false

/-- A task is not dropped between two of its writes. -/
def Whole (t : Task) : Met → Prop
  | .goes _ _ => True
  | .dropped => t.halfway = false

/-! ## What is known of a module -/

/-- The token and the runtime information agree with `disabled_modules`. -/
structure Steady (m : ModuleState) : Prop where
  token : ∀ k ∈ m.token, (k ∈ m.cancelled ↔ m.disabled = true)
  shows : ∀ info ∈ m.runtime, (info.actualState ∈ offStates ↔ m.disabled = true)

structure Base (m : ModuleState) : Prop where
  made : ∀ k ∈ m.token.toList ++ m.cancelled ++ m.workers ++ m.sessions, k < m.made
  nodup : m.workers.Nodup
  current : ∀ k ∈ m.workers ++ m.sessions, k ∉ m.cancelled → m.token = some k
  steady : m.locked = false → Steady m

/-- What the holder of the lock knows of the module. -/
def Phase.Fits (enabled : Bool) (m : ModuleState) : Phase → Prop
  | refuse | lock => True
  | look => Steady m
  | remove => enabled = true ∧ Steady m ∧ m.disabled = true
  | renew => enabled = true ∧ m.disabled = false ∧ ∀ k ∈ m.token, k ∈ m.cancelled
  | trackOn k =>
    enabled = true ∧ m.disabled = false ∧ m.token = some k ∧ k ∉ m.cancelled ∧ k ∉ m.workers
  | insert => enabled = false ∧ Steady m ∧ m.disabled = false
  | cancel => enabled = false ∧ m.disabled = true
  | trackOff => enabled = false ∧ m.disabled = true ∧ ∀ k ∈ m.token, k ∈ m.cancelled
  | stop | clear _ | deselect _ | degrade _ => enabled = false ∧ Steady m ∧ m.disabled = true
  | answer => Steady m ∧ m.disabled = !enabled

def Task.Fits (m : ModuleState) : Task → Prop
  | toggle _ enabled phase => phase.Fits enabled m
  | connect .lock => True
  | connect .look => Steady m
  | connect .take => Steady m ∧ m.disabled = false
  | connect (.upgrade k) => k < m.made ∧ (k ∉ m.cancelled → m.token = some k)

structure Good (t : Task) (m : ModuleState) : Prop where
  locked : t.holds = true → m.locked = true
  fits : t.Fits m

def invariant : CellInvariant Task ModuleState where
  Inv := Base
  Good := Good
  Apart t u := t.holds = true → u.holds = false
  apart_symm t u h hu := by
    by_contra ht
    simp [h (by simpa using ht)] at hu

variable {mqttHost : Bool} {m : ModuleState}

theorem Steady.unlock (h : Steady m) (locked : Bool) : Steady { m with locked := locked } :=
  ⟨h.token, h.shows⟩

theorem Base.unlock (h : Base m) (hsteady : Steady m) : Base { m with locked := false } :=
  ⟨h.made, h.nodup, h.current, fun _ => hsteady.unlock false⟩

theorem Base.lock (h : Base m) : Base { m with locked := true } :=
  ⟨h.made, h.nodup, h.current, nofun⟩

theorem trackOn_shows (name : String) (runtime : Option ModuleRuntimeInfo) :
    (trackOn mqttHost name runtime).actualState ∉ offStates := by
  rw [trackOn]
  split <;> simp [offStates]

/-- Between two calls a module is on, off, or on its way. -/
theorem orderly_of_base (h : Base m) : Orderly m where
  one_worker := by
    have hsame : ∀ k ∈ m.workers.filter m.live, ∀ k' ∈ m.workers.filter m.live, k = k' := by
      intro k hk k' hk'
      have hcurrent := h.current k
      have hcurrent' := h.current k'
      grind [ModuleState.live]
    have hnodup : (m.workers.filter m.live).Nodup := h.nodup.filter m.live
    match hlive : m.workers.filter m.live with
    | [] | [_] => simp
    | k :: k' :: _ =>
      rw [hlive] at hnodup hsame
      obtain rfl := hsame k (by simp) k' (by simp)
      exact absurd List.mem_cons_self (List.nodup_cons.mp hnodup).1
  off hfree hoff k hk := by
    have hcurrent := h.current k hk
    have htoken := (h.steady hfree).token k
    grind [ModuleState.live]
  on hfree hon k hk := by
    have htoken := (h.steady hfree).token k hk
    grind [ModuleState.live]

theorem base_started (name : String) : Base (started mqttHost name) where
  made k hk := by
    simp only [started] at hk ⊢
    grind
  nodup := by
    simp only [started]
    split <;> simp
  current k hk _ := by
    simp only [started, hasWorker] at hk ⊢
    grind [builtinModules]
  steady _ := by
    refine ⟨fun k hk => by simp [started], fun info hinfo => ?_⟩
    simp only [started, Option.mem_def] at hinfo ⊢
    split at hinfo
    · obtain rfl := Option.some.inj hinfo
      split <;> simp [offStates]
    · cases hinfo

theorem step_key (t : Task) (met : Met) (m : ModuleState) :
    ∀ t' ∈ (t.step mqttHost met m).1, t'.name = t.name := by
  cases met with
  | dropped => exact nofun
  | goes engine admitted =>
    cases t with simp +contextual [Task.step, Task.name]

/-- A task without the lock leaves the module to the one that has it: it adds at most its connection. -/
theorem step_of_locked (met : Met) {t : Task} (ht : t.holds = false) (hlocked : m.locked = true) :
    (t.step mqttHost met m).2 = { m with sessions := (t.step mqttHost met m).2.sessions } ∧
      ∀ t' ∈ (t.step mqttHost met m).1, t'.holds = false := by
  cases met with
  | dropped => simp [Task.step, ht]
  | goes engine admitted =>
    rcases t with ⟨name, enabled, phase⟩ | at_
    · cases phase with
      | refuse => exact ⟨rfl, nofun⟩
      | lock =>
        simp only [Task.step, toggleStep, if_pos hlocked]
        exact ⟨trivial, by simp [Task.holds]⟩
      | _ => cases ht
    · cases at_ with
      | lock =>
        simp only [Task.step, connectStep, if_pos hlocked]
        exact ⟨trivial, by simp [Task.holds]⟩
      | upgrade k => cases admitted <;> exact ⟨rfl, nofun⟩
      | look | take => cases ht

theorem Task.Fits.sessions {t : Task} (h : t.Fits m) (sessions : List ℕ) :
    t.Fits { m with sessions := sessions } := by
  have hsteady (h : Steady m) : Steady { m with sessions := sessions } := ⟨h.token, h.shows⟩
  rcases t with ⟨name, enabled, phase⟩ | at_
  · cases phase <;> simp only [Fits, Phase.Fits] at h ⊢ <;> tauto
  · cases at_ <;> simp only [Fits] at h ⊢ <;> tauto

/-- The token that a connection has taken is the module's, or is cancelled. -/
theorem upgrade_step {t : Task} {met : Met} (hgood : Good t m) {k : ℕ}
    (h : (Task.connect (.upgrade k)).Fits m) :
    (Task.connect (.upgrade k)).Fits (t.step mqttHost met m).2 := by
  obtain ⟨hmade, htoken⟩ := h
  have hfits := hgood.fits
  cases met with
  | dropped =>
    simp only [Task.step]
    split <;> exact ⟨hmade, htoken⟩
  | goes engine admitted =>
    rcases t with ⟨name, enabled, phase⟩ | at_
    · cases phase with
      | renew =>
        refine ⟨Nat.lt_succ_of_lt hmade, fun hlive => ?_⟩
        exact absurd (hfits.2.2 k (htoken hlive)) hlive
      | cancel =>
        refine ⟨hmade, fun hlive => htoken fun hmem => hlive (List.mem_append_right _ hmem)⟩
      | lock =>
        simp only [Task.step, toggleStep]
        split <;> exact ⟨hmade, htoken⟩
      | _ => exact ⟨hmade, htoken⟩
    · cases at_ with
      | lock | look | upgrade k' =>
        simp only [Task.step, connectStep]
        split <;> exact ⟨hmade, htoken⟩
      | take => exact ⟨hmade, htoken⟩

/-- A write under the lock that leaves the tokens alone. -/
theorem Base.write (h : Base m) {m' : ModuleState} (hlocked : m'.locked = true)
    (hsame : m' = { m with
      locked := m'.locked, disabled := m'.disabled, runtime := m'.runtime, commands := m'.commands,
      playbackOutputSelection := m'.playbackOutputSelection }) : Base m' := by
  rw [hsame]
  exact ⟨h.made, h.nodup, h.current, fun hfree => absurd (hlocked.symm.trans hfree) nofun⟩

/-- The holder of the lock goes on with what it knows, and lets the lock go of a module it leaves in
order. -/
theorem toggleStep_keeps (mqttHost : Bool) {name : String} {enabled : Bool}
    (engine : Except String Unit) {phase : Phase} (hinv : Base m)
    (hgood : Good (.toggle name enabled phase) m) :
    Base (toggleStep mqttHost name enabled engine m phase).2 ∧
      ∀ next, (toggleStep mqttHost name enabled engine m phase).1 = some next →
        Good (.toggle name enabled next) (toggleStep mqttHost name enabled engine m phase).2 := by
  obtain ⟨hlocked, hfits⟩ := hgood
  have hone {phase' : Phase} {m' : ModuleState} (h : m'.locked = true) (h' : phase'.Fits enabled m') :
      ∀ next, some phase' = some next → Good (.toggle name enabled next) m' := by
    rintro _ ⟨⟩
    exact ⟨fun _ => h, h'⟩
  cases phase with
  | refuse => exact ⟨hinv, nofun⟩
  | lock =>
    rw [toggleStep]
    split
    next hbusy => exact ⟨hinv, hone hbusy trivial⟩
    next hfree =>
      have hsteady := hinv.steady (by simpa using hfree)
      exact ⟨hinv.lock, hone rfl (hsteady.unlock true)⟩
  | look =>
    have hsteady : Steady m := hfits
    refine ⟨hinv, hone (hlocked rfl) ?_⟩
    cases enabled <;> cases hoff : m.disabled <;> simp [Phase.Fits, toggleStep, hsteady, hoff]
  | remove =>
    obtain ⟨henabled, hsteady, hoff⟩ := hfits
    have hcancelled : ∀ k ∈ m.token, k ∈ m.cancelled := fun k hk => (hsteady.token k hk).mpr hoff
    exact ⟨hinv.write (hlocked rfl) rfl, hone (hlocked rfl) ⟨henabled, rfl, hcancelled⟩⟩
  | renew =>
    obtain ⟨henabled, hon, hcancelled⟩ := hfits
    have hnew (k : ℕ) (hk : k ∈ m.token.toList ++ m.cancelled ++ m.workers ++ m.sessions) : k ≠ m.made :=
      Nat.ne_of_lt (hinv.made k hk)
    refine ⟨⟨fun k hk => ?_, hinv.nodup, fun k hk hlive => ?_, fun hfree => ?_⟩,
      hone (hlocked rfl) ⟨henabled, hon, rfl, fun hmem => ?_, fun hmem => ?_⟩⟩
    · have hmade := hinv.made k
      simp only [toggleStep] at hk ⊢
      grind
    · exact absurd (hcancelled k (hinv.current k hk hlive)) hlive
    · exact absurd ((hlocked rfl).symm.trans hfree) nofun
    · exact hnew _ (by simp_all [toggleStep]) rfl
    · exact hnew _ (by simp_all [toggleStep]) rfl
  | trackOn k =>
    obtain ⟨henabled, hon, htoken, hlive, hfresh⟩ := hfits
    have hmade : k < m.made := hinv.made k (by simp [htoken])
    have hsteady : Steady (toggleStep mqttHost name enabled engine m (.trackOn k)).2 := by
      refine ⟨fun k' hk' => ?_, fun info hinfo => ?_⟩
      · obtain rfl : k = k' := Option.some.inj (htoken.symm.trans hk')
        exact iff_of_false hlive (by simp [toggleStep, hon])
      · obtain rfl := Option.some.inj hinfo
        exact iff_of_false (trackOn_shows name m.runtime) (by simp [toggleStep, hon])
    refine ⟨⟨fun k' hk' => ?_, ?_, fun k' hk' hlive' => ?_, fun _ => hsteady⟩,
      hone (hlocked rfl) ⟨hsteady, by simp [toggleStep, hon, henabled]⟩⟩
    · have hmade' := hinv.made k'
      simp only [toggleStep] at hk' ⊢
      grind
    · simp only [toggleStep]
      split
      · exact List.nodup_cons.mpr ⟨hfresh, hinv.nodup⟩
      · exact hinv.nodup
    · have hcurrent := hinv.current k'
      simp only [toggleStep] at hk' hlive' ⊢
      grind
  | insert =>
    exact ⟨hinv.write (hlocked rfl) rfl, hone (hlocked rfl) ⟨hfits.1, rfl⟩⟩
  | cancel =>
    obtain ⟨hdisabled, hoff⟩ := hfits
    refine ⟨⟨fun k hk => hinv.made k ?_, hinv.nodup, fun k hk hlive => ?_, fun hfree => ?_⟩,
      hone (hlocked rfl) ⟨hdisabled, hoff, fun k hk => ?_⟩⟩
    · simp only [toggleStep] at hk
      grind
    · exact hinv.current k hk fun hmem => hlive (List.mem_append_right _ hmem)
    · exact absurd ((hlocked rfl).symm.trans hfree) nofun
    · exact List.mem_append_left _ (Option.mem_toList.mpr hk)
  | trackOff =>
    obtain ⟨hdisabled, hoff, hcancelled⟩ := hfits
    have hsteady : Steady { m with runtime := some (trackOff m.runtime) } := by
      refine ⟨fun k hk => iff_of_true (hcancelled k hk) hoff, fun info hinfo => iff_of_true ?_ hoff⟩
      obtain rfl := Option.some.inj hinfo
      simp [trackOff, offStates]
    refine ⟨hinv.write (hlocked rfl) rfl, hone (hlocked rfl) ?_⟩
    split
    · exact ⟨hdisabled, hsteady, hoff⟩
    · exact ⟨hsteady, by simp [toggleStep, hoff, hdisabled]⟩
  | stop =>
    obtain ⟨hdisabled, hsteady, hoff⟩ := hfits
    exact ⟨hinv.write (hlocked rfl) rfl,
      hone (hlocked rfl) ⟨hdisabled, ⟨hsteady.token, hsteady.shows⟩, hoff⟩⟩
  | clear stopErr =>
    obtain ⟨hdisabled, hsteady, hoff⟩ := hfits
    exact ⟨hinv.write (hlocked rfl) rfl,
      hone (hlocked rfl) ⟨hdisabled, ⟨hsteady.token, hsteady.shows⟩, hoff⟩⟩
  | deselect stopErr =>
    obtain ⟨hdisabled, hsteady, hoff⟩ := hfits
    refine ⟨hinv.write (hlocked rfl) rfl, hone (hlocked rfl) ?_⟩
    cases stopErr with
    | none => exact ⟨⟨hsteady.token, hsteady.shows⟩, by simp [toggleStep, hoff, hdisabled]⟩
    | some err => exact ⟨hdisabled, ⟨hsteady.token, hsteady.shows⟩, hoff⟩
  | degrade err =>
    obtain ⟨hdisabled, hsteady, hoff⟩ := hfits
    refine ⟨hinv.write (hlocked rfl) rfl, hone (hlocked rfl) ⟨⟨hsteady.token, fun info hinfo => ?_⟩, ?_⟩⟩
    · obtain ⟨entry, hentry, rfl⟩ := Option.map_eq_some_iff.mp hinfo
      exact iff_of_true (by simp [offStates]) hoff
    · simp [toggleStep, hoff, hdisabled]
  | answer => exact ⟨hinv.unlock hfits.1, nofun⟩

/-- A step of a connection keeps what holds of its module. -/
theorem connectStep_keeps (admitted : Bool) {at_ : Connecting} (hinv : Base m)
    (hgood : Good (.connect at_) m) :
    Base (connectStep admitted m at_).2 ∧ ∀ next, (connectStep admitted m at_).1 = some next →
      Good (.connect next) (connectStep admitted m at_).2 := by
  obtain ⟨hlocked, hfits⟩ := hgood
  cases at_ with
  | lock =>
    rw [connectStep]
    split
    next hbusy =>
      refine ⟨hinv, ?_⟩
      rintro _ ⟨⟩
      exact ⟨fun _ => hbusy, trivial⟩
    next hfree =>
      refine ⟨hinv.lock, ?_⟩
      rintro _ ⟨⟩
      exact ⟨fun _ => rfl, (hinv.steady (by simpa using hfree)).unlock true⟩
  | look =>
    have hsteady : Steady m := hfits
    rw [connectStep]
    split
    · exact ⟨hinv.unlock hsteady, nofun⟩
    next hon =>
      refine ⟨hinv, ?_⟩
      rintro _ ⟨⟩
      exact ⟨fun _ => hlocked rfl, hsteady, by simpa using hon⟩
  | take =>
    refine ⟨hinv.unlock hfits.1, fun next hnext => ?_⟩
    obtain ⟨k, hk, rfl⟩ := Option.map_eq_some_iff.mp hnext
    exact ⟨nofun, hinv.made k (by simp [hk]), fun _ => hk⟩
  | upgrade k =>
    refine ⟨?_, nofun⟩
    rw [connectStep]
    split
    · refine ⟨fun k' hk' => ?_, hinv.nodup, fun k' hk' hlive => ?_, fun hfree => ?_⟩
      · have hmade := hinv.made k'
        have := hfits.1
        grind
      · have hcurrent := hinv.current k'
        have := hfits.2
        grind
      · exact ⟨(hinv.steady hfree).token, (hinv.steady hfree).shows⟩
    · exact hinv

theorem steady_of_fits {t : Task} (hgood : Good t m) (hholds : t.holds = true)
    (hwhole : t.halfway = false) : Steady m := by
  have hfits := hgood.fits
  rcases t with ⟨name, enabled, phase⟩ | at_
  · cases phase with
    | refuse | lock => cases hholds
    | renew | trackOn k | cancel | trackOff => cases hwhole
    | look => exact hfits
    | answer => exact hfits.1
    | _ => exact hfits.2.1
  · cases at_ with
    | lock | upgrade k => cases hholds
    | look => exact hfits
    | take => exact hfits.1

theorem pairwise_next {α : Type} (next : Option α) (f : α → Task) (R : Task → Task → Prop) :
    (next.toList.map f).Pairwise R := by
  cases next <;> simp

theorem Task.Fits.workers {t : Task} (h : t.Fits m) {workers : List ℕ} (hsub : workers ⊆ m.workers) :
    t.Fits { m with workers := workers } := by
  have hsteady (h : Steady m) : Steady { m with workers := workers } := ⟨h.token, h.shows⟩
  rcases t with ⟨name, enabled, phase⟩ | at_
  · cases phase with
    | trackOn k =>
      obtain ⟨henabled, hon, htoken, hlive, hfresh⟩ := h
      exact ⟨henabled, hon, htoken, hlive, fun hmem => hfresh (hsub hmem)⟩
    | _ => simp only [Fits, Phase.Fits] at h ⊢ <;> tauto
  · cases at_ <;> simp only [Fits] at h ⊢ <;> tauto

/-- Each move of a call or of a task keeps what holds of the modules. -/
theorem preserved (mqttHost : Bool) : (modules mqttHost).Preserved invariant Whole where
  enter c m _ := by
    have hfree : ((modules mqttHost).enter c).holds = false := by
      cases c with
      | toggle name enabled => simp only [modules]; split <;> rfl
      | connect => rfl
    refine ⟨⟨fun h => absurd (hfree.symm.trans h) nofun, ?_⟩, fun u h => absurd (hfree.symm.trans h) nofun⟩
    cases c with
    | toggle name enabled => simp only [modules]; split <;> trivial
    | connect => trivial
  key := step_key
  self t met m hwhole hinv hgood := by
    cases met with
    | dropped =>
      refine ⟨?_, nofun, List.Pairwise.nil⟩
      cases hholds : t.holds with
      | false =>
        simp only [modules, Task.step, hholds]
        exact hinv
      | true =>
        simp only [modules, Task.step, hholds, if_true]
        exact hinv.unlock (steady_of_fits hgood hholds hwhole)
    | goes engine admitted =>
      rcases t with ⟨name, enabled, phase⟩ | at_
      · obtain ⟨hinv', hnext⟩ := toggleStep_keeps mqttHost engine hinv hgood
        refine ⟨hinv', fun t' ht' => ?_, ?_⟩
        · obtain ⟨next, hmem, rfl⟩ := List.mem_map.mp ht'
          exact hnext next (Option.mem_toList.mp hmem)
        · exact pairwise_next ..
      · obtain ⟨hinv', hnext⟩ := connectStep_keeps admitted hinv hgood
        refine ⟨hinv', fun t' ht' => ?_, ?_⟩
        · obtain ⟨next, hmem, rfl⟩ := List.mem_map.mp ht'
          exact hnext next (Option.mem_toList.mp hmem)
        · exact pairwise_next ..
  other t met m u hwhole hinv hgood hgood' hapart := by
    cases hholds : u.holds with
    | true =>
      have hfree : t.holds = false := by
        by_contra h
        exact absurd (hholds.symm.trans (hapart (by simpa using h))) nofun
      obtain ⟨hsame, hnone⟩ := step_of_locked met hfree (hgood'.locked hholds)
      have hstays : Good u (t.step mqttHost met m).2 := by
        rw [hsame]
        exact ⟨hgood'.locked, hgood'.fits.sessions _⟩
      exact ⟨hstays, fun t' ht' h => absurd ((hnone t' ht').symm.trans h) nofun⟩
    | false =>
      refine ⟨⟨fun h => absurd (hholds.symm.trans h) nofun, ?_⟩, fun t' _ _ => hholds⟩
      rcases u with ⟨name, enabled, phase⟩ | at_
      · cases phase with
        | refuse | lock => trivial
        | _ => cases hholds
      · cases at_ with
        | lock => trivial
        | upgrade k => exact upgrade_step hgood hgood'.fits
        | look | take => cases hholds
  tick e m hinv := by
    cases e with
    | worker name i =>
      have hsub : (m.workers.eraseIdx i).Sublist m.workers := List.eraseIdx_sublist ..
      have hmem : m.workers.eraseIdx i ⊆ m.workers := hsub.subset
      refine ⟨⟨fun k hk => hinv.made k ?_, hinv.nodup.sublist hsub, fun k hk => hinv.current k ?_,
        fun hfree => ⟨(hinv.steady hfree).token, (hinv.steady hfree).shows⟩⟩, fun u hu => ⟨hu.locked, ?_⟩⟩
      · simp only [modules] at hk
        grind
      · simp only [modules] at hk
        grind
      · exact hu.fits.workers hmem
    | session i =>
      have hmem : m.sessions.eraseIdx i ⊆ m.sessions := (List.eraseIdx_sublist ..).subset
      refine ⟨⟨fun k hk => hinv.made k ?_, hinv.nodup, fun k hk => hinv.current k ?_,
        fun hfree => ⟨(hinv.steady hfree).token, (hinv.steady hfree).shows⟩⟩,
        fun u hu => ⟨hu.locked, hu.fits.sessions _⟩⟩
      · simp only [modules] at hk
        grind
      · simp only [modules] at hk
        grind

/-- The requests that are not dropped between two of their writes, whatever else is. -/
abbrev Undisturbed : ModulesPool → ModulesMove → Prop := CellMachine.Allows Whole

/-- **Modules are in order.** In every run of requests that toggle modules and of connections to the sync
module, in any order of their steps, with tasks that are dropped anywhere but between two writes of one
request, with engine commands that fail and workers that end at any time, every module is in order after
every move, and every answer is given of a module that is as it was asked for. -/
theorem modules_orderly (mqttHost : Bool) {moves : List ModulesMove}
    (hmoves : Pool.Obeys (modules mqttHost).machine Undisturbed ⟨[], started mqttHost⟩ moves) :
    Pool.Obeys (modules mqttHost).machine
      (fun p move => Answers p move ∧ ∀ name, Orderly ((p.step (modules mqttHost).machine move).world name))
      ⟨[], started mqttHost⟩ moves := by
  have hpreserved := (preserved mqttHost).preserved
  refine hpreserved.obeys (fun p move hp hallowed => ⟨?_, fun name => ?_⟩)
    ⟨base_started, nofun, List.Pairwise.nil⟩ hmoves
  · rcases move with c | ⟨i, _ | _⟩ | i | e <;> try trivial
    intro name enabled ht
    obtain ⟨hsteady, hdisabled⟩ := (hp.2.1 _ (List.mem_of_getElem? ht)).fits
    refine ⟨hdisabled, ?_⟩
    cases hruntime : (p.world name).runtime with
    | none => cases enabled <;> simp [reply, offStates]
    | some info =>
      rw [reply, Option.getD_some, hsteady.shows info hruntime]
      simp only [Task.name, modules] at hdisabled ⊢
      simp [hdisabled]
  · exact orderly_of_base ((hpreserved.step hp hallowed).1 name)

/-- A sync module that runs is switched off. -/
theorem modules_orderly_off : Pool.Obeys (modules true).machine
    (fun p move => Answers p move ∧ ∀ name, Orderly ((p.step (modules true).machine move).world name))
    ⟨[], started true⟩
    (.arrive (.toggle "sync" false) :: List.replicate 6 (.act 0 (.goes (.ok ()) true))) :=
  have goes {p : ModulesPool} : Undisturbed p (.act 0 (.goes (.ok ()) true)) := fun _ _ => trivial
  modules_orderly true ⟨trivial, goes, goes, goes, goes, goes, goes, trivial⟩

/-- A request that is dropped before it cancels the token leaves a worker that none will cancel. -/
example : ((Pool.run (modules true).machine ⟨[], started true⟩
    (.arrive (.toggle "sync" false) :: List.replicate 3 (.act 0 (.goes (.ok ()) true)) ++ .act 0 .dropped ::
      .arrive (.toggle "sync" true) :: List.replicate 6 (.act 0 (.goes (.ok ()) true)))).world
        "sync").workers = [1, 0] := by decide +kernel

end MichiServer.Modules
