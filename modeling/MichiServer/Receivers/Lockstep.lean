import Mathlib.Logic.Function.Basic
import MichiServer.Playback.Model
import MichiServer.Receivers.Sessions
import MichiServer.Receivers.Trust

/-!
# The manager's maps between operations

The sessions of all receivers, one operation after the other: `start_session`, `stop_session`,
`handle_session_lost`, a restart of the server, and the `prepare` of a receiver's sink. What is asked
is which receivers the three maps and the registry hold, and with which session ids.

A transport and a heartbeat handle carry here the id of the session they were started for; the source
does not keep it.
-/

namespace MichiServer.Receivers.Lockstep

open MichiServer.Playback (PlaybackError)
open MichiServer.Receivers.Trust (ReceiverInfo authenticatedEntry)

/-! ## Operations -/

structure SessionManager where
  registry : ReceiverRegistry
  activeSessions : String → Option ReceiverActiveSession := fun _ => none
  activeTransports : String → Option (String × AudioTransport) := fun _ => none
  heartbeatHandles : String → Option String := fun _ => none

/-- What a start meets before its bookkeeping: the session that was negotiated and whose transport runs,
or the error of a check, of the receiver or of the transport; and the authentication after a request
that was refused as unauthorized. -/
structure StartEnv where
  authenticated : Option (String × ReceiverInfo) := none
  negotiated : Except String NegotiatedReceiverSession

namespace SessionManager

def reauthenticate (id : String) (authenticated : Option (String × ReceiverInfo))
    (w : SessionManager) : SessionManager :=
  match authenticated with
  | some (sessionToken, info) =>
    { w with registry := w.registry.modify id (authenticatedEntry sessionToken info) }
  | none => w

/-- The bookkeeping of a start, up to and with `spawn_heartbeat_task`. -/
def insertSession (id : String) (n : NegotiatedReceiverSession) (w : SessionManager) :
    SessionManager where
  registry := w.registry.modify id fun e => { e with activeSessionId := some n.sessionId }
  activeSessions := Function.update w.activeSessions id (some (.ofNegotiated n))
  activeTransports := Function.update w.activeTransports id (some (n.sessionId, {}))
  heartbeatHandles := Function.update w.heartbeatHandles id (some n.sessionId)

def startSession (id : String) (env : StartEnv) (w : SessionManager) :
    Except String NegotiatedReceiverSession × SessionManager :=
  match w.registry.get id with
  | none => (.error ("receiver not found: " ++ id), w)
  | some entry =>
    if entry.revoked then (.error ("receiver " ++ id ++ " is revoked"), w)
    else
      let w := w.reauthenticate id env.authenticated
      match env.negotiated with
      | .error e => (.error e, w)
      | .ok n => (.ok n, w.insertSession id n)

/-- The first half of a stop: the record is closing, the transport paused, the heartbeat cancelled. -/
def closeSession (id : String) (sess : ReceiverActiveSession) (w : SessionManager) :
    SessionManager :=
  { w with
    activeSessions := Function.update w.activeSessions id (some { sess with state := .closing })
    activeTransports := Function.update w.activeTransports id
      ((w.activeTransports id).map fun t => (t.1, { paused := true }))
    heartbeatHandles := Function.update w.heartbeatHandles id none }

def failSession (id : String) (w : SessionManager) : SessionManager :=
  { w with
    activeSessions := Function.update w.activeSessions id
      ((w.activeSessions id).map fun s => { s with state := .failed }) }

/-- The receiver's record, transport and heartbeat are gone, and its entry has no session. -/
def removeSession (id : String) (w : SessionManager) : SessionManager where
  registry := w.registry.modify id fun e => { e with activeSessionId := none }
  activeSessions := Function.update w.activeSessions id none
  activeTransports := Function.update w.activeTransports id none
  heartbeatHandles := Function.update w.heartbeatHandles id none

def stopSession (id : String) (stopped : Except String Unit) (w : SessionManager) :
    Except String Unit × SessionManager :=
  match w.activeSessions id with
  | none => (.error "NoActiveSession: cannot stop receiver session when none is active", w)
  | some sess =>
    let w := w.closeSession id sess
    match w.registry.get id with
    | none => (.error ("receiver not found: " ++ id), w)
    | some _ =>
      match stopped with
      | .error e => (.error e, w.failSession id)
      | .ok () => (.ok (), w.removeSession id)

def handleSessionLost (id : String) (w : SessionManager) : SessionManager := w.removeSession id

def prepare (id : String) (env : StartEnv) (w : SessionManager) :
    Except PlaybackError Unit × SessionManager :=
  match w.registry.get id with
  | none => (.error (.receiverNotPaired id), w)
  | some entry =>
    if !entry.paired then (.error (.receiverNotPaired id), w)
    else
      match w.activeSessions id with
      | some _ => (.ok (), w)
      | none =>
        match w.startSession id env with
        | (.ok _, w) => (.ok (), w)
        | (.error e, w) =>
          (.error (.playbackFailed
            ("failed to start receiver session for " ++ id ++ ": " ++ e)), w)

/-- The manager of a server that has just started, with the receivers that are registered again. -/
def fresh (registry : ReceiverRegistry) : SessionManager where
  registry := registry.map fun e => { e with activeSessionId := none }

end SessionManager

inductive Operation where
  | startSession (id : String) (env : StartEnv)
  | stopSession (id : String) (stopped : Except String Unit)
  | handleSessionLost (id : String)
  | prepare (id : String) (env : StartEnv)
  | restart (registry : ReceiverRegistry)

def step (w : SessionManager) : Operation → SessionManager
  | .startSession id env => (w.startSession id env).2
  | .stopSession id stopped => (w.stopSession id stopped).2
  | .handleSessionLost id => w.handleSessionLost id
  | .prepare id env => (w.prepare id env).2
  | .restart registry => .fresh registry

/-! ## What is asked -/

/-- The receiver's transport and heartbeat are those of its record; the heartbeat runs only while the
record is active. -/
structure InStep (w : SessionManager) (id : String) : Prop where
  transport : (w.activeTransports id).map Prod.fst =
    (w.activeSessions id).map ReceiverActiveSession.receiverSessionId
  heartbeat : w.heartbeatHandles id = (w.activeSessions id).bind fun s =>
    if s.state = .active then some s.receiverSessionId else none

def sessionOf (reg : ReceiverRegistry) (id : String) : Option String :=
  ((reg.entry id).map ReceiverRegistryEntry.activeSessionId).join

/-- The receiver's entry has the session of its record, and no record stays closing. -/
structure Registered (w : SessionManager) (id : String) : Prop where
  entry : sessionOf w.registry id =
    (w.activeSessions id).map ReceiverActiveSession.receiverSessionId
  settled : ∀ s ∈ w.activeSessions id, s.state ≠ .closing

def Operation.receiver : Operation → Option String
  | .startSession id _ | .stopSession id _ | .handleSessionLost id | .prepare id _ => some id
  | .restart _ => none

/-- The entry that is found under the id, if any, has it as its receiver id. -/
def Keyed (reg : ReceiverRegistry) (id : String) : Prop := ∀ e ∈ reg.getMut id, e.receiverId = id

/-- The operation does not name a receiver by its michi id where that is not its receiver id. -/
def ByReceiverId (w : SessionManager) (op : Operation) : Prop :=
  ∀ id ∈ op.receiver, Keyed w.registry id

/-! ## The maps -/

variable {w : SessionManager} {id id' : String}

theorem reauthenticate_inStep (id : String) (authenticated : Option (String × ReceiverInfo))
    (h : InStep w id') : InStep (w.reauthenticate id authenticated) id' := by
  cases authenticated with
  | none => exact h
  | some a => exact ⟨h.transport, h.heartbeat⟩

theorem insertSession_inStep (n : NegotiatedReceiverSession) (h : InStep w id') :
    InStep (w.insertSession id n) id' := by
  by_cases hid : id' = id
  · subst hid
    constructor <;> simp [SessionManager.insertSession, ReceiverActiveSession.ofNegotiated]
  · constructor
    · simp only [SessionManager.insertSession, Function.update_of_ne hid, h.transport]
    · simp only [SessionManager.insertSession, Function.update_of_ne hid, h.heartbeat]

theorem removeSession_inStep (h : InStep w id') : InStep (w.removeSession id) id' := by
  by_cases hid : id' = id
  · subst hid
    constructor <;> simp [SessionManager.removeSession]
  · constructor
    · simp only [SessionManager.removeSession, Function.update_of_ne hid, h.transport]
    · simp only [SessionManager.removeSession, Function.update_of_ne hid, h.heartbeat]

theorem closeSession_inStep {sess : ReceiverActiveSession} (hsess : w.activeSessions id = some sess)
    (h : InStep w id') : InStep (w.closeSession id sess) id' := by
  by_cases hid : id' = id
  · subst hid
    have htransport := h.transport
    rw [hsess] at htransport
    constructor
    · simpa [SessionManager.closeSession, Function.comp_def] using htransport
    · simp [SessionManager.closeSession]
  · constructor
    · simp only [SessionManager.closeSession, Function.update_of_ne hid, h.transport]
    · simp only [SessionManager.closeSession, Function.update_of_ne hid, h.heartbeat]

theorem failSession_inStep (hclosed : w.heartbeatHandles id = none) (h : InStep w id') :
    InStep (w.failSession id) id' := by
  by_cases hid : id' = id
  · subst hid
    constructor
    · simpa [SessionManager.failSession, Function.comp_def] using h.transport
    · simp [SessionManager.failSession, hclosed, Option.bind_map]
  · constructor
    · simp only [SessionManager.failSession, Function.update_of_ne hid, h.transport]
    · simp only [SessionManager.failSession, Function.update_of_ne hid, h.heartbeat]

theorem startSession_inStep (id : String) (env : StartEnv) (h : InStep w id') :
    InStep (w.startSession id env).2 id' := by
  grind [SessionManager.startSession, reauthenticate_inStep, insertSession_inStep]

theorem stopSession_inStep (id : String) (stopped : Except String Unit) (h : InStep w id') :
    InStep (w.stopSession id stopped).2 id' := by
  unfold SessionManager.stopSession
  split
  · exact h
  · rename_i sess hsess
    have hclosed := closeSession_inStep hsess h
    simp only
    split
    · exact hclosed
    · split
      · exact failSession_inStep (by simp [SessionManager.closeSession]) hclosed
      · exact removeSession_inStep hclosed

theorem prepare_inStep (id : String) (env : StartEnv) (h : InStep w id') :
    InStep (w.prepare id env).2 id' := by
  grind [startSession_inStep, SessionManager.prepare]

theorem step_inStep (op : Operation) (h : InStep w id') : InStep (step w op) id' := by
  cases op with
  | startSession id env => exact startSession_inStep id env h
  | stopSession id stopped => exact stopSession_inStep id stopped h
  | handleSessionLost id => exact removeSession_inStep h
  | prepare id env => exact prepare_inStep id env h
  | restart registry => exact ⟨rfl, rfl⟩

/-! ## The registry -/

variable {reg : ReceiverRegistry}

variable {e : ReceiverRegistryEntry}

theorem entry_of_keyed (h : Keyed reg id) (hfound : reg.getMut id = some e) :
    reg.entry id = some e := by
  have hid : e.receiverId = id := h e hfound
  have hmem : e ∈ reg.receivers := ReceiverRegistry.mem_of_getMut hfound
  cases hentry : reg.entry id with
  | none => exact absurd hid (by simpa using List.find?_eq_none.mp hentry e hmem)
  | some e' => rw [← hfound, ReceiverRegistry.getMut_of_entry hentry]

theorem entry_of_get (h : Keyed reg id) (hget : reg.get id = some e) :
    ∃ e', reg.entry id = some e' := by
  cases hfound : reg.getMut id with
  | none =>
    rw [ReceiverRegistry.get_eq_none_of_getMut hfound] at hget
    cases hget
  | some e' => exact ⟨e', entry_of_keyed h hfound⟩

theorem sessionOf_modify (hentry : reg.entry id = some e)
    (session : Option String) (id' : String) :
    sessionOf (reg.modify id fun e => { e with activeSessionId := session }) id' =
      if id' = id then session else sessionOf reg id' := by
  unfold sessionOf
  rw [ReceiverRegistry.entry_modify_of_entry hentry]
  split <;> simp

theorem sessionOf_clear (h : Keyed reg id) (id' : String) :
    sessionOf (reg.modify id fun e => { e with activeSessionId := none }) id' =
      if id' = id then none else sessionOf reg id' := by
  cases hfound : reg.getMut id with
  | some e => exact sessionOf_modify (entry_of_keyed h hfound) none id'
  | none =>
    have hentry : reg.entry id = none := (Option.or_eq_none_iff.mp hfound).1
    grind [ReceiverRegistry.modify, sessionOf]

theorem reauthenticate_registry (w : SessionManager) (id : String)
    (authenticated : Option (String × ReceiverInfo)) (id' : String) :
    sessionOf (w.reauthenticate id authenticated).registry id' = sessionOf w.registry id' ∧
      ((w.reauthenticate id authenticated).registry.entry id').isSome =
        (w.registry.entry id').isSome := by
  cases authenticated with
  | none => exact ⟨rfl, rfl⟩
  | some a =>
    have hfield : ∀ {α : Type} (g : ReceiverRegistryEntry → α),
        (∀ e, g { authenticatedEntry a.1 a.2 e with receiverId := e.receiverId } = g e) →
          ((w.reauthenticate id (some a)).registry.entry id').map g = (w.registry.entry id').map g :=
      fun g hg => ReceiverRegistry.entry_modify_field w.registry id g hg id'
    constructor
    · rw [sessionOf, hfield ReceiverRegistryEntry.activeSessionId fun _ => rfl, sessionOf]
    · simpa using congrArg Option.isSome (hfield (fun _ => ()) fun _ => rfl)

/-! ## The registry and the maps -/

theorem registered_of_same {w' : SessionManager} (h : Registered w id')
    (hsession : sessionOf w'.registry id' = sessionOf w.registry id')
    (hrecord : w'.activeSessions id' = w.activeSessions id') : Registered w' id' := by
  refine ⟨?_, hrecord ▸ h.settled⟩
  rw [hrecord, ← h.entry]
  exact hsession

theorem insertSession_registered (n : NegotiatedReceiverSession)
    (hentry : w.registry.entry id = some e) (h : Registered w id') :
    Registered (w.insertSession id n) id' := by
  have hsession := sessionOf_modify hentry (some n.sessionId) id'
  by_cases hid : id' = id
  · subst hid
    rw [if_pos rfl] at hsession
    refine ⟨?_, by simp [SessionManager.insertSession, ReceiverActiveSession.ofNegotiated]⟩
    simp only [SessionManager.insertSession, Function.update_self, Option.map_some]
    exact hsession
  · rw [if_neg hid] at hsession
    exact registered_of_same h hsession
      (by simp only [SessionManager.insertSession, Function.update_of_ne hid])

theorem removeSession_registered (hkeyed : Keyed w.registry id)
    (h : id' ≠ id → Registered w id') : Registered (w.removeSession id) id' := by
  have hsession := sessionOf_clear hkeyed id'
  by_cases hid : id' = id
  · subst hid
    rw [if_pos rfl] at hsession
    refine ⟨?_, by simp [SessionManager.removeSession]⟩
    simp only [SessionManager.removeSession, Function.update_self, Option.map_none]
    exact hsession
  · rw [if_neg hid] at hsession
    exact registered_of_same (h hid) hsession
      (by simp only [SessionManager.removeSession, Function.update_of_ne hid])

theorem startSession_registered (env : StartEnv) (hkeyed : Keyed w.registry id)
    (h : Registered w id') : Registered (w.startSession id env).2 id' := by
  unfold SessionManager.startSession
  split
  · exact h
  · rename_i entry hget
    split
    · exact h
    · obtain ⟨hsession, -⟩ := reauthenticate_registry w id env.authenticated id'
      have hauthenticated : Registered (w.reauthenticate id env.authenticated) id' := by
        refine registered_of_same h hsession ?_
        cases env.authenticated <;> rfl
      simp only
      split
      · exact hauthenticated
      · obtain ⟨e, hentry⟩ := entry_of_get hkeyed hget
        obtain ⟨-, hsome⟩ := reauthenticate_registry w id env.authenticated id
        rw [hentry, Option.isSome_some, Option.isSome_iff_exists] at hsome
        grind [insertSession_registered]

/-- To stop a session keeps what is registered. -/
theorem stopSession_registered (stopped : Except String Unit) (hkeyed : Keyed w.registry id)
    (h : ∀ id, Registered w id) : Registered (w.stopSession id stopped).2 id' := by
  unfold SessionManager.stopSession
  split
  · exact h id'
  · rename_i sess hsess
    have hother : id' ≠ id → Registered (w.closeSession id sess) id' := by
      intro hid
      exact registered_of_same (h id') rfl
        (by simp only [SessionManager.closeSession, Function.update_of_ne hid])
    -- the record has a session, so the entry has it, so there is an entry
    have hentry := (h id).entry
    rw [hsess, Option.map_some] at hentry
    simp only
    split
    · rename_i hnone
      have hnone' : w.registry.entry id = none := (Option.or_eq_none_iff.mp hnone).1
      simp [sessionOf, hnone'] at hentry
    · split
      · by_cases hid : id' = id
        · subst hid
          refine ⟨?_, by simp [SessionManager.failSession, SessionManager.closeSession]⟩
          simp only [SessionManager.failSession, SessionManager.closeSession, Function.update_self,
            Option.map_some]
          exact hentry
        · exact registered_of_same (hother hid) rfl
            (by simp only [SessionManager.failSession, Function.update_of_ne hid])
      · exact removeSession_registered hkeyed hother

theorem prepare_registered (env : StartEnv) (hkeyed : Keyed w.registry id) (h : Registered w id') :
    Registered (w.prepare id env).2 id' := by
  grind [startSession_registered, SessionManager.prepare]

theorem fresh_registered (registry : ReceiverRegistry) : Registered (.fresh registry) id' := by
  refine ⟨?_, by simp [SessionManager.fresh]⟩
  simp only [SessionManager.fresh, sessionOf, ReceiverRegistry.entry_map,
    Option.map_map, Option.map_none]
  cases registry.entry id' <;> rfl

theorem step_registered (op : Operation) (h : ∀ id, Registered w id) (hop : ByReceiverId w op)
    (id' : String) : Registered (step w op) id' := by
  cases op with
  | startSession id env => exact startSession_registered env (hop id rfl) (h id')
  | stopSession id stopped => exact stopSession_registered stopped (hop id rfl) h
  | handleSessionLost id => exact removeSession_registered (hop id rfl) fun _ => h id'
  | prepare id env => exact prepare_registered env (hop id rfl) (h id')
  | restart registry => exact fresh_registered registry

/-! ## Runs -/

instance (reg : ReceiverRegistry) (id : String) : Decidable (Keyed reg id) := by
  unfold Keyed
  infer_instance

instance (w : SessionManager) (op : Operation) : Decidable (ByReceiverId w op) := by
  unfold ByReceiverId
  infer_instance

/-- **The sessions stay in step.** After any operations from a fresh start, with any answers of the
receivers, every receiver's transport and heartbeat are those of its record, and the heartbeat runs
exactly while the record is active. If the operations name the receivers by their receiver ids, the
registry has the session of the record too, and a record that is not active is one whose remote stop
failed. -/
theorem sessions_stay_in_step (registry : ReceiverRegistry) (ops : List Operation) :
    let w := Logic.Trace.run step (.fresh registry) ops
    (∀ id, InStep w id) ∧
      (Logic.Trace.Obeys step ByReceiverId (.fresh registry) ops → ∀ id, Registered w id) := by
  constructor
  · intro id
    exact Logic.Trace.run_kept (I := fun w => InStep w id) (fun _ op h => step_inStep op h)
      ⟨rfl, rfl⟩ ops
  · intro hops
    exact Logic.Trace.run_invariant (I := fun w => ∀ id, Registered w id)
      (fun _ op h hop => step_registered op h hop) (fun _ => fresh_registered registry) hops

def sampleSession : NegotiatedReceiverSession := ⟨"s1", "token", 30⟩

def sampleOperations (id : String) : List Operation :=
  [.startSession id { negotiated := .ok sampleSession }, .stopSession id (.error "timeout")]

/-- A session is started, and to stop it fails by a timeout. -/
theorem sessions_stay_in_step_sample :
    let w := Logic.Trace.run step (.fresh Trust.sampleRegistry) (sampleOperations "living-room")
    InStep w "living-room" ∧ Registered w "living-room" := by
  obtain ⟨hmaps, hregistry⟩ :=
    sessions_stay_in_step Trust.sampleRegistry (sampleOperations "living-room")
  exact ⟨hmaps "living-room", hregistry (by decide) "living-room"⟩

/-- **Not in lockstep.** After a stop that fails remotely the receiver has a record, a transport and a
registered session, and no heartbeat; a sink that is prepared then uses the failed session as it is.
And a session that is started under a michi id is registered under the receiver id. -/
theorem failed_stop_breaks_lockstep :
    let w := Logic.Trace.run step (.fresh Trust.sampleRegistry) (sampleOperations "living-room")
    let v := Logic.Trace.run step (.fresh Trust.sampleRegistry)
      [.startSession "dev" { negotiated := .ok sampleSession }]
    ((w.activeSessions "living-room").map ReceiverActiveSession.state = some .failed ∧
        sessionOf w.registry "living-room" = some "s1" ∧
        (w.activeTransports "living-room").map Prod.fst = some "s1" ∧
        w.heartbeatHandles "living-room" = none ∧
        (w.prepare "living-room" { negotiated := .ok sampleSession }).1.isOk ∧
        ((w.prepare "living-room" { negotiated := .ok sampleSession }).2.activeSessions
          "living-room").map ReceiverActiveSession.state = some .failed) ∧
      ((v.activeSessions "dev").isSome ∧ sessionOf v.registry "dev" = none ∧
        sessionOf v.registry "living-room" = some "s1" ∧
        (v.activeSessions "living-room").isNone) := by
  decide

end MichiServer.Receivers.Lockstep
