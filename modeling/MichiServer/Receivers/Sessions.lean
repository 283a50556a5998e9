import MichiServer.Interleave.Pool
import MichiServer.Receivers.HeartbeatErrors

/-!
# The sessions of one receiver

`ReceiverSessionManager` keeps a receiver's session in four places, each behind a lock of its own:
`active_sessions`, `active_transports`, the entry of the registry, and `heartbeat_handles`. All of
them are keyed by the receiver, and the model is of one receiver, so each is what the map holds under
its id. Starting a session, stopping it and supervising it are tasks that go from lock to lock; a
stage of a task is where it waits, and what it does next is one critical section or one answer of the
network.

The sessions are numbered in the order in which their records are inserted. What a start writes
carries its session's number; the source does not keep it, and no step looks at it but the check of
`handle_session_lost` against joining itself.
-/

namespace MichiServer.Receivers

open MichiServer.Interleave

/-- Something a start wrote, with the number of the session it started. -/
structure Owned (α : Type) where
  session : ℕ
  value : α

inductive ReceiverActiveSessionState where
  | active | closing | failed
deriving DecidableEq

structure ReceiverActiveSession where
  receiverSessionId : String
  sessionToken : Option String
  leaseSeconds : ℕ
  heartbeatSequence : ℕ := 0
  state : ReceiverActiveSessionState := .active
deriving DecidableEq

/-- `NegotiatedReceiverSession`, with the fields the bookkeeping reads. -/
structure NegotiatedReceiverSession where
  sessionId : String
  sessionToken : String
  leaseSeconds : ℕ
deriving DecidableEq

structure ReceiverEntry where
  activeSessionId : Option (Owned String) := none

structure AudioTransport where
  paused : Bool := false

/-- What the manager holds for the receiver. A heartbeat handle is the number of the session its task
supervises; `cancelled` are the tasks whose token is cancelled. -/
structure ReceiverState where
  receiverId : String
  registry : Option ReceiverEntry := none
  activeSession : Option (Owned ReceiverActiveSession) := none
  activeTransport : Option (Owned AudioTransport) := none
  heartbeatHandle : Option ℕ := none
  cancelled : List ℕ := []
  started : ℕ := 0

namespace ReceiverState

def setActiveSessionId (id : Option (Owned String)) (w : ReceiverState) : ReceiverState :=
  { w with registry := w.registry.map fun e => { e with activeSessionId := id } }

/-- The handle is taken out of `heartbeat_handles`, and its task is cancelled. -/
def takeHandle (w : ReceiverState) : ReceiverState :=
  { w with
    heartbeatHandle := none
    cancelled := w.heartbeatHandle.toList ++ w.cancelled }

end ReceiverState

/-! ## Tasks -/

/-- Where a `start_session` is, from the negotiated session on: the record, the transport, the
registry, and `spawn_heartbeat_task`. -/
inductive StartStage where
  | insertSession
  | insertTransport (session : ℕ)
  | setRegistry (session : ℕ)
  | takeHandle (session : ℕ)
  | join (session : ℕ)
  | spawn (session : ℕ)
  | insertHandle (session : ℕ)
deriving DecidableEq

inductive StopStage where
  | markClosing
  | pauseTransport (sess : ReceiverActiveSession)
  | takeHandle (sess : ReceiverActiveSession)
  | join (sess : ReceiverActiveSession)
  | readEntry (sess : ReceiverActiveSession)
  | sessionStop (sess : ReceiverActiveSession)
  | markFailed (e : String)
  | removeTransport
  | removeSession
  | clearRegistry
deriving DecidableEq

inductive LostStage where
  | removeSession | removeTransport | clearRegistry | takeHandle | join
deriving DecidableEq

/-- Where a heartbeat task is: in its `select!`, in a `heartbeat`, or in `handle_session_lost`. -/
inductive HeartbeatStage where
  | waiting
  | readSession
  | requesting (sess : ReceiverActiveSession)
  | authenticate (sess : ReceiverActiveSession)
  | requestingAgain (sess : ReceiverActiveSession)
  | count
  | lost (stage : LostStage)

/-- The variables of the heartbeat loop; `last_success` is an instant in nanoseconds. -/
structure HeartbeatLoop where
  consecutiveFailures : ℕ := 0
  lastSuccess : ℕ

/-- A task, and where it is. A call that has returned stays with its result. -/
inductive Task where
  | start (negotiated : NegotiatedReceiverSession) (stage : StartStage)
  | stop (stage : StopStage)
  | heartbeat (session leaseSeconds : ℕ) (vars : HeartbeatLoop) (stage : HeartbeatStage)
  | returned (result : Except String Unit)

/-- A call of the manager. A start is called when the receiver has answered and the transport runs. -/
inductive Call where
  | startSession (negotiated : NegotiatedReceiverSession)
  | stopSession

inductive Ready where
  | cancelled | tick

/-- What a step meets: the clock, the branch of the `select!`, and the answers of the network. -/
structure TaskEnv where
  now : ℕ := 0
  ready : Ready := .tick
  response : Except ReceiverClientError Unit := .ok ()
  authenticated : Bool := false
  stopped : Except String Unit := .ok ()

/-! ## Steps -/

def ReceiverActiveSession.ofNegotiated (n : NegotiatedReceiverSession) : ReceiverActiveSession where
  receiverSessionId := n.sessionId
  sessionToken := some n.sessionToken
  leaseSeconds := n.leaseSeconds

/-- A step of `start_session`. Both the end of the old task and the timeout of 500 ms end `join`. -/
def startStep (n : NegotiatedReceiverSession) (env : TaskEnv) (w : ReceiverState) :
    StartStage → List Task × ReceiverState
  | .insertSession =>
    ([.start n (.insertTransport w.started)],
      { w with
        activeSession := some ⟨w.started, .ofNegotiated n⟩
        started := w.started + 1 })
  | .insertTransport session =>
    ([.start n (.setRegistry session)], { w with activeTransport := some ⟨session, {}⟩ })
  | .setRegistry session =>
    ([.start n (.takeHandle session)], w.setActiveSessionId (some ⟨session, n.sessionId⟩))
  | .takeHandle session =>
    match w.heartbeatHandle with
    | some _ => ([.start n (.join session)], w.takeHandle)
    | none => ([.start n (.spawn session)], w.takeHandle)
  | .join session => ([.start n (.spawn session)], w)
  | .spawn session =>
    ([.start n (.insertHandle session),
      .heartbeat session n.leaseSeconds { lastSuccess := env.now } .waiting], w)
  | .insertHandle session =>
    ([.returned (.ok ())], { w with heartbeatHandle := some session })

def stopStep (env : TaskEnv) (w : ReceiverState) : StopStage → List Task × ReceiverState
  | .markClosing =>
    match w.activeSession with
    | none =>
      ([.returned (.error
        "NoActiveSession: cannot stop receiver session when none is active")], w)
    | some sess =>
      let closing := { sess.value with state := .closing }
      ([.stop (.pauseTransport closing)], { w with activeSession := some ⟨sess.session, closing⟩ })
  | .pauseTransport sess =>
    ([.stop (.takeHandle sess)],
      { w with activeTransport := w.activeTransport.map fun t => ⟨t.session, { paused := true }⟩ })
  | .takeHandle sess =>
    match w.heartbeatHandle with
    | some _ => ([.stop (.join sess)], w.takeHandle)
    | none => ([.stop (.readEntry sess)], w.takeHandle)
  | .join sess => ([.stop (.readEntry sess)], w)
  | .readEntry sess =>
    match w.registry with
    | none => ([.returned (.error ("receiver not found: " ++ w.receiverId))], w)
    | some _ => ([.stop (.sessionStop sess)], w)
  | .sessionStop _ =>
    match env.stopped with
    | .ok () => ([.stop .removeTransport], w)
    | .error e => ([.stop (.markFailed e)], w)
  | .markFailed e =>
    ([.returned (.error e)],
      { w with activeSession := w.activeSession.map fun s =>
          ⟨s.session, { s.value with state := .failed }⟩ })
  | .removeTransport => ([.stop .removeSession], { w with activeTransport := none })
  | .removeSession => ([.stop .clearRegistry], { w with activeSession := none })
  | .clearRegistry => ([.returned (.ok ())], w.setActiveSessionId none)

/-- A step of `handle_session_lost`, called from the heartbeat task of a session; a task does not join
itself. -/
def lostStep (session leaseSeconds : ℕ) (vars : HeartbeatLoop) (w : ReceiverState) :
    LostStage → List Task × ReceiverState
  | .removeSession =>
    ([.heartbeat session leaseSeconds vars (.lost .removeTransport)],
      { w with activeSession := none })
  | .removeTransport =>
    ([.heartbeat session leaseSeconds vars (.lost .clearRegistry)],
      { w with activeTransport := none })
  | .clearRegistry =>
    ([.heartbeat session leaseSeconds vars (.lost .takeHandle)], w.setActiveSessionId none)
  | .takeHandle =>
    if w.heartbeatHandle.any fun h => h ≠ session then
      ([.heartbeat session leaseSeconds vars (.lost .join)], w.takeHandle)
    else ([.returned (.ok ())], w.takeHandle)
  | .join => ([.returned (.ok ())], w)

def heartbeatFailed (session leaseSeconds : ℕ) (vars : HeartbeatLoop) (env : TaskEnv)
    (e : ReceiverClientError) : Task :=
  let vars := { vars with consecutiveFailures := vars.consecutiveFailures + 1 }
  match classifyHeartbeatErrorTyped e vars.consecutiveFailures (env.now - vars.lastSuccess)
      (leaseSeconds * 1000000000) with
  | .continue | .retryTransient _ => .heartbeat session leaseSeconds vars .waiting
  | .sessionLost _ => .heartbeat session leaseSeconds vars (.lost .removeSession)

/-- A step of the heartbeat task. The `heartbeat` of a tick runs to its end, whatever is cancelled
meanwhile, and its request is of the session that was on record when it read it. -/
def heartbeatStep (session leaseSeconds : ℕ) (vars : HeartbeatLoop) (env : TaskEnv)
    (w : ReceiverState) : HeartbeatStage → List Task × ReceiverState
  | .waiting =>
    match env.ready with
    | .cancelled =>
      if session ∈ w.cancelled then ([.returned (.ok ())], w)
      else ([.heartbeat session leaseSeconds vars .waiting], w)
    | .tick =>
      match w.registry with
      | none =>
        ([heartbeatFailed session leaseSeconds vars env
          (.offline ("receiver not found: " ++ w.receiverId))], w)
      | some _ => ([.heartbeat session leaseSeconds vars .readSession], w)
  | .readSession =>
    match w.activeSession with
    | none =>
      ([heartbeatFailed session leaseSeconds vars env
        (.protocol "NoActiveSession: cannot heartbeat without active session")], w)
    | some sess => ([.heartbeat session leaseSeconds vars (.requesting sess.value)], w)
  | .requesting sess =>
    match env.response with
    | .ok () => ([.heartbeat session leaseSeconds vars .count], w)
    | .error .unauthorized => ([.heartbeat session leaseSeconds vars (.authenticate sess)], w)
    | .error e => ([heartbeatFailed session leaseSeconds vars env e], w)
  | .authenticate sess =>
    if env.authenticated then
      ([.heartbeat session leaseSeconds vars (.requestingAgain sess)], w)
    else ([heartbeatFailed session leaseSeconds vars env .unauthorized], w)
  | .requestingAgain _ =>
    match env.response with
    | .ok () => ([.heartbeat session leaseSeconds vars .count], w)
    | .error e => ([heartbeatFailed session leaseSeconds vars env e], w)
  | .count =>
    ([.heartbeat session leaseSeconds { lastSuccess := env.now } .waiting],
      { w with activeSession := w.activeSession.map fun s =>
          ⟨s.session, { s.value with heartbeatSequence := s.value.heartbeatSequence + 1 }⟩ })
  | .lost stage => lostStep session leaseSeconds vars w stage

/-- What happens to the registry elsewhere: the receiver is forgotten, or registered without a
session. -/
inductive RegistryChange where
  | forget | register

def sessionManager : Machine Call Task TaskEnv RegistryChange ReceiverState where
  enter
    | .startSession n => .start n .insertSession
    | .stopSession => .stop .markClosing
  step
    | .start n stage, env, w => startStep n env w stage
    | .stop stage, env, w => stopStep env w stage
    | .heartbeat session leaseSeconds vars stage, env, w =>
      heartbeatStep session leaseSeconds vars env w stage
    | .returned r, _, w => ([.returned r], w)
  tick
    | .forget, w => { w with registry := none }
    | .register, w => { w with registry := some {} }

abbrev SessionPool := Pool Task ReceiverState

abbrev SessionMove := PoolMove Call TaskEnv RegistryChange

def SessionPool.idle (receiverId : String) (registered : Bool) : SessionPool where
  tasks := []
  world :=
    { receiverId := receiverId
      registry := if registered then some {} else none }

end MichiServer.Receivers
