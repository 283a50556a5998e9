import MichiServer.Interleave.System
import MichiServer.Queue.Routes
import MichiServer.Transfer.Content

/-!
# What the transfer routes share

The pending transfers, and the rest of the server as the routes of `playback_transfer.rs` see it.
`TransferAct` lists the single steps the routes are made of: a lock taken once, a query, a command to
the engine, a request to a receiver. `exec` is what a step does.

Two things are kept that the source does not keep, and no step reads them: which tasks have removed a
transfer, and which answers have been sent.
-/

namespace MichiServer.Transfer

open MichiServer.Interleave MichiServer.Playback MichiServer.Queue

def defaultTransferTtl : ℕ := 15000000000

structure PendingPlaybackTransfer where
  transferId : String
  sourceMichiId : String
  targetMichiId : String
  receiverMichiId : String
  tailsync : TailSyncV1
  preparedCurrentTrack : Track
  preparedQueue : List Track
  createdAt : DateTime
  expiresAt : ℕ

def PendingPlaybackTransfer.isExpired (now : ℕ) (p : PendingPlaybackTransfer) : Bool :=
  now ≥ p.expiresAt

structure AuthorityGrant where
  authorityInstanceId : String
  leaseEpoch : ℕ
  grantToken : String
  activationExpiresAt : DateTime
deriving DecidableEq

inductive PlaybackOutputSelection where
  | receiver (id : String)
  | roomGroup (id : Uuid)
  | chain (id : Uuid)
deriving DecidableEq

structure ResolvedOutputPlan where
  sinks : List AudioSink
  description : PlaybackOutputDescription

/-- An entry of the receiver registry, with what the transfer routes read besides. -/
structure ReceiverRecord extends Receivers.ReceiverRegistryEntry where
  name : String := ""
  authoritySupported : Bool := false

structure Identity where
  michiId : String
  signBase64url : String → String := id

/-- `AppState`, as far as the transfer routes use it, without the pending transfers. -/
structure Server where
  disabledModules : List String := []
  identity : Identity
  receivers : List ReceiverRecord := []
  catalog : Catalog := {}
  db : QueueTables := .empty
  playbackEngine : EngineTask
  playbackOutputSelection : Option PlaybackOutputSelection := none

inductive TransferResponse where
  | ready (transferId targetMichiId targetReadyProof : String)
      (resolvedCurrentTrackId : Uuid) (resolvedQueueCount expiresInSeconds : ℕ)
  | committed (transferId playbackSessionId : String)
  | aborted (transferId : String)
deriving DecidableEq

abbrev Answer := Except ApiError TransferResponse

structure TransferWorld where
  server : Server
  now : ℕ := 0
  pendingTransfers : String → Option PendingPlaybackTransfer := fun _ => none
  removals : String → List TaskId := fun _ => []
  answers : List (TaskId × Answer) := []

namespace TransferWorld

def insert (p : PendingPlaybackTransfer) (w : TransferWorld) : TransferWorld :=
  { w with pendingTransfers := Function.update w.pendingTransfers p.transferId (some p) }

def get (transferId : String) (w : TransferWorld) : Option PendingPlaybackTransfer :=
  (w.pendingTransfers transferId).filter fun p => ¬ p.isExpired w.now

def remove (task : TaskId) (transferId : String) (w : TransferWorld) : TransferWorld :=
  { w with
    pendingTransfers := Function.update w.pendingTransfers transferId none
    removals := Function.update w.removals transferId (w.removals transferId ++ [task]) }

def checkExpirations (w : TransferWorld) : TransferWorld :=
  { w with pendingTransfers := fun id => w.get id }

def receiver (receiverMichiId : String) (w : TransferWorld) : Option ReceiverRecord :=
  w.server.receivers.find? fun r =>
    r.receiverId = receiverMichiId ∨ r.michiId = some receiverMichiId

def registered (id : String) (w : TransferWorld) : Option ReceiverRecord :=
  (w.server.receivers.find? fun r => r.receiverId = id).or (w.receiver id)

def resolveOutput (id : String) (w : TransferWorld) : Except PlaybackError ResolvedOutputPlan :=
  match w.registered id with
  | none => .error (.receiverNotPaired id)
  | some entry =>
    if ¬ entry.paired then .error (.receiverNotPaired id)
    else .ok ⟨[⟨id, .receiver⟩], ⟨id, entry.name, "receiver", 1⟩⟩

end TransferWorld

inductive TransferAct where
  | playbackDisabled
  | findReceiver (receiverMichiId : String)
  | resolve (content : ContentRefV1)
  | metadata (filePath : String)
  | authorityState (baseUrl : String) (token : Option String)
  | getGrant (receiverId : String)
  | insert (p : DateTime → ℕ → PendingPlaybackTransfer)
  | get (transferId : String)
  | selectOutput (selection : PlaybackOutputSelection)
  | startSession (receiverId : String) (grant : AuthorityGrant)
  | getOrCreateActiveQueue
  | installQueue (queueId : Uuid) (tracks : List Track)
  | setQueue (tracks : List Track) (currentIndex : ℕ) (currentTrackId : Option Uuid)
  | resolveOutput (id : String)
  | play (track : Track) (plan : ResolvedOutputPlan) (positionMs : ℕ)
  | loadTrack (track : Track) (positionMs : ℕ)
  | remove (transferId : String)
  | respond (answer : Answer)

/-- What a step is answered with. An authority state that cannot be had is none; the error is that of
the url. -/
def TransferAct.Resp : TransferAct → Type
  | playbackDisabled => Bool
  | findReceiver _ => Option ReceiverRecord
  | resolve _ => Except ContentResolutionError Track
  | metadata _ => Except String Unit
  | authorityState _ _ => Except String (Option ℕ)
  | getGrant _ => Option ℕ
  | insert _ => Unit
  | get _ => Option PendingPlaybackTransfer
  | selectOutput _ => Unit
  | startSession _ _ => Except String String
  | getOrCreateActiveQueue => Except ApiError Uuid
  | installQueue _ _ => Except ApiError Unit
  | setQueue _ _ _ => Except PlaybackError Unit
  | resolveOutput _ => Except PlaybackError ResolvedOutputPlan
  | play _ _ _ => Except PlaybackError Unit
  | loadTrack _ _ => Except PlaybackError Unit
  | remove _ => Unit
  | respond _ => Unit

/-- What a step meets outside: the wall clock, the ids it draws, the environment of the engine, the
database's failure, and the answers of the file system and of the receiver. -/
structure StepEnv where
  utcNow : DateTime := 0
  uuid : Drawn → Uuid := fun _ => 0
  engine : EngineEnv := { now := 0 }
  dbFault : Option String := none
  metadata : Except String Unit := .ok ()
  authorityState : Except String (Option ℕ) := .ok none
  grantEpoch : Option ℕ := none
  session : Except String String := .ok ""

def StepEnv.request (env : StepEnv) : RequestEnv where
  now := env.utcNow
  uuid := env.uuid
  engine _ := env.engine

namespace TransferWorld

def command {α : Type} (r : EngineTask × Except PlaybackError α) (w : TransferWorld) :
    Except PlaybackError α × TransferWorld :=
  (r.2, { w with server := { w.server with playbackEngine := r.1 } })

def transact {α : Type} (env : StepEnv) (f : QueueTables → Except ApiError (QueueTables × α))
    (w : TransferWorld) : Except ApiError α × TransferWorld :=
  match env.dbFault with
  | some text => (.error (databaseError text), w)
  | none =>
    match f w.server.db with
    | .ok (db, a) => (.ok a, { w with server := { w.server with db := db } })
    | .error e => (.error e, w)

end TransferWorld

def replaceQueue (env : StepEnv) (queueId : Uuid) (tracks : List Track) (db : QueueTables) :
    Except ApiError (QueueTables × Unit) :=
  statement ((db.deleteItems queueId).insertItems
    (QueueTables.numbered queueId (fun i => env.uuid (.item i)) 0 (tracks.map Track.id))) ()

/-- What a step does, for the task that does it. A transfer is stored to expire one TTL from now. -/
def exec (task : TaskId) : (a : TransferAct) → StepEnv → TransferWorld → a.Resp × TransferWorld
  | .playbackDisabled, _, w => (w.server.disabledModules.contains "playback", w)
  | .findReceiver receiverMichiId, _, w => (w.receiver receiverMichiId, w)
  | .resolve content, _, w => (w.server.catalog.resolve content, w)
  | .metadata _, env, w => (env.metadata, w)
  | .authorityState _ _, env, w => (env.authorityState, w)
  | .getGrant _, env, w => (env.grantEpoch, w)
  | .insert p, env, w => ((), w.insert (p env.utcNow (w.now + defaultTransferTtl)))
  | .get transferId, _, w => (w.get transferId, w)
  | .selectOutput selection, _, w =>
    ((), { w with server := { w.server with playbackOutputSelection := some selection } })
  | .startSession _ _, env, w => (env.session, w)
  | .getOrCreateActiveQueue, env, w => w.transact env (findOrCreate env.request)
  | .installQueue queueId tracks, env, w => w.transact env (replaceQueue env queueId tracks)
  | .setQueue tracks currentIndex currentTrackId, env, w =>
    w.command (w.server.playbackEngine.setQueue env.engine tracks currentIndex currentTrackId)
  | .resolveOutput id, _, w => (w.resolveOutput id, w)
  | .play track plan positionMs, env, w =>
    w.command (w.server.playbackEngine.play env.engine track plan.sinks plan.description positionMs)
  | .loadTrack track positionMs, env, w =>
    w.command (w.server.playbackEngine.loadTrack env.engine track positionMs)
  | .remove transferId, _, w => ((), w.remove task transferId)
  | .respond answer, _, w => ((), { w with answers := w.answers ++ [(task, answer)] })

/-- What happens beside the routes: time passes, the expired transfers are dropped, and the rest of the
server changes in whatever way. -/
inductive ServerTick where
  | advance (ns : ℕ)
  | checkExpirations
  | elsewhere (server : Server)

def tick : ServerTick → TransferWorld → TransferWorld
  | .advance ns, w => { w with now := w.now + ns }
  | .checkExpirations, w => w.checkExpirations
  | .elsewhere server, w => { w with server := server }

def semantics : Semantics TransferAct TransferAct.Resp StepEnv ServerTick TransferWorld where
  exec := exec
  tick := tick

end MichiServer.Transfer
