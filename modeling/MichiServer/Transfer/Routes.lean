import MichiServer.Interleave.Outline
import MichiServer.Transfer.Store

/-!
# The transfer routes

The handlers of `routes/v1/playback_transfer.rs`, as programs of steps: preparing a transfer, which
resolves its tracks and keeps it, committing it, which moves the playback here, and aborting it.
-/

namespace MichiServer.Transfer

open MichiServer.Interleave MichiServer.Playback MichiServer.Queue

abbrev TransferM (α : Type) := TryProg TransferAct.Resp ApiError α

def sure {α : Type} (p : Prog TransferAct.Resp α) : TransferM α := TryProg.lift p

def attempt {α ε : Type} (onError : ε → ApiError) (p : Prog TransferAct.Resp (Except ε α)) :
    TransferM α := do
  let r ← TryProg.lift p
  MonadExcept.ofExcept (r.mapError onError)

def rejectIf (c : Prop) [Decidable c] (error : ApiError) : TransferM Unit :=
  if c then throw error else pure ()

/-- The value, if there is one; otherwise the route ends with the error. -/
def require {α : Type} (x : Option α) (error : ApiError) : TransferM α :=
  match x with
  | some a => pure a
  | none => throw error

section Yields

variable {D : Discipline TransferAct StepEnv TransferWorld} {i : TaskId} {α ε : Type}
  {w : TransferWorld}

theorem yields_attempt {onError : ε → ApiError} {p : Prog TransferAct.Resp (Except ε α)}
    {Q : α → TransferWorld → Prop}
    (h : Outline D semantics i (fun r w' => ∀ a, r = .ok a → Q a w') p w) :
    Yields D semantics i Q (attempt onError p) w := by
  refine .bind (.lift h) fun r w' hr => .ofExcept fun a ha => ?_
  cases r with
  | ok b =>
    cases ha
    exact hr a rfl
  | error e => cases ha

theorem yields_rejectIf {c : Prop} [Decidable c] {error : ApiError} :
    Yields D semantics i (fun _ w' => w' = w) (rejectIf c error) w :=
  .ite (fun _ => .throw error) fun _ => .pure rfl

theorem yields_require {x : Option α} {error : ApiError} :
    Yields D semantics i (fun a w' => x = some a ∧ w' = w) (require x error) w := by
  cases x with
  | none => exact .throw error
  | some a => exact .pure ⟨rfl, rfl⟩

end Yields

def answered (body : TransferM TransferResponse) : Prog TransferAct.Resp Answer := do
  let answer ← body.run
  let _ ← Prog.perform (TransferAct.respond answer)
  pure answer

/-- Both routes that act are closed while the playback module is disabled. -/
def playbackEnabled : TransferM Unit := do
  let disabled : Bool ← sure (.perform TransferAct.playbackDisabled)
  rejectIf (disabled = true)
    (v1Error 403 "MODULE_DISABLED" "playback module is currently disabled")

/-! ## Preparing -/

structure PlaybackTransferPrepareRequest where
  transferId : String
  sourceMichiId : String
  targetMichiId : String
  receiverMichiId : String
  tailsync : TailSyncV1
  nonce : Option String := none

def currentTrackFailed : ContentResolutionError → ApiError
  | .notFound title artist =>
    v1Error 422 "CURRENT_TRACK_NOT_FOUND"
      ("current track '" ++ title ++ "' by '" ++ artist ++ "' not found in local library")
  | .ambiguousMatch title count =>
    v1Error 422 "CURRENT_TRACK_AMBIGUOUS"
      ("ambiguous matches (" ++ toString count ++ ") for current track '" ++ title ++ "'")
  | .database text => databaseError text

def resolveQueue : List ContentRefV1 → TransferM (List Track)
  | [] => pure []
  | qref :: rest => do
    let r : Except ContentResolutionError Track ← sure (.perform (TransferAct.resolve qref))
    let others ← resolveQueue rest
    match r with
    | .ok track => pure (track :: others)
    | .error _ => pure others

def checkedNonce (nonce : Option String) : Option String :=
  (nonce.map Receivers.Trust.trim).filter fun n => n ≠ "" ∧ n ≠ "0"

/-- The epoch the proof expects: one more than the receiver's, or than that of the grant that is held;
a receiver without authority has the first. The sum wraps, as in a release build. -/
def expectedEpoch (receiver : ReceiverRecord) : TransferM ℕ :=
  if receiver.authoritySupported then do
    let st : Option ℕ ← attempt
      (fun e => v1Error 400 "INVALID_RECEIVER_URL" ("receiver base_url is invalid: " ++ e))
      (.perform (TransferAct.authorityState receiver.baseUrl receiver.token))
    match st with
    | some leaseEpoch => pure ((leaseEpoch + 1) % 2 ^ 64)
    | none => do
      let grant : Option ℕ ← sure (.perform (TransferAct.getGrant receiver.receiverId))
      let leaseEpoch ← require grant
        (v1Error 424 "AUTHORITY_STATE_UNAVAILABLE"
          "receiver supports authority but authority state could not be resolved; failing closed")
      pure ((leaseEpoch + 1) % 2 ^ 64)
  else pure 1

def signTargetReadyProof (identity : Identity) (transferId sourceMichiId targetMichiId
    receiverMichiId : String) (expectedEpoch : ℕ) (nonce : String) : String :=
  identity.signBase64url (":".intercalate
    [transferId, sourceMichiId, targetMichiId, receiverMichiId, toString expectedEpoch, nonce])

def checkedReceiver (receiverMichiId : String) : TransferM ReceiverRecord := do
  let found : Option ReceiverRecord ← sure (.perform (TransferAct.findReceiver receiverMichiId))
  let receiver ← require found
    (v1Error 404 "RECEIVER_NOT_FOUND"
      ("receiver '" ++ receiverMichiId ++ "' not found in registry"))
  rejectIf (receiver.paired = false)
    (v1Error 403 "RECEIVER_NOT_PAIRED"
      "receiver must be paired before accepting playback transfer")
  rejectIf (receiver.presence = .offline)
    (v1Error 502 "RECEIVER_OFFLINE" "receiver is currently offline")
  pure receiver

/-- `playback_transfer_prepare_handler`, of the server with this identity. -/
def playbackTransferPrepareHandler (identity : Identity) (body : PlaybackTransferPrepareRequest) :
    TransferM TransferResponse := do
  playbackEnabled
  MonadExcept.ofExcept (body.tailsync.validateBounds.mapError fun e =>
    v1Error 400 "INVALID_TAILSYNC" e.toString)
  rejectIf (body.targetMichiId ≠ "" ∧ body.targetMichiId ≠ identity.michiId)
    (v1Error 400 "TARGET_MISMATCH"
      ("target_michi_id '" ++ body.targetMichiId ++ "' does not match this server '" ++
        identity.michiId ++ "'"))
  let receiver ← checkedReceiver body.receiverMichiId
  let currentTrack : Track ← attempt currentTrackFailed
    (.perform (TransferAct.resolve body.tailsync.currentTrack))
  attempt
    (fun e => v1Error 422 "MEDIA_FILE_INACCESSIBLE"
      ("media file at '" ++ currentTrack.filePath ++ "' is inaccessible: " ++ e))
    (.perform (TransferAct.metadata currentTrack.filePath))
  let preparedQueue ← resolveQueue body.tailsync.queue
  let nonce ← require (checkedNonce body.nonce)
    (v1Error 400 "INVALID_NONCE" "nonce must be provided and non-trivial (cannot be empty or '0')")
  let epoch ← expectedEpoch receiver
  let readyProof := signTargetReadyProof identity body.transferId body.sourceMichiId
    identity.michiId body.receiverMichiId epoch nonce
  sure (.perform (TransferAct.insert fun createdAt expiresAt => {
    transferId := body.transferId
    sourceMichiId := body.sourceMichiId
    targetMichiId := identity.michiId
    receiverMichiId := receiver.receiverId
    tailsync := body.tailsync
    preparedCurrentTrack := currentTrack
    preparedQueue := preparedQueue
    createdAt := createdAt
    expiresAt := expiresAt }))
  pure (.ready body.transferId identity.michiId readyProof currentTrack.id preparedQueue.length
    (defaultTransferTtl / 1000000000))

/-! ## Committing and aborting -/

structure PlaybackTransferCommitRequest where
  transferId : String
  grant : AuthorityGrant

namespace PendingPlaybackTransfer

/-- The tracks a commit installs: those that were resolved, or the current one alone. -/
def queueTracks (p : PendingPlaybackTransfer) : List Track :=
  if p.preparedQueue.isEmpty then [p.preparedCurrentTrack] else p.preparedQueue

/-- The index a commit starts from: that of the transfer, inside the installed tracks. -/
def currentIndex (p : PendingPlaybackTransfer) : ℕ :=
  min p.tailsync.queueIndex (p.queueTracks.length - 1)

def currentTrack (p : PendingPlaybackTransfer) : Track :=
  p.queueTracks[p.currentIndex]?.getD p.preparedCurrentTrack

end PendingPlaybackTransfer

def startTrack (pending : PendingPlaybackTransfer) (plan : ResolvedOutputPlan) : TransferM Unit :=
  if pending.tailsync.status = "playing" then
    attempt commandFailed
      (.perform (TransferAct.play pending.currentTrack plan pending.tailsync.positionMs))
  else
    attempt commandFailed
      (.perform (TransferAct.loadTrack pending.currentTrack pending.tailsync.positionMs))

/-- What a commit does with the transfer it loaded, up to its removal: the output is selected, the
receiver's session started, the queue installed, and the engine brought to the track. It ends with the
id of the session. -/
def applyTransfer (pending : PendingPlaybackTransfer) (grant : AuthorityGrant) : TransferM String := do
  let receiverId := pending.receiverMichiId
  sure (.perform (TransferAct.selectOutput (.receiver receiverId)))
  let sessionId : String ← attempt
    (fun e => v1Error 502 "RECEIVER_SESSION_FAILED"
      ("failed to start receiver session with authority grant: " ++ e))
    (.perform (TransferAct.startSession receiverId grant))
  let queueId : Uuid ← attempt id (.perform TransferAct.getOrCreateActiveQueue)
  attempt id (.perform (TransferAct.installQueue queueId pending.queueTracks))
  attempt (fun e => runtimeSyncFailed (PlaybackError.toString e))
    (.perform (TransferAct.setQueue pending.queueTracks pending.currentIndex
      (some pending.currentTrack.id)))
  let plan : ResolvedOutputPlan ← attempt
    (fun e => v1Error 502 (PlaybackError.errorCode e) e.toString)
    (.perform (TransferAct.resolveOutput receiverId))
  startTrack pending plan
  pure sessionId

def playbackTransferCommitHandler (body : PlaybackTransferCommitRequest) :
    TransferM TransferResponse := do
  playbackEnabled
  let loaded : Option PendingPlaybackTransfer ← sure (.perform (TransferAct.get body.transferId))
  let pending ← require loaded
    (v1Error 404 "TRANSFER_NOT_FOUND_OR_EXPIRED"
      ("transfer '" ++ body.transferId ++ "' expired or not found"))
  rejectIf (Receivers.Trust.trim body.grant.grantToken = "")
    (v1Error 400 "INVALID_GRANT" "grant_token cannot be empty")
  let sessionId ← applyTransfer pending body.grant
  sure (.perform (TransferAct.remove body.transferId))
  pure (.committed body.transferId sessionId)

def playbackTransferAbortHandler (transferId : String) : TransferM TransferResponse := do
  sure (.perform (TransferAct.remove transferId))
  pure (.aborted transferId)

/-! ## Calls -/

inductive TransferCall where
  | prepare (identity : Identity) (body : PlaybackTransferPrepareRequest)
  | commit (body : PlaybackTransferCommitRequest)
  | abort (transferId : String)

def TransferCall.program : TransferCall → Prog TransferAct.Resp Answer
  | .prepare identity body => answered (playbackTransferPrepareHandler identity body)
  | .commit body => answered (playbackTransferCommitHandler body)
  | .abort transferId => answered (playbackTransferAbortHandler transferId)

def TransferCall.alone (call : TransferCall) (envs : ℕ → StepEnv) (w : TransferWorld) :
    Answer × TransferWorld :=
  call.program.solo semantics 0 envs w

abbrev TransferRun := System TransferAct.Resp Answer TransferWorld

/-- The requests arrive, none of them begun, at a server where nothing has been removed or answered. -/
def TransferRun.start (calls : List TransferCall) (server : Server) (now : ℕ)
    (pending : String → Option PendingPlaybackTransfer) : TransferRun where
  tasks := calls.map fun call => some call.program
  world := { server := server, now := now, pendingTransfers := pending }

end MichiServer.Transfer
