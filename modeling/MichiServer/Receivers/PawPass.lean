import MichiServer.Receivers.Grants
import MichiServer.Transfer.Content

/-!
# Passing a receiver to another server

`PawPassCoordinator::transfer_to` prepares the target, has the receiver hand its authority over, tells
the target and stops the local session. Each of these may fail; the question is who owns the receiver
when the transfer returns.
-/

namespace MichiServer.Receivers.PawPass

open MichiServer.Receivers.Lockstep MichiServer.Transfer

structure Local where
  manager : SessionManager
  gate : AuthorityGate := {}

namespace Local

/-- `write_pcm` finds a transport of the receiver. A transport that is paused sends what it is given. -/
def emits (l : Local) (id : String) : Bool := (l.manager.activeTransports id).isSome

def stopSession (urlOk : String → Bool) (id : String) (stopped : Except String Unit) (l : Local) :
    Except String Unit × Local :=
  let manager := (l.manager.stopSession id stopped).2
  match (l.manager.stopSession id stopped).1, l.manager.registry.get id with
  | .ok (), some entry => (.ok (), ⟨manager, l.gate.releaseGrant urlOk entry⟩)
  | result, _ => (result, { l with manager })

end Local

inductive PawPassError where
  | receiverNotFound (receiverId : String)
  | receiverNotPaired (receiverId : String)
  | noActiveAuthority (receiverId : String)
  | target (text : String)
  | authority (e : AuthorityError)
  | http (text : String)
  | protocol (text : String)

structure TransferReceipt where
  transferId : String
  targetMichiId : String
  receiverMichiId : String
  status : String

/-- What the target answers to the prepare: nothing, a status that is no success, a body that is no
JSON, or a body with or without a proof. -/
inductive PrepareAnswer where
  | failed (text : String)
  | refused (errTxt : String)
  | unreadable (text : String)
  | answered (targetReadyProof : Option String)

/-- What the receiver does with a handoff: it keeps its authority here, or hands it over, and then its
answer may still be lost. -/
inductive Handoff where
  | kept (e : AuthorityError)
  | handed (answer : Except AuthorityError AuthorityGrant)

inductive CommitAnswer where
  | failed (text : String)
  | refused (errTxt : String)
  | accepted

/-- What a transfer meets: the id and the nonce it draws, the time, and what the three machines
answer. -/
structure TransferEnv where
  transferId : String
  timestampMs : ℤ
  nonce : String
  urlOk : String → Except String Unit
  prepare : PrepareAnswer
  handoff : Handoff
  commit : CommitAnswer
  stopped : Except String Unit

structure TransferRequest where
  targetMichiId : String
  receiverId : String
  targetBaseUrl : String
  currentTrack : ContentRefV1
  queue : List ContentRefV1
  queueIndex : ℕ
  positionMs : ℕ
  isPlaying : Bool

inductive Message where
  | prepare (url : String) (tailsync : TailSyncV1) (nonce : String)
  | handoff (url : String) (token : Option String) (targetMichiId targetProof : String)
      (stamp : AuthorityStamp)
  | commit (url transferId : String) (grant : AuthorityGrant)

/-- What a transfer returns, whether the receiver handed its authority over, what was sent, and what is
left here. -/
structure Outcome where
  result : Except PawPassError TransferReceipt
  handedOver : Bool
  sent : List Message
  left : Local

def endpoint (targetBaseUrl path : String) : String :=
  String.ofList (targetBaseUrl.toList.reverse.dropWhile fun c => c == '/').reverse ++ path

section

variable (michiId : String) (env : TransferEnv)

def tailsync (r : TransferRequest) (receiverMichiId : String) : TailSyncV1 where
  transferId := env.transferId
  sourceMichiId := michiId
  targetMichiId := r.targetMichiId
  receiverMichiId
  status := if r.isPlaying then "playing" else "paused"
  positionMs := r.positionMs
  currentTrack := r.currentTrack
  queue := r.queue
  queueIndex := r.queueIndex
  repeatMode := "off"
  shuffle := false
  timestampMs := env.timestampMs
  sourceRevision := 1

def finish (r : TransferRequest) (receiverMichiId : String) (sent : List Message) (l : Local) :
    Outcome :=
  let urlOk url := (env.urlOk url).toOption.isSome
  match env.commit with
  | .failed text => ⟨.error (.http text), true, sent, l⟩
  | .refused errTxt =>
    -- the receiver belongs to the target, so the local session ends
    ⟨.error (.target ("commit failed: " ++ errTxt)), true, sent,
      (l.stopSession urlOk r.receiverId env.stopped).2⟩
  | .accepted =>
    ⟨.ok ⟨env.transferId, r.targetMichiId, receiverMichiId, "committed"⟩, true, sent,
      (l.stopSession urlOk r.receiverId env.stopped).2⟩

def handOver (r : TransferRequest) (entry : ReceiverRegistryEntry) (receiverMichiId readyProof : String)
    (sent : List Message) (l : Local) : Outcome :=
  match l.gate.getGrant r.receiverId with
  | none => ⟨.error (.noActiveAuthority r.receiverId), false, sent, l⟩
  | some currentGrant =>
    match env.urlOk entry.baseUrl with
    | .error e => ⟨.error (.protocol ("invalid receiver url: " ++ e)), false, sent, l⟩
    | .ok () =>
      let sent := sent ++
        [.handoff entry.baseUrl entry.token r.targetMichiId readyProof currentGrant.stamp]
      match env.handoff with
      | .kept e => ⟨.error (.authority e), false, sent, l⟩
      | .handed (.error e) => ⟨.error (.authority e), true, sent, l⟩
      | .handed (.ok targetGrant) =>
        finish env r receiverMichiId
          (sent ++ [.commit (endpoint r.targetBaseUrl "/api/v1/playback-transfer/commit")
            env.transferId targetGrant]) l

def transferTo (r : TransferRequest) (l : Local) : Outcome :=
  match l.manager.registry.get r.receiverId with
  | none => ⟨.error (.receiverNotFound r.receiverId), false, [], l⟩
  | some entry =>
    if !entry.paired then ⟨.error (.receiverNotPaired r.receiverId), false, [], l⟩
    else
      let receiverMichiId := entry.michiId.getD r.receiverId
      let sent := [.prepare (endpoint r.targetBaseUrl "/api/v1/playback-transfer/prepare")
        (tailsync michiId env r receiverMichiId) env.nonce]
      match env.prepare with
      | .failed text => ⟨.error (.http text), false, sent, l⟩
      | .refused errTxt => ⟨.error (.target ("prepare failed: " ++ errTxt)), false, sent, l⟩
      | .unreadable text => ⟨.error (.http text), false, sent, l⟩
      | .answered none => ⟨.error (.protocol "missing target_ready_proof"), false, sent, l⟩
      | .answered (some readyProof) =>
        handOver env r entry receiverMichiId readyProof sent l

/-! ## One owner -/

/-- A receiver that was handed over gets no audio from here, and its old grant is gone; one that was not
is as it was. -/
structure OneOwner (receiverId : String) (l : Local) (o : Outcome) : Prop where
  handed : o.handedOver = true → o.left.emits receiverId = false ∧
    o.left.gate.getGrant receiverId ≠ l.gate.getGrant receiverId
  kept : o.handedOver = false → o.left = l

/-- The transfer comes to the handoff: the receiver is paired, the target is ready, and there is a grant
and a URL to hand over with. -/
def Reaches (r : TransferRequest) (l : Local) : Prop :=
  ∃ entry proof, l.manager.registry.get r.receiverId = some entry ∧ entry.paired = true ∧
    env.prepare = .answered (some proof) ∧ (l.gate.getGrant r.receiverId).isSome = true ∧
    env.urlOk entry.baseUrl = .ok ()

def Recorded (id : String) (l : Local) : Prop :=
  (l.manager.activeSessions id).isSome = true ∧
    ∀ entry ∈ l.manager.registry.get id, entry.receiverId = id

/-- The answers after a handoff that end the local session: the receiver's and the target's arrive, and
the receiver lets the session be stopped. -/
def Answered (receiverAnswer : Except AuthorityError AuthorityGrant) : Prop :=
  receiverAnswer.toOption.isSome = true ∧ (∀ text, env.commit ≠ .failed text) ∧ env.stopped = .ok ()

variable {entry : ReceiverRegistryEntry}

theorem stopSession_gate (urlOk : String → Bool) {id : String} {l : Local}
    (hentry : l.manager.registry.get id = some entry) (stopped : Except String Unit) :
    (l.stopSession urlOk id stopped).2.gate =
      if (l.manager.activeSessions id).isSome ∧ stopped = .ok () then l.gate.releaseGrant urlOk entry
      else l.gate := by
  grind [Local.stopSession, SessionManager.stopSession, SessionManager.closeSession]

theorem stopSession_emits (urlOk : String → Bool) {id : String} {l : Local}
    (hentry : l.manager.registry.get id = some entry)
    (hsess : (l.manager.activeSessions id).isSome = true) :
    (l.stopSession urlOk id (.ok ())).2.emits id = false := by
  obtain ⟨sess, hsess⟩ := Option.isSome_iff_exists.mp hsess
  simp [Local.stopSession, Local.emits, SessionManager.stopSession, SessionManager.closeSession,
    SessionManager.removeSession, hsess, hentry]

theorem stopped_iff (urlOk : String → Bool) {id : String} {l : Local}
    (hentry : l.manager.registry.get id = some entry) (hgrant : (l.gate.getGrant id).isSome = true)
    (stopped : Except String Unit) :
    ((l.stopSession urlOk id stopped).2.emits id = false ∧
      (l.stopSession urlOk id stopped).2.gate.getGrant id ≠ l.gate.getGrant id) ↔
    Recorded id l ∧ stopped = .ok () := by
  obtain ⟨grant, hgrant⟩ := Option.isSome_iff_exists.mp hgrant
  rw [stopSession_gate urlOk hentry]
  split
  next h =>
    obtain ⟨hsess, rfl⟩ := h
    have hheld : (l.gate.releaseGrant urlOk entry).getGrant id =
        if entry.receiverId = id then none else some grant := by
      rw [AuthorityGate.getGrant, AuthorityGate.releaseGrant_activeGrants, Function.update_apply,
        ← hgrant, AuthorityGate.getGrant]
      simp only [eq_comm]
    grind [stopSession_emits, Recorded]
  next h =>
    refine iff_of_false (fun hends => hends.2 rfl) fun hends => h ⟨hends.1.1, hends.2⟩

variable (r : TransferRequest) (l : Local)

/-- A transfer that does not reach the handover hands nothing over and leaves everything. -/
theorem transferTo_of_not_reaches (h : ¬ Reaches env r l) :
    (transferTo michiId env r l).handedOver = false ∧ (transferTo michiId env r l).left = l := by
  rw [transferTo]
  split
  next _ => exact ⟨rfl, rfl⟩
  next entry hentry =>
    split
    next _ => exact ⟨rfl, rfl⟩
    next hpaired =>
      have hpaired : entry.paired = true := by simpa using hpaired
      cases hprepare : env.prepare with
      | failed text => exact ⟨rfl, rfl⟩
      | refused errTxt => exact ⟨rfl, rfl⟩
      | unreadable text => exact ⟨rfl, rfl⟩
      | answered proof =>
        cases proof with
        | none => exact ⟨rfl, rfl⟩
        | some proof =>
          simp only [handOver]
          cases hgrant : l.gate.getGrant r.receiverId with
          | none => exact ⟨rfl, rfl⟩
          | some grant =>
            cases hurl : env.urlOk entry.baseUrl with
            | error e => exact ⟨rfl, rfl⟩
            | ok u =>
              exact absurd ⟨entry, proof, hentry, hpaired, hprepare, by rw [hgrant]; rfl, hurl⟩ h

theorem transferTo_of_reaches (h : Reaches env r l) :
    match env.handoff with
    | .kept _ =>
      (transferTo michiId env r l).handedOver = false ∧ (transferTo michiId env r l).left = l
    | .handed (.error _) =>
      (transferTo michiId env r l).handedOver = true ∧ (transferTo michiId env r l).left = l
    | .handed (.ok _) =>
      ∃ receiverMichiId sent, transferTo michiId env r l = finish env r receiverMichiId sent l := by
  obtain ⟨entry, proof, hentry, hpaired, hprepare, hgrant, hurl⟩ := h
  obtain ⟨grant, hgrant⟩ := Option.isSome_iff_exists.mp hgrant
  simp only [transferTo, handOver, hentry, hpaired, hprepare, hgrant, hurl, Bool.not_true,
    Bool.false_eq_true, if_false]
  cases hhandoff : env.handoff with
  | kept e => exact ⟨rfl, rfl⟩
  | handed answer =>
    cases answer with
    | error e => exact ⟨rfl, rfl⟩
    | ok targetGrant => exact ⟨_, _, rfl⟩

theorem finish_one_owner_iff (hentry : l.manager.registry.get r.receiverId = some entry)
    (hgrant : (l.gate.getGrant r.receiverId).isSome = true) (receiverMichiId : String)
    (sent : List Message) :
    OneOwner r.receiverId l (finish env r receiverMichiId sent l) ↔
      (∀ text, env.commit ≠ .failed text) ∧ Recorded r.receiverId l ∧ env.stopped = .ok () := by
  cases hcommit : env.commit with
  | failed text =>
    refine iff_of_false (fun h => ?_) fun h => h.1 text rfl
    rw [finish, hcommit] at h
    exact (h.handed rfl).2 rfl
  | refused errTxt =>
    rw [finish, hcommit, ← stopped_iff (fun url => (env.urlOk url).toOption.isSome) hentry hgrant]
    exact ⟨fun h => ⟨by simp, h.handed rfl⟩, fun h => ⟨fun _ => h.2, by simp⟩⟩
  | accepted =>
    rw [finish, hcommit, ← stopped_iff (fun url => (env.urlOk url).toOption.isSome) hentry hgrant]
    exact ⟨fun h => ⟨by simp, h.handed rfl⟩, fun h => ⟨fun _ => h.2, by simp⟩⟩

/-- A transfer leaves the receiver one owner exactly if it does not come to the handoff, or the receiver
keeps its authority here, or a session is recorded here and everything after the handoff is answered. -/
theorem transfer_one_owner_iff : OneOwner r.receiverId l (transferTo michiId env r l) ↔
    (Reaches env r l → ∀ answer, env.handoff = .handed answer →
      Recorded r.receiverId l ∧ Answered env answer) := by
  by_cases hreaches : Reaches env r l
  · have htransfer := transferTo_of_reaches michiId env r l hreaches
    have hreached := hreaches
    obtain ⟨entry, proof, hentry, -, -, hgrant, -⟩ := hreached
    cases hhandoff : env.handoff with
    | kept e =>
      rw [hhandoff] at htransfer
      refine iff_of_true ⟨fun h => ?_, fun _ => htransfer.2⟩ (by simp)
      rw [htransfer.1] at h
      cases h
    | handed answer =>
      cases answer with
      | error e =>
        rw [hhandoff] at htransfer
        obtain ⟨hhanded, hleft⟩ := htransfer
        refine iff_of_false (fun h => ?_) fun h => ?_
        · exact (h.handed hhanded).2 (by rw [hleft])
        · have hanswered := (h hreaches _ rfl).2.1
          cases hanswered
      | ok targetGrant =>
        rw [hhandoff] at htransfer
        obtain ⟨receiverMichiId, sent, htransfer⟩ := htransfer
        rw [htransfer, finish_one_owner_iff env r l hentry hgrant]
        constructor
        · rintro ⟨hcommit, hrecorded, hstopped⟩ _ answer hanswer
          cases hanswer
          exact ⟨hrecorded, rfl, hcommit, hstopped⟩
        · intro h
          obtain ⟨hrecorded, -, hcommit, hstopped⟩ := h hreaches _ rfl
          exact ⟨hcommit, hrecorded, hstopped⟩
  · obtain ⟨hhanded, hleft⟩ := transferTo_of_not_reaches michiId env r l hreaches
    refine iff_of_true ⟨fun h => ?_, fun _ => hleft⟩ fun h => absurd h hreaches
    rw [hhanded] at h
    cases h

end

/-! ## A transfer that leaves two owners -/

def sampleGrant (epoch : ℕ) : AuthorityGrant := ⟨"perch", epoch, "token", 0⟩

def sampleLocal : Local where
  manager :=
    { registry := { receivers := [{ receiverId := "kitchen", paired := true }] }
      activeSessions := fun id => if id = "kitchen" then some (.ofNegotiated sampleSession) else none
      activeTransports := fun id => if id = "kitchen" then some ("s1", {}) else none }
  gate := { activeGrants := fun id => if id = "kitchen" then some (sampleGrant 1) else none }

def sampleRequest : TransferRequest where
  targetMichiId := "target"
  receiverId := "kitchen"
  targetBaseUrl := "http://target/"
  currentTrack := { title := "song", artist := "band", durationMs := 1 }
  queue := []
  queueIndex := 0
  positionMs := 0
  isPlaying := true

def sampleEnv (commit : CommitAnswer) (stopped : Except String Unit) : TransferEnv where
  transferId := "pawpass-1"
  timestampMs := 0
  nonce := "1"
  urlOk _ := .ok ()
  prepare := .answered (some "proof")
  handoff := .handed (.ok (sampleGrant 2))
  commit
  stopped

/-- After a commit that gets no answer the receiver's audio goes on and its grant is kept; after one that
is answered the grant is kept if the receiver refuses the stop. -/
theorem transfer_leaves_two_owners :
    ¬ OneOwner "kitchen" sampleLocal
      (transferTo "micro" (sampleEnv (.failed "timeout") (.ok ())) sampleRequest sampleLocal) ∧
    ¬ OneOwner "kitchen" sampleLocal
      (transferTo "micro" (sampleEnv .accepted (.error "not the owner")) sampleRequest
        sampleLocal) := by
  constructor
  · intro h
    have hsilent := (h.handed (by decide +kernel)).1
    exact absurd hsilent (by decide +kernel)
  · intro h
    have hgone := (h.handed (by decide +kernel)).2
    exact hgone (by decide +kernel)

end MichiServer.Receivers.PawPass
