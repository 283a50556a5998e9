import Mathlib
import MichiServer.Basic
import MichiServer.Files.Names
import MichiServer.Logic.Trace

/-!
# The volumes that receivers are sent

A volume reaches a receiver with the start of a session or in a request of its own, from the routes of
receivers, chains and rooms, from the engine through its sinks, and from a transfer. The activation of a
room keeps to the `maximum_safe_volume` of the receiver; no other route reads it. But an entry gets no
maximum or 100 from whoever adds it, and the client sends nothing over 100.
-/

namespace MichiServer.Receivers.Volumes

open MichiServer.Files MichiServer.Logic.Trace

/-! ## State -/

/-- Who adds an entry to the registry. -/
inductive EntryWriter where
  | reconcileRecord
  | authenticateUrl
  | confirmPairing
  | bootstrapRuntime
  | reconcileUnrecoveredPairings

def EntryWriter.maximumSafeVolume : EntryWriter → Option ℕ
  | reconcileRecord | authenticateUrl => none
  | confirmPairing | bootstrapRuntime | reconcileUnrecoveredPairings => some 100

structure Entry where
  paired : Bool := true
  revoked : Bool := false
  hasSessionId : Bool := false
  maximumSafeVolume : Option ℕ := none
deriving DecidableEq

inductive RoomMode where
  | party | relax | custom

def RoomMode.fromConfigStr (s : String) : RoomMode :=
  match toLowercase s with
  | "party" => party
  | "relax" => relax
  | _ => custom

def RoomMode.defaultVolume : RoomMode → ℕ
  | party => 80
  | relax => 40
  | custom => 60

def RoomMode.modeStr : RoomMode → String
  | party => "party"
  | relax => "relax"
  | custom => "custom"

structure RoomGroup where
  mode : String
  receiverIds : List String
  volumes : String → Option ℕ

structure ChainLink where
  receiverId : String
  volume : ℤ

structure Sink where
  receiverId : String
  volume : ℕ := 80

/-- A volume that was sent to a receiver, and the receiver's maximum then. -/
structure Sent where
  receiverId : String
  volume : ℕ
  maximumSafeVolume : Option ℕ

structure VolumeState where
  registry : String → Option Entry := fun _ => none
  activeSessions : String → Bool := fun _ => false
  groups : Uuid → Option RoomGroup := fun _ => none
  chains : Uuid → Option (List ChainLink) := fun _ => none
  volume : ℕ := 80
  sinks : List Sink := []
  sent : List Sent := []

/-- What a start meets: whether the checks and the claim let it through, whether the receiver wants it
repeated with a new token, and whether a session comes of it. -/
structure StartEnv where
  admitted : Bool := true
  repeated : Bool := false
  started : Bool := true

inductive PlaybackOutputSelection where
  | receiver (id : String)
  | roomGroup (id : Uuid)
  | chain (id : Uuid)
deriving DecidableEq

/-! ## The two calls of a client -/

namespace VolumeState

def withEntry (s : VolumeState) (id : String) (entry : Option Entry) : VolumeState :=
  { s with registry := fun id' => if id' = id then entry else s.registry id' }

def maxSafe (s : VolumeState) (id : String) : Option ℕ := (s.registry id).bind (·.maximumSafeVolume)

def paired (s : VolumeState) (id : String) : Bool := (s.registry id).any (·.paired)

def send (s : VolumeState) (id : String) (volume : ℕ) : VolumeState :=
  { s with
    sent := s.sent ++ [⟨id, volume, (s.registry id).bind (·.maximumSafeVolume)⟩] }

/-- The request for a session, once more if the receiver wants it with a new token. -/
def requestSession (s : VolumeState) (id : String) (volume : ℕ) (repeated : Bool) : VolumeState :=
  if repeated then (s.send id volume).send id volume else s.send id volume

/-- The session of a receiver is recorded, and its id is in the registry. -/
def recordSession (s : VolumeState) (id : String) : VolumeState :=
  { s.withEntry id ((s.registry id).map fun e => { e with hasSessionId := true }) with
    activeSessions := fun id' => id' = id || s.activeSessions id' }

/-- `start_session_with_authority`; the client sends no volume over 100. -/
def startSession (s : VolumeState) (id : String) (volume : ℕ) (env : StartEnv) :
    Bool × VolumeState :=
  match s.registry id with
  | none => (false, s)
  | some entry =>
    if entry.revoked || !env.admitted || volume > 100 then (false, s)
    else
      let s := s.requestSession id volume env.repeated
      if env.started then (true, s.recordSession id) else (false, s)

def setVolume (s : VolumeState) (id : String) (volume : ℕ) : VolumeState :=
  match s.registry id with
  | none => s
  | some _ => if !s.activeSessions id || volume > 100 then s else s.send id volume

/-! ## Rooms and chains -/

def activateReceiver (s : VolumeState) (group : RoomGroup) (recvId : String) (env : StartEnv) :
    VolumeState :=
  let vol := (group.volumes recvId).getD (RoomMode.fromConfigStr group.mode).defaultVolume
  let cappedVol :=
    match (s.registry recvId).bind (·.maximumSafeVolume) with
    | some max => min vol max
    | none => vol
  match s.registry recvId with
  | none => s
  | some entry =>
    if !entry.paired then s
    else if entry.hasSessionId then s.setVolume recvId cappedVol
    else
      match s.startSession recvId cappedVol env with
      | (true, s) => s.setVolume recvId cappedVol
      | (false, s) => s

def activateRoomGroup (s : VolumeState) (id : Uuid) (env : String → StartEnv) : VolumeState :=
  match s.groups id with
  | none => s
  | some group =>
    group.receiverIds.foldl (fun s recvId => s.activateReceiver group recvId (env recvId)) s

/-- `set_room_mode_handler`: every stored volume is the one of the mode. -/
def setRoomMode (s : VolumeState) (id : Uuid) (mode : String) : VolumeState :=
  match s.groups id with
  | none => s
  | some group =>
    let newMode := RoomMode.fromConfigStr mode
    { s with
      groups := fun id' =>
        if id' = id then
          some { group with
            mode := newMode.modeStr
            volumes := fun r => (group.volumes r).map fun _ => newMode.defaultVolume }
        else s.groups id' }

def chainVolume (s : VolumeState) (id : Uuid) (volume : Option ℤ) : VolumeState :=
  match volume with
  | none => s
  | some v =>
    if v < 0 ∨ 100 < v then s
    else
      let links := (s.chains id).getD []
      let s := { s with
        chains := fun id' =>
          if id' = id then (s.chains id).map (List.map fun link => { link with volume := v })
          else s.chains id' }
      links.foldl (fun s link =>
        if s.paired link.receiverId then s.setVolume link.receiverId v.toNat else s) s

/-! ## The engine and its sinks -/

/-- The sinks of `resolve_output`. Stored volumes become a `u8`: a room's by its last eight bits, a
link's by a clamp. -/
def resolveOutput (s : VolumeState) : PlaybackOutputSelection → List Sink
  | .receiver id =>
    match s.registry id with
    | some entry => if entry.paired then [{ receiverId := id }] else []
    | none => []
  | .roomGroup id =>
    match s.groups id with
    | some group =>
      (group.receiverIds.filter fun r => (s.registry r).any (·.paired)).map fun r =>
        ⟨r, (group.volumes r).getD 80 % 2 ^ 8⟩
    | none => []
  | .chain id =>
    (((s.chains id).getD []).filter fun link => (s.registry link.receiverId).any (·.paired)).map
      fun link => ⟨link.receiverId, (max 0 (min link.volume 100)).toNat⟩

def prepare (s : VolumeState) (sink : Sink) (env : StartEnv) : Bool × VolumeState :=
  match s.registry sink.receiverId with
  | none => (false, s)
  | some entry =>
    if !entry.paired then (false, s)
    else if s.activeSessions sink.receiverId then (true, s)
    else s.startSession sink.receiverId sink.volume env

/-- The sinks that a playback begins with are prepared; those that fail are dropped. -/
def prepareAll (env : String → StartEnv) : List Sink → VolumeState → List Sink × VolumeState
  | [], s => ([], s)
  | sink :: rest, s =>
    let r := s.prepare sink (env sink.receiverId)
    let r' := prepareAll env rest r.2
    (if r.1 then sink :: r'.1 else r'.1, r'.2)

def playOn (s : VolumeState) (sinks : List Sink) (env : String → StartEnv) : VolumeState :=
  let r := prepareAll env sinks s
  { r.2 with sinks := r.1 }

def engineSetVolume (s : VolumeState) (volume : ℕ) : VolumeState :=
  let v := min volume 100
  let sinks := s.sinks.map fun sink => ({ sink with volume := v } : Sink)
  let s := { s with volume := v, sinks }
  sinks.foldl (fun s sink => s.setVolume sink.receiverId v) s

end VolumeState

/-! ## Requests -/

/-- A request, or what happens to what they read: stored rooms and chains, entries of the registry that
are added, changed and removed, and sessions that end. -/
inductive Request where
  | sessionStart (id : String) (volume : ℕ) (env : StartEnv)
  | receiverVolume (id : String) (volume : ℕ)
  | activateRoomGroup (id : Uuid) (env : String → StartEnv)
  | setRoomMode (id : Uuid) (mode : String)
  | chainVolume (id : Uuid) (volume : Option ℤ)
  | play (selection : PlaybackOutputSelection) (env : String → StartEnv)
  | playAgain (env : String → StartEnv)
  | engineVolume (volume : ℕ)
  | commitTransfer (receiverMichiId : String) (env : StartEnv)
  | storeGroup (id : Uuid) (group : Option RoomGroup)
  | storeChain (id : Uuid) (links : Option (List ChainLink))
  | add (id : String) (writer : EntryWriter) (entry : Entry)
  | getMut (id : String) (entry : Entry)
  | remove (id : String)
  | endSession (id : String)

def step (s : VolumeState) : Request → VolumeState
  | .sessionStart id volume env => (s.startSession id volume env).2
  | .receiverVolume id volume => s.setVolume id volume
  | .activateRoomGroup id env => s.activateRoomGroup id env
  | .setRoomMode id mode => s.setRoomMode id mode
  | .chainVolume id volume => s.chainVolume id volume
  | .play selection env =>
    match s.resolveOutput selection with
    | [] => s
    | sinks => s.playOn sinks env
  | .playAgain env => s.playOn s.sinks env
  | .engineVolume volume => s.engineSetVolume volume
  | .commitTransfer id env => (s.startSession id 80 env).2
  | .storeGroup id group => { s with groups := fun id' => if id' = id then group else s.groups id' }
  | .storeChain id links => { s with chains := fun id' => if id' = id then links else s.chains id' }
  | .add id writer entry => s.withEntry id
      (some { entry with maximumSafeVolume := writer.maximumSafeVolume })
  | .getMut id entry => s.withEntry id ((s.registry id).map fun old =>
      { entry with maximumSafeVolume := old.maximumSafeVolume })
  | .remove id => s.withEntry id none
  | .endSession id =>
    { s.withEntry id ((s.registry id).map fun e => { e with hasSessionId := false }) with
      activeSessions := fun id' => id' ≠ id && s.activeSessions id' }

/-! ## What is asked -/

def Safe (s : VolumeState) : Prop :=
  ∀ x ∈ s.sent, ∀ m ∈ x.maximumSafeVolume, x.volume ≤ m

/-- Every maximum in the registry is 100, and what was sent was safe. -/
structure Inv (s : VolumeState) : Prop where
  maxSafe : ∀ id, ∀ m ∈ s.maxSafe id, m = 100
  safe : Safe s

/-! ## The two calls -/

namespace VolumeState

variable {s : VolumeState} {id : String} {volume : ℕ} {env : StartEnv}

theorem send_inv (h : Inv s) (hvolume : volume ≤ 100) : Inv (s.send id volume) := by
  refine ⟨h.maxSafe, fun x hx => ?_⟩
  rcases List.mem_append.mp hx with hold | hnew
  · exact h.safe x hold
  · rw [List.mem_singleton.mp hnew]
    intro m hm
    rwa [h.maxSafe id m hm]

theorem withEntry_inv (h : Inv s) {entry : Option Entry}
    (hentry : ∀ e ∈ entry, ∀ m ∈ e.maximumSafeVolume, m = 100) : Inv (s.withEntry id entry) := by
  refine ⟨fun id' m hm => ?_, h.safe⟩
  obtain ⟨e, he, hmax⟩ := Option.bind_eq_some_iff.mp hm
  simp only [withEntry] at he
  split at he
  · exact hentry e he m hmax
  · exact h.maxSafe id' m (Option.bind_eq_some_iff.mpr ⟨e, he, hmax⟩)

/-- An entry that is changed keeps its maximum. -/
theorem getMut_inv (h : Inv s) {f : Entry → Entry}
    (hf : ∀ e, (f e).maximumSafeVolume = e.maximumSafeVolume) :
    Inv (s.withEntry id ((s.registry id).map f)) := by
  refine withEntry_inv h fun e he m hm => ?_
  obtain ⟨old, hold, rfl⟩ := Option.map_eq_some_iff.mp he
  rw [hf] at hm
  exact h.maxSafe id m (Option.bind_eq_some_iff.mpr ⟨old, hold, hm⟩)

theorem recordSession_inv (h : Inv s) : Inv (s.recordSession id) :=
  have hentry : Inv (s.withEntry id ((s.registry id).map fun e => { e with hasSessionId := true })) :=
    getMut_inv h fun _ => rfl
  ⟨hentry.maxSafe, hentry.safe⟩

theorem startSession_inv (h : Inv s) : Inv (s.startSession id volume env).2 := by
  unfold startSession
  split
  next => exact h
  next entry _ =>
    split
    next => exact h
    next hgo =>
      simp only [Bool.or_eq_true, decide_eq_true_eq, not_or, Nat.not_lt] at hgo
      have hsent : Inv (s.send id volume) := send_inv h hgo.2
      have hrequest : Inv (s.requestSession id volume env.repeated) := by
        unfold requestSession
        split
        · exact send_inv hsent hgo.2
        · exact hsent
      dsimp only
      split
      · exact recordSession_inv hrequest
      · exact hrequest

theorem setVolume_inv (h : Inv s) : Inv (s.setVolume id volume) := by
  unfold setVolume
  split
  next => exact h
  next =>
    split
    next => exact h
    next hgo =>
      simp only [Bool.or_eq_true, decide_eq_true_eq, not_or, Nat.not_lt] at hgo
      exact send_inv h hgo.2

end VolumeState

/-! ## Requests -/

namespace VolumeState

variable {s : VolumeState}

theorem foldl_inv {α : Type} {f : VolumeState → α → VolumeState} (hstep : ∀ s x, Inv s → Inv (f s x))
    (xs : List α) (h : Inv s) : Inv (xs.foldl f s) := by
  induction xs generalizing s with
  | nil => exact h
  | cons x rest ih => exact ih (hstep s x h)

/-- A receiver of a group that starts is sent a safe volume. -/
theorem activateReceiver_inv (h : Inv s) (group : RoomGroup) (recvId : String) (env : StartEnv) :
    Inv (s.activateReceiver group recvId env) := by
  unfold activateReceiver
  simp only
  split
  next => exact h
  next entry _ =>
    split
    next => exact h
    next =>
      split
      next => exact setVolume_inv h
      next =>
        split
        next s' hs' =>
          obtain rfl : (s.startSession recvId _ env).2 = s' := congrArg Prod.snd hs'
          exact setVolume_inv (startSession_inv h)
        next s' hs' =>
          obtain rfl : (s.startSession recvId _ env).2 = s' := congrArg Prod.snd hs'
          exact startSession_inv h

theorem chainVolume_inv (h : Inv s) (id : Uuid) (volume : Option ℤ) :
    Inv (s.chainVolume id volume) := by
  cases volume with
  | none => exact h
  | some v =>
    simp only [chainVolume]
    split
    next => exact h
    next =>
      refine foldl_inv (fun s link hs => ?_) _ ⟨h.maxSafe, h.safe⟩
      split
      next => exact setVolume_inv hs
      next => exact hs

theorem prepare_inv (h : Inv s) (sink : Sink) (env : StartEnv) : Inv (s.prepare sink env).2 := by
  unfold prepare
  split
  next => exact h
  next =>
    split
    next => exact h
    next =>
      split
      next => exact h
      next => exact startSession_inv h

theorem prepareAll_inv (env : String → StartEnv) (sinks : List Sink) (h : Inv s) :
    Inv (prepareAll env sinks s).2 := by
  induction sinks generalizing s with
  | nil => exact h
  | cons sink rest ih => exact ih (prepare_inv h sink _)

theorem playOn_inv (h : Inv s) (sinks : List Sink) (env : String → StartEnv) :
    Inv (s.playOn sinks env) :=
  have hprepared := prepareAll_inv env sinks h
  ⟨hprepared.maxSafe, hprepared.safe⟩

end VolumeState

open VolumeState

/-- Each request keeps to the safe volumes. -/
theorem step_inv (s : VolumeState) (r : Request) (h : Inv s) : Inv (step s r) := by
  cases r with
  | sessionStart id volume env => exact startSession_inv h
  | receiverVolume id volume => exact setVolume_inv h
  | activateRoomGroup id env =>
    simp only [step, VolumeState.activateRoomGroup]
    split
    next => exact h
    next group _ =>
      exact foldl_inv (fun s recvId h => activateReceiver_inv h group recvId (env recvId)) _ h
  | setRoomMode id mode =>
    simp only [step, VolumeState.setRoomMode]
    split
    next => exact h
    next => exact ⟨h.maxSafe, h.safe⟩
  | chainVolume id volume => exact chainVolume_inv h id volume
  | play selection env =>
    simp only [step]
    split
    next => exact h
    next sinks _ => exact playOn_inv h _ env
  | playAgain env => exact playOn_inv h _ env
  | engineVolume volume =>
    exact foldl_inv (fun _ _ h => setVolume_inv h) _ ⟨h.maxSafe, h.safe⟩
  | commitTransfer id env => exact startSession_inv h
  | storeGroup id group => exact ⟨h.maxSafe, h.safe⟩
  | storeChain id links => exact ⟨h.maxSafe, h.safe⟩
  | add id writer entry =>
    refine withEntry_inv h fun e he m hm => ?_
    cases he
    -- only these three write a maximum
    cases writer with
    | reconcileRecord | authenticateUrl => cases hm
    | confirmPairing | bootstrapRuntime | reconcileUnrecoveredPairings =>
      exact (Option.some.inj hm).symm
  | getMut id entry => exact getMut_inv h fun _ => rfl
  | remove id => exact withEntry_inv h fun _ he => by cases he
  | endSession id =>
    have hentry : Inv (s.withEntry id
        ((s.registry id).map fun e => { e with hasSessionId := false })) :=
      getMut_inv h fun _ => rfl
    exact ⟨hentry.maxSafe, hentry.safe⟩

/-- **Safe volumes.** From the start of the server on, every volume that a run of requests sends to a
receiver is at most the `maximum_safe_volume` that its entry has then. -/
theorem volumes_stay_safe (requests : List Request) : Safe (run step {} requests) :=
  have hstart : Inv {} :=
    ⟨fun _ _ hm => by simp [VolumeState.maxSafe] at hm, fun _ hx => absurd hx List.not_mem_nil⟩
  (run_kept step_inv hstart requests).safe

end MichiServer.Receivers.Volumes
