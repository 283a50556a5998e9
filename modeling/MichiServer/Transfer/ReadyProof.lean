import Mathlib.Data.List.DropRight
import MichiServer.Text.Joined
import MichiServer.Transfer.Traces

/-!
# What a ready proof signs

The proof that a target is ready is a signature over six fields, joined by colons: the ids of the
transfer, of its source, of this server and of the receiver, the epoch that is expected, and the nonce.
The endpoint checks the nonce and that the target is this server, and the receiver must be known; that
an id holds no colon it does not check. So one text can be the payload of two transfers.
-/

namespace MichiServer.Transfer

open MichiServer.Interleave MichiServer.Order MichiServer.Playback MichiServer.Queue

structure ReadyProof where
  transferId : String
  sourceMichiId : String
  targetMichiId : String
  receiverMichiId : String
  expectedEpoch : ℕ
  nonce : String
deriving DecidableEq

def ReadyProof.payload (p : ReadyProof) : String :=
  ":".intercalate [p.transferId, p.sourceMichiId, p.targetMichiId, p.receiverMichiId,
    toString p.expectedEpoch, p.nonce]

def signer (michiId : String) : Identity := { michiId := michiId }

/-- The endpoint of the server accepts the fields: a request with these ids, and a nonce that is this
one when it is checked, is answered with their payload. -/
def Accepts (michiId : String) (p : ReadyProof) : Prop :=
  ∃ (body : PlaybackTransferPrepareRequest) (envs : ℕ → StepEnv) (w : TransferWorld)
    (trackId : Uuid) (count ttl : ℕ),
    body.transferId = p.transferId ∧ body.sourceMichiId = p.sourceMichiId ∧
      body.receiverMichiId = p.receiverMichiId ∧ checkedNonce body.nonce = some p.nonce ∧
      ((TransferCall.prepare (signer michiId) body).alone envs w).1 =
        .ok (.ready p.transferId p.targetMichiId p.payload trackId count ttl)

/-! ## Nonces -/

theorem drop_ends_idem {α : Type} (p : α → Bool) (l : List α) :
    (((l.dropWhile p).rdropWhile p).dropWhile p).rdropWhile p = (l.dropWhile p).rdropWhile p := by
  have hkept : ((l.dropWhile p).rdropWhile p).dropWhile p = (l.dropWhile p).rdropWhile p := by
    obtain ⟨dropped, hprefix⟩ := List.rdropWhile_prefix p (l := l.dropWhile p)
    cases hrest : (l.dropWhile p).rdropWhile p with
    | nil => rfl
    | cons c rest =>
      rw [hrest, List.cons_append] at hprefix
      have hhead : p c = false := by
        have h := List.head?_dropWhile_not p l
        rwa [← hprefix] at h
      rw [List.dropWhile_cons_of_neg (by rw [hhead]; exact Bool.false_ne_true)]
  rw [hkept, List.rdropWhile_idempotent]

theorem trim_trim (s : String) :
    Receivers.Trust.trim (Receivers.Trust.trim s) = Receivers.Trust.trim s := by
  unfold Receivers.Trust.trim
  rw [String.toList_ofList]
  exact congrArg String.ofList (drop_ends_idem _ s.toList)

theorem checkedNonce_idem {given : Option String} {nonce : String}
    (h : checkedNonce given = some nonce) : checkedNonce (some nonce) = some nonce := by
  obtain ⟨hmap, hpasses⟩ := Option.filter_eq_some_iff.mp h
  obtain ⟨s, -, hs⟩ := Option.map_eq_some_iff.mp hmap
  rw [← hs] at hpasses ⊢
  refine Option.filter_eq_some_iff.mpr ⟨?_, hpasses⟩
  rw [Option.map_some, trim_trim]

/-! ## What the endpoint signs -/

section Signed

variable {w : TransferWorld}

theorem quietly_expectedEpoch_lt (receiver : ReceiverRecord) :
    Quietly (fun epoch _ => epoch < 2 ^ 64) (expectedEpoch receiver) w := by
  have hwraps : ∀ n : ℕ, n % 2 ^ 64 < 2 ^ 64 := fun n => Nat.mod_lt n (by decide)
  refine .ite (fun _ => ?_) fun _ => .pure (by decide)
  refine .bind (Q := fun _ _ => True) (yields_attempt (.quiet fun _ _ _ => trivial)) fun st w₁ h₁ => ?_
  cases st with
  | some leaseEpoch => exact .pure (hwraps _)
  | none =>
    refine .bind (.lift (.quiet (a := TransferAct.getGrant receiver.receiverId)
      (Q := fun _ _ => True) fun _ => trivial)) fun grant w₂ h₂ => ?_
    exact .bind yields_require fun leaseEpoch w₃ h₃ => .pure (hwraps _)

theorem quietly_prepare_signs (identity : Identity) (body : PlaybackTransferPrepareRequest) :
    Quietly (fun r _ => ∃ epoch nonce trackId count ttl, epoch < 2 ^ 64 ∧
        checkedNonce body.nonce = some nonce ∧ r = .ready body.transferId identity.michiId
          (signTargetReadyProof identity body.transferId body.sourceMichiId identity.michiId
            body.receiverMichiId epoch nonce) trackId count ttl)
      (playbackTransferPrepareHandler identity body) w := by
  refine .bind quietly_playbackEnabled fun _ w₁ h₁ => ?_
  refine .bind (Q := fun _ _ => True) (.ofExcept fun _ _ => trivial) fun _ w₂ h₂ => ?_
  refine .bind yields_rejectIf fun _ w₃ h₃ => ?_
  refine .bind (quietly_checkedReceiver body.receiverMichiId) fun receiver w₄ h₄ => ?_
  refine .bind (Q := fun _ _ => True) (yields_attempt (.quiet fun _ _ _ => trivial)) fun current w₅ h₅ => ?_
  refine .bind (Q := fun _ _ => True) (yields_attempt (.quiet fun _ _ _ => trivial)) fun _ w₆ h₆ => ?_
  refine .bind (quietly_resolveQueue body.tailsync.queue) fun preparedQueue w₇ h₇ => ?_
  refine .bind yields_require fun nonce w₈ h₈ => ?_
  refine .bind (quietly_expectedEpoch_lt receiver) fun epoch w₉ h₉ => ?_
  refine .bind (Q := fun _ _ => True) (.lift (.quiet fun env => trivial)) fun _ w₁₀ h₁₀ => ?_
  exact .pure ⟨epoch, nonce, _, _, _, h₉, h₈.1, rfl⟩

end Signed

/-! ## What the endpoint accepts -/

def readyBody (p : ReadyProof) : PlaybackTransferPrepareRequest :=
  { sampleBody with
    transferId := p.transferId
    sourceMichiId := p.sourceMichiId
    targetMichiId := ""
    receiverMichiId := p.receiverMichiId
    nonce := some p.nonce
    tailsync := { sampleBody.tailsync with queue := [] } }

def readyReceiver (p : ReadyProof) : ReceiverRecord :=
  { receiverId := p.receiverMichiId, paired := true, presence := .verifiedOnline
    authoritySupported := true }

def readyWorld (p : ReadyProof) : TransferWorld :=
  let w := sampleWorld [2]
  { w with server := { w.server with receivers := [readyReceiver p] } }

def readyEnv (p : ReadyProof) : StepEnv :=
  { authorityState := .ok (some ((p.expectedEpoch + (2 ^ 64 - 1)) % 2 ^ 64)) }

theorem ends_checkedReceiver (p : ReadyProof) (envs : ℕ → StepEnv) :
    Ends semantics 0 (fun r w' => r = .ok (readyReceiver p) ∧ w' = readyWorld p)
      (checkedReceiver p.receiverMichiId) envs (readyWorld p) := by
  have hfound : (readyWorld p).receiver p.receiverMichiId = some (readyReceiver p) := by
    simp [TransferWorld.receiver, readyWorld, readyReceiver]
  unfold checkedReceiver
  refine .perform (a := TransferAct.findReceiver p.receiverMichiId) (c := fun r => r) ?_
  refine ends_require (fun hnone => nomatch hnone.symm.trans hfound) fun receiver hreceiver => ?_
  cases hreceiver.symm.trans hfound
  refine ends_rejectIf (fun hunpaired => nomatch hunpaired) fun _ => ?_
  refine ends_rejectIf (fun hoffline => nomatch hoffline) fun _ => ?_
  exact .pure ⟨rfl, rfl⟩

theorem ends_expectedEpoch {p : ReadyProof} (hepoch : p.expectedEpoch < 2 ^ 64) (w : TransferWorld) :
    Ends semantics 0 (fun r w' => r = .ok p.expectedEpoch ∧ w' = w)
      (expectedEpoch (readyReceiver p)) (fun _ => readyEnv p) w := by
  have hwraps : ((p.expectedEpoch + (2 ^ 64 - 1)) % 2 ^ 64 + 1) % 2 ^ 64 = p.expectedEpoch := by
    omega
  unfold expectedEpoch
  rw [if_pos (show (readyReceiver p).authoritySupported = true from rfl)]
  refine ends_attempt (a := .authorityState "" none) (c := fun r => r) (fun st hst => ?_)
    fun e he => nomatch he
  cases hst
  exact .pure ⟨congrArg Except.ok hwraps, rfl⟩

/-- A request made of the fields of a proof is answered by that proof. -/
theorem ends_ready {p : ReadyProof} (hepoch : p.expectedEpoch < 2 ^ 64)
    (hnonce : checkedNonce (some p.nonce) = some p.nonce) :
    Ends semantics 0 (fun r _ => r = .ok (.ready p.transferId p.targetMichiId p.payload 2 0 15))
      (playbackTransferPrepareHandler (signer p.targetMichiId) (readyBody p))
      (fun _ => readyEnv p) (readyWorld p) := by
  unfold playbackTransferPrepareHandler
  refine ends_playbackEnabled (fun hdisabled => nomatch hdisabled) fun _ => ?_
  have hbounds : (readyBody p).tailsync.validateBounds = .ok () :=
    show TailSyncV1.validateBounds { sampleBody.tailsync with queue := [] } = .ok () by decide
  refine .ofExcept (fun e he => ?_) fun u hu => ?_
  · rw [hbounds] at he
    cases he
  refine ends_rejectIf (fun hother => absurd rfl hother.1) fun _ => ?_
  refine .bind_ok (ends_checkedReceiver p _) fun done => ?_
  have hresolved : (readyWorld p).server.catalog.resolve (sampleRef "2") =
      .ok ⟨2, "/music/a.flac", some 200000⟩ :=
    show (sampleWorld [2]).server.catalog.resolve (sampleRef "2") =
      .ok ⟨2, "/music/a.flac", some 200000⟩ by decide +kernel
  refine ends_attempt (a := .resolve (sampleRef "2")) (c := fun r => r) (fun track htrack => ?_)
    fun e he => nomatch Eq.trans (Eq.symm he) hresolved
  cases Eq.trans (Eq.symm htrack) hresolved
  refine ends_attempt (a := .metadata "/music/a.flac") (c := fun r => r) (fun u hu => ?_)
    fun e he => nomatch he
  have hqueue : ∀ envs w, Ends semantics 0 (fun r w' => r = .ok [] ∧ w' = w) (resolveQueue []) envs w :=
    fun _ _ => .pure ⟨rfl, rfl⟩
  refine .bind_ok (hqueue _ _) fun done => ?_
  refine ends_require (fun hnone => nomatch hnone.symm.trans hnonce) fun nonce hchecked => ?_
  cases hchecked.symm.trans hnonce
  refine .bind_ok (ends_expectedEpoch hepoch _) fun done => ?_
  exact .perform (a := TransferAct.insert _) (c := fun r => r) (.pure rfl)

/-! ## The payload as joined fields -/

namespace ReadyProof

def fields (p : ReadyProof) : Text.Fields Char :=
  ⟨p.transferId.toList, p.sourceMichiId.toList, p.receiverMichiId.toList,
    (toString p.expectedEpoch).toList, p.nonce.toList⟩

def IsEpoch (text : List Char) : Prop := ∃ n : ℕ, n < 2 ^ 64 ∧ text = (toString n).toList

def IsNonce (text : List Char) : Prop :=
  checkedNonce (some (String.ofList text)) = some (String.ofList text)

theorem toList_payload (p : ReadyProof) :
    p.payload.toList = p.fields.text ':' p.targetMichiId.toList := by
  simp [payload, Text.Fields.text, fields]

theorem payload_eq_iff {p p' : ReadyProof} (htarget : p'.targetMichiId = p.targetMichiId) :
    p'.payload = p.payload ↔ p'.fields.text ':' p.targetMichiId.toList =
      p.fields.text ':' p.targetMichiId.toList := by
  rw [← String.toList_inj, toList_payload, toList_payload, htarget]

theorem colon_notMem_of_isEpoch (text : List Char) (h : IsEpoch text) : ':' ∉ text := by
  obtain ⟨n, -, rfl⟩ := h
  exact fun hmem => nomatch Text.isDigit_of_mem_toString hmem

theorem fields_inj {p p' : ReadyProof} (htarget : p'.targetMichiId = p.targetMichiId)
    (h : p'.fields = p.fields) : p' = p := by
  obtain ⟨t, s, m, r, e, n⟩ := p
  obtain ⟨t', s', m', r', e', n'⟩ := p'
  simp only [fields, Text.Fields.mk.injEq, String.toList_inj] at h htarget
  obtain ⟨rfl, rfl, rfl, hepoch, rfl⟩ := h
  cases htarget
  cases Text.toString_inj.mp (congrArg String.toList hepoch)
  rfl

end ReadyProof

/-- The fields that a server signs. -/
theorem accepts_iff {michiId : String} {p : ReadyProof} :
    Accepts michiId p ↔ p.targetMichiId = michiId ∧ p.expectedEpoch < 2 ^ 64 ∧
      checkedNonce (some p.nonce) = some p.nonce := by
  constructor
  · rintro ⟨body, envs, w, trackId, count, ttl, htransfer, hsource, hreceiver, hnonce, hrun⟩
    obtain ⟨epoch, nonce, trackId', count', ttl', hepoch, hnonce', hready⟩ :=
      quietly_answered (quietly_prepare_signs (signer michiId) body) (fun _ _ _ h => h) hrun
    cases hnonce.symm.trans hnonce'
    obtain ⟨-, htarget, hpayload, -⟩ := TransferResponse.ready.inj hready
    have htarget : p.targetMichiId = michiId := htarget
    have hsame : ({ p with expectedEpoch := epoch } : ReadyProof).payload = p.payload := by
      rw [hpayload, htransfer, hsource, hreceiver, ← htarget]
      rfl
    have htext := (ReadyProof.payload_eq_iff (show ({ p with expectedEpoch := epoch } :
      ReadyProof).targetMichiId = p.targetMichiId from rfl)).mp hsame
    simp only [ReadyProof.fields, Text.Fields.text, List.append_cancel_left_eq, List.cons.injEq,
      true_and, List.append_left_inj] at htext
    grind [Text.toString_inj, checkedNonce_idem]
  · rintro ⟨rfl, hepoch, hnonce⟩
    refine ⟨readyBody p, fun _ => readyEnv p, readyWorld p, 2, 0, 15, rfl, rfl, rfl, hnonce, ?_⟩
    exact (solo_answered _ _ _).1.trans (ends_ready hepoch hnonce).ends

/-- No field of the proof hides the end of another. The ids of the transfer and of the source hold no
colon, and the target's does not come again in the receiver's after it; and no part of the receiver's id
or of the nonce is an epoch that could be the one expected, with what follows it as the nonce. -/
def ReadyProof.Plain (p : ReadyProof) : Prop :=
  p.fields.Plain ':' p.targetMichiId.toList ReadyProof.IsEpoch ReadyProof.IsNonce

theorem valid_of_accepts {michiId : String} {p : ReadyProof} (h : Accepts michiId p) :
    p.fields.Valid ReadyProof.IsEpoch ReadyProof.IsNonce := by
  obtain ⟨-, hepoch, hnonce⟩ := accepts_iff.mp h
  refine ⟨⟨p.expectedEpoch, hepoch, rfl⟩, ?_⟩
  rw [ReadyProof.IsNonce, ReadyProof.fields, String.ofList_toList]
  exact hnonce

theorem exists_accepted {michiId : String} {f : Text.Fields Char}
    (h : f.Valid ReadyProof.IsEpoch ReadyProof.IsNonce) :
    ∃ p, Accepts michiId p ∧ p.targetMichiId = michiId ∧ p.fields = f := by
  obtain ⟨n, hn, hfifth⟩ := h.fifth
  refine ⟨⟨String.ofList f.first, String.ofList f.second, michiId, String.ofList f.fourth, n,
    String.ofList f.last⟩, accepts_iff.mpr ⟨rfl, hn, h.last⟩, rfl, ?_⟩
  ext1 <;> simp [ReadyProof.fields, hfifth]

/-- The payload of an accepted proof is that of no other one exactly if its fields are plain. -/
theorem ready_proof_payload_unique_iff {michiId : String} {p : ReadyProof}
    (h : Accepts michiId p) :
    (∀ p', Accepts michiId p' → p'.payload = p.payload → p' = p) ↔ p.Plain := by
  have htarget : ∀ {p' : ReadyProof}, Accepts michiId p' → p'.targetMichiId = p.targetMichiId :=
    fun h' => (accepts_iff.mp h').1.trans (accepts_iff.mp h).1.symm
  rw [ReadyProof.Plain, ← Text.Fields.unique_iff ReadyProof.colon_notMem_of_isEpoch
    (valid_of_accepts h)]
  constructor
  · intro hunique f hvalid htext
    obtain ⟨p', haccepts, -, hfields⟩ := @exists_accepted michiId f hvalid
    have hpayload : p'.payload = p.payload := by
      rw [ReadyProof.payload_eq_iff (htarget haccepts), hfields]
      exact htext
    rw [← hfields, hunique p' haccepts hpayload]
  · intro hunique p' haccepts hpayload
    refine ReadyProof.fields_inj (htarget haccepts) (hunique _ (valid_of_accepts haccepts) ?_)
    exact (ReadyProof.payload_eq_iff (htarget haccepts)).mp hpayload

theorem plain_of_notMem {p : ReadyProof} (htransfer : ':' ∉ p.transferId.toList)
    (hsource : ':' ∉ p.sourceMichiId.toList) (hreceiver : ':' ∉ p.receiverMichiId.toList)
    (hnonce : ':' ∉ p.nonce.toList) : p.Plain :=
  Text.Fields.plain_of_notMem htransfer hsource hreceiver hnonce

/-! ### Two transfers of one payload -/

def sampleProof : ReadyProof := ⟨"transfer-1", "player", "micro", "kitchen", 1, "nonce-1"⟩

theorem accepts_sample : Accepts "micro" sampleProof :=
  accepts_iff.mpr ⟨rfl, by decide, by decide +kernel⟩

/-- No other proof has its payload. -/
theorem ready_proof_payload_unique_iff_sample :
    ¬ ∃ p', Accepts "micro" p' ∧ p'.payload = sampleProof.payload ∧ p' ≠ sampleProof := by
  rintro ⟨p', haccepts, hpayload, hne⟩
  have hplain : sampleProof.Plain :=
    plain_of_notMem (by decide) (by decide) (by decide) (by decide)
  exact hne ((ready_proof_payload_unique_iff accepts_sample).mpr hplain p' haccepts hpayload)

/-- A colon in the id of the transfer, or in that of the source: one text is signed for both. -/
theorem ready_proof_of_two_transfers :
    ¬ ∀ (michiId : String) (p p' : ReadyProof), Accepts michiId p → Accepts michiId p' →
      p.payload = p'.payload → p = p' := by
  intro h
  have hne : ({ sampleProof with transferId := "transfer:1" } : ReadyProof) ≠
      { sampleProof with transferId := "transfer", sourceMichiId := "1:player" } := by decide
  exact hne (h "micro" _ _ (accepts_iff.mpr ⟨rfl, by decide, by decide +kernel⟩)
    (accepts_iff.mpr ⟨rfl, by decide, by decide +kernel⟩) (by decide +kernel))

end MichiServer.Transfer
