import MichiServer.Interleave.History
import MichiServer.Upload.Runs

/-!
# The heartbeat of a call that has returned

`verify_and_finalize_upload` spawns a heartbeat once it holds the lease. Most of its exits cancel it and
wait for it; the two reads that leave with `?` after the spawn do not, and neither dropping the
cancellation token nor dropping the handle ends the task. So the heartbeat goes on renewing the lease of
a call that is over, for as long as the process runs.

What a call has done and was answered is its history, and the exits are told apart by it: `pending` are
the heartbeats it spawned and has not cancelled. `closes_verifyAndFinalizeUpload` follows the call down
to each exit, whatever it is answered; `heartbeats_cancelled_iff` is about the calls of any run.
-/

namespace MichiServer.Upload

open MichiServer.Interleave

abbrev CallHistory := List (Done UploadAct.Resp)

/-! ## What the histories say -/

def pending : CallHistory → List Token
  | [] => []
  | ⟨.spawnHeartbeat token _, _⟩ :: past => token :: pending past
  | ⟨.joinHeartbeat token, _⟩ :: past => (pending past).filter fun t => t ≠ token
  | _ :: past => pending past

/-- The last step was a read that failed with its heartbeat running: the chunk indices right after the
spawn, or the length of the file that was just seen there. -/
def LeavesAt : CallHistory → Prop
  | ⟨.selectChunkIndices, indices⟩ :: ⟨.spawnHeartbeat _ _, _⟩ :: _ =>
    (indices : Option (List ℕ)).isNone
  | ⟨.metadata p, len⟩ :: ⟨.metadata q, seen⟩ :: _ =>
    p = q ∧ (seen : Option ℕ).isSome ∧ (len : Option ℕ).isNone
  | _ => False

def ReadFailed : CallHistory → Prop
  | [] => False
  | x :: past => LeavesAt (x :: past) ∨ ReadFailed past

instance : DecidablePred LeavesAt := fun past => by
  unfold LeavesAt
  split <;> infer_instance

instance : DecidablePred ReadFailed
  | [] => .isFalse id
  | x :: past =>
    have : Decidable (ReadFailed past) := instDecidablePredCallHistoryReadFailed past
    inferInstanceAs (Decidable (LeavesAt (x :: past) ∨ ReadFailed past))

def Drawn (token : Token) (past : CallHistory) : Prop := ⟨.newUuid, (token : ℕ)⟩ ∈ past

def WatchPre : UploadAct → CallHistory → Prop
  | .spawnHeartbeat token _, past => Drawn token past
  | _, _ => True

/-- The other steps: no heartbeat is spawned or cancelled, and no name looked up. -/
def Plain : UploadAct → Prop
  | .spawnHeartbeat _ _ | .joinHeartbeat _ | .metadata _ => False
  | _ => True

def NotSpawn : UploadAct → Prop
  | .spawnHeartbeat _ _ => False
  | _ => True

def NotLook : UploadAct → Prop
  | .metadata _ => False
  | _ => True

variable {a : UploadAct} {past : CallHistory} {token : Token} {past past' : CallHistory}

theorem Plain.watchPre (h : Plain a) (past : CallHistory) : WatchPre a past := by
  cases a with
  | spawnHeartbeat => exact h.elim
  | _ => trivial

theorem Plain.notSpawn (h : Plain a) : NotSpawn a := by
  cases a with
  | spawnHeartbeat => exact h.elim
  | _ => trivial

theorem Plain.notLook (h : Plain a) : NotLook a := by
  cases a with
  | metadata => exact h.elim
  | _ => trivial

theorem pending_plain (h : Plain a) (r : a.Resp) (past : CallHistory) :
    pending (⟨a, r⟩ :: past) = pending past := by
  cases a with
  | spawnHeartbeat | joinHeartbeat | metadata => exact h.elim
  | _ => rfl

theorem not_leavesAt_plain (h : Plain a) (r : a.Resp)
    (hlast : Last NotSpawn past) : ¬ LeavesAt (⟨a, r⟩ :: past) := by
  intro hleaves
  cases a with
  | selectChunkIndices =>
    cases past with
    | nil => exact hleaves
    | cons x past =>
      obtain ⟨b, rb⟩ := x
      cases b with
      | spawnHeartbeat => exact hlast _ rfl
      | _ => exact hleaves
  | metadata => exact h
  | _ => exact hleaves

theorem not_leavesAt_look {p : UploadPath} {r : Option ℕ}
    (hlast : Last NotLook past) : ¬ LeavesAt (⟨.metadata p, r⟩ :: past) := by
  intro hleaves
  cases past with
  | nil => exact hleaves
  | cons x past =>
    obtain ⟨b, rb⟩ := x
    cases b with
    | metadata => exact hlast _ rfl
    | _ => exact hleaves

theorem Drawn.since {A : UploadAct → Prop}
    (h : Drawn token past) (hsince : Since A past past') : Drawn token past' :=
  hsince.keeps (fun _ _ _ _ hp => List.mem_cons_of_mem _ hp) h

/-- Where the call may end: a heartbeat is pending exactly after a failed read. -/
structure Over (past : CallHistory) : Prop where
  law : pending past = [] ↔ ¬ ReadFailed past
  last : Last NotSpawn past

theorem Over.since (h : Over past) (hsince : Since Plain past past') :
    Over past' := by
  refine hsince.keeps (fun a r past ha hpast => ⟨?_, .cons ha.notSpawn r past⟩) h
  rw [pending_plain ha r past]
  refine hpast.law.trans (not_congr (or_iff_right ?_).symm)
  exact not_leavesAt_plain ha r hpast.last

/-- Nothing is left running: no heartbeat is pending, and the last step was no look at a name. -/
structure Quit (past : CallHistory) : Prop where
  pending : pending past = []
  unfailed : ¬ ReadFailed past
  last : Last NotSpawn past
  looked : Last NotLook past

theorem Quit.over (h : Quit past) : Over past :=
  ⟨iff_of_true h.pending h.unfailed, h.last⟩

theorem Quit.since (h : Quit past) (hsince : Since Plain past past') :
    Quit past' := by
  refine hsince.keeps (fun a r past ha hpast => ?_) h
  exact ⟨(pending_plain ha r past).trans hpast.pending,
    not_or.mpr ⟨not_leavesAt_plain ha r hpast.last, hpast.unfailed⟩, .cons ha.notSpawn r past,
    .cons ha.notLook r past⟩

theorem Quit.over_look (h : Quit past) (p : UploadPath) (r : Option ℕ) :
    Over (⟨.metadata p, r⟩ :: past) :=
  ⟨iff_of_true h.pending (not_or.mpr ⟨not_leavesAt_look h.looked, h.unfailed⟩), .cons trivial _ _⟩

structure Watching (token : Token) (past : CallHistory) : Prop where
  pending : pending past = [token]
  unfailed : ¬ ReadFailed past
  last : Last NotSpawn past

theorem Watching.since (h : Watching token past)
    (hsince : Since Plain past past') : Watching token past' := by
  refine hsince.keeps (fun a r past ha hpast => ?_) h
  exact ⟨(pending_plain ha r past).trans hpast.pending,
    not_or.mpr ⟨not_leavesAt_plain ha r hpast.last, hpast.unfailed⟩, .cons ha.notSpawn r past⟩

theorem Watching.join (h : Watching token past)
    (r : Except SyncError Unit) : Quit (⟨.joinHeartbeat token, r⟩ :: past) := by
  refine ⟨?_, not_or.mpr ⟨id, h.unfailed⟩, .cons trivial _ _, .cons trivial _ _⟩
  show (Upload.pending past).filter _ = []
  rw [h.pending]
  simp

theorem Watching.look (h : Watching token past)
    {p : UploadPath} {r : Option ℕ} (hleaves : ¬ LeavesAt (⟨.metadata p, r⟩ :: past)) :
    Watching token (⟨.metadata p, r⟩ :: past) :=
  ⟨h.pending, not_or.mpr ⟨hleaves, h.unfailed⟩, .cons trivial _ _⟩

theorem over_of_leavesAt (token : Token) (hpending : pending past = [token])
    (hleaves : LeavesAt past) (hlast : Last NotSpawn past) : Over past := by
  refine ⟨iff_of_false ?_ (not_not.mpr ?_), hlast⟩
  · rw [hpending]
    exact List.cons_ne_nil token []
  · cases past with
    | nil => exact hleaves
    | cons x past => exact Or.inl hleaves

/-! ## The steps of the other kind -/

section PlainCalls

variable (sha : Sha256) (mgr : SyncManager) (fileId : Uuid)

theorem plain_selectUpload : Only Plain selectUpload.run := .orElse (.perform trivial)

theorem plain_selectChunkIndices : Only Plain selectChunkIndices.run := .orElse (.perform trivial)

theorem plain_updateUploads (f : Option UploadMeta → Option UploadMeta) :
    Only Plain (updateUploads mgr f).run := .lift (.perform trivial)

theorem plain_updateUpload (u : UploadUpdate) : Only Plain (updateUpload u).run :=
  .orElse (.perform trivial)

theorem plain_drawUuid : Only Plain drawUuid.run := .lift (.perform trivial)

theorem plain_utcNow : Only Plain utcNow.run := .lift (.perform trivial)

theorem plain_updateCached (f : UploadMeta → UploadMeta) : Only Plain (updateCached mgr f).run :=
  .try_bind (plain_updateUploads mgr _) fun _ => .pure _

theorem plain_loadSessionFromDbInternal : Only Plain loadSessionFromDbInternal.run :=
  .try_bind plain_selectUpload fun _ => .try_bind plain_selectChunkIndices fun _ => .pure _

theorem plain_reloadSessionFromDb : Only Plain (reloadSessionFromDb mgr).run :=
  .try_bind plain_loadSessionFromDbInternal fun _ =>
    .try_bind (plain_updateUploads mgr _) fun _ => .pure _

theorem plain_getOrLoadSession : Only Plain (getOrLoadSession mgr).run := by
  refine .try_bind (plain_updateUploads mgr id) fun cached => ?_
  cases cached with
  | some m => exact .pure m
  | none =>
    exact .try_bind plain_loadSessionFromDbInternal fun _ =>
      .try_bind (plain_updateUploads mgr _) fun _ => .pure _

theorem plain_assertFinalizationOwner (token : Token) :
    Only Plain (assertFinalizationOwner mgr fileId token).run := by
  refine .try_bind plain_selectUpload fun row => .ite (.throw _) ?_
  cases row.finalizeLeaseUntil with
  | none => exact .pure _
  | some leaseUntil => exact .try_bind plain_utcNow fun now => .ite (.throw _) (.pure _)

theorem plain_marked (changed : Bool) (f : UploadMeta → UploadMeta) :
    Only Plain (ExceptT.run (if changed then updateCached mgr f else do
      let _ ← TryProg.attempt (reloadSessionFromDb mgr)
      throw (.finalizationOwnershipLost fileId))) :=
  .ite (plain_updateCached mgr f)
    (.try_bind (.attempt (plain_reloadSessionFromDb mgr)) fun _ => .throw _)

theorem plain_markUploadFailedAsOwner (token : Token) (failureClass : UploadFailureClass)
    (failureCode reason : String) :
    Only Plain
      (markUploadFailedAsOwner mgr fileId token failureClass failureCode reason).run :=
  .try_bind (plain_updateUpload _) fun changed => plain_marked mgr fileId changed _

theorem plain_markUploadCompleted (token : Token) :
    Only Plain (markUploadCompleted mgr fileId token).run :=
  .try_bind (plain_updateUpload _) fun changed => plain_marked mgr fileId changed _

theorem plain_hashLoop (x : Inode) (reads : ℕ) (hashed : List UInt8) :
    Only Plain (hashLoop sha mgr x reads hashed).run := by
  induction reads generalizing hashed with
  | zero => exact .throw _
  | succ reads ih =>
    exact .try_bind (.orElse (.perform trivial)) fun block => .ite (.pure _) (ih _)

theorem plain_calculateFileHash (reads : ℕ) (p : UploadPath) :
    Only Plain (calculateFileHash sha mgr reads p).run :=
  .try_bind (.orElse (.perform trivial)) fun x => plain_hashLoop sha mgr x reads []

theorem plain_registerUploadedFile (info : UploadInfo) :
    Only Plain (registerUploadedFile mgr fileId info).run :=
  .try_bind plain_drawUuid fun _ => .try_bind plain_utcNow fun _ =>
    .try_bind (.orElse (.perform trivial)) fun _ => .orElse (.perform trivial)

theorem plain_noteCompleted : Only Plain (noteCompleted mgr).run := plain_updateCached mgr _

theorem plain_pollCompleted (looks : ℕ) : Only Plain (pollCompleted looks).run := by
  induction looks with
  | zero => exact .pure _
  | succ looks ih => exact .try_bind plain_selectUpload fun _ => .ite (.pure _) ih

end PlainCalls

/-! ## The call, exit by exit -/

section Exits

variable {sha : Sha256} {mgr : SyncManager} {fileId : Uuid} {info : UploadInfo} {reads : ℕ}
  {token : Token} {past : CallHistory} {α : Type}

def Lawful (Q : α → CallHistory → Prop) (x : SyncM α) (past : CallHistory) : Prop :=
  Chronicle WatchPre (fun r past' => match r with
    | .ok a => Q a past'
    | .error _ => Over past') x.run past

abbrev Closes (x : SyncM α) (past : CallHistory) : Prop := Lawful (fun _ => Over) x past

namespace Lawful

variable {β : Type} {Q : α → CallHistory → Prop} {R : β → CallHistory → Prop}

variable {x : SyncM α}

theorem bind {f : α → SyncM β} (hx : Lawful Q x past)
    (hf : ∀ a past', Q a past' → Lawful R (f a) past') : Lawful R (x >>= f) past :=
  Chronicle.try_bind hx hf fun _ _ h => h

theorem throw (e : SyncError) (h : Over past) : Lawful Q (MonadExcept.throw e) past := h

theorem ite {c : Prop} [Decidable c] {x y : SyncM α} (hx : c → Lawful Q x past)
    (hy : ¬ c → Lawful Q y past) : Lawful Q (if c then x else y) past := Chronicle.ite hx hy

theorem plain (hx : Only Plain x.run) (h : Over past) :
    Lawful (fun _ past' => Since Plain past past') x past := by
  refine Chronicle.mono (hx.chronicle (fun _ past ha => ha.watchPre past) past)
    fun r past' hsince => ?_
  cases r with
  | ok a => exact hsince
  | error e => exact h.since hsince

theorem attempt_plain (hx : Only Plain x.run) (past : CallHistory) :
    Lawful (fun _ past' => Since Plain past past') (TryProg.attempt x) past :=
  Chronicle.attempt (hx.chronicle (fun _ past ha => ha.watchPre past) past)

theorem attempt (h : Closes x past) :
    Lawful (fun _ => Over) (TryProg.attempt x) past := by
  refine Chronicle.attempt (Chronicle.mono h fun r past' hr => ?_)
  cases r with
  | ok a => exact hr
  | error e => exact hr

end Lawful

theorem closes_plain {x : SyncM α} (hx : Only Plain x.run) (h : Over past) : Closes x past := by
  refine Chronicle.mono (Lawful.plain hx h) fun r past' hr => ?_
  cases r with
  | ok u => exact h.since hr
  | error e => exact hr

theorem lawful_stopHeartbeat (h : Watching token past) :
    Lawful (fun _ => Quit) (stopHeartbeat token) past :=
  Chronicle.lift (.perform trivial fun r => h.join r)

theorem lawful_orStopHeartbeat {x : SyncM α} (hx : Only Plain x.run) (h : Watching token past) :
    Lawful (fun _ => Watching token) (orStopHeartbeat token x) past := by
  refine (Lawful.attempt_plain hx past).bind fun result past' hsince => ?_
  cases result with
  | ok a => exact h.since hsince
  | error e =>
    exact (lawful_stopHeartbeat (h.since hsince)).bind fun _ _ hquit => .throw e hquit.over

theorem lawful_failFinalization {Q : α → CallHistory → Prop} {code : UploadFailureCode}
    {reason : String} {e : SyncError} (h : Watching token past) :
    Lawful Q (failFinalization mgr fileId token code reason e) past := by
  refine (lawful_stopHeartbeat h).bind fun _ past₁ hquit => ?_
  refine (Lawful.attempt_plain (plain_markUploadFailedAsOwner mgr fileId token _ _ _) past₁).bind
    fun _ past₂ hsince => ?_
  exact .throw e (hquit.since hsince).over

variable {target : UploadPath} {chunk : UploadChunk}

theorem lawful_promote (h : Watching token past) :
    Lawful (fun _ => Watching token) (promote token target) past :=
  .ite (fun _ => lawful_orStopHeartbeat (.orElse (.perform trivial)) h) fun _ => h

theorem closes_promoteAndComplete (h : Watching token past) :
    Closes (promoteAndComplete mgr fileId info token target) past := by
  refine (lawful_orStopHeartbeat (plain_assertFinalizationOwner mgr fileId token) h).bind
    fun _ _ h₁ => ?_
  refine (lawful_promote h₁).bind fun _ _ h₂ => ?_
  refine (lawful_orStopHeartbeat (plain_assertFinalizationOwner mgr fileId token) h₂).bind
    fun _ _ h₃ => ?_
  refine (lawful_orStopHeartbeat (plain_registerUploadedFile mgr fileId info) h₃).bind
    fun _ _ h₄ => ?_
  refine (lawful_stopHeartbeat h₄).bind fun heartbeatRes _ hquit => ?_
  split
  · exact .throw _ hquit.over
  · exact closes_plain (plain_markUploadCompleted mgr fileId token) hquit.over

theorem closes_verifyFile {len : ℕ} (h : Watching token (⟨.metadata target, some len⟩ :: past)) :
    Closes (verifyFile sha mgr fileId reads info token target)
      (⟨.metadata target, some len⟩ :: past) := by
  refine Lawful.bind (Q := fun _ => Watching token) ?_ fun actualSize past₁ h₁ => ?_
  · refine Chronicle.orElse (.perform trivial fun r => ?_)
    cases r with
    | some size => exact h.look fun hleaves => nomatch hleaves.2.2
    | none => exact over_of_leavesAt token h.pending ⟨rfl, rfl, rfl⟩ (.cons trivial _ _)
  refine .ite (fun _ => lawful_failFinalization h₁) fun _ => ?_
  refine (lawful_orStopHeartbeat (plain_calculateFileHash sha mgr reads target) h₁).bind
    fun computedHash _ h₂ => ?_
  exact .ite (fun _ => lawful_failFinalization h₂) fun _ => closes_promoteAndComplete h₂

theorem lawful_existsOnDisk (p : UploadPath) (past : CallHistory) :
    Lawful (fun found past' => ∃ r : Option ℕ, found = r.isSome ∧ past' = ⟨.metadata p, r⟩ :: past)
      (existsOnDisk p) past :=
  Chronicle.lift (.bind (.perform trivial fun r => ⟨r, rfl, rfl⟩))

/-- A finalization stops its heartbeat before it ends. -/
theorem closes_finalizeAsOwner {leaseUntil : DateTime} (hdrawn : Drawn token past)
    (hquit : Quit past) : Closes (finalizeAsOwner sha mgr fileId reads info token leaseUntil) past := by
  refine (Lawful.plain (plain_updateCached mgr _) hquit.over).bind fun _ past₁ hsince => ?_
  have hquit₁ := hquit.since hsince
  refine Lawful.bind (Q := fun _ past' => ∃ h, past' = ⟨.spawnHeartbeat token h, ()⟩ :: past₁) ?_
    fun _ past₂ h₂ => ?_
  · exact Chronicle.lift (.perform (hdrawn.since hsince) fun _ => ⟨_, rfl⟩)
  obtain ⟨h, rfl⟩ := h₂
  have hpending : pending (⟨.spawnHeartbeat token h, ()⟩ :: past₁) = [token] :=
    congrArg (token :: ·) hquit₁.pending
  have hunfailed : ¬ ReadFailed (⟨.spawnHeartbeat token h, ()⟩ :: past₁) :=
    not_or.mpr ⟨id, hquit₁.unfailed⟩
  -- the chunk indices are the first of the two reads
  refine Lawful.bind (Q := fun _ past' => Watching token past' ∧ Last NotLook past') ?_
    fun dbChunks past₃ h₃ => ?_
  · refine Chronicle.orElse (.perform trivial fun r => ?_)
    cases r with
    | some indices =>
      have hleaves : ¬ LeavesAt (⟨.selectChunkIndices, some indices⟩ ::
          ⟨.spawnHeartbeat token h, ()⟩ :: past₁) := fun hnone => nomatch hnone
      exact ⟨⟨hpending, not_or.mpr ⟨hleaves, hunfailed⟩, .cons trivial _ _⟩, .cons trivial _ _⟩
    | none => exact over_of_leavesAt token hpending rfl (.cons trivial _ _)
  obtain ⟨hwatching, hlooked⟩ := h₃
  split
  · exact lawful_failFinalization hwatching
  refine (lawful_existsOnDisk .part past₃).bind fun staged past₄ h₄ => ?_
  obtain ⟨r, rfl, rfl⟩ := h₄
  have hwatching₄ := hwatching.look (p := .part) (r := r) (not_leavesAt_look hlooked)
  cases r with
  | some len => grind [closes_verifyFile]
  | none =>
    refine .ite (fun h => nomatch h) fun _ => ?_
    refine (lawful_existsOnDisk .final _).bind fun promoted past₅ h₅ => ?_
    obtain ⟨r, rfl, rfl⟩ := h₅
    have hwatching₅ := hwatching₄.look (p := .final) (r := r) fun hleaves => nomatch hleaves.1
    cases r with
    | some len => grind [closes_verifyFile]
    | none => grind [lawful_failFinalization]

/-! ### Before the lease is held -/

theorem lawful_drawUuid {past : CallHistory} (hpending : pending past = [])
    (hunfailed : ¬ ReadFailed past) :
    Lawful (fun t past' => Drawn t past' ∧ Quit past') drawUuid past :=
  Chronicle.lift (.perform trivial fun _ => ⟨List.mem_cons_self, hpending,
    not_or.mpr ⟨id, hunfailed⟩, .cons trivial _ _, .cons trivial _ _⟩)

theorem lawful_takeOver {row : UploadRow} (h : Quit past) :
    Lawful (fun t past' => Drawn t past' ∧ Quit past') (takeOver mgr fileId row) past := by
  refine (lawful_drawUuid h.pending h.unfailed).bind fun t _ h₁ => ?_
  obtain ⟨hdrawn, hquit⟩ := h₁
  refine (Lawful.plain plain_utcNow hquit.over).bind fun now _ hsince₂ => ?_
  have hquit₂ := hquit.since hsince₂
  refine (Lawful.plain (plain_updateUpload _) hquit₂.over).bind fun taken _ hsince₃ => ?_
  have hquit₃ := hquit₂.since hsince₃
  exact .ite (fun _ => ⟨(hdrawn.since hsince₂).since hsince₃, hquit₃⟩) fun _ => .throw _ hquit₃.over

theorem lawful_found_completed (h : Quit past) :
    Lawful (fun (owner : Option Token) past' => (∀ t ∈ owner, Drawn t past') ∧ Quit past') (do
      noteCompleted mgr
      pure none) past :=
  (Lawful.plain (plain_noteCompleted mgr) h.over).bind fun _ _ hsince => ⟨nofun, h.since hsince⟩

theorem lawful_contend (h : Quit past) :
    Lawful (fun owner past' => (∀ t ∈ owner, Drawn t past') ∧ Quit past') (contend mgr fileId) past := by
  refine (Lawful.plain plain_selectUpload h.over).bind fun row _ hsince₁ => ?_
  have hquit₁ := h.since hsince₁
  split
  · exact lawful_found_completed hquit₁
  · refine (Lawful.plain plain_utcNow hquit₁.over).bind fun now _ hsince₂ => ?_
    have hquit₂ := hquit₁.since hsince₂
    refine .ite (fun _ => ?_) fun _ => ?_
    · refine (lawful_takeOver hquit₂).bind fun t _ h₃ => ⟨?_, h₃.2⟩
      rintro _ ⟨⟩
      exact h₃.1
    · refine (Lawful.plain (plain_pollCompleted 20) hquit₂.over).bind fun completed _ hsince₃ => ?_
      have hquit₃ := hquit₂.since hsince₃
      exact .ite (fun _ => lawful_found_completed hquit₃) fun _ => .throw _ hquit₃.over
  · exact .ite (fun _ => .throw _ hquit₁.over) fun _ => .throw _ hquit₁.over
  · exact .throw _ hquit₁.over
  · exact .throw _ hquit₁.over

theorem closes_acquireAndFinalize (hpending : pending past = []) (hunfailed : ¬ ReadFailed past) :
    Closes (acquireAndFinalize sha mgr fileId reads info) past := by
  refine (lawful_drawUuid hpending hunfailed).bind fun t _ h₁ => ?_
  obtain ⟨hdrawn, hquit⟩ := h₁
  refine (Lawful.plain plain_utcNow hquit.over).bind fun now _ hsince₂ => ?_
  have hquit₂ := hquit.since hsince₂
  refine (Lawful.plain (plain_updateUpload _) hquit₂.over).bind fun acquired _ hsince₃ => ?_
  have hquit₃ := hquit₂.since hsince₃
  refine .ite (fun _ => closes_finalizeAsOwner ((hdrawn.since hsince₂).since hsince₃) hquit₃)
    fun _ => ?_
  refine (lawful_contend hquit₃).bind fun ownerToken _ h₄ => ?_
  cases ownerToken with
  | some token => exact closes_finalizeAsOwner (h₄.1 token rfl) h₄.2
  | none => exact h₄.2.over

/-- **Every exit.** Whatever the call is answered, it ends with its heartbeat cancelled exactly when
neither read failed. -/
theorem closes_verifyAndFinalizeUpload (h : Quit past) :
    Closes (verifyAndFinalizeUpload sha mgr fileId reads) past := by
  refine (Lawful.plain (plain_getOrLoadSession mgr) h.over).bind fun m past₁ hsince => ?_
  have hquit := h.since hsince
  split
  · refine (lawful_existsOnDisk .final past₁).bind fun stored past₂ h₂ => ?_
    obtain ⟨r, rfl, rfl⟩ := h₂
    have hover := hquit.over_look .final r
    cases r with
    | some len => exact .ite (fun _ => hover) fun h => absurd rfl h
    | none =>
      refine .ite (fun h => nomatch h) fun _ => closes_acquireAndFinalize hquit.pending ?_
      exact hover.law.mp hquit.pending
  · exact .throw _ hquit.over
  · exact closes_acquireAndFinalize hquit.pending hquit.unfailed

/-! ### The calls that send a chunk -/

theorem closes_answerDuplicate {existing : ChunkReceipt} (h : Quit past) :
    Closes (answerDuplicate sha mgr reads chunk existing) past := by
  refine .ite (fun _ => ?_) fun _ => .throw _ h.over
  refine (Lawful.plain (plain_getOrLoadSession mgr) h.over).bind fun currentMeta _ hsince₁ => ?_
  have hquit₁ := h.since hsince₁
  refine .ite (fun _ => hquit₁.over) fun _ => .ite (fun _ => ?_) fun _ => hquit₁.over
  refine (Lawful.attempt (closes_verifyAndFinalizeUpload hquit₁)).bind fun finalizeRes _ hover => ?_
  refine (Lawful.plain (plain_getOrLoadSession mgr) hover).bind fun refreshed _ hsince₃ => ?_
  have hover₃ := hover.since hsince₃
  split
  · exact .ite (fun _ => hover₃) fun _ => .throw _ hover₃
  · exact hover₃

theorem closes_finalizeIfReceived {currentMeta : UploadMeta} (h : Quit past) :
    Closes (finalizeIfReceived sha mgr reads fileId currentMeta) past :=
  .ite (fun _ => closes_verifyAndFinalizeUpload h) fun _ => h.over

theorem closes_storeChunk {m : UploadMeta} (h : Quit past) :
    Closes (storeChunk sha mgr reads chunk m) past := by
  refine .ite (fun _ => .throw _ h.over) fun _ => ?_
  refine (Lawful.plain (.orElse (.perform trivial)) h.over).bind fun file _ hsince₁ => ?_
  have hquit₁ := h.since hsince₁
  refine (Lawful.plain (.orElse (.perform trivial)) hquit₁.over).bind fun _ _ hsince₂ => ?_
  have hquit₂ := hquit₁.since hsince₂
  refine (Lawful.plain (.orElse (.perform trivial)) hquit₂.over).bind fun _ _ hsince₃ => ?_
  have hquit₃ := hquit₂.since hsince₃
  refine (Lawful.plain (plain_updateCached mgr _) hquit₃.over).bind fun _ _ hsince₄ => ?_
  have hquit₄ := hquit₃.since hsince₄
  refine (Lawful.plain (plain_updateUploads mgr id) hquit₄.over).bind fun current _ hsince₅ => ?_
  have hquit₅ := hquit₄.since hsince₅
  cases current with
  | none => exact .throw _ hquit₅.over
  | some currentMeta =>
    refine (closes_finalizeIfReceived hquit₅).bind fun _ past₆ hover => ?_
    exact (Lawful.attempt_plain (plain_getOrLoadSession mgr) past₆).bind
      fun _ _ hsince₇ => hover.since hsince₇

theorem closes_uploadChunk (h : Quit past) :
    Closes (uploadChunk sha mgr reads chunk) past := by
  unfold uploadChunk
  split
  · exact .throw _ h.over
  refine (Lawful.plain (plain_getOrLoadSession mgr) h.over).bind fun m _ hsince₁ => ?_
  have hquit₁ := h.since hsince₁
  split
  · exact .throw _ hquit₁.over
  refine (Lawful.plain (.orElse (.perform trivial)) hquit₁.over).bind
    fun existingChunk _ hsince₂ => ?_
  have hquit₂ := hquit₁.since hsince₂
  grind [closes_answerDuplicate, closes_storeChunk]

theorem quit_nil : Quit ([] : CallHistory) where
  pending := rfl
  unfailed := id
  last := fun _ hx => nomatch hx
  looked := fun _ hx => nomatch hx

theorem chronicle_program {uploadDir : String} (call : UploadCall) :
    Chronicle WatchPre (fun _ => Over) (call.program sha uploadDir fileId) [] := by
  cases call with
  | uploadChunk epoch config reads chunk =>
    refine Chronicle.mono (Lawful.bind (R := fun _ => Over) (closes_uploadChunk quit_nil)
      fun _ _ hover => hover) fun r past hr => ?_
    cases r <;> exact hr
  | verifyAndFinalizeUpload epoch config reads =>
    refine Chronicle.mono (Lawful.bind (R := fun _ => Over) (closes_verifyAndFinalizeUpload quit_nil)
      fun _ _ hover => hover) fun r past hr => ?_
    cases r <;> exact hr

end Exits

/-! ## The heartbeats of a run -/

section Worlds

variable {w : UploadWorld} {token : Token}

/-- The heartbeat of the token does not run: it has ended, or there was none. -/
def Stopped (w : UploadWorld) (token : Token) : Prop := ∀ h ∈ w.heartbeats token, h.outcome.isSome

theorem Stopped.renews_nothing (hstopped : Stopped w token) (env : StepEnv) :
    renewFinalizationLease ⟨token, env⟩ w = w := by
  unfold renewFinalizationLease
  cases hbeat : w.heartbeats token with
  | none => rfl
  | some h =>
    dsimp only
    rw [if_pos (hstopped h hbeat)]

theorem Stopped.setHeartbeat (hstopped : Stopped w token) {t : Token} {h : Heartbeat}
    (ht : t = token → h.outcome.isSome) : Stopped (w.setHeartbeat t h) token := by
  intro h' hh'
  simp only [UploadWorld.setHeartbeat] at hh'
  split at hh'
  next heq =>
    cases hh'
    exact ht heq.symm
  next => exact hstopped h' hh'

/-- A heartbeat that is stopped stays so. -/
theorem Stopped.exec (hstopped : Stopped w token) {i : TaskId} {a : UploadAct} {env : StepEnv}
    (ha : ∀ h, a ≠ .spawnHeartbeat token h) : Stopped (exec i a env w).2 token := by
  cases a with
  | spawnHeartbeat t h =>
    exact hstopped.setHeartbeat fun heq => absurd (by rw [heq]) (ha h)
  | joinHeartbeat t =>
    simp only [Upload.exec]
    split
    · exact hstopped
    · exact hstopped.setHeartbeat fun _ => rfl
  | insertChunk r =>
    simp only [Upload.exec, UploadWorld.insertChunk]
    split_ifs <;> exact hstopped
  | insertSyncedFile f =>
    simp only [Upload.exec, UploadWorld.insertSyncedFile]
    split_ifs <;> exact hstopped
  | openPart =>
    simp only [Upload.exec, UploadWorld.openPart]
    split
    · exact hstopped
    · split <;> exact hstopped
  | updateUpload | write | rename =>
    simp only [Upload.exec]
    split <;> exact hstopped
  | uploads | selectUpload | selectChunkIndices | selectChunk | selectSyncedFile | metadata
  | openFile | read | newUuid | clock => exact hstopped

theorem stopped_join (i : TaskId) (env : StepEnv) (w : UploadWorld) (token : Token) :
    Stopped (exec i (.joinHeartbeat token) env w).2 token := by
  simp only [exec]
  split
  next hnone =>
    intro h hh
    rw [hnone] at hh
    cases hh
  next h hsome =>
    intro h' hh'
    grind [UploadWorld.setHeartbeat]

theorem Stopped.renew (hstopped : Stopped w token) (t : HeartbeatTick) :
    Stopped (renewFinalizationLease t w) token := by
  unfold renewFinalizationLease
  split
  · exact hstopped
  · dsimp only
    split_ifs
    · exact hstopped
    · exact hstopped.setHeartbeat fun _ => rfl
    · exact hstopped
    · exact hstopped.setHeartbeat fun _ => rfl

theorem drawer_exec {i j : TaskId} {a : UploadAct} {env : StepEnv} {t : ℕ}
    (h : w.uuids[t]? = some j) : (exec i a env w).2.uuids[t]? = some j := by
  cases a with
  | newUuid => exact List.getElem?_append_left (List.getElem?_eq_some_iff.mp h).1 ▸ h
  | joinHeartbeat | updateUpload | write | rename =>
    simp only [Upload.exec]
    split <;> exact h
  | insertChunk r =>
    simp only [Upload.exec, UploadWorld.insertChunk]
    split_ifs <;> exact h
  | insertSyncedFile f =>
    simp only [Upload.exec, UploadWorld.insertSyncedFile]
    split_ifs <;> exact h
  | openPart =>
    grind [Upload.exec, UploadWorld.openPart]
  | uploads | selectUpload | selectChunkIndices | selectChunk | selectSyncedFile | metadata
  | openFile | read | spawnHeartbeat | clock => exact h

theorem uuids_renew (t : HeartbeatTick) (w : UploadWorld) :
    (renewFinalizationLease t w).uuids = w.uuids := by
  unfold renewFinalizationLease
  split
  · rfl
  · dsimp only
    split_ifs <;> rfl

end Worlds

theorem not_pending_cons {a : UploadAct} {r : a.Resp} {past : CallHistory} {token : Token}
    (h : token ∉ pending (⟨a, r⟩ :: past)) :
    a = .joinHeartbeat token ∨ token ∉ pending past ∧ ∀ hb, a ≠ .spawnHeartbeat token hb := by
  cases a with
  | spawnHeartbeat t hb =>
    grind [pending]
  | joinHeartbeat t =>
    by_cases ht : token = t
    · exact .inl (by rw [ht])
    · refine .inr ⟨fun hmem => h ?_, fun _ heq => nomatch heq⟩
      exact List.mem_filter.mpr ⟨hmem, decide_eq_true ht⟩
  | _ => exact .inr ⟨h, fun _ heq => nomatch heq⟩

structure Kept (s : System UploadAct.Resp (Except SyncError UploadOutcome) UploadWorld)
    (H : TaskId → CallHistory) : Prop where
  chronicle : ∀ i p, s.task i = some p → Chronicle WatchPre (fun _ => Over) p (H i)
  drawn : ∀ i t, Drawn t (H i) → s.world.uuids[t]? = some i
  spawned : ∀ i t h, ⟨.spawnHeartbeat t h, ()⟩ ∈ H i → Drawn t (H i)
  stopped : ∀ i t h, ⟨.spawnHeartbeat t h, ()⟩ ∈ H i → t ∉ pending (H i) → Stopped s.world t

section Kept

variable {s s' : System UploadAct.Resp (Except SyncError UploadOutcome) UploadWorld}
  {H : TaskId → CallHistory}

/-- Each act keeps the history of its call. -/
theorem Kept.exec (h : Kept s H) {i : TaskId} {a : UploadAct} {env : StepEnv}
    {k : a.Resp → Prog UploadAct.Resp (Except SyncError UploadOutcome)}
    (hi : s.task i = some (.act a k)) (hworld : s'.world = (exec i a env s.world).2)
    {H' : TaskId → CallHistory}
    (hself : H' i = ⟨a, (exec i a env s.world).1⟩ :: H i) (hother : ∀ j, i ≠ j → H' j = H j)
    (hchronicle : ∀ j p, s'.task j = some p → Chronicle WatchPre (fun _ => Over) p (H' j)) :
    Kept s' H' := by
  have hpre : WatchPre a (H i) := (h.chronicle i _ hi).1
  refine ⟨hchronicle, fun j t ht => ?_, fun j t hb ht => ?_, fun j t hb ht hquit => ?_⟩
  · rw [hworld]
    by_cases hij : i = j
    · subst hij
      rw [hself, Drawn, List.mem_cons] at ht
      rcases ht with hdraw | ht
      · cases a with
        | newUuid =>
          cases hdraw
          show (s.world.uuids ++ [i])[s.world.uuids.length]? = some i
          simp
        | _ => cases hdraw
      · exact drawer_exec (h.drawn i t ht)
    · rw [hother j hij] at ht
      exact drawer_exec (h.drawn j t ht)
  · by_cases hij : i = j
    · subst hij
      rw [hself, List.mem_cons] at ht
      rw [hself]
      refine List.mem_cons_of_mem _ ?_
      rcases ht with hspawn | ht
      · cases a with
        | spawnHeartbeat t' hb' =>
          cases hspawn
          exact hpre
        | _ => cases hspawn
      · exact h.spawned i t hb ht
    · rw [hother j hij] at ht ⊢
      exact h.spawned j t hb ht
  · rw [hworld]
    by_cases hij : i = j
    · subst hij
      rw [hself] at ht hquit
      rcases not_pending_cons hquit with rfl | ⟨hquit, hspawn⟩
      · exact stopped_join i env s.world t
      · refine (h.stopped i t hb ?_ hquit).exec hspawn
        grind
    · rw [hother j hij] at ht hquit
      refine (h.stopped j t hb ht hquit).exec fun hb' hspawn => ?_
      -- the token is the other task's
      subst hspawn
      have hi := h.drawn i t hpre
      rw [h.drawn j t (h.spawned j t hb ht)] at hi
      exact hij (Option.some.inj hi).symm

/-- So does each move. -/
theorem Kept.step (h : Kept s H) (m : Move StepEnv HeartbeatTick) :
    Kept (s.step semantics m) fun i => s.noted semantics i m ++ H i := by
  have hchronicle : ∀ j p, (s.step semantics m).task j = some p →
      Chronicle WatchPre (fun _ => Over) p (s.noted semantics j m ++ H j) :=
    fun j => System.chronicle_step (h.chronicle j) m
  rcases System.step_cases semantics s m with
    ⟨i, a, k, env, hi, hworld, hnoted⟩ | ⟨hnoted, hworld⟩
  · refine h.exec hi hworld ?_ (fun j hij => ?_) hchronicle
    · rw [hnoted, if_pos rfl]
      rfl
    · rw [hnoted, if_neg hij]
      rfl
  · simp only [hnoted, List.nil_append] at hchronicle ⊢
    rcases hworld with hworld | ⟨t, hworld⟩
    · exact ⟨hchronicle, fun j t ht => hworld ▸ h.drawn j t ht, h.spawned,
        fun j t hb ht hquit => hworld ▸ h.stopped j t hb ht hquit⟩
    · refine ⟨hchronicle, fun j t' ht => ?_, h.spawned, fun j t' hb ht hquit => ?_⟩
      · rw [hworld]
        exact (uuids_renew t s.world).symm ▸ h.drawn j t' ht
      · rw [hworld]
        exact (h.stopped j t' hb ht hquit).renew t

end Kept

/-! ## A call that has returned -/

section Runs

variable (sha : Sha256) (mgr : SyncManager) (fileId : Uuid) (info : UploadInfo)
  (calls : List UploadCall) (moves : List (Move StepEnv HeartbeatTick)) (i : TaskId)

def callHistory : CallHistory :=
  (start sha mgr fileId info calls).history semantics i moves []

theorem kept_run :
    Kept ((start sha mgr fileId info calls).run semantics moves)
      fun i => callHistory sha mgr fileId info calls moves i := by
  refine System.history_kept (I := Kept) (H := fun _ => []) (fun s H m h => h.step m) ?_ moves
  refine ⟨fun i p hp => ?_, fun _ _ => nofun, fun _ _ _ => nofun, fun _ _ _ => nofun⟩
  grind [System.task, start, chronicle_program]

theorem callHistory_append (more : List (Move StepEnv HeartbeatTick))
    (hreturned : ((start sha mgr fileId info calls).run semantics moves).Returned i) :
    callHistory sha mgr fileId info calls (moves ++ more) i =
      callHistory sha mgr fileId info calls moves i := by
  rw [callHistory, System.history_append]
  exact hreturned.history more _

/-- **The heartbeats of a call that has returned.** Whatever was done meanwhile by other calls, and
whatever failed, they are cancelled, and renew no lease in any later state, exactly when neither of the
two reads failed. -/
theorem heartbeats_cancelled_iff
    (hreturned : ((start sha mgr fileId info calls).run semantics moves).Returned i) :
    let past := callHistory sha mgr fileId info calls moves i
    (pending past = [] ∧ ∀ token h, ⟨.spawnHeartbeat token h, ()⟩ ∈ past → ∀ more env,
      let w := ((start sha mgr fileId info calls).run semantics (moves ++ more)).world
      renewFinalizationLease ⟨token, env⟩ w = w) ↔ ¬ ReadFailed past := by
  intro past
  obtain ⟨result, hresult⟩ := hreturned.exists_ret
  have hover : Over past :=
    (kept_run sha mgr fileId info calls moves).chronicle i (.ret result) hresult
  refine ⟨fun h => hover.law.mp h.1, fun hunfailed => ?_⟩
  have hpending := hover.law.mpr hunfailed
  refine ⟨hpending, fun token h hspawned more env => ?_⟩
  have hkept := kept_run sha mgr fileId info calls (moves ++ more)
  have hpast := callHistory_append sha mgr fileId info calls moves i more hreturned
  refine Stopped.renews_nothing (hkept.stopped i token h ?_ ?_) env
  · rw [hpast]
    exact hspawned
  · rw [hpast, show pending (callHistory sha mgr fileId info calls moves i) = [] from hpending]
    exact List.not_mem_nil

end Runs

set_option maxRecDepth 20000 in
/-- The byte `A` is sent; while it is finalized, the storage fails at a block that is hashed. -/
theorem heartbeats_cancelled_when_hash_fails :
    let moves := steps 0 17 ++ .act 0 { fails := true } :: steps 0 8
    let past := callHistory sampleSha sampleManager 7 oneByte [sendA 1] moves 0
    pending past = [] ∧ ∀ token h, ⟨.spawnHeartbeat token h, ()⟩ ∈ past → ∀ more env,
      let w := ((start sampleSha sampleManager 7 oneByte [sendA 1]).run semantics
        (moves ++ more)).world
      renewFinalizationLease ⟨token, env⟩ w = w :=
  (heartbeats_cancelled_iff sampleSha sampleManager 7 oneByte [sendA 1]
    (steps 0 17 ++ .act 0 { fails := true } :: steps 0 8) 0 (by decide +kernel)).mpr
    (by decide +kernel)

set_option maxRecDepth 20000 in
/-- The byte `A` is sent, and the read of the chunk indices fails. The call has returned, and the
heartbeat goes on renewing its lease. -/
theorem heartbeat_outlives_failed_read :
    let s := (start sampleSha sampleManager 7 oneByte [sendA 1]).run semantics
      (steps 0 13 ++ [.act 0 { fails := true }])
    s.Returned 0 ∧
      (renewFinalizationLease ⟨0, { now := 1000 }⟩ s.world).row.finalizeLeaseUntil ≠
        s.world.row.finalizeLeaseUntil := by
  decide +kernel

end MichiServer.Upload
