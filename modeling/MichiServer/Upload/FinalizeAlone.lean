import MichiServer.Upload.Alone

/-!
# A finalization that has the upload for itself

The result is one for the finalization as a whole: it completes the upload exactly when every chunk is
receipted and the stored file is the announced one, and otherwise fails it for good. It does not matter
whether the lease was free or had to be taken over from a process that is gone.

While the worker holds the lease, `Renewing` says what it knows: the lease is its own, its heartbeat
is the only one that runs, and the store is as the last step left it.
-/

namespace MichiServer.Upload

open MichiServer.Files MichiServer.Interleave

namespace UploadStore

/-- The file a finalization checks: the staging file when it is there. -/
def candidate (S : UploadStore) : Option Inode := S.part <|> S.final

/-- Every chunk is receipted, and the file a finalization checks is `x`, the announced one. -/
structure Complete (sha : Sha256) (info : UploadInfo) (S : UploadStore) (x : Inode) : Prop where
  receipted : ∀ index < info.totalChunks, ∃ r ∈ S.receipts, r.chunkIndex = index
  candidate : S.candidate = some x
  verified : Verified sha info (S.content x)

end UploadStore

/-! ## Holding the lease -/

/-- The process `e` holds the lease `t` over the store `S`, and the heartbeat of it is the only one
that may run. `cached` says whether the process has the upload in its cache. -/
structure Holding (t : Token) (e : Epoch) (S : UploadStore) (cached : Bool) (w : UploadWorld) :
    Prop where
  held : HeldBy t e w.row
  store : w.store = S
  cached : (w.uploads e).isSome = cached
  others : ∀ t', t' ≠ t → ∀ h, w.heartbeats t' = some h → h.outcome ≠ none

structure Renewing (t : Token) (e : Epoch) (S : UploadStore) (cached : Bool) (w : UploadWorld) :
    Prop extends Holding t e S cached w where
  running : ∃ h, w.heartbeats t = some h ∧ h.outcome = none

def FailedForGood (w : UploadWorld) : Prop :=
  w.row.status = .failed ∧ w.row.failureClass = some .terminal

section Held

variable {sha : Sha256} {info : UploadInfo} {mgr : SyncManager} {fileId : Uuid} {i : TaskId}
  {t : Token} {e : Epoch} {S : UploadStore} {cached : Bool} {w w' : UploadWorld}

theorem Holding.later (h : Holding t e S cached w) (hlater : Later w w') :
    Holding t e S cached w' where
  held := hlater.heldBy h.held
  store := hlater.store.trans h.store
  cached := (hlater.cached e).trans h.cached
  others t' ht h' hget := by
    rw [hlater.heartbeats] at hget
    exact h.others t' ht h' hget

theorem Renewing.later (h : Renewing t e S cached w) (hlater : Later w w') :
    Renewing t e S cached w' where
  toHolding := h.toHolding.later hlater
  running := by
    rw [hlater.heartbeats]
    exact h.running

theorem gives_orStopHeartbeat {α : Type} {G : α → UploadWorld → Prop} {x : SyncM α}
    (hx : Gives e i G x w) : Gives e i G (orStopHeartbeat t x) w := by
  refine hx.attempt.then fun r w' hr => ?_
  obtain ⟨a, rfl, hG⟩ := hr
  exact Gives.pure hG

theorem gives_assertFinalizationOwner (h : Renewing t mgr.processEpoch S cached w) :
    Gives mgr.processEpoch i (fun _ w' => Renewing t mgr.processEpoch S cached w')
      (assertFinalizationOwner mgr fileId t) w := by
  refine gives_selectUpload.then fun row w₁ hrow => ?_
  obtain ⟨hlater, rfl⟩ := hrow
  have h₁ := h.later hlater
  rw [if_neg (by simp [h₁.held.status, h₁.held.token, h₁.held.owner_epoch])]
  cases hlease : w₁.row.finalizeLeaseUntil with
  | none => exact Gives.pure h₁
  | some lease =>
    refine gives_utcNow.then fun now w₂ hnow => ?_
    obtain ⟨hlater₂, hbefore⟩ := hnow
    have hnot : ¬ now ≥ lease := Int.not_le.mpr (hbefore h₁.held.owner_epoch lease hlease)
    rw [if_neg hnot]
    exact Gives.pure (h₁.later hlater₂)

theorem gives_stopHeartbeat (h : Renewing t e S cached w) :
    Gives e i (fun r w' => r = .ok () ∧ Holding t e S cached w' ∧ Unwatched w')
      (stopHeartbeat t) w := by
  apply Gives.sure
  apply alone_step (a := .joinHeartbeat t) trivial
  intro w₁ env hlater _ _
  have h₁ := h.later hlater
  obtain ⟨hb, hget, hout⟩ := h₁.running
  have hun : Unwatched (w₁.setHeartbeat t { hb with outcome := some hb.joined }) := by
    intro t' h' hget'
    simp only [UploadWorld.setHeartbeat] at hget'
    split at hget'
    · cases hget'
      simp
    next hne => exact h₁.others t' hne h' hget'
  simp only [exec, hget]
  refine ⟨?_, ⟨h₁.held, h₁.store, h₁.cached, fun t' _ => hun t'⟩, hun⟩
  simp [Heartbeat.joined, hout]

/-! ## Marking the row -/

theorem gives_updateCached {f : UploadMeta → UploadMeta} :
    Gives e i (fun _ w' => ∃ w₁, Later w w₁ ∧ w' = w₁.setUploads mgr.processEpoch
      ((w₁.uploads mgr.processEpoch).map f)) (updateCached mgr f) w := by
  refine gives_updateUploads.then fun m w' h => ?_
  obtain ⟨w₁, hlater, rfl, rfl⟩ := h
  exact Gives.pure ⟨w₁, hlater, rfl⟩

theorem gives_markUploadFailedAsOwner {code reason : String}
    (h : Holding t mgr.processEpoch S cached w) (hun : Unwatched w) :
    Gives mgr.processEpoch i (fun _ w' => FailedForGood w')
      (markUploadFailedAsOwner mgr fileId t .terminal code reason) w := by
  refine (gives_updateUpload hun).then fun changed w' h' => ?_
  obtain ⟨w₁, _, rfl, rfl⟩ := h'
  have happlies : UploadUpdate.applies w.row
      (.markFailed t mgr.processEpoch .terminal code reason) = true :=
    decide_eq_true ⟨h.held.status, h.held.token, h.held.owner_epoch⟩
  rw [happlies, if_pos rfl]
  refine gives_updateCached.mono fun _ w' h' => ?_
  obtain ⟨w₂, hlater, rfl⟩ := h'
  obtain ⟨lease, hrow⟩ := hlater.row
  show FailedForGood w₂
  rw [FailedForGood, hrow, UploadUpdate.apply, if_pos happlies]
  exact ⟨rfl, rfl⟩

theorem ends_failFinalization {α : Type} {code : UploadFailureCode} {reason : String}
    {error : SyncError} (h : Renewing t mgr.processEpoch S cached w) :
    Ends mgr.processEpoch i (fun (r : Except SyncError α) w' => r = .error error ∧ FailedForGood w')
      (failFinalization mgr fileId t code reason error) w := by
  refine (gives_stopHeartbeat h).then fun _ w₁ h₁ => ?_
  obtain ⟨_, hheld, hun⟩ := h₁
  refine (gives_markUploadFailedAsOwner hheld hun).attempt.then fun _ w₂ h₂ => ?_
  obtain ⟨_, _, hfailed⟩ := h₂
  exact Ends.throw ⟨rfl, hfailed⟩

@[simp] theorem isSome_setUploads_map (w : UploadWorld) (e : Epoch) (f : UploadMeta → UploadMeta) :
    ((w.setUploads e ((w.uploads e).map f)).uploads e).isSome = (w.uploads e).isSome := by
  simp [UploadWorld.setUploads]

structure MarkedCompleted (e : Epoch) (S : UploadStore) (cached : Bool) (w : UploadWorld) : Prop where
  status : w.row.status = .completed
  store : w.store = S
  unwatched : Unwatched w
  cached : (w.uploads e).isSome = cached
  cached_status : ∀ m, w.uploads e = some m → m.status = .completed

/-- The upload is marked completed. -/
theorem gives_markUploadCompleted (h : Holding t mgr.processEpoch S cached w)
    (hun : Unwatched w) :
    Gives mgr.processEpoch i (fun _ w' => MarkedCompleted mgr.processEpoch S cached w')
      (markUploadCompleted mgr fileId t) w := by
  refine (gives_updateUpload hun).then fun changed w₁ h₁ => ?_
  obtain ⟨w₀, hlater₀, rfl, rfl⟩ := h₁
  have happlies : UploadUpdate.applies w.row (.markCompleted t mgr.processEpoch) = true :=
    decide_eq_true ⟨h.held.status, h.held.token, h.held.owner_epoch⟩
  rw [happlies, if_pos rfl]
  refine gives_updateCached.mono fun _ w' h' => ?_
  obtain ⟨w₂, hlater, rfl⟩ := h'
  have h₂ := h.later hlater₀
  have hun₂ := hlater₀.unwatched hun
  obtain ⟨hrow, _⟩ := hlater.still hun₂
  refine ⟨?_, hlater.store.trans h₂.store, hlater.unwatched hun₂, ?_, fun m hm => ?_⟩
  · show w₂.row.status = _
    rw [hrow, UploadUpdate.apply, if_pos happlies]
    rfl
  · rw [isSome_setUploads_map]
    exact (hlater.cached _).trans h₂.cached
  · simp only [UploadWorld.setUploads, if_pos] at hm
    obtain ⟨_, _, rfl⟩ := Option.map_eq_some_iff.mp hm
    rfl

/-! ## The stored file -/

variable {x : Inode} {p : UploadPath} {reads : ℕ}

/-- The loop hashes the whole file. -/
theorem gives_hashLoop (reads : ℕ) (hashed : List UInt8)
    (hread : hashed <+: S.content x) (hreads : (S.content x).length < hashed.length + reads)
    (h : Renewing t e S cached w) :
    Gives e i (fun hash w' => hash = sha.hex (S.content x) ∧ Renewing t e S cached w')
      (hashLoop sha mgr x reads hashed) w := by
  induction reads generalizing hashed w with
  | zero => exact absurd hread.length_le (by omega)
  | succ reads ih =>
    refine gives_readBlock.then fun block w₁ hblock => ?_
    obtain ⟨hlater, n, hn, rfl⟩ := hblock
    rw [h.store]
    obtain ⟨rest, hrest⟩ := hread
    have hslice : slice (S.content x) hashed.length n = rest.take n := by
      rw [← hrest, slice, List.drop_left]
    rw [hslice]
    by_cases hempty : (rest.take n).isEmpty = true
    · rw [if_pos hempty]
      rw [List.isEmpty_iff, List.take_eq_nil_iff] at hempty
      have hnil : rest = [] := hempty.resolve_left (by omega)
      refine Gives.pure ⟨?_, h.later hlater⟩
      rw [← hrest, hnil, List.append_nil]
    · rw [if_neg hempty]
      have hpos : 0 < (rest.take n).length := List.length_pos_iff.mpr fun hnil => by grind
      apply ih
      · rw [← hrest]
        exact ⟨rest.drop n, by rw [List.append_assoc, List.take_append_drop]⟩
      · rw [List.length_append]
        omega
      · exact h.later hlater

theorem gives_calculateFileHash
    (hx : S.fileAt p = some x) (hreads : (S.content x).length < reads)
    (h : Renewing t e S cached w) :
    Gives e i (fun hash w' => hash = sha.hex (S.content x) ∧ Renewing t e S cached w')
      (calculateFileHash sha mgr reads p) w := by
  rw [← h.store] at hx
  refine (gives_openFile hx).then fun y w₁ hy => ?_
  obtain ⟨hlater, rfl⟩ := hy
  exact gives_hashLoop reads [] List.nil_prefix (by simpa using hreads) (h.later hlater)

/-! ## The promotion -/

def UploadStore.promoted (S : UploadStore) : UploadPath → UploadStore
  | .part => { S with final := S.part, part := none }
  | .final => S

theorem gives_promote (hx : S.fileAt p = some x) (h : Renewing t e S cached w) :
    Gives e i (fun _ w' => Renewing t e (S.promoted p) cached w') (promote t p) w := by
  cases p with
  | final => exact Gives.pure h
  | part =>
    apply gives_orStopHeartbeat
    have hpart : w.store.part = some x := by
      rw [h.store]
      exact hx
    refine (gives_renamePart hpart).mono fun _ w' h' => ?_
    obtain ⟨w₁, hlater, rfl⟩ := h'
    have h₁ := h.later hlater
    refine ⟨⟨h₁.held, ?_, h₁.cached, h₁.others⟩, h₁.running⟩
    rw [← h₁.store]
    rfl

theorem insertSyncedFile_eq (w : UploadWorld) (f : SyncedFile) :
    ∃ files, w.insertSyncedFile f = { w with syncedFiles := files } ∧
      ∃ g ∈ files, g.fileHash = f.fileHash ∧ g.serverPath = f.serverPath := by
  unfold UploadWorld.insertSyncedFile
  split
  next hold =>
    grind
  · exact ⟨w.syncedFiles ++ [f], rfl, f, by simp, rfl, rfl⟩

/-- The file is registered, or was. -/
theorem gives_registerUploadedFile (h : Renewing t e S cached w) :
    Gives e i (fun _ w' => ∃ files, (∃ g ∈ files, g.fileHash = info.expectedHash ∧
        g.serverPath = finalFilePath mgr fileId) ∧
        Renewing t e { S with syncedFiles := files } cached w')
      (registerUploadedFile mgr fileId info) w := by
  refine gives_drawUuid.then fun id w₁ hlater₁ => ?_
  refine gives_utcNow.then fun now w₂ h₂ => ?_
  refine gives_insertSyncedFile.then fun _ w₃ h₃ => ?_
  obtain ⟨w₂', hlater₃, rfl⟩ := h₃
  obtain ⟨files, heq, g, hg, hkey⟩ := insertSyncedFile_eq w₂' ⟨id, info.filename,
    info.originalPath, finalFilePath mgr fileId, info.expectedHash, info.fileSize, now,
    info.uploadedBy, true⟩
  have h₂' := h.later ((hlater₁.trans h₂.1).trans hlater₃)
  have hnew : Renewing t e { S with syncedFiles := files } cached
      { w₂' with syncedFiles := files } := by
    refine ⟨⟨h₂'.held, ?_, h₂'.cached, h₂'.others⟩, h₂'.running⟩
    rw [← h₂'.store]
    rfl
  have hthere : ∃ g ∈ { w₂' with syncedFiles := files }.store.syncedFiles,
      g.fileHash = info.expectedHash ∧ g.serverPath = finalFilePath mgr fileId :=
    ⟨g, hg, hkey⟩
  rw [heq]
  refine (gives_selectSyncedFile hthere).mono fun _ w₄ hlater₄ => ?_
  exact ⟨files, ⟨g, hg, hkey⟩, hnew.later hlater₄⟩

/-! ## The outcome -/

/-- The upload is completed with the file `x` of the store it was finalized over. -/
structure Finalized (info : UploadInfo) (serverPath : String) (e : Epoch) (S : UploadStore)
    (cached : Bool) (x : Inode) (w : UploadWorld) : Prop where
  status : w.row.status = .completed
  unwatched : Unwatched w
  cached : (w.uploads e).isSome = cached
  cached_status : ∀ m, w.uploads e = some m → m.status = .completed
  final : w.final = some x
  content : w.content x = S.content x
  receipts : w.receipts = S.receipts
  registered : ∃ g ∈ w.syncedFiles,
    g.fileHash = info.expectedHash ∧ g.serverPath = serverPath

/-- What a finalization over a store ends with: the upload completed when the store is complete, else
failed for good. -/
def Outcome (sha : Sha256) (info : UploadInfo) (serverPath : String) (e : Epoch)
    (S : UploadStore) (cached : Bool) (r : Except SyncError Unit) (w : UploadWorld) : Prop :=
  (∃ x, S.Complete sha info x ∧ r = .ok () ∧ Finalized info serverPath e S cached x w) ∨
    (∀ x, ¬ S.Complete sha info x) ∧ (∃ error, r = .error error) ∧ FailedForGood w

/-- The file is promoted and the upload completed. -/
theorem gives_promoteAndComplete (hx : S.fileAt p = some x)
    (h : Renewing t mgr.processEpoch S cached w) :
    Gives mgr.processEpoch i (fun _ w' =>
        Finalized info (finalFilePath mgr fileId) mgr.processEpoch S cached x w')
      (promoteAndComplete mgr fileId info t p) w := by
  refine (gives_orStopHeartbeat (gives_assertFinalizationOwner h)).then fun _ w₁ h₁ => ?_
  refine (gives_promote hx h₁).then fun _ w₂ h₂ => ?_
  refine (gives_orStopHeartbeat (gives_assertFinalizationOwner h₂)).then fun _ w₃ h₃ => ?_
  refine (gives_orStopHeartbeat (gives_registerUploadedFile h₃)).then fun _ w₄ h₄ => ?_
  obtain ⟨files, hregistered, h₄⟩ := h₄
  refine (gives_stopHeartbeat h₄).then fun result w₅ h₅ => ?_
  obtain ⟨rfl, h₅, hun⟩ := h₅
  refine (gives_markUploadCompleted h₅ hun).mono fun _ w' h' => ?_
  have hfinal : (S.promoted p).final = some x := by
    cases p with
    | part => exact hx
    | final => exact hx
  have hsame : (S.promoted p).inodes = S.inodes ∧ (S.promoted p).receipts = S.receipts := by
    cases p with
    | part => exact ⟨rfl, rfl⟩
    | final => exact ⟨rfl, rfl⟩
  have hstore := h'.store
  refine ⟨h'.status, h'.unwatched, h'.cached, h'.cached_status, ?_, ?_, ?_, ?_⟩
  · exact (congrArg UploadStore.final hstore).trans hfinal
  · have hinodes := (congrArg UploadStore.inodes hstore).trans hsame.1
    show w'.store.inodes[x]?.getD [] = _
    rw [hinodes]
    rfl
  · exact (congrArg UploadStore.receipts hstore).trans hsame.2
  · have hfiles := congrArg UploadStore.syncedFiles hstore
    show ∃ g ∈ w'.store.syncedFiles, _
    rw [hfiles]
    exact hregistered

/-- The file is verified: it is completed, or put aside. -/
theorem ends_verifyFile (hx : S.fileAt p = some x) (hreads : (S.content x).length < reads)
    (hreceipted : ∀ index < info.totalChunks, ∃ r ∈ S.receipts, r.chunkIndex = index)
    (hcandidate : S.candidate = some x) (h : Renewing t mgr.processEpoch S cached w) :
    Ends mgr.processEpoch i
      (Outcome sha info (finalFilePath mgr fileId) mgr.processEpoch S cached)
      (verifyFile sha mgr fileId reads info t p) w := by
  have hnot (hwrong : ¬ Verified sha info (S.content x)) (y : Inode) : ¬ S.Complete sha info y := by
    intro hcomplete
    cases hcandidate.symm.trans hcomplete.candidate
    exact hwrong hcomplete.verified
  have hfile : w.store.fileAt p = some x := by
    rw [h.store]
    exact hx
  refine (gives_metadataLen hfile).then fun len w₁ h₁ => ?_
  obtain ⟨hlater, rfl⟩ := h₁
  rw [h.store]
  by_cases hsize : (S.content x).length = info.fileSize
  · rw [if_neg (not_not.mpr hsize)]
    refine (gives_orStopHeartbeat (gives_calculateFileHash hx hreads (h.later hlater))).then
      fun computedHash w₂ h₂ => ?_
    obtain ⟨rfl, h₂⟩ := h₂
    by_cases hsha : sha.hex (S.content x) = info.expectedHash
    · rw [if_neg (not_not.mpr hsha)]
      refine Ends.mono (gives_promoteAndComplete hx h₂) fun r w' h' => ?_
      obtain ⟨_, rfl, hfinalized⟩ := h'
      exact Or.inl ⟨x, ⟨hreceipted, hcandidate, hsize, hsha⟩, rfl, hfinalized⟩
    · rw [if_pos hsha]
      refine (ends_failFinalization h₂).mono fun r w' h' => ?_
      exact Or.inr ⟨hnot fun hv => hsha hv.2, ⟨_, h'.1⟩, h'.2⟩
  · rw [if_pos hsize]
    refine (ends_failFinalization (h.later hlater)).mono fun r w' h' => ?_
    exact Or.inr ⟨hnot fun hv => hsize hv.1, ⟨_, h'.1⟩, h'.2⟩

/-- **The finalization.** A worker that has just got the lease, and has the upload for itself,
completes the upload exactly when its store is complete. -/
theorem ends_finalizeAsOwner {leaseUntil : DateTime}
    (hheld : HeldBy t mgr.processEpoch w.row) (hun : Unwatched w)
    (hreads : ∀ x, w.store.candidate = some x → (w.store.content x).length < reads) :
    Ends mgr.processEpoch i
      (Outcome sha info (finalFilePath mgr fileId) mgr.processEpoch w.store
        (w.uploads mgr.processEpoch).isSome)
      (finalizeAsOwner sha mgr fileId reads info t leaseUntil) w := by
  refine gives_updateCached.then fun _ w₁ h₁ => ?_
  obtain ⟨w₀, hlater₀, rfl⟩ := h₁
  refine Gives.then (gives_spawn ?_) fun _ w₁ h₁ => ?_
  · exact hlater₀.heldBy hheld
  obtain ⟨w₀', hlater₁, rfl⟩ := h₁
  have h₁ : Renewing t mgr.processEpoch w.store (w.uploads mgr.processEpoch).isSome
      (w₀'.setHeartbeat t ⟨fileId, mgr.processEpoch,
        mgr.runtimeConfig.finalizeLeaseDuration, none⟩) := by
    refine ⟨⟨hlater₁.heldBy (hlater₀.heldBy hheld), hlater₁.store.trans hlater₀.store, ?_, ?_⟩, ?_⟩
    · show (w₀'.uploads _).isSome = _
      rw [hlater₁.cached, isSome_setUploads_map, hlater₀.cached]
    · intro t' ht h' hget
      simp only [UploadWorld.setHeartbeat, if_neg ht] at hget
      rw [hlater₁.heartbeats] at hget
      exact hlater₀.unwatched hun t' h' hget
    · exact ⟨_, if_pos rfl, rfl⟩
  refine gives_selectChunkIndices.then fun dbChunks w₂ h₂ => ?_
  obtain ⟨hlater₂, rfl⟩ := h₂
  have h₂ := h₁.later hlater₂
  rw [h₁.store]
  cases hmissing : (List.range info.totalChunks).find? fun k =>
      !(w.store.receipts.map ChunkReceipt.chunkIndex).contains k with
  | some index =>
    refine (ends_failFinalization h₂).mono fun r w' h' => ?_
    refine Or.inr ⟨fun x hcomplete => ?_, ⟨_, h'.1⟩, h'.2⟩
    obtain ⟨r, hr, hidx⟩ := hcomplete.receipted index
      (List.mem_range.mp (List.mem_of_find?_eq_some hmissing))
    grind
  | none =>
    have hreceipted : ∀ index < info.totalChunks, ∃ r ∈ w.store.receipts,
        r.chunkIndex = index := by
      intro index hlt
      have hfound := List.find?_eq_none.mp hmissing index (List.mem_range.mpr hlt)
      grind
    refine gives_existsOnDisk.then fun staged w₃ h₃ => ?_
    obtain ⟨hlater₃, rfl⟩ := h₃
    have h₃ := h₂.later hlater₃
    rw [h₂.store]
    cases hpart : w.store.part with
    | some x =>
      grind [UploadStore.candidate, UploadStore.fileAt, ends_verifyFile]
    | none =>
      rw [if_neg (by simp [UploadStore.fileAt, hpart])]
      refine gives_existsOnDisk.then fun promoted w₄ h₄ => ?_
      obtain ⟨hlater₄, rfl⟩ := h₄
      have h₄ := h₃.later hlater₄
      rw [h₃.store]
      cases hfinal : w.store.final with
      | some x =>
        grind [UploadStore.candidate, UploadStore.fileAt, ends_verifyFile]
      | none =>
        rw [if_neg (by simp [UploadStore.fileAt, hfinal])]
        refine (ends_failFinalization h₄).mono fun r w' h' => ?_
        refine Or.inr ⟨fun x hcomplete => ?_, ⟨_, h'.1⟩, h'.2⟩
        have hnone := hcomplete.candidate
        simp [UploadStore.candidate, hpart, hfinal] at hnone

/-! ## Getting the lease -/

/-- Alone, a task acquires the upload and finalizes it. -/
theorem ends_acquireAndFinalize (hrow : w.row.status = .uploading) (hun : Unwatched w)
    (hreads : ∀ x, w.store.candidate = some x → (w.store.content x).length < reads) :
    Ends mgr.processEpoch i
      (Outcome sha info (finalFilePath mgr fileId) mgr.processEpoch w.store
        (w.uploads mgr.processEpoch).isSome)
      (acquireAndFinalize sha mgr fileId reads info) w := by
  refine gives_drawUuid.then fun t w₁ hlater₁ => ?_
  refine gives_utcNow.then fun now w₂ h₂ => ?_
  have hlater₂ := hlater₁.trans h₂.1
  have hun₂ := hlater₂.unwatched hun
  have hrow₂ : w₂.row.status = .uploading := by rw [(hlater₂.still hun).1, hrow]
  refine (gives_updateUpload hun₂).then fun acquired w₃ h₃ => ?_
  obtain ⟨w₃', hlater₃, rfl, rfl⟩ := h₃
  have happlies : UploadUpdate.applies w₂.row (.acquire t mgr.processEpoch now
      (now + mgr.runtimeConfig.finalizeLeaseDuration)) = true :=
    decide_eq_true (Or.inl hrow₂)
  rw [if_pos happlies]
  have hlater := hlater₂.trans hlater₃
  rw [← hlater.store, ← hlater.cached]
  apply ends_finalizeAsOwner
  · rw [UploadUpdate.apply, if_pos happlies]
    exact ⟨rfl, rfl, rfl⟩
  · exact hlater.unwatched hun
  · intro x hx
    rw [← hlater.store] at hreads
    exact hreads x hx

/-- The lease is got; nothing of the store and nothing of the cache has changed. -/
structure Acquired (w₀ : UploadWorld) (e : Epoch) (t : Token) (w : UploadWorld) : Prop where
  held : HeldBy t e w.row
  store : w.store = w₀.store
  cached : (w.uploads e).isSome = (w₀.uploads e).isSome
  unwatched : Unwatched w

/-- Alone, a task takes over from another epoch. -/
theorem gives_takeOver {row : UploadRow} (hrow : w.row.status = .finalizing)
    (hother : row.finalizeOwnerEpoch ≠ some mgr.processEpoch)
    (hsame : row.finalizeOwnerEpoch = w.row.finalizeOwnerEpoch) (hun : Unwatched w) :
    Gives mgr.processEpoch i (fun t w' => Acquired w mgr.processEpoch t w')
      (takeOver mgr fileId row) w := by
  refine gives_drawUuid.then fun t w₁ hlater₁ => ?_
  refine gives_utcNow.then fun now w₂ h₂ => ?_
  have hlater₂ := hlater₁.trans h₂.1
  have hrow₂ : w₂.row = w.row := (hlater₂.still hun).1
  dsimp only
  rw [if_pos hother]
  refine (gives_updateUpload (hlater₂.unwatched hun)).then fun taken w₃ h₃ => ?_
  obtain ⟨w₃', hlater₃, rfl, rfl⟩ := h₃
  have happlies : UploadUpdate.applies w₂.row (.takeOverEpoch t mgr.processEpoch now
      (now + mgr.runtimeConfig.finalizeLeaseDuration)) = true := by
    rw [hrow₂]
    exact decide_eq_true ⟨hrow, hsame ▸ hother⟩
  rw [if_pos happlies]
  have hlater := hlater₂.trans hlater₃
  refine Gives.pure ⟨?_, hlater.store, hlater.cached _, hlater.unwatched hun⟩
  rw [UploadUpdate.apply, if_pos happlies]
  exact ⟨hrow₂ ▸ hrow, rfl, rfl⟩

theorem gives_contend (hrow : w.row.status = .finalizing)
    (hother : w.row.finalizeOwnerEpoch ≠ some mgr.processEpoch) (hun : Unwatched w) :
    Gives mgr.processEpoch i (fun owner w' => ∃ t, owner = some t ∧
      Acquired w mgr.processEpoch t w') (contend mgr fileId) w := by
  refine gives_selectUpload.then fun row w₁ h₁ => ?_
  obtain ⟨hlater₁, rfl⟩ := h₁
  have hrow₁ : w₁.row = w.row := (hlater₁.still hun).1
  have hstatus : w₁.row.status = .finalizing := hrow₁ ▸ hrow
  simp only [hstatus]
  refine gives_utcNow.then fun now w₂ h₂ => ?_
  have hlater₂ := hlater₁.trans h₂.1
  have hrow₂ : w₂.row = w.row := (hlater₂.still hun).1
  have hother₁ : w₁.row.finalizeOwnerEpoch ≠ some mgr.processEpoch := hrow₁ ▸ hother
  rw [if_pos (by simp [isStale, hother₁])]
  refine Gives.then (gives_takeOver (hrow₂ ▸ hrow) hother₁ (by rw [hrow₁, hrow₂])
    (hlater₂.unwatched hun)) fun t w₃ h₃ => ?_
  exact Gives.pure ⟨t, rfl, h₃.held, h₃.store.trans hlater₂.store,
    h₃.cached.trans (hlater₂.cached _), h₃.unwatched⟩

/-- A task that takes over finalizes. -/
theorem ends_takeOver_and_finalize (hrow : w.row.status = .finalizing)
    (hother : w.row.finalizeOwnerEpoch ≠ some mgr.processEpoch) (hun : Unwatched w)
    (hreads : ∀ x, w.store.candidate = some x → (w.store.content x).length < reads) :
    Ends mgr.processEpoch i
      (Outcome sha info (finalFilePath mgr fileId) mgr.processEpoch w.store
        (w.uploads mgr.processEpoch).isSome)
      (acquireAndFinalize sha mgr fileId reads info) w := by
  refine gives_drawUuid.then fun t w₁ hlater₁ => ?_
  refine gives_utcNow.then fun now w₂ h₂ => ?_
  have hlater₂ := hlater₁.trans h₂.1
  have hun₂ := hlater₂.unwatched hun
  have hrow₂ : w₂.row = w.row := (hlater₂.still hun).1
  refine (gives_updateUpload hun₂).then fun acquired w₃ h₃ => ?_
  obtain ⟨w₃', hlater₃, rfl, rfl⟩ := h₃
  have hrefused : ¬ UploadUpdate.applies w₂.row (.acquire t mgr.processEpoch now
      (now + mgr.runtimeConfig.finalizeLeaseDuration)) = true := by
    simp [UploadUpdate.applies, hrow₂, hrow]
  have hlater := hlater₂.trans hlater₃
  have hsame : { w₃' with row := w₂.row } = w₃' := by rw [← (hlater₃.still hun₂).1]
  have hrow₃ : w₃'.row = w.row := (hlater.still hun).1
  rw [if_neg hrefused, UploadUpdate.apply, if_neg hrefused, hsame]
  refine (gives_contend (hrow₃ ▸ hrow) (hrow₃ ▸ hother) (hlater.unwatched hun)).then
    fun owner w₄ h₄ => ?_
  obtain ⟨t', rfl, h₄⟩ := h₄
  have hstore : w₄.store = w.store := h₄.store.trans hlater.store
  rw [← hstore, ← (h₄.cached.trans (hlater.cached _) : _ = (w.uploads _).isSome)]
  apply ends_finalizeAsOwner h₄.held h₄.unwatched
  intro x hx
  rw [← hstore] at hreads
  exact hreads x hx

end Held

end MichiServer.Upload
