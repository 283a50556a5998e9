import MichiServer.Upload.Outlines

/-!
# The calls, outlined

Each function of the upload calls, read under the discipline, up to `upload_chunk` and
`verify_and_finalize_upload`. The facts that matter are few. A chunk is written inside its range, to
the staged file, and recorded while its bytes are there. A worker that holds the lease has measured the
file it promotes: it has the announced length when it is sized, its bytes are those that were hashed,
and as long as the token is in the row nobody changes either.
-/

namespace MichiServer.Upload

open MichiServer.Files MichiServer.Interleave

/-! ## Facts that last -/

/-- As long as the token is in the row, the name stands for this file, and its content is so. -/
def Measured (P : Promises) (t : Token) (p : UploadPath) (x : Inode) (F : List UInt8 → Prop)
    (w : UploadWorld) : Prop :=
  P.quiet → w.row.finalizeToken = some t → w.fileAt p = some x ∧ F (w.content x)

theorem Measured.of_calm {P : Promises} {t : Token} {p : UploadPath} {x : Inode}
    {F : List UInt8 → Prop} {w w' : UploadWorld} {i : TaskId} (h : Measured P t p x F w)
    (hcalm : Calm P i w w') (ht : w.uuids[t]? = some i) : Measured P t p x F w' := by
  intro hq htoken
  obtain ⟨hfile, hF⟩ := h hq (hcalm.token t ht htoken)
  obtain ⟨hfile', hsame⟩ := hcalm.quiet hq t ht htoken p x hfile
  exact ⟨hfile', by rwa [hsame]⟩

theorem Measured.mono {P : Promises} {t : Token} {p : UploadPath} {x : Inode}
    {F G : List UInt8 → Prop} {w : UploadWorld} (h : Measured P t p x F w)
    (hFG : ∀ content, F content → G content) : Measured P t p x G w := fun hq htoken =>
  ⟨(h hq htoken).1, hFG _ (h hq htoken).2⟩

theorem AllReceipted.of_calm {P : Promises} {info : UploadInfo} {w w' : UploadWorld} {i : TaskId}
    (h : AllReceipted info w) (hcalm : Calm P i w w') : AllReceipted info w' := fun index hlt => by
  obtain ⟨r, hr, hidx⟩ := h index hlt
  exact ⟨r, hcalm.receipts r hr, hidx⟩

namespace Setting

variable {c : Setting} {i : TaskId} {w : UploadWorld} {mgr : SyncManager} {fileId : Uuid}
  {t : Token}

/-! ## Sessions -/

theorem calmly_updateCached {f : UploadMeta → UploadMeta}
    (hf : ∀ m, (f m).toUploadInfo = m.toUploadInfo) :
    c.Calmly i (fun _ _ => True) (updateCached mgr f) w := by
  refine Calmly.bind (calmly_updateUploads fun m hm m₁ hm₁ => ?_) fun _ _ _ _ => .pure trivial
  obtain ⟨m₀, hm₀, rfl⟩ := Option.map_eq_some_iff.mp hm₁
  exact (hf m₀).trans (hm m₀ hm₀)

theorem calmly_loadSessionFromDbInternal :
    c.Calmly i (fun m _ => m.toUploadInfo = c.info) loadSessionFromDbInternal w :=
  calmly_selectUpload.bind fun _ _ _ hrow =>
    calmly_selectChunkIndices.bind fun _ _ _ _ => .pure hrow

theorem calmly_reloadSessionFromDb :
    c.Calmly i (fun m _ => m.toUploadInfo = c.info) (reloadSessionFromDb mgr) w := by
  refine calmly_loadSessionFromDbInternal.bind fun loaded _ _ hloaded => ?_
  refine Calmly.bind (calmly_updateUploads fun _ _ m₁ hm₁ => ?_) fun _ _ _ _ => .pure hloaded
  cases hm₁
  exact hloaded

theorem calmly_getOrLoadSession :
    c.Calmly i (fun m _ => m.toUploadInfo = c.info) (getOrLoadSession mgr) w := by
  refine Calmly.bind (calmly_updateUploads fun _ hm => hm) fun cached _ _ hcached => ?_
  cases cached with
  | some m => exact .pure (hcached m rfl)
  | none =>
    refine calmly_loadSessionFromDbInternal.bind fun loaded _ _ hloaded => ?_
    refine Calmly.bind (calmly_updateUploads fun m hm m₁ hm₁ => ?_) fun existing _ _ hold => ?_
    · cases hm₁
      cases m with
      | some m => exact hm m rfl
      | none => exact hloaded
    · cases existing with
      | some m => exact .pure (hold m rfl)
      | none => exact .pure hloaded

/-! ## Fencing -/

theorem calmly_assertFinalizationOwner :
    c.Calmly i (fun _ _ => True) (assertFinalizationOwner mgr fileId t) w := by
  refine calmly_selectUpload.bind fun row _ _ _ => Safe.ite (fun _ => .throw _) fun _ => ?_
  cases row.finalizeLeaseUntil with
  | none => exact Calmly.pure trivial
  | some leaseUntil =>
    exact calmly_utcNow.bind fun _ _ _ _ =>
      Safe.ite (fun _ => .throw _) fun _ => Calmly.pure trivial

theorem safe_ownership_lost :
    c.Safe i (fun (_ : Unit) _ => True) (do
      let _ ← TryProg.attempt (reloadSessionFromDb mgr)
      throw (.finalizationOwnershipLost fileId)) w :=
  (Safe.attempt calmly_reloadSessionFromDb).bind fun _ _ _ => .throw _

theorem safe_markUploadFailedAsOwner {code reason : String} (ht : w.uuids[t]? = some i) :
    c.Safe i (fun _ _ => True)
      (markUploadFailedAsOwner mgr fileId t .terminal code reason) w := by
  refine (calmly_mark (u := .markFailed t mgr.processEpoch .terminal code reason) trivial
    fun _ hcalm => ⟨hcalm.uuids t i ht, rfl⟩).then fun changed _ _ _ => ?_
  refine Safe.ite (fun _ => ?_) fun _ => safe_ownership_lost
  refine Safe.mono (calmly_updateCached ?_) fun _ _ _ => trivial
  exact fun _ => rfl

theorem safe_markUploadCompleted (ht : w.uuids[t]? = some i)
    (hstored : ∀ w', Calm c.promises i w w' → c.promises.quiet →
      w'.row.finalizeToken = some t → FileStored c.sha c.info c.serverPath w') :
    c.Safe i (fun _ _ => True) (markUploadCompleted mgr fileId t) w := by
  refine (calmly_mark (u := .markCompleted t mgr.processEpoch) trivial fun w' hcalm =>
    ⟨hcalm.uuids t i ht, hstored w' hcalm⟩).then fun changed _ _ _ => ?_
  refine Safe.ite (fun _ => ?_) fun _ => safe_ownership_lost
  refine Safe.mono (calmly_updateCached ?_) fun _ _ _ => trivial
  exact fun _ => rfl

theorem safe_orStopHeartbeat {α : Type} {Q : α → UploadWorld → Prop} {x : SyncM α}
    (hx : c.Safe i Q x w) : c.Safe i Q (orStopHeartbeat t x) w := by
  refine (Safe.attempt hx).bind fun result _ hresult => ?_
  cases result with
  | ok a => exact .pure (hresult a rfl)
  | error e => exact calmly_stopHeartbeat.then fun _ _ _ _ => .throw e

theorem safe_failFinalization {α : Type} {Q : α → UploadWorld → Prop} {code : UploadFailureCode}
    {reason : String} {e : SyncError} (ht : w.uuids[t]? = some i) :
    c.Safe i Q (failFinalization mgr fileId t code reason e) w :=
  calmly_stopHeartbeat.then fun _ _ hcalm _ =>
    (Safe.attempt (safe_markUploadFailedAsOwner (hcalm.uuids t i ht))).bind fun _ _ _ =>
      .throw e

/-! ## The stored file -/

variable {x : Inode} {reads : ℕ}

/-- What has been hashed stays the beginning of the file. -/
theorem calmly_hashLoop {p : UploadPath} {size : ℕ} (reads : ℕ)
    (hashed : List UInt8) (ht : w.uuids[t]? = some i)
    (hm : Measured c.promises t p x (fun content => content.length = size ∧ hashed <+: content) w) :
    c.Calmly i (fun h w' => Measured c.promises t p x
        (fun content => content.length = size ∧ c.sha.hex content = h) w')
      (hashLoop c.sha mgr x reads hashed) w := by
  induction reads generalizing w hashed with
  | zero => exact .throw _
  | succ reads ih =>
    refine calmly_readBlock.bind fun block w' hcalm hblock => ?_
    obtain ⟨n, hn, rfl⟩ := hblock
    have hm' := hm.of_calm hcalm ht
    refine Safe.ite (fun hempty => Calmly.pure fun hq htoken => ?_) fun _ =>
      ih _ (hcalm.uuids t i ht) fun hq htoken => ?_
    · obtain ⟨hfile, hsize, rest, hrest⟩ := hm' hq htoken
      refine ⟨hfile, hsize, ?_⟩
      -- nothing was left to read: the content is what was hashed
      grind [slice]
    · obtain ⟨hfile, hsize, rest, hrest⟩ := hm' hq htoken
      refine ⟨hfile, hsize, rest.drop n, ?_⟩
      rw [← hrest, slice, List.drop_left, List.append_assoc, List.take_append_drop]

theorem calmly_calculateFileHash {p : UploadPath} {size : ℕ} (ht : w.uuids[t]? = some i)
    (hm : Measured c.promises t p x (fun content => content.length = size) w) :
    c.Calmly i (fun h w' => ∃ x', Measured c.promises t p x'
        (fun content => content.length = size ∧ c.sha.hex content = h) w')
      (calculateFileHash c.sha mgr reads p) w := by
  refine calmly_openFile.bind fun x' w' hcalm hfile => ?_
  refine Safe.mono (calmly_hashLoop (t := t) (p := p) reads [] (hcalm.uuids t i ht) ?_)
    fun h w'' ⟨hcalm', hh⟩ => ⟨hcalm', x', hh⟩
  intro hq htoken
  obtain ⟨hfile', hsize⟩ := hm.of_calm hcalm ht hq htoken
  -- the name still stands for the file that was sized, so that is the file that was opened
  grind

theorem calmly_registerUploadedFile (hpath : finalFilePath mgr fileId = c.serverPath) :
    c.Calmly i (fun _ w' => ∃ g ∈ w'.syncedFiles,
        g.fileHash = c.info.expectedHash ∧ g.serverPath = c.serverPath)
      (registerUploadedFile mgr fileId c.info) w := by
  refine calmly_drawUuid.bind fun _ _ _ _ => calmly_utcNow.bind fun _ _ _ _ => ?_
  refine (calmly_insertSyncedFile ⟨rfl, hpath⟩).bind fun _ w' _ ⟨g, hg, hkey⟩ => ?_
  exact calmly_selectSyncedFile.mono fun _ w'' ⟨hcalm, _⟩ =>
    ⟨hcalm, g, hcalm.synced g hg, hkey⟩

theorem safe_renamePart {F : List UInt8 → Prop} (ht : w.uuids[t]? = some i)
    (hall : AllReceipted c.info w) (hm : Measured c.promises t .part x F w) :
    c.Safe i (fun _ w' => w'.uuids[t]? = some i ∧ Measured c.promises t .final x F w')
      renamePart w := by
  refine Safe.orElse (Outline.perform fun w₀ hrely _ => ⟨hall.of_calm hrely.1, ?_⟩)
  intro env _ b hb
  simp only [semantics, exec] at hb ⊢
  split at hb
  · cases hb
  next heffect =>
    rw [if_neg heffect]
    refine ⟨hrely.1.uuids t i ht, fun hq htoken => ?_⟩
    exact hm.of_calm hrely.1 ht hq htoken

/-- A verified file may be promoted. -/
theorem safe_promoteAndComplete {target : UploadPath}
    (hpath : finalFilePath mgr fileId = c.serverPath) (ht : w.uuids[t]? = some i)
    (hall : AllReceipted c.info w)
    (hm : Measured c.promises t target x (Verified c.sha c.info) w) :
    c.Safe i (fun _ _ => True) (promoteAndComplete mgr fileId c.info t target) w := by
  refine Calmly.then (safe_orStopHeartbeat calmly_assertFinalizationOwner)
    fun _ w₁ hcalm₁ _ => ?_
  have ht₁ := hcalm₁.uuids t i ht
  have hm₁ := hm.of_calm hcalm₁ ht
  refine Safe.bind (Q := fun _ w' => w'.uuids[t]? = some i ∧
    Measured c.promises t .final x (Verified c.sha c.info) w') ?_ fun _ w₂ ⟨ht₂, hm₂⟩ => ?_
  · unfold promote
    refine Safe.ite (fun hpart => ?_) fun hfinal => Safe.pure ⟨ht₁, ?_⟩
    · subst hpart
      exact safe_orStopHeartbeat (safe_renamePart ht₁ (hall.of_calm hcalm₁) hm₁)
    · cases target with
      | part => exact absurd rfl hfinal
      | final => exact hm₁
  refine Calmly.then (safe_orStopHeartbeat calmly_assertFinalizationOwner)
    fun _ w₃ hcalm₃ _ => ?_
  refine Calmly.then (safe_orStopHeartbeat (calmly_registerUploadedFile hpath))
    fun _ w₄ hcalm₄ ⟨g, hg, hkey⟩ => ?_
  refine calmly_stopHeartbeat.then fun result w₅ hcalm₅ _ => ?_
  have ht₅ : w₅.uuids[t]? = some i :=
    hcalm₅.uuids t i (hcalm₄.uuids t i (hcalm₃.uuids t i ht₂))
  have hm₅ := hm₂.of_calm ((hcalm₃.trans hcalm₄).trans hcalm₅) ht₂
  have hdone : c.Safe i (fun _ _ => True) (markUploadCompleted mgr fileId t) w₅ := by
    refine safe_markUploadCompleted ht₅ fun w' hcalm hq htoken => ?_
    obtain ⟨hfile, hverified⟩ := hm₅.of_calm hcalm ht₅ hq htoken
    exact ⟨⟨x, hfile, hverified⟩, g, hcalm.synced g (hcalm₅.synced g hg), hkey⟩
  split
  · exact .throw _
  · exact hdone

theorem safe_verifyFile {target : UploadPath}
    (hpath : finalFilePath mgr fileId = c.serverPath) (ht : w.uuids[t]? = some i)
    (hall : AllReceipted c.info w) :
    c.Safe i (fun _ _ => True) (verifyFile c.sha mgr fileId reads c.info t target) w := by
  refine calmly_metadataLen.then fun actualSize w₁ hcalm₁ ⟨x, hfile, hlen⟩ => ?_
  have ht₁ := hcalm₁.uuids t i ht
  refine Safe.ite (fun _ => safe_failFinalization ht₁) fun hsize => ?_
  rw [not_not] at hsize
  have hm₁ : Measured c.promises t target x
      (fun content => content.length = c.info.fileSize) w₁ :=
    fun _ _ => ⟨hfile, hlen.trans hsize⟩
  refine Calmly.then (safe_orStopHeartbeat (calmly_calculateFileHash ht₁ hm₁))
    fun computedHash w₂ hcalm₂ ⟨x', hm₂⟩ => ?_
  have ht₂ := hcalm₂.uuids t i ht₁
  refine Safe.ite (fun _ => safe_failFinalization ht₂) fun hhash => ?_
  rw [not_not] at hhash
  refine safe_promoteAndComplete hpath ht₂ ((hall.of_calm hcalm₁).of_calm hcalm₂)
    (hm₂.mono fun content ⟨hsize', hsha⟩ => ⟨hsize', hsha.trans hhash⟩)

/-- The owner may finalize. -/
theorem safe_finalizeAsOwner {leaseUntil : DateTime}
    (hpath : finalFilePath mgr fileId = c.serverPath) (ht : w.uuids[t]? = some i) :
    c.Safe i (fun _ _ => True)
      (finalizeAsOwner c.sha mgr fileId reads c.info t leaseUntil) w := by
  refine Calmly.then (calmly_updateCached ?_) fun _ w₁ hcalm₁ _ => ?_
  · exact fun _ => rfl
  refine calmly_spawn.then fun _ w₂ hcalm₂ _ => ?_
  refine calmly_selectChunkIndices.then fun dbChunks w₃ hcalm₃ hchunks => ?_
  have ht₃ : w₃.uuids[t]? = some i :=
    hcalm₃.uuids t i (hcalm₂.uuids t i (hcalm₁.uuids t i ht))
  cases hmissing : (List.range c.info.totalChunks).find? fun k => !dbChunks.contains k with
  | some expectedIdx =>
    exact safe_failFinalization ht₃
  | none =>
    have hall : AllReceipted c.info w₃ := fun index hlt => by
      have hfound := List.find?_eq_none.mp hmissing index (List.mem_range.mpr hlt)
      grind
    refine calmly_existsOnDisk.then fun staged w₄ hcalm₄ _ => ?_
    have ht₄ := hcalm₄.uuids t i ht₃
    refine Safe.ite (fun _ => safe_verifyFile hpath ht₄ (hall.of_calm hcalm₄)) fun _ => ?_
    refine calmly_existsOnDisk.then fun promoted w₅ hcalm₅ _ => ?_
    have ht₅ := hcalm₅.uuids t i ht₄
    exact Safe.ite
      (fun _ => safe_verifyFile hpath ht₅ ((hall.of_calm hcalm₄).of_calm hcalm₅))
      fun _ => safe_failFinalization ht₅

/-! ## The lease -/

theorem calmly_pollCompleted (n : ℕ) : c.Calmly i (fun _ _ => True) (pollCompleted n) w := by
  induction n generalizing w with
  | zero => exact Calmly.pure trivial
  | succ n ih =>
    exact calmly_selectUpload.bind fun _ _ _ _ =>
      Safe.ite (fun _ => Calmly.pure trivial) fun _ => ih

theorem calmly_noteCompleted : c.Calmly i (fun _ _ => True) (noteCompleted mgr) w := by
  refine calmly_updateCached ?_
  exact fun _ => rfl

theorem safe_takeOver {row : UploadRow} :
    c.Safe i (fun t w' => w'.uuids[t]? = some i) (takeOver mgr fileId row) w := by
  refine calmly_drawUuid.then fun t w₁ _ ht => ?_
  refine calmly_utcNow.then fun now w₂ hcalm₂ _ => ?_
  refine Safe.bind (safe_acquire (hcalm₂.uuids t i ht) fun w' ht' => ?_) fun taken w₃ ht₃ => ?_
  · split <;> exact ht'
  · exact Safe.ite (fun _ => .pure ht₃) fun _ => .throw _

/-- A token that is won was drawn by the task. -/
theorem safe_contend :
    c.Safe i (fun (r : Option Token) w' => ∀ t ∈ r, w'.uuids[t]? = some i)
      (contend mgr fileId) w := by
  have hnone : ∀ w', c.Safe i (fun (r : Option Token) w' => ∀ t ∈ r, w'.uuids[t]? = some i) (do
      noteCompleted mgr
      pure none) w' := fun w' =>
    calmly_noteCompleted.then fun _ _ _ _ => .pure fun _ ht => nomatch ht
  refine calmly_selectUpload.then fun row w₁ _ _ => ?_
  cases row.status with
  | completed => exact hnone w₁
  | finalizing =>
    refine calmly_utcNow.then fun now w₂ _ _ => Safe.ite (fun _ => ?_) fun _ => ?_
    · refine safe_takeOver.bind fun t w₃ ht => .pure fun t' ht' => ?_
      cases ht'
      exact ht
    · exact (calmly_pollCompleted 20).then fun _ w₃ _ _ =>
        Safe.ite (fun _ => hnone w₃) fun _ => .throw _
  | failed => exact Safe.ite (fun _ => .throw _) fun _ => .throw _
  | uploading => exact .throw _
  | cancelled => exact .throw _

theorem safe_acquireAndFinalize (hpath : finalFilePath mgr fileId = c.serverPath) :
    c.Safe i (fun _ _ => True)
      (acquireAndFinalize c.sha mgr fileId reads c.info) w := by
  refine calmly_drawUuid.then fun t w₁ _ ht => ?_
  refine calmly_utcNow.then fun now w₂ hcalm₂ _ => ?_
  refine Safe.bind (safe_acquire (hcalm₂.uuids t i ht) fun w' ht' => ht') fun acquired w₃ ht₃ => ?_
  refine Safe.ite (fun _ => safe_finalizeAsOwner hpath ht₃) fun _ => ?_
  refine safe_contend.bind fun ownerToken w₄ hown => ?_
  cases ownerToken with
  | some t' => exact safe_finalizeAsOwner hpath (hown t' rfl)
  | none => exact .pure trivial

theorem safe_verifyAndFinalizeUpload (hpath : finalFilePath mgr fileId = c.serverPath) :
    c.Safe i (fun _ _ => True)
      (verifyAndFinalizeUpload c.sha mgr fileId reads) w := by
  refine calmly_getOrLoadSession.then fun m w₁ _ hinfo => ?_
  rw [hinfo]
  cases m.status with
  | completed =>
    exact calmly_existsOnDisk.then fun _ _ _ _ =>
      Safe.ite (fun _ => .pure trivial) fun _ => safe_acquireAndFinalize hpath
  | cancelled => exact .throw _
  | uploading => exact safe_acquireAndFinalize hpath
  | finalizing => exact safe_acquireAndFinalize hpath
  | failed => exact safe_acquireAndFinalize hpath

/-! ## A chunk -/

theorem safe_answerDuplicate {chunk : UploadChunk} {existing : ChunkReceipt}
    (hpath : finalFilePath mgr chunk.fileId = c.serverPath) :
    c.Safe i (fun _ _ => True) (answerDuplicate c.sha mgr reads chunk existing) w := by
  refine Safe.ite (fun _ => ?_) fun _ => .throw _
  refine calmly_getOrLoadSession.then fun m w₁ _ _ => ?_
  refine Safe.ite (fun _ => .pure trivial) fun _ => Safe.ite (fun _ => ?_) fun _ => .pure trivial
  refine (Safe.attempt (safe_verifyAndFinalizeUpload hpath)).bind fun result w₂ _ => ?_
  refine calmly_getOrLoadSession.then fun refreshed w₃ _ _ => ?_
  cases result with
  | ok _ => exact .pure trivial
  | error e => exact Safe.ite (fun _ => .pure trivial) fun _ => .throw e

theorem safe_finalizeIfReceived {m : UploadMeta}
    (hpath : finalFilePath mgr fileId = c.serverPath) :
    c.Safe i (fun _ _ => True) (finalizeIfReceived c.sha mgr reads fileId m) w :=
  Safe.ite (fun _ => safe_verifyAndFinalizeUpload hpath) fun _ => .pure trivial

/-- A chunk that was checked may be stored. -/
theorem safe_storeChunk {chunk : UploadChunk} {m : UploadMeta}
    (hpath : finalFilePath mgr chunk.fileId = c.serverPath) (hinfo : m.toUploadInfo = c.info)
    (hhash : chunk.chunkHash = c.sha.hex chunk.data)
    (hindex : chunk.chunkIndex < c.info.totalChunks)
    (hsize : chunk.data.length = c.info.expectedSize chunk.chunkIndex) :
    c.Safe i (fun _ _ => True) (storeChunk c.sha mgr reads chunk m) w := by
  refine Safe.ite (fun _ => .throw _) fun _ => ?_
  rw [hinfo]
  refine calmly_openPart.then fun file w₁ _ hfile => ?_
  refine Safe.bind (safe_writeChunk (r := ⟨chunk.chunkIndex, chunk.chunkHash, _⟩) hindex rfl
    hsize hhash hfile) fun _ w₂ hkept => ?_
  refine (calmly_insertChunk hindex hsize hkept).bind fun _ w₃ _ => ?_
  refine Calmly.then (calmly_updateCached ?_) fun _ w₄ _ _ => ?_
  · exact fun _ => rfl
  refine Calmly.then (calmly_updateUploads fun _ hm => hm) fun current w₅ _ _ => ?_
  cases current with
  | none => exact .throw _
  | some currentMeta =>
    refine (safe_finalizeIfReceived hpath).bind fun _ w₆ _ => ?_
    exact (Safe.attempt calmly_getOrLoadSession).bind fun _ _ _ => .pure trivial

end Setting

theorem of_checkChunk {sha : Sha256} {chunk : UploadChunk} (h : checkChunk sha chunk = .ok ()) :
    chunk.data ≠ [] ∧ chunk.chunkHash = sha.hex chunk.data := by
  grind [checkChunk]

theorem of_checkAgainstSession {chunk : UploadChunk} {m : UploadMeta}
    (h : checkAgainstSession chunk m = .ok ()) :
    chunk.chunkIndex < m.totalChunks ∧
      chunk.data.length = m.expectedSize chunk.chunkIndex := by
  grind [checkAgainstSession]

namespace Setting

variable {c : Setting} {i : TaskId} {w : UploadWorld} {mgr : SyncManager} {fileId : Uuid}

theorem safe_uploadChunk {reads : ℕ} {chunk : UploadChunk}
    (hpath : finalFilePath mgr chunk.fileId = c.serverPath) :
    c.Safe i (fun _ _ => True) (uploadChunk c.sha mgr reads chunk) w := by
  unfold uploadChunk
  cases hcheck : checkChunk c.sha chunk with
  | error e => exact .throw e
  | ok _ =>
    refine calmly_getOrLoadSession.then fun m w₁ _ hinfo => ?_
    cases hsession : checkAgainstSession chunk m with
    | error e => exact .throw e
    | ok _ =>
      obtain ⟨hindex, hsize⟩ := of_checkAgainstSession hsession
      rw [hinfo] at hindex hsize
      refine calmly_selectChunk.then fun existing w₂ _ _ => ?_
      grind [safe_answerDuplicate, safe_storeChunk, of_checkChunk]

/-! ## The calls of a run -/

theorem outlined_program {uploadDir : String} {call : UploadCall}
    (hpath : uploadDir ++ "/" ++ toString fileId = c.serverPath) :
    Outline c.discipline semantics i (fun _ _ => True)
      (call.program c.sha uploadDir fileId) w := by
  cases call with
  | uploadChunk epoch config reads chunk =>
    exact Outline.mono (Safe.bind (R := fun _ _ => True) (safe_uploadChunk hpath)
      fun _ _ _ => Safe.pure trivial) fun _ _ _ => trivial
  | verifyAndFinalizeUpload epoch config reads =>
    exact Outline.mono (Safe.bind (R := fun _ _ => True) (safe_verifyAndFinalizeUpload hpath)
      fun _ _ _ => Safe.pure trivial) fun _ _ _ => trivial

end Setting

end MichiServer.Upload
