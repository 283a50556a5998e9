import MichiServer.Upload.FinalizeAlone

/-!
# Chunks in any order

The chunks of a content arrive one after the other, in any order and any number of times each. What
arrived so far is what was received: its receipts are there, its bytes are in the staging file, and the
cache counts it. The call that receives the last chunk missing finalizes the upload; calls after it
change nothing.

The staging file grows to the announced size because the ranges of the chunks partition the file, so
the content is there when all of them are.
-/

namespace MichiServer.Upload

open MichiServer.Files MichiServer.Interleave

section Arrival

variable (sha : Sha256) (info : UploadInfo) (content : List UInt8)

/-! ## The bytes and the receipts received -/

def chunkData (index : ℕ) : List UInt8 :=
  slice content (info.chunkOffset index) (info.expectedSize index)

def chunkOf (fileId : Uuid) (index : ℕ) : UploadChunk where
  fileId := fileId
  chunkIndex := index
  totalChunks := info.totalChunks
  data := chunkData info content index
  chunkHash := sha.hex (chunkData info content index)

/-- The staging file holds the bytes of the chunks received, and nothing was promoted. -/
structure HasBytes (received : List ℕ) (S : UploadStore) : Prop where
  final : S.final = none
  part : ∀ x, S.part = some x → x < S.inodes.length ∧ (S.content x).length ≤ info.fileSize
  stored : ∀ index ∈ received, ∃ x, S.part = some x ∧
    info.chunkOffset index + info.expectedSize index ≤ (S.content x).length ∧
    slice (S.content x) (info.chunkOffset index) (info.expectedSize index) =
      chunkData info content index

structure HasReceipts (received : List ℕ) (receipts : List ChunkReceipt) : Prop where
  sound : ∀ r ∈ receipts, r.chunkIndex ∈ received ∧
    r.chunkHash = sha.hex (chunkData info content r.chunkIndex) ∧
    r.size = info.expectedSize r.chunkIndex
  complete : ∀ index ∈ received, ∃ r ∈ receipts, r.chunkIndex = index

variable {sha info content} {received : List ℕ} {index : ℕ}

theorem length_chunkData (hsize : content.length = info.fileSize)
    (hindex : index < info.totalChunks) :
    (chunkData info content index).length = info.expectedSize index := by
  apply length_slice
  rw [hsize]
  exact info.chunk_end_le hindex

variable {w : UploadWorld} {m : UploadMeta} {reads : ℕ}

theorem HasBytes.openPart (h : HasBytes info content received w.store) :
    HasBytes info content received w.openPart.2.store ∧
      w.openPart.2.part = some w.openPart.1 ∧ w.openPart.2.receipts = w.receipts := by
  unfold UploadWorld.openPart
  cases hpart : w.part with
  | some x => exact ⟨h, hpart, rfl⟩
  | none =>
    refine ⟨⟨h.final, fun x hx => ?_, fun index hindex => ?_⟩, rfl, rfl⟩
    · cases hx
      simp [UploadWorld.store, UploadStore.content]
    · obtain ⟨x, hx, _⟩ := h.stored index hindex
      exact absurd (hpart.symm.trans hx) (by simp)

/-- A chunk that is written is held, beside those that are. -/
theorem HasBytes.write {x : Inode} (h : HasBytes info content received w.store)
    (hsize : content.length = info.fileSize) (hindex : index < info.totalChunks)
    (hnew : index ∉ received) (hx : w.part = some x) :
    HasBytes info content (received.insert index)
      (w.write x (info.chunkOffset index) (chunkData info content index)).store := by
  obtain ⟨hlt, hfits⟩ := h.part x hx
  have hlen := length_chunkData hsize hindex
  have hend := info.chunk_end_le hindex
  have hcontent : (w.write x (info.chunkOffset index) (chunkData info content index)).store.content x
      = patch 0 (w.store.content x) (info.chunkOffset index) (chunkData info content index) :=
    w.content_write_self hlt _ _
  refine ⟨h.final, fun y hy => ?_, fun k hk => ⟨x, hx, ?_⟩⟩
  · grind [UploadWorld.write, UploadWorld.store, length_patch]
  · rw [hcontent, length_patch, hlen]
    rcases List.mem_insert_iff.mp hk with hthis | hold
    · grind [slice_patch_self]
    · obtain ⟨y, hy, hend', hslice⟩ := h.stored k hold
      cases hx.symm.trans hy
      have hne : k ≠ index := fun heq => hnew (heq ▸ hold)
      refine ⟨by omega, ?_⟩
      rw [slice_patch_disjoint 0 hend' (by rw [hlen]; exact info.chunks_disjoint hne), hslice]

theorem HasBytes.content_eq {S : UploadStore} {x : Inode} (h : HasBytes info content received S)
    (hsize : content.length = info.fileSize) (hall : ∀ k < info.totalChunks, k ∈ received)
    (hx : S.part = some x) : S.content x = content := by
  obtain ⟨_, hfits⟩ := h.part x hx
  obtain ⟨hpos, _, _, hend⟩ := info.last_chunk
  have hlong : info.fileSize ≤ (S.content x).length := by
    obtain ⟨y, hy, hlast, _⟩ := h.stored _ (hall (info.totalChunks - 1) (by omega))
    grind [UploadInfo.chunkOffset]
  apply info.eq_of_chunks (by omega) hsize
  intro k hk
  obtain ⟨y, hy, _, hslice⟩ := h.stored k (hall k hk)
  cases hx.symm.trans hy
  exact hslice

theorem HasReceipts.receipt_of_mem
    (h : HasReceipts sha info content received w.receipts) (hindex : index ∈ received) :
    ∃ r, w.receipt index = some r ∧ r.chunkHash = sha.hex (chunkData info content index) ∧
      r.size = info.expectedSize index := by
  obtain ⟨r₀, hr₀, hidx₀⟩ := h.complete index hindex
  have hsome : (w.receipt index).isSome := by
    grind [UploadWorld.receipt]
  obtain ⟨r, hr⟩ := Option.isSome_iff_exists.mp hsome
  have hidx : r.chunkIndex = index := by simpa using List.find?_some hr
  obtain ⟨_, hhash, hsize⟩ := h.sound r (List.mem_of_find?_eq_some hr)
  rw [hidx] at hhash hsize
  exact ⟨r, hr, hhash, hsize⟩

theorem HasReceipts.receipt_of_not_mem
    (h : HasReceipts sha info content received w.receipts) (hnew : index ∉ received) :
    w.receipt index = none := by
  rw [UploadWorld.receipt, List.find?_eq_none]
  intro r hr hidx
  rw [decide_eq_true_eq] at hidx
  exact hnew (hidx ▸ (h.sound r hr).1)

theorem HasReceipts.insert (h : HasReceipts sha info content received w.receipts)
    (hnew : index ∉ received) :
    HasReceipts sha info content (received.insert index) (w.insertChunk ⟨index,
      sha.hex (chunkData info content index), info.expectedSize index⟩).receipts := by
  have hnone : ¬ (w.receipt index).isSome = true := by simp [h.receipt_of_not_mem hnew]
  rw [UploadWorld.insertChunk, if_neg hnone]
  refine ⟨fun r hr => ?_, fun k hk => ?_⟩
  · rcases List.mem_append.mp hr with hold | hthis
    · obtain ⟨hmem, hsame⟩ := h.sound r hold
      exact ⟨List.mem_insert_of_mem hmem, hsame⟩
    · grind
  · rcases List.mem_insert_iff.mp hk with hthis | hold
    · subst hthis
      exact ⟨_, List.mem_append_right _ List.mem_cons_self, rfl⟩
    · obtain ⟨r, hr, hidx⟩ := h.complete k hold
      exact ⟨r, List.mem_append_left _ hr, hidx⟩

/-! ## The stages -/

/-- Chunks were received, and the upload is not being finalized yet. What was written, what was
receipted and what the cache counts differ while a chunk is being stored. -/
structure Receiving (sha : Sha256) (info : UploadInfo) (content : List UInt8) (e : Epoch)
    (written receipted counted : List ℕ) (w : UploadWorld) : Prop where
  row : w.row = { toUploadInfo := info }
  cached : ∃ m, w.uploads e = some m ∧ m.toUploadRow = w.row ∧
    ∀ k, k ∈ m.receivedChunks ↔ k ∈ counted
  unwatched : Unwatched w
  bytes : HasBytes info content written w.store
  receipts : HasReceipts sha info content receipted w.receipts

structure Arrived (content : List UInt8) (e : Epoch) (w : UploadWorld) : Prop where
  status : w.row.status = .completed
  cached : ∃ m, w.uploads e = some m ∧ m.status = .completed
  unwatched : Unwatched w
  final : ∃ x, w.final = some x ∧ w.content x = content

def Stage (sha : Sha256) (info : UploadInfo) (content : List UInt8) (e : Epoch)
    (received : List ℕ) (w : UploadWorld) : Prop :=
  if ∀ k < info.totalChunks, k ∈ received then
    if info.expectedHash = sha.hex content then Arrived content e w else FailedForGood w
  else Receiving sha info content e received received received w

variable {mgr : SyncManager} {fileId : Uuid} {i : TaskId} {w w' : UploadWorld} {e : Epoch}

variable {written receipted counted : List ℕ}

theorem Receiving.later (h : Receiving sha info content e written receipted counted w)
    (hlater : Later w w') : Receiving sha info content e written receipted counted w' := by
  obtain ⟨hrow, huploads⟩ := hlater.still h.unwatched
  have hreceipts : w'.receipts = w.receipts := congrArg UploadStore.receipts hlater.store
  refine ⟨hrow.trans h.row, ?_, hlater.unwatched h.unwatched, ?_, ?_⟩
  · rw [huploads, hrow]
    exact h.cached
  · rw [hlater.store]
    exact h.bytes
  · rw [hreceipts]
    exact h.receipts

theorem Receiving.openPart (h : Receiving sha info content e written receipted counted w) :
    Receiving sha info content e written receipted counted w.openPart.2 := by
  obtain ⟨hbytes, _, hreceipts⟩ := h.bytes.openPart
  obtain ⟨part, inodes, heq⟩ := w.openPart_eq
  have hrow : w.openPart.2.row = w.row := by rw [heq]
  have huploads : w.openPart.2.uploads = w.uploads := by rw [heq]
  have hheartbeats : w.openPart.2.heartbeats = w.heartbeats := by rw [heq]
  refine ⟨hrow.trans h.row, ?_, ?_, hbytes, hreceipts ▸ h.receipts⟩
  · rw [huploads, hrow]
    exact h.cached
  · intro t hb hget
    exact h.unwatched t hb (hheartbeats ▸ hget)

theorem Receiving.write {x : Inode}
    (h : Receiving sha info content e written receipted counted w)
    (hsize : content.length = info.fileSize) (hindex : index < info.totalChunks)
    (hnew : index ∉ written) (hx : w.part = some x) :
    Receiving sha info content e (written.insert index) receipted counted
      (w.write x (info.chunkOffset index) (chunkData info content index)) :=
  ⟨h.row, h.cached, h.unwatched, h.bytes.write hsize hindex hnew hx, h.receipts⟩

theorem Receiving.insertChunk (h : Receiving sha info content e written receipted counted w)
    (hnew : index ∉ receipted) :
    Receiving sha info content e written (receipted.insert index) counted (w.insertChunk ⟨index,
      sha.hex (chunkData info content index), info.expectedSize index⟩) := by
  have hreceipts := h.receipts.insert hnew
  have hnone : ¬ (w.receipt index).isSome = true := by simp [h.receipts.receipt_of_not_mem hnew]
  rw [UploadWorld.insertChunk, if_neg hnone] at hreceipts ⊢
  exact ⟨h.row, h.cached, h.unwatched, ⟨h.bytes.final, h.bytes.part, h.bytes.stored⟩, hreceipts⟩

theorem Receiving.count (index : ℕ) (h : Receiving sha info content e written receipted counted w) :
    Receiving sha info content e written receipted (counted.insert index)
      (w.setUploads e ((w.uploads e).map fun m : UploadMeta => { m with
        receivedChunks := m.receivedChunks.insert index })) := by
  obtain ⟨m, hm, hrow, hcounted⟩ := h.cached
  refine ⟨h.row, ⟨{ m with receivedChunks := m.receivedChunks.insert index }, ?_, hrow, ?_⟩,
    h.unwatched, ⟨h.bytes.final, h.bytes.part, h.bytes.stored⟩, h.receipts⟩
  · simp [UploadWorld.setUploads, hm]
  · intro k
    rw [List.mem_insert_iff, List.mem_insert_iff, hcounted]

theorem Arrived.later (h : Arrived content e w) (hlater : Later w w') : Arrived content e w' := by
  obtain ⟨hrow, huploads⟩ := hlater.still h.unwatched
  obtain ⟨x, hx, hcontent⟩ := h.final
  refine ⟨hrow ▸ h.status, huploads ▸ h.cached, hlater.unwatched h.unwatched, x, ?_, ?_⟩
  · exact (congrArg UploadStore.final hlater.store).trans hx
  · exact (congrArg (fun S => UploadStore.content S x) hlater.store).trans hcontent

theorem Stage.later (h : Stage sha info content e received w) (hlater : Later w w') :
    Stage sha info content e received w' := by
  unfold Stage at h ⊢
  by_cases hall : ∀ k < info.totalChunks, k ∈ received
  · rw [if_pos hall] at h ⊢
    by_cases hhash : info.expectedHash = sha.hex content
    · rw [if_pos hhash] at h ⊢
      exact h.later hlater
    · rw [if_neg hhash] at h ⊢
      obtain ⟨lease, hrow⟩ := hlater.row
      rw [FailedForGood, hrow]
      exact h
  · rw [if_neg hall] at h ⊢
    exact h.later hlater

theorem gives_cached (hm : w.uploads mgr.processEpoch = some m) (hun : Unwatched w) :
    Gives mgr.processEpoch i (fun m' w' => m' = some m ∧ Later w w') (updateUploads mgr id) w := by
  refine gives_updateUploads.mono fun m' w' h => ?_
  obtain ⟨w₁, hlater, rfl, rfl⟩ := h
  obtain ⟨_, huploads⟩ := hlater.still hun
  refine ⟨huploads ▸ hm, ?_⟩
  have hself : w₁.setUploads mgr.processEpoch (id (w₁.uploads mgr.processEpoch)) = w₁ := by
    have hfun : (fun e => if e = mgr.processEpoch then w₁.uploads mgr.processEpoch
        else w₁.uploads e) = w₁.uploads := by
      ext1 e
      split
      next heq => rw [heq]
      · rfl
    simp only [UploadWorld.setUploads, id, hfun]
  rw [hself]
  exact hlater

theorem gives_getOrLoadSession (hm : w.uploads mgr.processEpoch = some m) (hun : Unwatched w) :
    Gives mgr.processEpoch i (fun m' w' => m' = m ∧ Later w w') (getOrLoadSession mgr) w := by
  refine (gives_cached hm hun).then fun m' w₁ h₁ => ?_
  obtain ⟨rfl, hlater⟩ := h₁
  exact Gives.pure ⟨rfl, hlater⟩

/-! ## A chunk of the content passes the checks -/

theorem checkChunk_of (hsize : content.length = info.fileSize)
    (hindex : index < info.totalChunks) :
    checkChunk sha (chunkOf sha info content fileId index) = .ok () := by
  have hlen := length_chunkData hsize hindex
  have hpos := info.expectedSize_pos index
  have hdata : ¬ (chunkOf sha info content fileId index).data.isEmpty = true := by
    rw [List.isEmpty_iff]
    intro hnil
    have hzero : (chunkData info content index).length = 0 := congrArg List.length hnil
    omega
  have htotal : ¬ (chunkOf sha info content fileId index).totalChunks = 0 := by
    show ¬ info.totalChunks = 0
    omega
  have hvalid : ¬ ¬ isValidSha256Hex (chunkOf sha info content fileId index).chunkHash = true :=
    not_not.mpr (sha.hex_valid _)
  rw [checkChunk, if_neg hdata, if_neg htotal, if_neg hvalid]
  exact if_neg (not_not.mpr rfl)

theorem checkAgainstSession_of (hm : m.toUploadInfo = info)
    (hstatus : m.status = .uploading) (hsize : content.length = info.fileSize)
    (hindex : index < info.totalChunks) :
    checkAgainstSession (chunkOf sha info content fileId index) m = .ok () := by
  grind [length_chunkData, chunkOf, checkAgainstSession]

/-! ## A call -/

theorem allReceived_iff (m : UploadMeta) :
    m.allReceived = true ↔ ∀ k < m.totalChunks, k ∈ m.receivedChunks := by
  have hpos := m.last_chunk.1
  simp [UploadMeta.allReceived, hpos]

/-- A chunk that was received is answered from its receipt. -/
theorem ends_answerDuplicate {existing : ChunkReceipt}
    (h : Receiving sha info content mgr.processEpoch received received received w)
    (hmissing : ¬ ∀ k < info.totalChunks, k ∈ received)
    (hhash : existing.chunkHash = sha.hex (chunkData info content index))
    (hlen : existing.size = (chunkData info content index).length) :
    Ends mgr.processEpoch i
      (fun _ w' => Receiving sha info content mgr.processEpoch received received received w')
      (answerDuplicate sha mgr reads (chunkOf sha info content fileId index) existing) w := by
  obtain ⟨m, hm, hrow, hcounted⟩ := h.cached
  rw [answerDuplicate, if_pos ⟨hhash, hlen⟩]
  refine (gives_getOrLoadSession hm h.unwatched).then fun m' w₁ h₁ => ?_
  obtain ⟨rfl, hlater⟩ := h₁
  rw [h.row] at hrow
  have hstatus : ¬ m'.status = .completed := by
    rw [show m'.status = .uploading from congrArg UploadRow.status hrow]
    simp
  have hnot : ¬ m'.allReceived = true := by
    rw [allReceived_iff]
    intro hall
    have hinfo : m'.toUploadInfo = info := congrArg UploadRow.toUploadInfo hrow
    grind
  rw [if_neg hstatus, if_neg hnot]
  exact Ends.pure (h.later hlater)

/-- The upload is finalized when no chunk is missing. -/
theorem ends_finalizeIfReceived
    (h : Receiving sha info content mgr.processEpoch received received received w)
    (hm : w.uploads mgr.processEpoch = some m)
    (hsize : content.length = info.fileSize) (hreads : content.length < reads) :
    Ends mgr.processEpoch i
      (fun r w' => Stage sha info content mgr.processEpoch received w' ∧
        ∀ a, r = .ok a → Unwatched w' ∧ ∃ m, w'.uploads mgr.processEpoch = some m)
      (finalizeIfReceived sha mgr reads fileId m) w := by
  obtain ⟨m', hm', hrow, hcounted⟩ := h.cached
  cases hm.symm.trans hm'
  rw [h.row] at hrow
  have hinfo : m.toUploadInfo = info := congrArg UploadRow.toUploadInfo hrow
  have hstatus : m.status = .uploading := congrArg UploadRow.status hrow
  by_cases hall : ∀ k < info.totalChunks, k ∈ received
  · have hreceived : m.allReceived = true := by
      grind [allReceived_iff]
    rw [finalizeIfReceived, if_pos hreceived]
    refine (gives_getOrLoadSession hm h.unwatched).then fun m' w₁ h₁ => ?_
    obtain ⟨rfl, hlater⟩ := h₁
    have h₁ := h.later hlater
    obtain ⟨x, hx, _⟩ := h₁.bytes.stored 0 (hall 0 info.last_chunk.1)
    have hcandidate : w₁.store.candidate = some x := by simp [UploadStore.candidate, hx]
    have hcontent : w₁.store.content x = content := h₁.bytes.content_eq hsize hall hx
    simp only [hstatus, hinfo]
    refine (ends_acquireAndFinalize (by rw [h₁.row]) h₁.unwatched fun y hy => ?_).mono
      fun r w' houtcome => ?_
    · cases hcandidate.symm.trans hy
      rwa [hcontent]
    · rcases houtcome with ⟨y, hcomplete, rfl, hfinalized⟩ | ⟨hnone, ⟨error, rfl⟩, hfailed⟩
      · cases hcandidate.symm.trans hcomplete.candidate
        have hhash : info.expectedHash = sha.hex content := by
          rw [← hcontent]
          exact hcomplete.verified.2.symm
        obtain ⟨m₁, hm₁, _⟩ := h₁.cached
        have hcached := hfinalized.cached
        rw [hm₁] at hcached
        obtain ⟨m₂, hm₂⟩ := Option.isSome_iff_exists.mp hcached
        refine ⟨?_, fun _ _ => ⟨hfinalized.unwatched, m₂, hm₂⟩⟩
        rw [Stage, if_pos hall, if_pos hhash]
        exact ⟨hfinalized.status, ⟨m₂, hm₂, hfinalized.cached_status m₂ hm₂⟩,
          hfinalized.unwatched, x, hfinalized.final, hfinalized.content.trans hcontent⟩
      · have hhash : ¬ info.expectedHash = sha.hex content := by
          intro heq
          refine hnone x ⟨fun k hk => ?_, hcandidate, ?_⟩
          · exact h₁.receipts.complete k (hall k hk)
          · rw [hcontent]
            exact ⟨hsize, heq.symm⟩
        grind [Stage]
  · have hnot : ¬ m.allReceived = true := by
      grind [allReceived_iff]
    rw [finalizeIfReceived, if_neg hnot]
    refine Ends.pure ⟨?_, fun _ _ => ⟨h.unwatched, m, hm⟩⟩
    rw [Stage, if_neg hall]
    exact h

/-- A chunk is stored and receipted. -/
theorem ends_storeChunk (hm : m.toUploadInfo = info)
    (h : Receiving sha info content mgr.processEpoch received received received w)
    (hsize : content.length = info.fileSize) (hfits : info.fileSize < 2 ^ 64)
    (hreads : content.length < reads) (hindex : index < info.totalChunks)
    (hnew : index ∉ received) :
    Ends mgr.processEpoch i
      (fun _ w' => Stage sha info content mgr.processEpoch (received.insert index) w')
      (storeChunk sha mgr reads (chunkOf sha info content fileId index) m) w := by
  have hend := info.chunk_end_le hindex
  have hpos := info.expectedSize_pos index
  have hplace : ¬ m.chunkOffset (chunkOf sha info content fileId index).chunkIndex ≥ 2 ^ 64 := by
    rw [hm]
    show ¬ info.chunkOffset index ≥ 2 ^ 64
    omega
  rw [storeChunk, if_neg hplace]
  refine gives_openPart.then fun file w₁ h₁ => ?_
  obtain ⟨w₀, hlater₀, rfl, rfl⟩ := h₁
  have h₀ := h.later hlater₀
  have hpart := h₀.bytes.openPart.2.1
  rw [hm]
  refine gives_writeChunk.then fun _ w₂ h₂ => ?_
  obtain ⟨w₁, hlater₁, rfl⟩ := h₂
  have hpart₁ : w₁.part = some w₀.openPart.1 :=
    (congrArg UploadStore.part hlater₁.store).trans hpart
  have h₂ := (h₀.openPart.later hlater₁).write hsize hindex hnew hpart₁
  refine gives_insertChunk.then fun _ w₃ h₃ => ?_
  obtain ⟨w₂, hlater₂, rfl⟩ := h₃
  have h₃ := (h₂.later hlater₂).insertChunk hnew
  rw [← length_chunkData hsize hindex] at h₃
  refine gives_updateCached.then fun _ w₄ h₄ => ?_
  obtain ⟨w₃, hlater₃, rfl⟩ := h₄
  have h₄ := (h₃.later hlater₃).count index
  obtain ⟨m₄, hm₄, _⟩ := h₄.cached
  refine (gives_cached hm₄ h₄.unwatched).then fun current w₅ h₅ => ?_
  obtain ⟨rfl, hlater₄⟩ := h₅
  have h₅ := h₄.later hlater₄
  have hm₅ : w₅.uploads mgr.processEpoch = some m₄ := (hlater₄.still h₄.unwatched).2 ▸ hm₄
  refine Ends.bind (ends_finalizeIfReceived h₅ hm₅ hsize hreads) (fun _ w₆ h₆ => ?_)
    fun _ _ h₆ => h₆.1
  obtain ⟨hstage, hok⟩ := h₆
  obtain ⟨hun, m₆, hm₆⟩ := hok _ rfl
  refine (gives_getOrLoadSession hm₆ hun).attempt.then fun refreshed w₇ h₇ => ?_
  obtain ⟨_, rfl, rfl, hlater₆⟩ := h₇
  exact Ends.pure (hstage.later hlater₆)

/-- A chunk is taken in while others are missing. -/
theorem ends_uploadChunk_receiving
    (h : Receiving sha info content mgr.processEpoch received received received w)
    (hmissing : ¬ ∀ k < info.totalChunks, k ∈ received)
    (hsize : content.length = info.fileSize) (hfits : info.fileSize < 2 ^ 64)
    (hreads : content.length < reads) (hindex : index < info.totalChunks) :
    Ends mgr.processEpoch i
      (fun _ w' => Stage sha info content mgr.processEpoch (received.insert index) w')
      (uploadChunk sha mgr reads (chunkOf sha info content fileId index)) w := by
  obtain ⟨m, hm, hrow, _⟩ := h.cached
  rw [h.row] at hrow
  have hinfo : m.toUploadInfo = info := congrArg UploadRow.toUploadInfo hrow
  have hstatus : m.status = .uploading := congrArg UploadRow.status hrow
  rw [uploadChunk, checkChunk_of hsize hindex]
  refine (gives_getOrLoadSession hm h.unwatched).then fun m' w₁ h₁ => ?_
  obtain ⟨rfl, hlater₁⟩ := h₁
  have h₁ := h.later hlater₁
  rw [checkAgainstSession_of hinfo hstatus hsize hindex]
  refine gives_selectChunk.then fun existing w₂ h₂ => ?_
  obtain ⟨hlater₂, hexisting⟩ := h₂
  have h₂ := h₁.later hlater₂
  by_cases hold : index ∈ received
  · obtain ⟨r, hr, hhash, hlen⟩ := h₁.receipts.receipt_of_mem hold
    rw [← length_chunkData hsize hindex] at hlen
    cases hexisting.trans hr
    refine (ends_answerDuplicate h₂ hmissing hhash hlen).mono fun _ w' hreceiving => ?_
    rw [List.insert_of_mem hold, Stage, if_neg hmissing]
    exact hreceiving
  · cases hexisting.trans (h₁.receipts.receipt_of_not_mem hold)
    exact ends_storeChunk hinfo h₂ hsize hfits hreads hindex hold

theorem ends_uploadChunk_arrived {chunk : UploadChunk} (h : Arrived content mgr.processEpoch w) :
    Ends mgr.processEpoch i (fun _ w' => Arrived content mgr.processEpoch w')
      (uploadChunk sha mgr reads chunk) w := by
  obtain ⟨m, hm, hstatus⟩ := h.cached
  unfold uploadChunk
  cases checkChunk sha chunk with
  | error error => exact Ends.throw h
  | ok _ =>
    refine (gives_getOrLoadSession hm h.unwatched).then fun m' w₁ h₁ => ?_
    obtain ⟨rfl, hlater⟩ := h₁
    rw [checkAgainstSession, if_pos hstatus]
    exact Ends.throw (h.later hlater)

end Arrival

end MichiServer.Upload
