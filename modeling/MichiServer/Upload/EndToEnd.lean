import MichiServer.Upload.Arrival

/-!
# Uploads, end to end

A content is announced, its chunks are sent in any order and any number of times each, and when all
have arrived the upload is completed with the content as its file. There is one condition, on the
announcement: `init_upload` takes the digits of a hash in either case, and the finalization compares
the announced text with the one the digest gives, which is in lower case.
-/

namespace MichiServer.Upload

open MichiServer.Files MichiServer.Interleave

/-! ## An upload that failed -/

section Failed

variable {i : TaskId} {w : UploadWorld}

theorem FailedForGood.apply (h : FailedForGood w) (u : UploadUpdate) : u.apply w.row = w.row :=
  u.apply_of_terminal (Or.inr (Or.inr h))

theorem FailedForGood.of_row {w' : UploadWorld} (h : FailedForGood w) (hrow : w'.row = w.row) :
    FailedForGood w' := by
  rw [FailedForGood, hrow]
  exact h

theorem FailedForGood.renewals (h : FailedForGood w) (ticks : List HeartbeatTick) :
    FailedForGood (ticks.foldl (fun w t => renewFinalizationLease t w) w) := by
  induction ticks generalizing w with
  | nil => exact h
  | cons t ticks ih =>
    apply ih
    rcases row_renew t w with hsame | ⟨u, hupdate, _⟩
    · exact h.of_row hsame
    · exact h.of_row (hupdate.trans (h.apply u))

theorem FailedForGood.solo {α : Type} (p : Prog UploadAct.Resp α) (envs : ℕ → AloneEnv)
    (h : FailedForGood w) : FailedForGood (p.solo semantics.withTicks i envs w).2 := by
  induction p generalizing w envs with
  | ret a => exact h
  | act a k ih =>
    apply ih
    have h' := h.renewals (envs 0).1
    rcases row_exec i a (envs 0).2 _ with hsame | ⟨u, _, hupdate⟩
    · exact h'.of_row hsame
    · exact h'.of_row (hupdate.trans (h'.apply u))

end Failed

/-! ## All the chunks -/

section All

variable (sha : Sha256) (mgr : SyncManager) (fileId : Uuid) (reads : ℕ) (info : UploadInfo)
  (content : List UInt8)

def sendChunk (index : ℕ) : Prog UploadAct.Resp (Except SyncError UploadProgress) :=
  (uploadChunk sha mgr reads (chunkOf sha info content fileId index)).run

abbrev ChunkArrival := ℕ × (ℕ → AloneEnv)

/-- The shared state after the calls with the chunks that arrive, one after the other. -/
def sendAll : List ChunkArrival → UploadWorld → UploadWorld
  | [], w => w
  | (index, envs) :: arrivals, w =>
    sendAll arrivals
      ((sendChunk sha mgr fileId reads info content index).solo semantics.withTicks 0 envs w).2

def AllUndisturbed : List ChunkArrival → UploadWorld → Prop
  | [], _ => True
  | (index, envs) :: arrivals, w =>
    (sendChunk sha mgr fileId reads info content index).Undisturbed semantics.withTicks 0
        (AloneOk mgr.processEpoch) envs w ∧
      AllUndisturbed arrivals
        ((sendChunk sha mgr fileId reads info content index).solo semantics.withTicks 0 envs w).2

instance : (arrivals : List ChunkArrival) → (w : UploadWorld) →
    Decidable (AllUndisturbed sha mgr fileId reads info content arrivals w)
  | [], _ => inferInstanceAs (Decidable True)
  | (index, envs) :: arrivals, w =>
    have : Decidable (AllUndisturbed sha mgr fileId reads info content arrivals
        ((sendChunk sha mgr fileId reads info content index).solo semantics.withTicks 0 envs w).2) :=
      instDecidableAllUndisturbed arrivals _
    inferInstanceAs (Decidable ((sendChunk sha mgr fileId reads info content index).Undisturbed
      semantics.withTicks 0 (AloneOk mgr.processEpoch) envs w ∧ AllUndisturbed sha mgr fileId reads
        info content arrivals
        ((sendChunk sha mgr fileId reads info content index).solo semantics.withTicks 0 envs w).2))

variable {sha mgr fileId reads info content} {w : UploadWorld} {received : List ℕ}

/-- Each chunk takes the upload on by one. -/
theorem Stage.sendChunk (h : Stage sha info content mgr.processEpoch received w)
    (hsize : content.length = info.fileSize) (hfits : info.fileSize < 2 ^ 64)
    (hreads : content.length < reads) {index : ℕ} (hindex : index < info.totalChunks)
    {envs : ℕ → AloneEnv}
    (henvs : (Upload.sendChunk sha mgr fileId reads info content index).Undisturbed
      semantics.withTicks 0 (AloneOk mgr.processEpoch) envs w) :
    Stage sha info content mgr.processEpoch (received.insert index)
      ((Upload.sendChunk sha mgr fileId reads info content index).solo semantics.withTicks 0
        envs w).2 := by
  by_cases hall : ∀ k < info.totalChunks, k ∈ received
  · have hstill : ∀ k < info.totalChunks, k ∈ received.insert index :=
      fun k hk => List.mem_insert_of_mem (hall k hk)
    rw [Stage, if_pos hall] at h
    rw [Stage, if_pos hstill]
    by_cases hhash : info.expectedHash = sha.hex content
    · rw [if_pos hhash] at h ⊢
      have hwatched : Watched w := fun t hb hget hrun => absurd hrun (h.unwatched t hb hget)
      exact ((ends_uploadChunk_arrived h).solo hwatched henvs).1
    · rw [if_neg hhash] at h ⊢
      exact h.solo _ envs
  · rw [Stage, if_neg hall] at h
    have hwatched : Watched w := fun t hb hget hrun => absurd hrun (h.unwatched t hb hget)
    exact ((ends_uploadChunk_receiving h hall hsize hfits hreads hindex).solo hwatched henvs).1

theorem Stage.sendAll (h : Stage sha info content mgr.processEpoch received w)
    (hsize : content.length = info.fileSize) (hfits : info.fileSize < 2 ^ 64)
    (hreads : content.length < reads) {arrivals : List ChunkArrival}
    (hindices : ∀ a ∈ arrivals, a.1 < info.totalChunks)
    (henvs : AllUndisturbed sha mgr fileId reads info content arrivals w) :
    ∃ all, (∀ k, k ∈ all ↔ k ∈ received ∨ k ∈ arrivals.map Prod.fst) ∧
      Stage sha info content mgr.processEpoch all
        (Upload.sendAll sha mgr fileId reads info content arrivals w) := by
  induction arrivals generalizing w received with
  | nil => exact ⟨received, by simp, h⟩
  | cons a arrivals ih =>
    have hstage := h.sendChunk hsize hfits hreads (hindices a List.mem_cons_self) henvs.1
    obtain ⟨all, hmem, hall⟩ :=
      ih hstage (fun a ha => hindices a (List.mem_cons_of_mem _ ha)) henvs.2
    refine ⟨all, fun k => ?_, hall⟩
    grind

end All

/-! ## The upload as a whole -/

def Spells (text hex : String) : Prop := text.toList.map Char.toLower = hex.toList

instance (text hex : String) : Decidable (Spells text hex) := inferInstanceAs (Decidable (_ = _))

def inLowerCase (text : String) : Bool := text.toList.all isLowerHexdigit

theorem toLower_of_lower {c : Char} (h : isLowerHexdigit c = true) : c.toLower = c := by
  simp only [isLowerHexdigit, Bool.or_eq_true, Bool.and_eq_true, decide_eq_true_eq] at h
  rw [Char.toLower, dif_neg]
  rintro ⟨hA, hZ⟩
  simp only [Char.le_def, UInt32.le_iff_toNat_le, ge_iff_le] at h hA hZ
  grind

theorem Spells.eq_iff {text : String} {sha : Sha256} {content : List UInt8}
    (h : Spells text (sha.hex content)) :
    text = sha.hex content ↔ inLowerCase text = true := by
  constructor
  · rintro rfl
    exact sha.hex_lower content
  · intro hlower
    have hsame : text.toList.map Char.toLower = text.toList := by
      conv_rhs => rw [← List.map_id text.toList]
      exact List.map_congr_left fun c hc => toLower_of_lower (List.all_eq_true.mp hlower c hc)
    exact String.toList_injective (hsame.symm.trans h)

theorem of_init {mgr : SyncManager} {init : UploadInit} {info : UploadInfo}
    (h : init.info mgr = .ok info) :
    info.fileSize = init.fileSize.toNat ∧ info.fileSize < 2 ^ 64 ∧
      info.expectedHash = init.expectedHash := by
  grind [UploadInit.info]

theorem stage_announced (sha : Sha256) (mgr : SyncManager) (info : UploadInfo)
    (content : List UInt8) :
    Stage sha info content mgr.processEpoch [] (.announced mgr info) := by
  have hpos := info.last_chunk.1
  have hnone : ¬ ∀ k < info.totalChunks, k ∈ ([] : List ℕ) := fun h => by
    cases h 0 hpos
  rw [Stage, if_neg hnone]
  refine ⟨rfl, ⟨_, if_pos rfl, rfl, fun _ => Iff.rfl⟩, fun _ _ h => (by cases h), ?_, ?_⟩
  · exact ⟨rfl, fun _ h => (by cases h), fun _ h => by cases h⟩
  · exact ⟨fun _ h => (by cases h), fun _ h => by cases h⟩

/-- **End to end.** The chunks of a content partition it, and the upload of it is completed with the
content as its file, exactly when the hash was announced in lower case. -/
theorem upload_end_to_end (sha : Sha256) (mgr : SyncManager) (fileId : Uuid) (init : UploadInit)
    (info : UploadInfo) (content : List UInt8) (arrivals : List ChunkArrival) (reads : ℕ)
    (hinit : init.info mgr = .ok info) (hsize : init.fileSize = content.length)
    (hspells : Spells init.expectedHash (sha.hex content))
    (hindices : ∀ a ∈ arrivals, a.1 < info.totalChunks)
    (hall : ∀ k < info.totalChunks, k ∈ arrivals.map Prod.fst) (hreads : content.length < reads)
    (henvs : AllUndisturbed sha mgr fileId reads info content arrivals (.announced mgr info)) :
    let w := sendAll sha mgr fileId reads info content arrivals (.announced mgr info)
    ((∀ p, (p < content.length ↔ ∃ k < info.totalChunks, info.Covers k p) ∧
        ∀ j k, info.Covers j p → info.Covers k p → j = k) ∧
      w.row.status = .completed ∧ ∃ x, w.final = some x ∧ w.content x = content) ↔
    inLowerCase init.expectedHash = true := by
  intro w
  obtain ⟨hfileSize, hfits, hexpected⟩ := of_init hinit
  have hlength : content.length = info.fileSize := by
    rw [hfileSize, hsize, Int.toNat_natCast]
  obtain ⟨received, hmem, hstage⟩ := (stage_announced sha mgr info content).sendAll hlength hfits
    hreads hindices henvs
  rw [Stage, if_pos fun k hk => (hmem k).mpr (Or.inr (hall k hk)), hexpected] at hstage
  rw [← hspells.eq_iff]
  constructor
  · rintro ⟨_, hcompleted, _⟩
    by_contra hhash
    rw [if_neg hhash] at hstage
    have hfailed : w.row.status = .failed := hstage.1
    rw [hfailed] at hcompleted
    cases hcompleted
  · intro hhash
    rw [if_pos hhash] at hstage
    refine ⟨?_, hstage.status, hstage.final⟩
    rw [hlength]
    exact info.chunks_partition

def announceA (expectedHash : String) : UploadInit where
  filename := "a"
  originalPath := "a"
  fileSize := 1
  expectedHash := expectedHash
  uploadedBy := "device"

def arrivesTwice : List ChunkArrival :=
  [(0, fun _ => ([], { block := 1 })), (0, fun _ => ([], { block := 1 }))]

set_option maxRecDepth 20000 in
/-- Announced in lower case, the byte `A` is stored. -/
theorem upload_end_to_end_one_byte :
    let w := sendAll sampleSha sampleManager 7 2 oneByte [65] arrivesTwice
      (.announced sampleManager oneByte)
    w.row.status = .completed ∧ ∃ x, w.final = some x ∧ w.content x = [65] :=
  ((upload_end_to_end sampleSha sampleManager 7 (announceA hashA) oneByte [65] arrivesTwice 2
    rfl rfl (by decide) (by decide) (by decide) (by decide) (by decide)).mpr (by decide)).2

def oneByteUpper : UploadInfo :=
  { oneByte with
    expectedHash := "559AEAD08264D5795D3909718CDD05ABD49572E84FE55590EEF31A88A08FDFFD"
    file_size_pos := by decide
    chunk_size_pos := by decide
    total_chunks_eq := by decide }

set_option maxRecDepth 20000 in
/-- Announced in upper case it is accepted, spells the digest, and is failed with its file there. -/
theorem upper_case_hash_fails :
    (announceA oneByteUpper.expectedHash).info sampleManager = .ok oneByteUpper ∧
      Spells oneByteUpper.expectedHash (sampleSha.hex [65]) ∧
      (sendAll sampleSha sampleManager 7 2 oneByteUpper [65] arrivesTwice
        (.announced sampleManager oneByteUpper)).row.status = .failed :=
  ⟨rfl, by decide, by decide⟩

end MichiServer.Upload
