import MichiServer.Upload.Discipline

/-!
# The effects of the steps

The steps of the calls fall into a few kinds: the cache and the heartbeats, the records, the row, and
the files. For each kind there is what it leaves to the other calls, `Calm`, and that it keeps the
invariant.
-/

namespace MichiServer.Upload

open MichiServer.Files MichiServer.Interleave

/-! ## Files -/

namespace UploadWorld

variable (w : UploadWorld)

theorem content_write_ne {x y : Inode} (h : x ≠ y) (offset : ℕ) (data : List UInt8) :
    (w.write x offset data).content y = w.content y := by
  simp only [content, write, List.getElem?_modify, if_neg h, id_map']

theorem content_write_self {x : Inode} (h : x < w.inodes.length) (offset : ℕ) (data : List UInt8) :
    (w.write x offset data).content x = patch 0 (w.content x) offset data := by
  grind [content, write]

theorem content_mem {x : Inode} (h : x < w.inodes.length) : w.content x ∈ w.inodes := by
  rw [content, List.getElem?_eq_getElem h]
  exact List.getElem_mem h

theorem content_openPart {x : Inode} (h : x < w.inodes.length) :
    w.openPart.2.content x = w.content x := by
  grind [openPart, content]

theorem fileAt_openPart {p : UploadPath} {x : Inode} (h : w.fileAt p = some x) :
    w.openPart.2.fileAt p = some x := by
  cases hpart : w.part with
  | some y => simpa only [openPart, hpart] using h
  | none =>
    cases p with
    | part => exact absurd (hpart.symm.trans h) (by simp)
    | final =>
      simp only [openPart, hpart]
      exact h

theorem openPart_eq :
    ∃ part inodes, w.openPart.2 = { w with part := part, inodes := inodes } := by
  unfold openPart
  cases w.part with
  | some _ => exact ⟨w.part, w.inodes, rfl⟩
  | none => exact ⟨_, _, rfl⟩

theorem staged_openPart {x : Inode} (h : w.staged = some x) : w.openPart.2.staged = some x := by
  grind [staged, openPart]

theorem staged_rename (h : w.final = none) : w.rename.staged = w.staged := by
  simp only [staged, rename, h]
  cases w.part <;> rfl

end UploadWorld

/-! ## Calm steps -/

namespace Calm

variable {P : Promises} {i : TaskId} {w w' : UploadWorld}

theorem of_eq (huuids : w'.uuids = w.uuids) (hreceipts : w'.receipts = w.receipts)
    (hsynced : w'.syncedFiles = w.syncedFiles)
    (htoken : w'.row.finalizeToken = w.row.finalizeToken) (hpart : w'.part = w.part)
    (hfinal : w'.final = w.final) (hinodes : w'.inodes = w.inodes) : Calm P i w w' where
  uuids t j h := by rwa [huuids]
  receipts r h := by rwa [hreceipts]
  synced f h := by rwa [hsynced]
  token t _ h := by rwa [htoken] at h
  quiet _ t _ _ p x h := by
    refine ⟨?_, by rw [UploadWorld.content, hinodes]; rfl⟩
    cases p with
    | part => exact hpart.trans h
    | final => exact hfinal.trans h
  agreed _ x h := by rwa [UploadWorld.staged, hpart, hfinal]

theorem setUploads (epoch : Epoch) (entry : Option UploadMeta) :
    Calm P i w (w.setUploads epoch entry) := of_eq rfl rfl rfl rfl rfl rfl rfl

theorem setHeartbeat (token : Token) (h : Heartbeat) : Calm P i w (w.setHeartbeat token h) :=
  of_eq rfl rfl rfl rfl rfl rfl rfl

theorem drawUuid (j : TaskId) : Calm P i w { w with uuids := w.uuids ++ [j] } where
  uuids t j' h := by
    grind
  receipts _ h := h
  synced _ h := h
  token _ _ h := h
  quiet _ _ _ _ _ _ h := ⟨h, rfl⟩
  agreed _ _ h := h

theorem insertChunk (r : ChunkReceipt) : Calm P i w (w.insertChunk r) := by
  unfold UploadWorld.insertChunk
  split
  · exact refl P i w
  · exact ⟨fun _ _ h => h, fun _ h => List.mem_append_left _ h, fun _ h => h, fun _ _ h => h,
      fun _ _ _ _ _ _ h => ⟨h, rfl⟩, fun _ _ h => h⟩

theorem insertSyncedFile (f : SyncedFile) : Calm P i w (w.insertSyncedFile f) := by
  unfold UploadWorld.insertSyncedFile
  split
  · exact refl P i w
  · exact ⟨fun _ _ h => h, fun _ h => h, fun _ h => List.mem_append_left _ h, fun _ _ h => h,
      fun _ _ _ _ _ _ h => ⟨h, rfl⟩, fun _ _ h => h⟩

theorem update_row {row : UploadRow}
    (htoken : ∀ (t : Token), w.uuids[t]? = some i → row.finalizeToken = some t →
      w.row.finalizeToken = some t) : Calm P i w { w with row := row } where
  uuids _ _ h := h
  receipts _ h := h
  synced _ h := h
  token := htoken
  quiet _ _ _ _ _ _ h := ⟨h, rfl⟩
  agreed _ _ h := h

theorem openPart (hexist : ∀ p x, w.fileAt p = some x → x < w.inodes.length) :
    Calm P i w w.openPart.2 := by
  obtain ⟨part, inodes, heq⟩ := w.openPart_eq
  exact {
    uuids := fun t j h => by rwa [heq]
    receipts := fun r h => by rwa [heq]
    synced := fun f h => by rwa [heq]
    token := fun t _ h => by rwa [heq] at h
    quiet := fun _ t _ _ p x h =>
      ⟨w.fileAt_openPart h, w.content_openPart (hexist p x h)⟩
    agreed := fun _ x h => w.staged_openPart h }

theorem write {x : Inode} {offset : ℕ} {data : List UInt8}
    (hsame : P.quiet → w.row.finalizeToken ≠ none → (w.part = some x ∨ w.final = some x) →
      (w.write x offset data).content x = w.content x) : Calm P i w (w.write x offset data) where
  uuids _ _ h := h
  receipts _ h := h
  synced _ h := h
  token _ _ h := h
  quiet hq t _ htoken p y h := by
    have hrow : w.row.finalizeToken = some t := htoken
    refine ⟨h, ?_⟩
    by_cases hxy : x = y
    · subst hxy
      refine hsame hq (by rw [hrow]; exact Option.some_ne_none t) ?_
      cases p with
      | part => exact Or.inl h
      | final => exact Or.inr h
    · exact w.content_write_ne hxy offset data
  agreed _ _ h := h

theorem rename (hother : P.quiet → ∀ (t : Token), w.uuids[t]? = some i →
      w.row.finalizeToken ≠ some t) (hfirst : P.agreed → w.final = none) :
    Calm P i w w.rename where
  uuids _ _ h := h
  receipts _ h := h
  synced _ h := h
  token _ _ h := h
  quiet hq t ht htoken _ _ _ := absurd htoken (hother hq t ht)
  agreed ha x h := by rwa [w.staged_rename (hfirst ha)]

end Calm

/-! ## Steps that keep the invariant -/

namespace UploadInv

variable {sha : Sha256} {info : UploadInfo} {serverPath : String} {P : Promises}
  {w : UploadWorld} {i : TaskId}

theorem setUploads (h : UploadInv sha info serverPath P w) (epoch : Epoch)
    {entry : Option UploadMeta} (hentry : ∀ m ∈ entry, m.toUploadInfo = info) :
    UploadInv sha info serverPath P (w.setUploads epoch entry) where
  row_info := h.row_info
  cached_info epoch' m hm := by
    by_cases he : epoch' = epoch
    · grind [UploadWorld.setUploads]
    · simp only [UploadWorld.setUploads, if_neg he] at hm
      exact h.cached_info epoch' m hm
  no_token := h.no_token
  failed_terminal := h.failed_terminal
  synced := h.synced
  synced_once := h.synced_once
  files_exist := h.files_exist
  sizes := h.sizes
  receipts_fit := h.receipts_fit
  promoted_receipted := h.promoted_receipted
  completed_stored := h.completed_stored
  receipts_stored := h.receipts_stored

theorem of_eq (h : UploadInv sha info serverPath P w) (heartbeats : Token → Option Heartbeat)
    (uuids : List TaskId) :
    UploadInv sha info serverPath P { w with heartbeats := heartbeats, uuids := uuids } :=
  ⟨h.1, h.2, h.3, h.4, h.5, h.6, h.7, h.8, h.9, h.10, h.11, h.12⟩

theorem update_row (h : UploadInv sha info serverPath P w) {u : UploadUpdate}
    (hpre : UpdatePre sha info serverPath P i w u) :
    UploadInv sha info serverPath P { w with row := u.apply w.row } := by
  cases happlies : u.applies w.row with
  | false =>
    have hrow : u.apply w.row = w.row := by rw [UploadUpdate.apply, happlies]; rfl
    rw [hrow]
    exact h
  | true =>
    have hrow : u.apply w.row = u.set w.row := by rw [UploadUpdate.apply, happlies]; rfl
    rw [hrow]
    refine ⟨?_, h.cached_info, ?_, ?_, h.synced, h.synced_once, h.files_exist, h.sizes,
      h.receipts_fit, h.promoted_receipted, ?_, h.receipts_stored⟩
    · have hinfo := h.row_info
      cases u <;> exact hinfo
    · cases u with
      | renew => exact absurd hpre id
      | markFailed | markCompleted => exact fun _ => rfl
      | acquire => exact fun hne => absurd rfl hne
      | takeOverEpoch | takeOverLease =>
        simp only [UploadUpdate.applies, decide_eq_true_eq] at happlies
        exact fun hne => absurd happlies.1 hne
    · cases u with
      | renew => exact absurd hpre id
      | markFailed => exact fun _ => congrArg some hpre.2
      | markCompleted | acquire => exact fun hne => nomatch hne
      | takeOverEpoch | takeOverLease =>
        simp only [UploadUpdate.applies, decide_eq_true_eq] at happlies
        exact fun hfailed => absurd (happlies.1.symm.trans hfailed) (by decide)
    · cases u with
      | renew => exact absurd hpre id
      | markFailed | acquire => exact fun _ hne => nomatch hne
      | markCompleted t epoch =>
        simp only [UploadUpdate.applies, decide_eq_true_eq] at happlies
        exact fun hq _ => hpre.2 hq happlies.2.1
      | takeOverEpoch | takeOverLease =>
        simp only [UploadUpdate.applies, decide_eq_true_eq] at happlies
        exact fun _ hdone => absurd (happlies.1.symm.trans hdone) (by decide)

theorem insertChunk (h : UploadInv sha info serverPath P w) {r : ChunkReceipt}
    (hindex : r.chunkIndex < info.totalChunks)
    (hsize : r.size = info.expectedSize r.chunkIndex)
    (hkept : P.agreed → ChunkKept sha info r w) :
    UploadInv sha info serverPath P (w.insertChunk r) := by
  unfold UploadWorld.insertChunk
  split
  · exact h
  next hnew =>
    refine ⟨h.row_info, h.cached_info, h.no_token, h.failed_terminal, h.synced, h.synced_once,
      h.files_exist, h.sizes, ?_, ?_, h.completed_stored, ?_⟩
    · intro r' hr'
      rcases List.mem_append.mp hr' with hold | hthis
      · exact h.receipts_fit r' hold
      · grind
    · intro hfinal index hlt
      obtain ⟨r', hr', hidx⟩ := h.promoted_receipted hfinal index hlt
      exact ⟨r', List.mem_append_left _ hr', hidx⟩
    · intro ha r' hr'
      rcases List.mem_append.mp hr' with hold | hthis
      · exact h.receipts_stored ha r' hold
      · obtain rfl := List.mem_singleton.mp hthis
        rcases hkept ha with hstored | ⟨r₀, hr₀, hidx, _⟩
        · exact hstored
        · -- a receipt of the same index would have been found
          grind [UploadWorld.receipt]

theorem insertSyncedFile (h : UploadInv sha info serverPath P w) {f : SyncedFile}
    (hf : f.fileHash = info.expectedHash ∧ f.serverPath = serverPath) :
    UploadInv sha info serverPath P (w.insertSyncedFile f) := by
  unfold UploadWorld.insertSyncedFile
  split
  · exact h
  next hnew =>
    -- every row there is has this hash and path, so there is none yet
    have hempty : w.syncedFiles = [] := by
      cases hfiles : w.syncedFiles with
      | nil => rfl
      | cons g rest =>
        have hg : g ∈ w.syncedFiles := hfiles ▸ List.mem_cons_self
        obtain ⟨hhash, hpath⟩ := h.synced g hg
        grind
    refine ⟨h.row_info, h.cached_info, h.no_token, h.failed_terminal, ?_, ?_, h.files_exist,
      h.sizes, h.receipts_fit, h.promoted_receipted, ?_, h.receipts_stored⟩
    · grind
    · rw [hempty]
      exact Nat.le_refl 1
    · intro hq hdone
      obtain ⟨hfile, g, hg, hkey⟩ := h.completed_stored hq hdone
      exact ⟨hfile, g, List.mem_append_left _ hg, hkey⟩

theorem staged_lt (h : UploadInv sha info serverPath P w) {x : Inode} (hx : w.staged = some x) :
    x < w.inodes.length := by
  unfold UploadWorld.staged at hx
  cases hfinal : w.final with
  | some y =>
    rw [hfinal] at hx
    exact h.files_exist .final x (hfinal.trans hx)
  | none =>
    rw [hfinal] at hx
    exact h.files_exist .part x hx

theorem openPart (h : UploadInv sha info serverPath P w) :
    UploadInv sha info serverPath P w.openPart.2 := by
  cases hpart : w.part with
  | some x =>
    grind [UploadWorld.openPart]
  | none =>
    have heq : w.openPart.2 =
        { w with part := some w.inodes.length, inodes := w.inodes ++ [[]] } := by
      simp only [UploadWorld.openPart, hpart]
    have hcontent : ∀ {x : Inode}, x < w.inodes.length → w.openPart.2.content x = w.content x :=
      w.content_openPart
    have hstaged : ∀ {x : Inode}, w.staged = some x → w.openPart.2.staged = some x :=
      w.staged_openPart
    rw [heq] at hcontent hstaged ⊢
    refine ⟨h.row_info, h.cached_info, h.no_token, h.failed_terminal, h.synced, h.synced_once,
      ?_, ?_, h.receipts_fit, h.promoted_receipted, ?_, ?_⟩
    · intro p x hx
      rw [List.length_append, List.length_singleton]
      cases p with
      | part =>
        obtain rfl := Option.some.inj hx
        exact Nat.lt_succ_self _
      | final => exact Nat.lt_succ_of_lt (h.files_exist .final x hx)
    · intro content hc
      rcases List.mem_append.mp hc with hold | hnew
      · exact h.sizes content hold
      · grind
    · intro hq hdone
      obtain ⟨⟨x, hx, hverified⟩, hsynced⟩ := h.completed_stored hq hdone
      exact ⟨⟨x, hx, by rwa [hcontent (h.files_exist .final x hx)]⟩, hsynced⟩
    · intro ha r hr
      obtain ⟨x, hx, hrange, hhash⟩ := h.receipts_stored ha r hr
      have hlt : x < w.inodes.length := h.staged_lt hx
      exact ⟨x, hstaged hx, by rwa [hcontent hlt], by rwa [hcontent hlt]⟩

theorem rename (h : UploadInv sha info serverPath P w) (hall : AllReceipted info w)
    (hopen : P.quiet → w.row.finalizeToken ≠ none) (hfirst : P.agreed → w.final = none) :
    UploadInv sha info serverPath P w.rename := by
  refine ⟨h.row_info, h.cached_info, h.no_token, h.failed_terminal, h.synced, h.synced_once, ?_,
    h.sizes, h.receipts_fit, fun _ => hall, ?_, ?_⟩
  · intro p x hx
    cases p with
    | part => cases hx
    | final => exact h.files_exist .part x hx
  · intro hq hdone
    refine absurd (h.no_token ?_) (hopen hq)
    rw [show w.row.status = .completed from hdone]
    decide
  · intro ha r hr
    obtain ⟨x, hx, hstored⟩ := h.receipts_stored ha r hr
    exact ⟨x, by rwa [w.staged_rename (hfirst ha)], hstored⟩

end UploadInv

/-- A chunk stays stored when another is written. -/
theorem ChunkStored.write {sha : Sha256} {info : UploadInfo} {w : UploadWorld} {r : ChunkReceipt}
    (h : ChunkStored sha info r w) (hsize : r.size = info.expectedSize r.chunkIndex)
    {x : Inode} {index : ℕ} {data : List UInt8} (hdata : data.length = info.expectedSize index)
    (hstaged : ∀ y, w.staged = some y → y < w.inodes.length)
    (hagree : info.chunkOffset r.chunkIndex = info.chunkOffset index →
      r.chunkHash = sha.hex data) :
    ChunkStored sha info r (w.write x (info.chunkOffset index) data) := by
  obtain ⟨y, hy, hrange, hhash⟩ := h
  by_cases hxy : x = y
  · subst hxy
    refine ⟨x, hy, ?_, ?_⟩
    · rw [w.content_write_self (hstaged x hy), length_patch]
      exact Nat.le_trans hrange (Nat.le_max_left _ _)
    · rw [w.content_write_self (hstaged x hy)]
      by_cases hindex : r.chunkIndex = index
      · grind [slice_patch_self]
      · rw [slice_patch_disjoint 0 hrange, hhash]
        rw [hsize, hdata]
        exact info.chunks_disjoint hindex
  · refine ⟨y, hy, ?_, ?_⟩
    · rwa [w.content_write_ne hxy]
    · rwa [w.content_write_ne hxy]

theorem chunkStored_of_write {sha : Sha256} {info : UploadInfo} {w : UploadWorld} {x : Inode}
    {r : ChunkReceipt} {data : List UInt8} (hx : w.staged = some x) (hlt : x < w.inodes.length)
    (hsize : r.size = data.length) (hhash : r.chunkHash = sha.hex data) :
    ChunkStored sha info r (w.write x (info.chunkOffset r.chunkIndex) data) := by
  refine ⟨x, hx, ?_, ?_⟩
  · rw [w.content_write_self hlt, length_patch, hsize]
    exact Nat.le_max_right _ _
  · rw [w.content_write_self hlt, hsize, slice_patch_self, hhash]

namespace UploadInv

variable {sha : Sha256} {info : UploadInfo} {serverPath : String} {P : Promises}
  {w : UploadWorld}

theorem write (h : UploadInv sha info serverPath P w) {x : Inode} {index : ℕ}
    {data : List UInt8} (hindex : index < info.totalChunks)
    (hdata : data.length = info.expectedSize index)
    (hquiet : P.quiet → w.row.status = .completed → w.final = some x →
      (w.write x (info.chunkOffset index) data).content x = w.content x)
    (hagree : P.agreed → ∀ r ∈ w.receipts,
      info.chunkOffset r.chunkIndex = info.chunkOffset index → r.chunkHash = sha.hex data) :
    UploadInv sha info serverPath P (w.write x (info.chunkOffset index) data) := by
  refine ⟨h.row_info, h.cached_info, h.no_token, h.failed_terminal, h.synced, h.synced_once,
    ?_, ?_, h.receipts_fit, h.promoted_receipted, ?_, ?_⟩
  · intro p y hy
    have hlt := h.files_exist p y hy
    rwa [UploadWorld.write, List.length_modify]
  · intro content hc
    obtain ⟨y, hlt, rfl⟩ := List.getElem_of_mem hc
    have hlt' : y < w.inodes.length := by
      rwa [UploadWorld.write, List.length_modify] at hlt
    have hget : (w.write x (info.chunkOffset index) data).inodes[y] =
        (w.write x (info.chunkOffset index) data).content y := by
      rw [UploadWorld.content, List.getElem?_eq_getElem hlt]
      rfl
    have hold := h.sizes _ (w.content_mem hlt')
    rw [hget]
    by_cases hxy : x = y
    · subst hxy
      have hend := info.chunk_end_le hindex
      rw [w.content_write_self hlt', length_patch, hdata]
      omega
    · rwa [w.content_write_ne hxy]
  · intro hq hdone
    obtain ⟨⟨y, hy, hverified⟩, hsynced⟩ := h.completed_stored hq hdone
    refine ⟨⟨y, hy, ?_⟩, hsynced⟩
    by_cases hxy : x = y
    · subst hxy
      rwa [hquiet hq hdone hy]
    · rwa [w.content_write_ne hxy]
  · intro ha r hr
    exact (h.receipts_stored ha r hr).write (h.receipts_fit r hr).2 hdata
      (fun y hy => h.staged_lt hy) (hagree ha r hr)

end UploadInv

end MichiServer.Upload
