import MichiServer.Upload.Steps

/-!
# The steps of the calls, outlined

The vocabulary the upload calls are outlined in. A call that changes nothing it counts on itself ends
calmly, and what was known before it is known after it; what else it is good for is said of its
result.

The steps of the calls come first, each with what its answer says of the world.
-/

namespace MichiServer.Upload

open MichiServer.Files MichiServer.Interleave

structure Setting where
  sha : Sha256
  info : UploadInfo
  serverPath : String
  promises : Promises

namespace Setting

variable (c : Setting) (i : TaskId)

abbrev discipline : Discipline UploadAct StepEnv UploadWorld :=
  uploadDiscipline c.sha c.info c.serverPath c.promises

/-- The call is outlined, and a result of it comes with `Q`; of errors nothing is said. -/
def Safe {α : Type} (Q : α → UploadWorld → Prop) (x : SyncM α) (w : UploadWorld) : Prop :=
  Outline c.discipline semantics i (fun r w' => ∀ a, r = .ok a → Q a w') x.run w

/-- The call is outlined, and a result of it comes with `Q` and leaves what the task counts on. -/
def Calmly {α : Type} (Q : α → UploadWorld → Prop) (x : SyncM α) (w : UploadWorld) : Prop :=
  c.Safe i (fun a w' => Calm c.promises i w w' ∧ Q a w') x w

variable {c i} {α β : Type} {Q Q' : α → UploadWorld → Prop} {R : β → UploadWorld → Prop}
  {w : UploadWorld}

/-! ## Putting calls together -/

theorem Safe.pure {a : α} (h : Q a w) : c.Safe i Q (pure a) w := (Yields.pure h).outline

theorem Safe.throw (e : SyncError) : c.Safe i Q (throw e) w := (Yields.throw e).outline

variable {x : SyncM α} {f : α → SyncM β} {p : UploadPath}

theorem Safe.mono (h : c.Safe i Q x w) (hQ : ∀ a w', Q a w' → Q' a w') :
    c.Safe i Q' x w :=
  (Yields.mono ⟨h⟩ hQ).outline

theorem Safe.bind (hx : c.Safe i Q x w)
    (hf : ∀ a w', Q a w' → c.Safe i R (f a) w') : c.Safe i R (x >>= f) w :=
  (Yields.bind ⟨hx⟩ fun a w' ha => ⟨hf a w' ha⟩).outline

theorem Safe.attempt {T : Except SyncError α → UploadWorld → Prop}
    (h : Outline c.discipline semantics i T x.run w) : c.Safe i T (TryProg.attempt x) w :=
  Outline.attempt (h.mono fun r w' hr a ha => by cases ha; exact hr)

theorem Safe.ite {p : Prop} [Decidable p] {x y : SyncM α} (hx : p → c.Safe i Q x w)
    (hy : ¬ p → c.Safe i Q y w) : c.Safe i Q (if p then x else y) w :=
  (Yields.ite (fun hp => ⟨hx hp⟩) fun hp => ⟨hy hp⟩).outline

theorem Calmly.pure {a : α} (h : Q a w) : c.Calmly i Q (Pure.pure a) w :=
  Safe.pure ⟨.refl _ i w, h⟩

theorem Calmly.throw (e : SyncError) : c.Calmly i Q (MonadExcept.throw e) w := Safe.throw e

theorem Calmly.bind (hx : c.Calmly i Q x w)
    (hf : ∀ a w', Calm c.promises i w w' → Q a w' → c.Calmly i R (f a) w') :
    c.Calmly i R (x >>= f) w :=
  Safe.bind hx fun a w' ⟨hcalm, ha⟩ =>
    (hf a w' hcalm ha).mono fun _ _ hb => ⟨hcalm.trans hb.1, hb.2⟩

theorem Calmly.then (hx : c.Calmly i Q x w)
    (hf : ∀ a w', Calm c.promises i w w' → Q a w' → c.Safe i R (f a) w') :
    c.Safe i R (x >>= f) w :=
  Safe.bind hx fun a w' h => hf a w' h.1 h.2

/-! ## The steps -/

theorem Safe.orElse {e : SyncError} {p : Prog UploadAct.Resp (Option α)}
    (hp : Outline c.discipline semantics i (fun r w' => ∀ b, r = some b → Q b w') p w) :
    c.Safe i Q (TryProg.orElse e p) w := by
  refine Outline.orElse (hp.mono fun r w' hr => ?_)
  grind

theorem answered {b : Bool} {x : Option α} {a : α} (h : (if b = true then none else x) = some a) :
    b = false ∧ x = some a := by
  grind

theorem Safe.sure {p : Prog UploadAct.Resp α} (hp : Outline c.discipline semantics i Q p w) :
    c.Safe i Q (sure p) w :=
  (Yields.lift hp).outline

theorem harmless_step {a : UploadAct} (hharmless : Harmless a)
    (hpre : ∀ w', Calm c.promises i w w' → UploadPre c.sha c.info c.serverPath c.promises i a w') :
    Outline c.discipline semantics i (fun r w' => Calm c.promises i w w' ∧
      ∃ w₀ env, UploadInv c.sha c.info c.serverPath c.promises w₀ ∧
        r = (exec i a env w₀).1 ∧ w' = (exec i a env w₀).2) (Prog.perform a) w := by
  refine Outline.perform fun w₀ hrely hinv => ⟨hpre w₀ hrely.1, fun env hok => ⟨?_, ?_⟩⟩
  · exact hrely.1.trans (Calm.exec hinv (hpre w₀ hrely.1) hok (Or.inr hharmless))
  · exact ⟨w₀, env, hinv, rfl, rfl⟩

theorem calm_step {a : UploadAct} (hharmless : Harmless a)
    (hpre : ∀ w', Calm c.promises i w w' → UploadPre c.sha c.info c.serverPath c.promises i a w') :
    Outline c.discipline semantics i (fun _ w' => Calm c.promises i w w') (Prog.perform a) w :=
  (harmless_step hharmless hpre).mono fun _ _ h => h.1

theorem Calmly.orElse {e : SyncError} {p : Prog UploadAct.Resp (Option α)}
    (hp : Outline c.discipline semantics i (fun _ w' => Calm c.promises i w w') p w) :
    c.Calmly i (fun _ _ => True) (TryProg.orElse e p) w :=
  Safe.orElse (hp.mono fun _ _ hcalm _ _ => ⟨hcalm, trivial⟩)

theorem Calmly.sure {p : Prog UploadAct.Resp α}
    (hp : Outline c.discipline semantics i (fun _ w' => Calm c.promises i w w') p w) :
    c.Calmly i (fun _ _ => True) (sure p) w :=
  Safe.sure (hp.mono fun _ _ hcalm => ⟨hcalm, trivial⟩)

theorem calmly_updateUploads {mgr : SyncManager} {f : Option UploadMeta → Option UploadMeta}
    (hf : ∀ m, (∀ m₀ ∈ m, UploadRow.toUploadInfo (UploadMeta.toUploadRow m₀) = c.info) →
      ∀ m₁ ∈ f m, UploadRow.toUploadInfo (UploadMeta.toUploadRow m₁) = c.info) :
    c.Calmly i (fun m _ => ∀ m₀ ∈ m, UploadRow.toUploadInfo (UploadMeta.toUploadRow m₀) = c.info)
      (updateUploads mgr f) w := by
  refine Safe.sure (Outline.mono (harmless_step (a := UploadAct.uploads _ _) trivial fun _ _ => hf) ?_)
  rintro m w' ⟨hcalm, w₀, env, hinv, rfl, rfl⟩
  exact ⟨hcalm, fun m₀ hm₀ => hinv.cached_info _ m₀ hm₀⟩

theorem calmly_selectUpload :
    c.Calmly i (fun row _ => row.toUploadInfo = c.info) selectUpload w := by
  refine Safe.orElse (Outline.mono (harmless_step (a := UploadAct.selectUpload) trivial fun _ _ => trivial) ?_)
  rintro r w' ⟨hcalm, w₀, env, hinv, rfl, rfl⟩ row hrow
  refine ⟨hcalm, ?_⟩
  obtain ⟨_, heq⟩ := answered hrow
  cases heq
  exact hinv.row_info

theorem calmly_selectChunkIndices :
    c.Calmly i (fun indices w' => ∀ index ∈ indices, ∃ r ∈ w'.receipts, r.chunkIndex = index)
      selectChunkIndices w := by
  refine Safe.orElse (Outline.mono (harmless_step (a := UploadAct.selectChunkIndices) trivial fun _ _ => trivial) ?_)
  rintro r w' ⟨hcalm, w₀, env, hinv, rfl, rfl⟩ indices hindices
  refine ⟨hcalm, ?_⟩
  obtain ⟨_, heq⟩ := answered hindices
  cases heq
  exact fun index hindex => List.mem_map.mp hindex

theorem calmly_selectChunk {index : ℕ} :
    c.Calmly i (fun _ _ => True) (selectChunk index) w :=
  .orElse (calm_step trivial fun _ _ => trivial)

theorem calmly_insertChunk {r : ChunkReceipt} (hindex : r.chunkIndex < c.info.totalChunks)
    (hsize : r.size = c.info.expectedSize r.chunkIndex)
    (hkept : c.promises.agreed → ChunkKept c.sha c.info r w) :
    c.Safe i (fun _ _ => True) (insertChunk r) w := by
  refine Safe.orElse (Outline.perform fun w₀ hrely _ => ⟨⟨hindex, hsize, fun ha => ?_⟩, ?_⟩)
  · exact hrely.2 r rfl ha (hkept ha)
  · exact fun _ _ _ _ => trivial

theorem calmly_mark {u : UploadUpdate} (hharmless : Harmless (.updateUpload u))
    (hpre : ∀ w', Calm c.promises i w w' →
      UpdatePre c.sha c.info c.serverPath c.promises i w' u) :
    c.Calmly i (fun _ _ => True) (updateUpload u) w :=
  .orElse (calm_step hharmless hpre)

theorem safe_acquire {u : UploadUpdate} {t : Token} (ht : w.uuids[t]? = some i)
    (hpre : ∀ w' : UploadWorld, w'.uuids[t]? = some i →
      UpdatePre c.sha c.info c.serverPath c.promises i w' u) :
    c.Safe i (fun _ w' => w'.uuids[t]? = some i) (updateUpload u) w := by
  refine Safe.orElse (Outline.perform fun w₀ hrely _ => ?_)
  have ht₀ : w₀.uuids[t]? = some i := hrely.1.uuids t i ht
  refine ⟨hpre w₀ ht₀, fun env _ b _ => ?_⟩
  simp only [semantics, exec]
  split <;> exact ht₀

theorem calmly_insertSyncedFile {f : SyncedFile}
    (hf : f.fileHash = c.info.expectedHash ∧ f.serverPath = c.serverPath) :
    c.Calmly i (fun _ w' => ∃ g ∈ w'.syncedFiles,
      g.fileHash = c.info.expectedHash ∧ g.serverPath = c.serverPath)
      (insertSyncedFile f) w := by
  refine Safe.orElse (Outline.mono (harmless_step (a := UploadAct.insertSyncedFile f) trivial fun _ _ => hf) ?_)
  grind [exec, UploadWorld.insertSyncedFile]

theorem calmly_selectSyncedFile {fileHash serverPath : String} :
    c.Calmly i (fun _ _ => True) (selectSyncedFile fileHash serverPath) w :=
  .orElse (calm_step trivial fun _ _ => trivial)

/-- The part file that is opened is the staged one, or all is received. -/
theorem calmly_openPart :
    c.Calmly i (fun x w' => w'.staged = some x ∨ AllReceipted c.info w') openPart w := by
  refine Safe.orElse (Outline.mono (harmless_step (a := UploadAct.openPart) trivial fun _ _ => trivial) ?_)
  rintro r w' ⟨hcalm, w₀, env, hinv, rfl, rfl⟩ x hx
  refine ⟨hcalm, ?_⟩
  simp only [exec] at hx ⊢
  split at hx
  · cases hx
  next hfails =>
    cases hx
    rw [if_neg hfails]
    cases hfinal : w₀.final with
    | some y =>
      right
      obtain ⟨part, inodes, heq⟩ := w₀.openPart_eq
      intro index hindex
      obtain ⟨r, hr, hidx⟩ := hinv.promoted_receipted (by simp [hfinal]) index hindex
      refine ⟨r, ?_, hidx⟩
      rw [heq]
      exact hr
    | none =>
      grind [UploadWorld.openPart, UploadWorld.staged]

/-- A checked chunk may be written to it. -/
theorem safe_writeChunk {x : Inode} {r : ChunkReceipt} {data : List UInt8}
    (hindex : r.chunkIndex < c.info.totalChunks) (hlen : r.size = data.length)
    (hdata : data.length = c.info.expectedSize r.chunkIndex)
    (hhash : r.chunkHash = c.sha.hex data)
    (hx : w.staged = some x ∨ AllReceipted c.info w) :
    c.Safe i (fun _ w' => c.promises.agreed → ChunkKept c.sha c.info r w')
      (writeChunk x (c.info.chunkOffset r.chunkIndex) data) w := by
  refine Safe.orElse (Outline.perform fun w₀ hrely hinv => ?_)
  have hinv₀ : UploadInv c.sha c.info c.serverPath c.promises w₀ := hinv
  have hx₀ : c.promises.agreed → w₀.staged = some x ∨ AllReceipted c.info w₀ := fun ha => by
    rcases hx with hstaged | hall
    · exact Or.inl (hrely.1.agreed ha x hstaged)
    · right
      intro index hlt
      obtain ⟨r', hr', hidx⟩ := hall index hlt
      exact ⟨r', hrely.1.receipts r' hr', hidx⟩
  refine ⟨⟨r.chunkIndex, hindex, rfl, hdata, hx₀⟩, fun env hok b hb ha => ?_⟩
  have hagree := hok.2 ha
  simp only [AgreedStep, hinv₀.row_info] at hagree
  simp only [semantics, exec] at hb ⊢
  split at hb
  · cases hb
  next hfails =>
    rw [if_neg hfails]
    rcases hx₀ ha with hstaged | hall
    · exact Or.inl (chunkStored_of_write hstaged (hinv₀.staged_lt hstaged) hlen hhash)
    · -- a receipt of the place is there, and by the promise it has the hash of what is written
      obtain ⟨r', hr', hidx⟩ := hall r.chunkIndex hindex
      exact Or.inr ⟨r', hr', hidx, (hagree r' hr' (by rw [hidx])).trans hhash.symm⟩

theorem calmly_metadataLen :
    c.Calmly i (fun len w' => ∃ x, w'.fileAt p = some x ∧ (w'.content x).length = len)
      (metadataLen p) w := by
  refine Safe.orElse (Outline.mono (harmless_step (a := UploadAct.metadata p) trivial fun _ _ => trivial) ?_)
  rintro r w' ⟨hcalm, w₀, env, hinv, rfl, rfl⟩ len hlen
  refine ⟨hcalm, ?_⟩
  exact Option.map_eq_some_iff.mp (answered hlen).2

theorem calmly_existsOnDisk :
    c.Calmly i (fun _ _ => True) (existsOnDisk p) w :=
  .sure (.bind (calm_step trivial fun _ _ => trivial))

theorem calmly_openFile :
    c.Calmly i (fun x w' => w'.fileAt p = some x) (openFile p) w := by
  refine Safe.orElse (Outline.mono (harmless_step (a := UploadAct.openFile p) trivial fun _ _ => trivial) ?_)
  rintro r w' ⟨hcalm, w₀, env, hinv, rfl, rfl⟩ x hx
  refine ⟨hcalm, ?_⟩
  exact (answered hx).2

theorem calmly_readBlock {x : Inode} {pos len : ℕ} :
    c.Calmly i (fun block w' => ∃ n, 0 < n ∧ block = slice (w'.content x) pos n)
      (readBlock x pos len) w := by
  refine Safe.orElse (Outline.mono (harmless_step (a := UploadAct.read x pos len) trivial fun _ _ => trivial) ?_)
  rintro r w' ⟨hcalm, w₀, env, hinv, rfl, rfl⟩ block hblock
  refine ⟨hcalm, ?_⟩
  obtain ⟨_, heq⟩ := answered hblock
  cases heq
  exact ⟨max 1 (min env.block len), by omega, rfl⟩

theorem calmly_drawUuid : c.Calmly i (fun t w' => w'.uuids[t]? = some i) drawUuid w := by
  refine Safe.sure (Outline.mono (harmless_step (a := UploadAct.newUuid) trivial fun _ _ => trivial) ?_)
  rintro t w' ⟨hcalm, w₀, env, hinv, rfl, rfl⟩
  refine ⟨hcalm, ?_⟩
  show (w₀.uuids ++ [i])[w₀.uuids.length]? = some i
  rw [List.getElem?_append_right (Nat.le_refl _), Nat.sub_self]
  rfl

theorem calmly_utcNow : c.Calmly i (fun _ _ => True) utcNow w :=
  .sure (calm_step trivial fun _ _ => trivial)

theorem calmly_spawn {token : Token} {h : Heartbeat} :
    c.Calmly i (fun _ _ => True) (spawnFinalizationHeartbeat token h) w :=
  .sure (calm_step trivial fun _ _ => trivial)

theorem calmly_stopHeartbeat {token : Token} :
    c.Calmly i (fun _ _ => True) (stopHeartbeat token) w :=
  .sure (calm_step trivial fun _ _ => trivial)

end Setting

end MichiServer.Upload
