import MichiServer.Upload.Runs

/-!
# A call that has the upload for itself

What a call does when no other call works on the upload, no storage operation fails, and the
heartbeats keep the lease of the call's own process from running out. Heartbeats do run between its
steps: each renews the lease the row stores, and changes nothing else.

`Ends` reads a call under this discipline, and unlike the outlines of interleaved calls it says of
errors, too, what they come with. Every step has its own lemma, which says what the step does to the
world it finds, a little later than the one the call left.
-/

namespace MichiServer.Upload

open MichiServer.Files MichiServer.Interleave

/-! ## What the heartbeats change -/

structure HeldBy (t : Token) (e : Epoch) (row : UploadRow) : Prop where
  status : row.status = .finalizing
  token : row.finalizeToken = some t
  owner_epoch : row.finalizeOwnerEpoch = some e

def Watched (w : UploadWorld) : Prop :=
  ∀ t h, w.heartbeats t = some h → h.outcome = none → HeldBy t h.epoch w.row

def Unwatched (w : UploadWorld) : Prop := ∀ t h, w.heartbeats t = some h → h.outcome ≠ none

structure UploadStore where
  receipts : List ChunkReceipt
  syncedFiles : List SyncedFile
  part : Option Inode
  final : Option Inode
  inodes : List (List UInt8)

def UploadWorld.store (w : UploadWorld) : UploadStore :=
  ⟨w.receipts, w.syncedFiles, w.part, w.final, w.inodes⟩

namespace UploadStore

def fileAt (S : UploadStore) : UploadPath → Option Inode
  | .part => S.part
  | .final => S.final

def content (S : UploadStore) (x : Inode) : List UInt8 := S.inodes[x]?.getD []

end UploadStore

theorem fileAt_store (w : UploadWorld) (p : UploadPath) : w.fileAt p = w.store.fileAt p := by
  cases p <;> rfl

/-- What a call finds later: the lease may have been renewed, in the row and in the caches, and uuids
drawn. While no heartbeat runs the row and the caches are as they were. -/
structure Later (w w' : UploadWorld) : Prop where
  row : ∃ lease, w'.row = { w.row with finalizeLeaseUntil := lease }
  store : w'.store = w.store
  cached : ∀ e, (w'.uploads e).isSome = (w.uploads e).isSome
  heartbeats : w'.heartbeats = w.heartbeats
  still : Unwatched w → w'.row = w.row ∧ w'.uploads = w.uploads

namespace Later

variable {w w' w'' : UploadWorld}

theorem refl (w : UploadWorld) : Later w w :=
  ⟨⟨_, rfl⟩, rfl, fun _ => rfl, rfl, fun _ => ⟨rfl, rfl⟩⟩

theorem unwatched (h : Later w w') (hun : Unwatched w) : Unwatched w' := by
  intro t h' hget
  rw [h.heartbeats] at hget
  exact hun t h' hget

theorem trans (h : Later w w') (h' : Later w' w'') : Later w w'' := by
  obtain ⟨lease, hrow⟩ := h.row
  obtain ⟨lease', hrow'⟩ := h'.row
  refine ⟨⟨lease', ?_⟩, h'.store.trans h.store, fun e => (h'.cached e).trans (h.cached e),
    h'.heartbeats.trans h.heartbeats, fun hun => ?_⟩
  · rw [hrow', hrow]
  · obtain ⟨hrow₁, huploads₁⟩ := h.still hun
    obtain ⟨hrow₂, huploads₂⟩ := h'.still (h.unwatched hun)
    exact ⟨hrow₂.trans hrow₁, huploads₂.trans huploads₁⟩

theorem heldBy (h : Later w w') {t : Token} {e : Epoch} (hheld : HeldBy t e w.row) :
    HeldBy t e w'.row := by
  obtain ⟨lease, hrow⟩ := h.row
  rw [hrow]
  exact ⟨hheld.status, hheld.token, hheld.owner_epoch⟩

end Later

/-! ## The discipline -/

/-- The environment of a step: the turns of heartbeats before it, and its own. -/
abbrev AloneEnv := List HeartbeatTick × StepEnv

/-- A clock is read before the lease of the process `e` that the call finds in the row runs out. -/
def InTime (e : Epoch) (a : UploadAct) (now : DateTime) (w : UploadWorld) : Prop :=
  match a with
  | .clock => w.row.finalizeOwnerEpoch = some e →
    ∀ lease ∈ w.row.finalizeLeaseUntil, now < lease
  | _ => True

/-- What a run owes a call of the process `e`: nothing fails, and its own leases are kept. -/
def AloneOk (e : Epoch) (a : UploadAct) (env : AloneEnv) (w : UploadWorld) : Prop :=
  (∀ t ∈ env.1, t.env.fails = false) ∧ env.2.fails = false ∧ InTime e a env.2.now w

instance (e : Epoch) (now : DateTime) (w : UploadWorld) :
    (a : UploadAct) → Decidable (InTime e a now w)
  | .clock => inferInstanceAs (Decidable (_ → ∀ lease ∈ w.row.finalizeLeaseUntil, _))
  | .uploads _ _ | .selectUpload | .selectChunkIndices | .selectChunk _ | .insertChunk _
  | .updateUpload _ | .insertSyncedFile _ | .selectSyncedFile _ _ | .openPart | .write _ _ _
  | .metadata _ | .openFile _ | .read _ _ _ | .rename | .newUuid | .spawnHeartbeat _ _
  | .joinHeartbeat _ => inferInstanceAs (Decidable True)

instance (e : Epoch) (a : UploadAct) (env : AloneEnv) (w : UploadWorld) :
    Decidable (AloneOk e a env w) :=
  inferInstanceAs (Decidable (_ ∧ _ ∧ InTime e a env.2.now w))

def aloneDiscipline (e : Epoch) : Discipline UploadAct AloneEnv UploadWorld where
  Inv := Watched
  Pre _ a w :=
    match a with
    | .updateUpload _ => Unwatched w
    | .spawnHeartbeat t h => HeldBy t h.epoch w.row
    | _ => True
  Ok _ := AloneOk e
  Rely _ _ w w' := w = w'
  rely_refl _ _ _ := rfl
  rely_trans _ _ _ _ _ h h' := h.trans h'

/-- Only two acts change the heartbeats. -/
theorem heartbeats_exec (i : TaskId) (a : UploadAct) (env : StepEnv) (w : UploadWorld) :
    (exec i a env w).2.heartbeats = w.heartbeats ∨
      (∃ t h, a = .spawnHeartbeat t h) ∨ ∃ t, a = .joinHeartbeat t := by
  cases a with
  | spawnHeartbeat t h => exact Or.inr (Or.inl ⟨t, h, rfl⟩)
  | joinHeartbeat t => exact Or.inr (Or.inr ⟨t, rfl⟩)
  | insertChunk r =>
    left
    simp only [exec, UploadWorld.insertChunk]
    split_ifs <;> rfl
  | insertSyncedFile f =>
    left
    simp only [exec, UploadWorld.insertSyncedFile]
    split_ifs <;> rfl
  | openPart =>
    left
    obtain ⟨_, _, heq⟩ := w.openPart_eq
    simp only [exec, heq]
    split <;> rfl
  | write | rename | updateUpload =>
    left
    simp only [exec]
    split <;> rfl
  | uploads | selectUpload | selectChunkIndices | selectChunk | selectSyncedFile
  | metadata | openFile | read | newUuid | clock => exact Or.inl rfl

variable {w : UploadWorld}

/-- An act of the upload's own task keeps the heartbeats watched. -/
theorem watched_exec {e : Epoch} {i : TaskId} {a : UploadAct} {env : StepEnv}
    (h : Watched w) (hpre : (aloneDiscipline e).Pre i a w) : Watched (exec i a env w).2 := by
  cases a with
  | spawnHeartbeat t h₀ =>
    intro t' h' hget hrun
    simp only [exec, UploadWorld.setHeartbeat] at hget
    split at hget
    next heq =>
      cases hget
      subst heq
      exact hpre
    · exact h t' h' hget hrun
  | joinHeartbeat t =>
    intro t' h' hget hrun
    simp only [exec] at hget ⊢
    split at hget
    · exact h t' h' hget hrun
    next h₀ _ =>
      simp only [UploadWorld.setHeartbeat] at hget
      split at hget
      · cases hget
        cases hrun
      · exact h t' h' hget hrun
  | updateUpload u =>
    intro t' h' hget hrun
    have hsame : (exec i (.updateUpload u) env w).2.heartbeats = w.heartbeats := by
      simp only [exec]
      split <;> rfl
    rw [hsame] at hget
    exact absurd hrun (hpre t' h' hget)
  | uploads | selectUpload | selectChunkIndices | selectChunk | insertChunk
  | insertSyncedFile | selectSyncedFile | openPart | write | metadata | openFile | read
  | rename | newUuid | clock =>
    intro t' h' hget hrun
    rcases heartbeats_exec i _ env w with hsame | ⟨_, _, hcase⟩ | ⟨_, hcase⟩
    · rcases row_exec i _ env w with hrow | ⟨_, hcase, _⟩
      · rw [hrow]
        exact h t' h' (hsame ▸ hget) hrun
      · cases hcase
    · cases hcase
    · cases hcase

/-- So does a renewal of the lease. -/
theorem watched_renew (hinv : Watched w) {t : HeartbeatTick} (hok : t.env.fails = false) :
    Watched (renewFinalizationLease t w) ∧ Later w (renewFinalizationLease t w) := by
  unfold renewFinalizationLease
  cases hget : w.heartbeats t.token with
  | none => exact ⟨hinv, .refl w⟩
  | some h =>
    dsimp only
    cases hout : h.outcome with
    | some _ => exact ⟨hinv, .refl w⟩
    | none =>
      have hheld := hinv t.token h hget hout
      have happlies : UploadUpdate.applies w.row
          (.renew t.token h.epoch (t.env.now + h.leaseDuration)) = true :=
        decide_eq_true ⟨hheld.status, hheld.token, hheld.owner_epoch⟩
      rw [hok, if_neg (by simp), if_neg (by simp), if_pos happlies]
      have hlater : Later w ({ w with row := (UploadUpdate.renew t.token h.epoch
          (t.env.now + h.leaseDuration)).set w.row }.setUploads h.epoch
            ((w.uploads h.epoch).map fun m : UploadMeta =>
              { m with finalizeLeaseUntil := some (t.env.now + h.leaseDuration) })) := by
        refine ⟨⟨_, rfl⟩, rfl, fun e' => ?_, rfl, fun hun => absurd hout (hun _ _ hget)⟩
        grind [UploadWorld.setUploads]
      refine ⟨fun t' h' hget' hrun => ?_, hlater⟩
      exact hlater.heldBy (hinv t' h' hget' hrun)

theorem watched_renewals (hinv : Watched w) {ticks : List HeartbeatTick}
    (hok : ∀ t ∈ ticks, t.env.fails = false) :
    Watched (ticks.foldl (fun w t => renewFinalizationLease t w) w) ∧
      Later w (ticks.foldl (fun w t => renewFinalizationLease t w) w) := by
  induction ticks generalizing w with
  | nil => exact ⟨hinv, .refl w⟩
  | cons t ticks ih =>
    obtain ⟨hinv', hlater⟩ := watched_renew hinv (hok t List.mem_cons_self)
    obtain ⟨hinv'', hlater'⟩ := ih hinv' fun t ht => hok t (List.mem_cons_of_mem _ ht)
    exact ⟨hinv'', hlater.trans hlater'⟩

theorem watched_step {e : Epoch} (i : TaskId) (a : UploadAct) (env : AloneEnv) (w : UploadWorld)
    (h : Watched w) (hpre : (aloneDiscipline e).Pre i a w) (hok : AloneOk e a env w) :
    Watched (semantics.withTicks.exec i a env w).2 := by
  obtain ⟨hwatched, hlater⟩ := watched_renewals h hok.1
  refine watched_exec (e := e) hwatched ?_
  cases a with
  | updateUpload u => exact hlater.unwatched hpre
  | spawnHeartbeat t hb => exact hlater.heldBy hpre
  | uploads | selectUpload | selectChunkIndices | selectChunk | insertChunk
  | insertSyncedFile | selectSyncedFile | openPart | write | metadata | openFile | read
  | rename | newUuid | clock | joinHeartbeat => trivial

/-! ## Reading a call -/

section Ends

variable {e : Epoch} {i : TaskId} {α β : Type} {w : UploadWorld}

def Ends (e : Epoch) (i : TaskId) (Q : Except SyncError α → UploadWorld → Prop) (x : SyncM α)
    (w : UploadWorld) : Prop :=
  Outline (aloneDiscipline e) semantics.withTicks i Q x.run w

def Gives (e : Epoch) (i : TaskId) (Q : α → UploadWorld → Prop) (x : SyncM α) (w : UploadWorld) :
    Prop :=
  Ends e i (fun r w' => ∃ a, r = .ok a ∧ Q a w') x w

variable {Q Q' : Except SyncError α → UploadWorld → Prop} {R : Except SyncError β → UploadWorld → Prop}
  {G G' : α → UploadWorld → Prop}

theorem Ends.pure {a : α} (h : Q (.ok a) w) : Ends e i Q (pure a) w := h

theorem Ends.throw {error : SyncError} (h : Q (.error error) w) : Ends e i Q (throw error) w := h

theorem Gives.pure {a : α} (h : G a w) : Gives e i G (pure a) w := ⟨a, rfl, h⟩

variable {x : SyncM α}

theorem Ends.mono (h : Ends e i Q x w) (hQ : ∀ r w', Q r w' → Q' r w') :
    Ends e i Q' x w :=
  Outline.mono h hQ

theorem Gives.mono (h : Gives e i G x w) (hG : ∀ a w', G a w' → G' a w') :
    Gives e i G' x w :=
  Outline.mono h fun _ w' ⟨a, ha, hQ⟩ => ⟨a, ha, hG a w' hQ⟩

theorem Ends.bind {f : α → SyncM β} (hx : Ends e i Q x w)
    (hok : ∀ a w', Q (.ok a) w' → Ends e i R (f a) w')
    (herror : ∀ error w', Q (.error error) w' → R (.error error) w') : Ends e i R (x >>= f) w :=
  Outline.try_bind hx hok herror

theorem Gives.then {f : α → SyncM β} (hx : Gives e i G x w)
    (hf : ∀ a w', G a w' → Ends e i R (f a) w') : Ends e i R (x >>= f) w := by
  refine Ends.bind hx (fun a w' h => ?_) fun error w' h => ?_
  · grind
  · obtain ⟨_, heq, _⟩ := h
    cases heq

theorem Ends.attempt {T : Except SyncError (Except SyncError α) → UploadWorld → Prop}
    (h : Ends e i (fun r => T (.ok r)) x w) : Ends e i T (TryProg.attempt x) w :=
  Outline.attempt h

theorem Gives.attempt (h : Gives e i G x w) :
    Gives e i (fun r w' => ∃ a, r = .ok a ∧ G a w') (TryProg.attempt x) w :=
  Ends.attempt (Outline.mono h fun r _ hr => ⟨r, rfl, hr⟩)

theorem Gives.orElse {p : Prog UploadAct.Resp (Option α)} {error : SyncError}
    (hp : Outline (aloneDiscipline e) semantics.withTicks i (fun r w' => ∃ a, r = some a ∧ G a w') p w) :
    Gives e i G (TryProg.orElse error p) w := by
  refine Outline.orElse (hp.mono fun r w' hr => ?_)
  obtain ⟨a, rfl, hG⟩ := hr
  exact ⟨a, rfl, hG⟩

theorem Gives.sure {p : Prog UploadAct.Resp α}
    (hp : Outline (aloneDiscipline e) semantics.withTicks i G p w) : Gives e i G (sure p) w :=
  Outline.lift (hp.mono fun a _ hG => ⟨a, rfl, hG⟩)

theorem alone_step {a : UploadAct} {T : a.Resp → UploadWorld → Prop}
    (hpre : (aloneDiscipline e).Pre i a w)
    (hstep : ∀ w' env, Later w w' → env.2.fails = false → AloneOk e a env w →
      T (exec i a env.2 w').1 (exec i a env.2 w').2) :
    Outline (aloneDiscipline e) semantics.withTicks i T (Prog.perform a) w := by
  refine Outline.perform fun w' hw hinv => ?_
  cases (hw : w = w')
  exact ⟨hpre, fun env hok => hstep _ env (watched_renewals hinv hok.1).2 hok.2.1 hok⟩

theorem Ends.solo {envs : ℕ → AloneEnv} (h : Ends e i Q x w) (hwatched : Watched w)
    (henvs : x.run.Undisturbed semantics.withTicks i (AloneOk e) envs w) :
    Q (x.run.solo semantics.withTicks i envs w).1 (x.run.solo semantics.withTicks i envs w).2 ∧
      Watched (x.run.solo semantics.withTicks i envs w).2 :=
  Outline.solo h hwatched (fun a env w hw hpre hok => watched_step i a env w hw hpre hok) henvs

end Ends

/-! ## The steps -/

section Steps

variable {e : Epoch} {i : TaskId} {w : UploadWorld} {mgr : SyncManager}

theorem gives_updateUploads {f : Option UploadMeta → Option UploadMeta} :
    Gives e i (fun m w' => ∃ w₁, Later w w₁ ∧ m = w₁.uploads mgr.processEpoch ∧
      w' = w₁.setUploads mgr.processEpoch (f m)) (updateUploads mgr f) w := by
  apply Gives.sure
  apply alone_step (a := .uploads _ _) trivial
  intro w₁ env hlater _ _
  exact ⟨w₁, hlater, rfl, rfl⟩

theorem gives_selectUpload :
    Gives e i (fun row w' => Later w w' ∧ row = w'.row) selectUpload w := by
  apply Gives.orElse
  apply alone_step (a := .selectUpload) trivial
  grind [exec]

theorem gives_selectChunkIndices :
    Gives e i (fun indices w' => Later w w' ∧
      indices = w.store.receipts.map ChunkReceipt.chunkIndex) selectChunkIndices w := by
  apply Gives.orElse
  apply alone_step (a := .selectChunkIndices) trivial
  intro w₁ env hlater hok _
  simp only [exec, hok]
  refine ⟨_, rfl, hlater, ?_⟩
  rw [← hlater.store]
  rfl

theorem gives_selectChunk {index : ℕ} :
    Gives e i (fun r w' => Later w w' ∧ r = w.receipt index) (selectChunk index) w := by
  apply Gives.orElse
  apply alone_step (a := .selectChunk index) trivial
  intro w₁ env hlater hok _
  simp only [exec, hok]
  refine ⟨_, rfl, hlater, ?_⟩
  show w₁.store.receipts.find? _ = w.store.receipts.find? _
  rw [hlater.store]

theorem gives_insertChunk {r : ChunkReceipt} :
    Gives e i (fun _ w' => ∃ w₁, Later w w₁ ∧ w' = w₁.insertChunk r) (insertChunk r) w := by
  apply Gives.orElse
  apply alone_step (a := .insertChunk r) trivial
  intro w₁ env hlater hok _
  simp only [exec, hok]
  exact ⟨(), rfl, w₁, hlater, rfl⟩

theorem gives_updateUpload {u : UploadUpdate} (hun : Unwatched w) :
    Gives e i (fun changed w' => ∃ w₁, Later w w₁ ∧ changed = u.applies w.row ∧
      w' = { w₁ with row := u.apply w.row }) (updateUpload u) w := by
  apply Gives.orElse
  apply alone_step (a := .updateUpload u) hun
  intro w₁ env hlater hok _
  have hrow := (hlater.still hun).1
  grind [exec]

theorem gives_insertSyncedFile {f : SyncedFile} :
    Gives e i (fun _ w' => ∃ w₁, Later w w₁ ∧ w' = w₁.insertSyncedFile f)
      (insertSyncedFile f) w := by
  apply Gives.orElse
  apply alone_step (a := .insertSyncedFile f) trivial
  intro w₁ env hlater hok _
  simp only [exec, hok]
  exact ⟨(), rfl, w₁, hlater, rfl⟩

theorem gives_selectSyncedFile {fileHash serverPath : String}
    (hfile : ∃ g ∈ w.store.syncedFiles, g.fileHash = fileHash ∧ g.serverPath = serverPath) :
    Gives e i (fun _ w' => Later w w') (selectSyncedFile fileHash serverPath) w := by
  apply Gives.orElse
  apply alone_step (a := .selectSyncedFile fileHash serverPath) trivial
  intro w₁ env hlater hok _
  simp only [exec, hok]
  rw [← hlater.store] at hfile
  obtain ⟨g, hg, hkey⟩ := hfile
  have hfound : (w₁.syncedFiles.find? fun g =>
      g.fileHash = fileHash ∧ g.serverPath = serverPath).isSome :=
    List.find?_isSome.mpr ⟨g, hg, by simpa using hkey⟩
  obtain ⟨g', hg'⟩ := Option.isSome_iff_exists.mp hfound
  refine ⟨g'.id, ?_, hlater⟩
  show Option.map SyncedFile.id (w₁.syncedFiles.find? fun g =>
      g.fileHash = fileHash ∧ g.serverPath = serverPath) = some g'.id
  rw [hg']
  rfl

theorem gives_openPart :
    Gives e i (fun x w' => ∃ w₁, Later w w₁ ∧ x = w₁.openPart.1 ∧ w' = w₁.openPart.2)
      openPart w := by
  apply Gives.orElse
  apply alone_step (a := .openPart) trivial
  grind [exec]

variable {x : Inode} {p : UploadPath}

theorem gives_writeChunk {offset : ℕ} {data : List UInt8} :
    Gives e i (fun _ w' => ∃ w₁, Later w w₁ ∧ w' = w₁.write x offset data)
      (writeChunk x offset data) w := by
  apply Gives.orElse
  apply alone_step (a := .write x offset data) trivial
  intro w₁ env hlater hok _
  simp only [exec, hok]
  exact ⟨(), rfl, w₁, hlater, rfl⟩

theorem gives_metadataLen (hx : w.store.fileAt p = some x) :
    Gives e i (fun len w' => Later w w' ∧ len = (w.store.content x).length) (metadataLen p) w := by
  apply Gives.orElse
  apply alone_step (a := .metadata p) trivial
  intro w₁ env hlater hok _
  rw [← hlater.store] at hx ⊢
  simp only [exec, hok, fileAt_store, hx]
  exact ⟨_, rfl, hlater, rfl⟩

theorem gives_existsOnDisk :
    Gives e i (fun there w' => Later w w' ∧ there = (w.store.fileAt p).isSome)
      (existsOnDisk p) w := by
  apply Gives.sure
  apply Outline.bind
  apply alone_step (a := .metadata p) trivial
  intro w₁ env hlater hok _
  refine ⟨hlater, ?_⟩
  rw [← hlater.store]
  simp only [exec, hok, fileAt_store]
  simp

theorem gives_openFile (hx : w.store.fileAt p = some x) :
    Gives e i (fun y w' => Later w w' ∧ y = x) (openFile p) w := by
  apply Gives.orElse
  apply alone_step (a := .openFile p) trivial
  intro w₁ env hlater hok _
  rw [← hlater.store] at hx
  grind [exec, fileAt_store]

theorem gives_readBlock {pos len : ℕ} :
    Gives e i (fun block w' => Later w w' ∧ ∃ n, 0 < n ∧ block = slice (w.store.content x) pos n)
      (readBlock x pos len) w := by
  apply Gives.orElse
  apply alone_step (a := .read x pos len) trivial
  intro w₁ env hlater hok _
  rw [← hlater.store]
  simp only [exec, hok]
  exact ⟨_, rfl, hlater, max 1 (min env.2.block len), by omega, rfl⟩

theorem gives_renamePart (hx : w.store.part = some x) :
    Gives e i (fun _ w' => ∃ w₁, Later w w₁ ∧ w' = w₁.rename) renamePart w := by
  apply Gives.orElse
  apply alone_step (a := .rename) trivial
  intro w₁ env hlater hok _
  rw [← hlater.store] at hx
  have hpart : w₁.part ≠ none := fun hnone => by
    rw [show w₁.store.part = w₁.part from rfl, hnone] at hx
    cases hx
  simp only [exec, hok, hpart]
  exact ⟨(), rfl, w₁, hlater, rfl⟩

theorem gives_drawUuid : Gives e i (fun _ w' => Later w w') drawUuid w := by
  apply Gives.sure
  apply alone_step (a := .newUuid) trivial
  intro w₁ env hlater _ _
  exact hlater.trans ⟨⟨_, rfl⟩, rfl, fun _ => rfl, rfl, fun _ => ⟨rfl, rfl⟩⟩

theorem gives_utcNow :
    Gives e i (fun now w' => Later w w' ∧ (w.row.finalizeOwnerEpoch = some e →
      ∀ lease ∈ w.row.finalizeLeaseUntil, now < lease)) utcNow w := by
  apply Gives.sure
  apply alone_step (a := .clock) trivial
  intro w₁ env hlater _ hok
  exact ⟨hlater, hok.2.2⟩

theorem gives_spawn {t : Token} {h : Heartbeat} (hheld : HeldBy t h.epoch w.row) :
    Gives e i (fun _ w' => ∃ w₁, Later w w₁ ∧ w' = w₁.setHeartbeat t h)
      (spawnFinalizationHeartbeat t h) w := by
  apply Gives.sure
  apply alone_step (a := .spawnHeartbeat t h) hheld
  intro w₁ env hlater _ _
  exact ⟨w₁, hlater, rfl⟩

end Steps

end MichiServer.Upload
