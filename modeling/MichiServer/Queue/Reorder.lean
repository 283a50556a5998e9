import MichiServer.Queue.Runs

/-!
# Reordering a queue

A reorder is accepted when it names as many items as the queue has and each of them is one of the
queue's; that they are different is not checked. It then writes each item's place in the list to the
item's row, one update after the other, so an item that is named twice keeps the later place, and one
that is not named keeps the position it had.
-/

namespace MichiServer.Queue

open MichiServer.Logic MichiServer.Logic.Handler MichiServer.Playback QueueTables

namespace QueueTables

def idsOf (db : QueueTables) (q : Uuid) : List Uuid :=
  (db.queueItems.filter fun item => item.queueId = q).map QueueItem.id

/-- The positions of the queue count its items, and in their order the items are these. -/
def Listed (db : QueueTables) (q : Uuid) (itemIds : List Uuid) : Prop :=
  (db.itemsOf q).map QueueItem.position = (List.range itemIds.length).map Int.ofNat ∧
    (db.itemsOf q).map QueueItem.id = itemIds

instance (db : QueueTables) (q : Uuid) (itemIds : List Uuid) : Decidable (db.Listed q itemIds) :=
  inferInstanceAs (Decidable (_ ∧ _))

def written (moves : List (Uuid × ℕ)) (id : Uuid) : Option ℕ := moves.reverse.lookup id

def moved (q : Uuid) (moves : List (Uuid × ℕ)) (item : QueueItem) : QueueItem :=
  if item.queueId = q then
    match written moves item.id with
    | some i => { item with position := i }
    | none => item
  else item

variable {db db' : QueueTables} {q : Uuid} {moves : List (Uuid × ℕ)} {item : QueueItem}
  {itemIds : List Uuid}

@[simp] theorem moved_id : (moved q moves item).id = item.id := by
  unfold moved
  split
  · split <;> rfl
  · rfl

@[simp] theorem moved_queueId : (moved q moves item).queueId = item.queueId := by
  unfold moved
  split
  · split <;> rfl
  · rfl

theorem moved_nil : moved q [] item = item := by
  unfold moved
  split <;> rfl

theorem written_cons (m : Uuid × ℕ) (id : Uuid) :
    written (m :: moves) id = (written moves id).or (if m.1 = id then some m.2 else none) := by
  grind [written]

theorem moved_cons (m : Uuid × ℕ) :
    moved q moves (if item.id = m.1 ∧ item.queueId = q then { item with position := m.2 } else item) =
      moved q (m :: moves) item := by
  grind [written, written_cons, moved]

theorem idsOf_moved (h : db'.queueItems = db.queueItems.map (moved q moves)) :
    db'.idsOf q = db.idsOf q := by
  have hqueue : (fun item : QueueItem => decide (item.queueId = q)) ∘ moved q moves =
      fun item => decide (item.queueId = q) := by
    funext item
    simp only [Function.comp_apply, moved_queueId]
  have hid : QueueItem.id ∘ moved q moves = QueueItem.id := by
    funext item
    exact moved_id
  rw [idsOf, h, List.filter_map, List.map_map, hqueue, hid, idsOf]

/-! ## What the transaction does -/

/-- Items of the queue can be moved, and only they are. -/
theorem move_items_ok (h : ∀ m ∈ moves, m.1 ∈ db.idsOf q) :
    ∃ db', moves.foldlM (moveItem q) db = .ok db' ∧
      db'.queueItems = db.queueItems.map (moved q moves) := by
  induction moves generalizing db with
  | nil =>
    have hsame : moved q [] = id := funext fun _ => moved_nil
    exact ⟨db, rfl, by rw [hsame, List.map_id]⟩
  | cons m rest ih =>
    obtain ⟨item, hitem, hid⟩ := List.mem_map.mp (h m List.mem_cons_self)
    obtain ⟨hmem, hqueue⟩ := List.mem_filter.mp hitem
    have hfound : (db.setPosition m.1 q m.2).2 ≠ 0 := by
      refine List.length_pos_iff.mpr (List.ne_nil_of_mem (a := item) ?_) |>.ne'
      grind
    have hone : moveItem q db m = .ok (db.setPosition m.1 q m.2).1 := if_neg hfound
    have hsame : (db.setPosition m.1 q m.2).1.idsOf q = db.idsOf q := by
      refine @idsOf_moved _ _ q [m] (List.map_congr_left fun item _ => ?_)
      rw [← moved_cons, moved_nil]
    obtain ⟨db', hfold, hitems⟩ := @ih (db.setPosition m.1 q m.2).1 fun m' hm' => by grind
    refine ⟨db', ?_, ?_⟩
    · rw [List.foldlM_cons, hone]
      exact hfold
    · rw [hitems]
      refine Eq.trans (List.map_map ..) (List.map_congr_left fun item _ => ?_)
      exact moved_cons m

def Admitted (db : QueueTables) (q : Uuid) (itemIds : List Uuid) : Prop :=
  itemIds.length = (db.idsOf q).length ∧ ∀ i ∈ itemIds, i ∈ db.idsOf q

theorem reorderItems_of_admitted (h : db.Admitted q itemIds) :
    ∃ db', reorderItems q itemIds db = .ok (db', ()) ∧
      db'.queueItems = db.queueItems.map (moved q itemIds.zipIdx) := by
  have hknows : ∀ m ∈ itemIds.zipIdx, m.1 ∈ db.idsOf q :=
    fun m hm => h.2 _ (List.fst_mem_of_mem_zipIdx hm)
  obtain ⟨db', hfold, hitems⟩ := move_items_ok hknows
  have hknown : itemIds.find? (fun i => i ∉ db.idsOf q) = none := by
    rw [List.find?_eq_none]
    intro i hi
    simpa using h.2 i hi
  refine ⟨db', ?_, hitems⟩
  have hlength : ¬ (db.idsOf q).length ≠ itemIds.length := not_not.mpr h.1.symm
  unfold reorderItems
  refine (if_neg hlength).trans ?_
  split
  · next hfound => cases hfound.symm.trans hknown
  · rw [hfold]
    rfl

theorem reorderItems_of_not_admitted (h : ¬ db.Admitted q itemIds) :
    ∃ e, reorderItems q itemIds db = .error e := by
  unfold reorderItems
  dsimp only
  split
  · exact ⟨_, rfl⟩
  next hlength =>
    split
    · exact ⟨_, rfl⟩
    next hknown =>
      refine absurd ⟨(not_not.mp hlength).symm, fun i hi => ?_⟩ h
      have hfound := List.find?_eq_none.mp hknown i hi
      rwa [decide_eq_true_eq, not_not] at hfound

/-! ## What the updates leave -/

theorem getElem?_of_written {id : Uuid} {i : ℕ} (h : written itemIds.zipIdx id = some i) :
    itemIds[i]? = some id := by
  have hmem : (id, i) ∈ itemIds.zipIdx := by
    obtain ⟨l₁, l₂, heq, -⟩ := List.lookup_eq_some_iff.mp h
    rw [← List.mem_reverse, heq]
    exact List.mem_append_right _ List.mem_cons_self
  simpa using List.mem_zipIdx_iff_getElem?.mp hmem

theorem exists_written {id : Uuid} (h : id ∈ itemIds) : ∃ i, written itemIds.zipIdx id = some i := by
  obtain ⟨i, hi⟩ := List.getElem?_of_mem h
  rw [← Option.isSome_iff_exists, written, List.lookup_isSome_iff]
  exact ⟨(id, i), List.mem_reverse.mpr (List.mem_zipIdx_iff_getElem?.mpr hi), beq_self_eq_true id⟩

/-- What was moved as a permutation is listed in the new order. -/
theorem listed_of_moved (h : db'.queueItems = db.queueItems.map (moved q itemIds.zipIdx))
    (hperm : itemIds.Perm (db.idsOf q)) : db'.Listed q itemIds := by
  have hnodup : itemIds.Nodup := by
    rw [hperm.nodup_iff]
    exact db.items_key.sublist (List.filter_sublist.map _)
  have hids : (db'.idsOf q).Perm itemIds := by
    rw [idsOf_moved h]
    exact hperm.symm
  -- every item of the queue has its place in the list as its position
  have hplace : ∀ item ∈ db'.queueItems, item.queueId = q →
      ∃ i : ℕ, item.position = i ∧ itemIds[i]? = some item.id := by
    intro item hitem hqueue
    rw [h] at hitem
    obtain ⟨old, hold, rfl⟩ := List.mem_map.mp hitem
    rw [moved_queueId] at hqueue
    have hmem : old.id ∈ itemIds := hperm.mem_iff.mpr
      (List.mem_map_of_mem (List.mem_filter.mpr ⟨hold, decide_eq_true hqueue⟩))
    obtain ⟨i, hi⟩ := exists_written hmem
    refine ⟨i, ?_, ?_⟩
    · simp [moved, hqueue, hi]
    · rw [moved_id]
      exact getElem?_of_written hi
  have hmem : ∀ item ∈ db'.itemsOf q, item ∈ db'.queueItems ∧ item.queueId = q := by
    simp [itemsOf]
  have hpositions : (db'.itemsOf q).map QueueItem.position =
      (List.range itemIds.length).map Int.ofNat := by
    refine List.Perm.eq_of_pairwise' (r := (· ≤ ·)) ?_ ?_ ?_
    · exact List.pairwise_map.mpr (List.pairwise_insertionSort _ _)
    · refine List.pairwise_map.mpr (List.pairwise_lt_range.imp fun hlt => ?_)
      exact Int.ofNat_le.mpr (Nat.le_of_lt hlt)
    · have hidx : (db'.itemsOf q).map QueueItem.position =
          (db'.itemsOf q).map fun item => Int.ofNat (itemIds.idxOf item.id) := by
        refine List.map_congr_left fun item hitem => ?_
        grind
      have hperm' : ((db'.itemsOf q).map QueueItem.id).Perm itemIds :=
        ((List.perm_insertionSort _ _).map _).trans hids
      have hrange : itemIds.map (fun id => Int.ofNat (itemIds.idxOf id)) =
          (List.range itemIds.length).map Int.ofNat := by
        refine List.ext_getElem (by simp) fun i hi _ => ?_
        simp [hnodup.idxOf_getElem]
      rw [hidx, ← hrange]
      simpa [List.map_map, Function.comp_def] using hperm'.map fun id => Int.ofNat (itemIds.idxOf id)
  refine ⟨hpositions, List.map_injective_iff.mpr (Option.some_injective _) ?_⟩
  have hnames : ((db'.itemsOf q).map QueueItem.id).map some =
      ((db'.itemsOf q).map QueueItem.position).map fun p => itemIds[p.toNat]? := by
    rw [List.map_map, List.map_map]
    refine List.map_congr_left fun item hitem => ?_
    grind
  rw [hnames, hpositions]
  refine List.ext_getElem (by simp) fun i hi _ => ?_
  simp

/-- Each item that is named has its last place in the list as its position already. -/
def Unmoved (db : QueueTables) (q : Uuid) (itemIds : List Uuid) : Prop :=
  ∀ item ∈ db.queueItems, item.queueId = q →
    ∀ i ∈ written itemIds.zipIdx item.id, item.position = i

theorem map_moved_eq_self_iff :
    db.queueItems.map (moved q itemIds.zipIdx) = db.queueItems ↔ db.Unmoved q itemIds := by
  refine (iff_of_eq (congrArg _ (List.map_id _).symm)).trans (List.map_inj_left.trans ?_)
  refine forall_congr' fun item => forall_congr' fun _ => ?_
  unfold moved
  by_cases hq : item.queueId = q
  · cases hw : written itemIds.zipIdx item.id with
    | none => simp [hq]
    | some i =>
      simp only [hq, if_true, id_eq, forall_const, Option.mem_def, Option.some.injEq, forall_eq']
      constructor
      · intro heq
        exact (congrArg QueueItem.position heq).symm
      · intro hpos
        rw [← hpos, ← hq]
  · simp [hq]

theorem mem_tracksOf_moved (h : db'.queueItems = db.queueItems.map (moved q moves)) {t : Uuid} :
    t ∈ db'.tracksOf q ↔ t ∈ db.tracksOf q := by
  have htrack : ∀ item, (moved q moves item).trackId = item.trackId := by
    intro item
    unfold moved
    split
    · split <;> rfl
    · rfl
  simp [mem_tracksOf, h, htrack]

end QueueTables

/-! ## The handler -/

variable {env : RequestEnv} {s : AppState} {q : Uuid} {itemIds : List Uuid} {queueId : Option Uuid}

def reorderTarget (env : RequestEnv) (s : AppState) : Option Uuid → Option Uuid
  | some q => some q
  | none => (findOrCreate env s.db).toOption.map Prod.snd

def CarriedOut (env : RequestEnv) (s : AppState) (itemIds : List Uuid) (queueId : Option Uuid)
    (q : Uuid) : Prop :=
  s.disabledModules.contains "playback" = false ∧ (queueId = none → env.fault .active = none) ∧
    env.fault .commit = none ∧ s.db.Admitted q itemIds

/-- The queue can be pushed to the engine: the engine runs, the tables are read, and every track
resolves. -/
def Pushed (env : RequestEnv) (s : AppState) (q : Uuid) : Prop :=
  s.playbackEngine.running = true ∧ env.fault .sync = none ∧
    ∀ t ∈ s.db.tracksOf q, ∃ track, s.library.getTrack t = .ok track

theorem transact_leaves_of_fault {α : Type} {P : α → AppState → Prop} {E : ApiError → AppState → Prop}
    {call : DbCall} {f : QueueTables → Except ApiError (QueueTables × α)} {text : String}
    (hfault : env.fault call = some text) (hE : ∀ e, E e s) :
    Leaves (transact env call f) s P E := by
  unfold transact
  simp only [hfault]
  exact .update (fun _ ha => nomatch ha) fun e _ => hE e

theorem setQueue_outcome {tracks : List Track} {currentIndex : ℕ} {current : Option Uuid} :
    Leaves (setQueue env tracks currentIndex current) s
      (fun _ s' => s.playbackEngine.running = true ∧ s'.db = s.db)
      fun _ s' => s.playbackEngine.running = false ∧ s'.db = s.db := by
  cases hrunning : s.playbackEngine.running with
  | true =>
    have hok := EngineTask.setQueue_of_running (env.engine .setQueue) hrunning tracks currentIndex
      current
    refine .update (fun _ _ => ⟨rfl, rfl⟩) fun e he => ?_
    simp only [hok] at he
    cases he
  | false =>
    have hcall := EngineTask.call_of_stopped (env.engine .setQueue) hrunning
      (.setQueue tracks currentIndex current .local)
    refine .update (fun a ha => ?_) fun _ _ => ⟨rfl, rfl⟩
    simp only [EngineTask.setQueue, hcall] at ha
    cases ha

theorem currentTrackId_outcome :
    Leaves (currentTrackId env) s
      (fun _ s' => s'.playbackEngine.running = true ∧ s.playbackEngine.running = true ∧
        s'.db = s.db ∧ s'.library = s.library)
      fun _ s' => s.playbackEngine.running = false ∧ s'.db = s.db := by
  cases hrunning : s.playbackEngine.running with
  | true =>
    obtain ⟨hgoes, hok⟩ := EngineTask.snapshot_of_running (env.engine .snapshot) hrunning
    refine .bind (.update (fun _ _ => .pure ⟨hgoes, rfl, rfl, rfl⟩) fun e he => ?_)
    simp only [hok] at he
    cases he
  | false =>
    have hcall := EngineTask.call_of_stopped (env.engine .snapshot) hrunning .getSnapshot
    refine .bind (.update (fun a ha => ?_) fun _ _ => ⟨rfl, rfl⟩)
    simp only [EngineTask.snapshot, hcall] at ha
    cases ha

/-- The active queue is pushed to the engine, or the request fails. -/
theorem sync_outcome {current : Option Uuid} :
    Leaves (syncActiveQueueToEngine env q current) s (fun _ s' => Pushed env s q ∧ s'.db = s.db)
      fun _ s' => ¬ Pushed env s q ∧ s'.db = s.db := by
  cases hfault : env.fault .sync with
  | some text =>
    exact .bind (transact_leaves_of_fault hfault fun _ =>
      ⟨fun h => Option.some_ne_none text (hfault.symm.trans h.2.1), rfl⟩)
  | none =>
    have hset : ∀ {tracks : List Track} {currentIndex : ℕ} {current : Option Uuid},
        (∀ t ∈ s.db.tracksOf q, ∃ track, s.library.getTrack t = .ok track) →
        Leaves (setQueue env tracks currentIndex current) s
          (fun _ s' => Pushed env s q ∧ s'.db = s.db) fun _ s' => ¬ Pushed env s q ∧ s'.db = s.db :=
      fun hall => setQueue_outcome.mono (fun _ _ h => ⟨⟨h.1, hfault, hall⟩, h.2⟩)
        fun _ _ h => ⟨fun hpushed => absurd (h.1.symm.trans hpushed.1) Bool.false_ne_true, h.2⟩
    refine .bind (query_leaves hfault (.ite (fun hempty => ?_) fun _ => ?_))
    · grind
    · refine .bind (.get (.bind (.ofExcept (fun tracks htracks => ?_) fun e he => ⟨fun h => ?_, rfl⟩)))
      · exact hset (Library.resolves_of_loadAll htracks)
      · obtain ⟨tracks, htracks⟩ : ∃ tracks, s.library.loadAll resolveFailed _ = .ok tracks :=
          Library.loadAll_of_resolves h.2.2
        rw [htracks] at he
        cases he

/-- The reorder of this queue was carried out, and its items are where the updates put them. -/
def Carried (env : RequestEnv) (s : AppState) (itemIds : List Uuid) (queueId : Option Uuid)
    (q : Uuid) (s' : AppState) : Prop :=
  reorderTarget env s queueId = some q ∧ CarriedOut env s itemIds queueId q ∧
    s'.db.queueItems = s.db.queueItems.map (moved q itemIds.zipIdx)

/-- The reorder was not carried out, and the items are where they were. -/
def Untouched (env : RequestEnv) (s : AppState) (itemIds : List Uuid) (queueId : Option Uuid)
    (s' : AppState) : Prop :=
  (∀ q ∈ reorderTarget env s queueId, ¬ CarriedOut env s itemIds queueId q) ∧
    s'.db.queueItems = s.db.queueItems

/-- What is left of a reorder, from its transaction on. -/
theorem reorder_rest_outcome {db : QueueTables} (htarget : reorderTarget env s queueId = some q)
    (hitems : db.queueItems = s.db.queueItems)
    (henabled : s.disabledModules.contains "playback" = false)
    (hactive : queueId = none → env.fault .active = none) :
    Leaves (do
        transact env .commit (reorderItems q itemIds)
        let curTrackId ← currentTrackId env
        syncActiveQueueToEngine env q curTrackId
        announce (.queueReordered q)
        pure (.reordered itemIds.length) : Route QueueResponse) { s with db := db }
      (fun _ s' => ∃ q, Carried env s itemIds queueId q s' ∧ Pushed env s q)
      fun _ s' => (∃ q, Carried env s itemIds queueId q s' ∧ ¬ Pushed env s q) ∨
        Untouched env s itemIds queueId s' := by
  have hadmitted : db.Admitted q itemIds ↔ s.db.Admitted q itemIds := by
    simp only [Admitted, idsOf, hitems]
  have huntouched : ∀ {s' : AppState}, ¬ CarriedOut env s itemIds queueId q → s'.db = db →
      Untouched env s itemIds queueId s' := by
    intro s' hnot hdb
    refine ⟨fun q' hq' => ?_, hdb ▸ hitems⟩
    grind
  cases hcommit : env.fault .commit with
  | some text =>
    refine .bind (transact_leaves_of_fault hcommit fun _ => .inr (huntouched (fun h => ?_) rfl))
    exact Option.some_ne_none text (hcommit.symm.trans h.2.2.1)
  | none =>
    by_cases hadm : db.Admitted q itemIds
    · obtain ⟨db', hreorder, hmoved⟩ := reorderItems_of_admitted hadm
      rw [hitems] at hmoved
      have hcarried : CarriedOut env s itemIds queueId q :=
        ⟨henabled, hactive, hcommit, hadmitted.mp hadm⟩
      refine .bind (transact_leaves_of_ok hcommit hreorder ?_)
      refine .bind (currentTrackId_outcome.mono (fun current s₂ h => ?_) fun e s' h => ?_)
      · obtain ⟨hgoes, hrunning, hdb, hlibrary⟩ := h
        have hpushed : Pushed env s₂ q ↔ Pushed env s q := by
          refine and_congr (iff_of_true hgoes hrunning) (and_congr_right fun _ => ?_)
          grind [mem_tracksOf_moved]
        refine .bind (sync_outcome.mono (fun _ s₃ h => ?_) fun _ s₃ h => ?_)
        · refine .bind (.modify (.pure ⟨q, ⟨htarget, hcarried, ?_⟩, hpushed.mp h.1⟩))
          exact (congrArg QueueTables.queueItems (h.2.trans hdb)).trans hmoved
        · refine .inl ⟨q, ⟨htarget, hcarried, ?_⟩, fun hp => h.1 (hpushed.mpr hp)⟩
          exact (congrArg QueueTables.queueItems (h.2.trans hdb)).trans hmoved
      · refine .inl ⟨q, ⟨htarget, hcarried, ?_⟩, fun hp => ?_⟩
        · exact (congrArg QueueTables.queueItems h.2).trans hmoved
        · exact absurd (h.1.symm.trans hp.1) Bool.false_ne_true
    · obtain ⟨e, herror⟩ := reorderItems_of_not_admitted hadm
      have hnot : ¬ CarriedOut env s itemIds queueId q := fun h => hadm (hadmitted.mpr h.2.2.2)
      refine .bind (transact_leaves (fun _ => .inr (huntouched hnot rfl)) fun db' u hok => ?_)
      rw [herror] at hok
      cases hok

/-- A reorder is carried out and pushed, or not pushed, or nothing was touched. -/
theorem reorder_outcome :
    Leaves (queueReorderHandler env itemIds queueId) s
      (fun _ s' => ∃ q, Carried env s itemIds queueId q s' ∧ Pushed env s q)
      fun _ s' => (∃ q, Carried env s itemIds queueId q s' ∧ ¬ Pushed env s q) ∨
        Untouched env s itemIds queueId s' := by
  refine .bind (.bind (.get (.rejectIf (fun hdisabled => ?_) fun hdisabled => ?_)))
  · exact .inr ⟨fun q _ h => absurd (h.1.symm.trans hdisabled) Bool.false_ne_true, rfl⟩
  · have henabled : s.disabledModules.contains "playback" = false :=
      (Bool.not_eq_true _).mp hdisabled
    cases queueId with
    | some q => exact .bind (.pure (reorder_rest_outcome rfl rfl henabled nofun))
    | none =>
      cases hactive : env.fault .active with
      | some text =>
        refine .bind (transact_leaves_of_fault hactive fun _ => .inr ⟨fun q _ h => ?_, rfl⟩)
        exact Option.some_ne_none text (hactive.symm.trans (h.2.1 rfl))
      | none =>
        cases hfind : findOrCreate env s.db with
        | error e =>
          have htarget : reorderTarget env s none = none := by
            simp [reorderTarget, hfind, Except.toOption]
          refine .bind (transact_leaves (fun _ => .inr ⟨fun q hq => ?_, rfl⟩) fun db q hok => ?_)
          · rw [htarget] at hq
            cases hq
          · rw [hfind] at hok
            cases hok
        | ok r =>
          have htarget : reorderTarget env s none = some r.2 := by
            simp [reorderTarget, hfind, Except.toOption]
          refine .bind (transact_leaves_of_ok hactive hfind ?_)
          exact reorder_rest_outcome htarget (findOrCreate_spec hfind).2.1 henabled fun _ => hactive

/-! ## What a listener may expect -/

/-- An accepted reorder lists the items as it was asked to, and a list that is no permutation of the
queue's items is rejected with the items as they were. -/
structure ReorderLaw (env : RequestEnv) (s : AppState) (itemIds : List Uuid) (queueId : Option Uuid) :
    Prop where
  accepted : ∀ response s', (queueReorderHandler env itemIds queueId).exec s = (.ok response, s') →
    ∀ q ∈ reorderTarget env s queueId, s'.db.Listed q itemIds
  rejected : ∀ q ∈ reorderTarget env s queueId, ¬ itemIds.Perm (s.db.idsOf q) →
    (∃ e, ((queueReorderHandler env itemIds queueId).exec s).1 = .error e) ∧
      ((queueReorderHandler env itemIds queueId).exec s).2.db.queueItems = s.db.queueItems

theorem perm_iff_nodup {db : QueueTables} (h : db.Admitted q itemIds) :
    itemIds.Perm (db.idsOf q) ↔ itemIds.Nodup := by
  have hkey : (db.idsOf q).Nodup := db.items_key.sublist (List.filter_sublist.map _)
  constructor
  · exact fun hperm => hperm.nodup_iff.mpr hkey
  · intro hnodup
    exact (List.subperm_of_subset hnodup h.2).perm_of_length_le h.1.ge

/-- **A reorder does what it is asked exactly when no item is named twice**, or it is not carried out,
or its push fails after it and the updates wrote the positions that were there. -/
theorem reorder_law_iff (env : RequestEnv) (s : AppState) (itemIds : List Uuid)
    (queueId : Option Uuid) :
    ReorderLaw env s itemIds queueId ↔
      ∀ q ∈ reorderTarget env s queueId, CarriedOut env s itemIds queueId q →
        itemIds.Nodup ∨ ¬ Pushed env s q ∧ s.db.Unmoved q itemIds := by
  have houtcome : Leaves (queueReorderHandler env itemIds queueId) s _ _ := reorder_outcome
  unfold Leaves at houtcome
  split at houtcome
  next response s' hexec =>
    obtain ⟨q, ⟨htarget, hcarried, hitems⟩, hpushed⟩ := houtcome
    constructor
    · intro hlaw q' hq' _
      obtain rfl : q = q' := Option.some.inj (htarget.symm.trans hq')
      left
      by_contra hrepeated
      obtain ⟨⟨e, herror⟩, -⟩ := hlaw.rejected q htarget fun hperm =>
        hrepeated ((perm_iff_nodup hcarried.2.2.2).mp hperm)
      rw [hexec] at herror
      cases herror
    · intro hcond
      have hnodup : itemIds.Nodup := (hcond q htarget hcarried).resolve_right fun h => h.1 hpushed
      have hperm := (perm_iff_nodup hcarried.2.2.2).mpr hnodup
      refine ⟨fun response' s'' hexec' q' hq' => ?_, fun q' hq' hnot => ?_⟩
      · obtain rfl : q = q' := Option.some.inj (htarget.symm.trans hq')
        cases hexec.symm.trans hexec'
        exact listed_of_moved hitems hperm
      · obtain rfl : q = q' := Option.some.inj (htarget.symm.trans hq')
        exact absurd hperm hnot
  next e s' hexec =>
    have haccepted : ∀ response s'', (queueReorderHandler env itemIds queueId).exec s =
        (.ok response, s'') → ∀ q ∈ reorderTarget env s queueId, s''.db.Listed q itemIds := by
      intro response s'' hexec'
      cases hexec.symm.trans hexec'
    rcases houtcome with ⟨q, ⟨htarget, hcarried, hitems⟩, hpushed⟩ | ⟨hnone, hitems⟩
    · have hperm := perm_iff_nodup hcarried.2.2.2
      have hsame : s'.db.queueItems = s.db.queueItems ↔ s.db.Unmoved q itemIds := by
        rw [hitems]
        exact map_moved_eq_self_iff
      constructor
      · intro hlaw q' hq' _
        obtain rfl : q = q' := Option.some.inj (htarget.symm.trans hq')
        by_cases hnodup : itemIds.Nodup
        · exact .inl hnodup
        · obtain ⟨-, hkept⟩ := hlaw.rejected q htarget fun h => hnodup (hperm.mp h)
          rw [hexec] at hkept
          exact .inr ⟨hpushed, hsame.mp hkept⟩
      · intro hcond
        refine ⟨haccepted, fun q' hq' hnot => ?_⟩
        obtain rfl : q = q' := Option.some.inj (htarget.symm.trans hq')
        have hunmoved := (hcond q htarget hcarried).resolve_left fun h => hnot (hperm.mpr h)
        rw [hexec]
        exact ⟨⟨e, rfl⟩, hsame.mpr hunmoved.2⟩
    · refine iff_of_true ⟨haccepted, fun q hq _ => ?_⟩ fun q hq h => absurd h (hnone q hq)
      rw [hexec]
      exact ⟨⟨e, rfl⟩, hitems⟩

def twoItems : AppState :=
  (AppState.fresh sampleLibrary 0).run
    [.request (sampleEnv 1) handOver, .request (sampleEnv 2) addTrack]

set_option maxRecDepth 20000 in
/-- The first item is named twice and the second not at all: the handler accepts, and both items have
the position 1. -/
theorem item_named_twice_is_accepted :
    ((queueReorderHandler (sampleEnv 3) [1003, 1003] none).exec twoItems).1 =
        .ok (.reordered 2) ∧
      (((queueReorderHandler (sampleEnv 3) [1003, 1003] none).exec twoItems).2.db.itemsOf
        1000).map (fun item => (item.id, item.position)) = [(1003, 1), (2003, 1)] ∧
      ¬ ReorderLaw (sampleEnv 3) twoItems [1003, 1003] none := by
  have haccepted : ((queueReorderHandler (sampleEnv 3) [1003, 1003] none).exec twoItems).1 =
      .ok (.reordered 2) := by decide
  refine ⟨haccepted, by decide, fun hlaw => ?_⟩
  obtain ⟨⟨e, herror⟩, -⟩ := hlaw.rejected 1000 (by decide) (by decide)
  rw [haccepted] at herror
  cases herror

end MichiServer.Queue
