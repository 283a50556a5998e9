import MichiServer.Queue.Routes

/-!
# The active queue under the transactions

What each transaction of the routes does to the active queue: which queue is the active one
afterwards, and which tracks it has. Nothing here is about the engine.
-/

namespace MichiServer.Queue

open QueueTables

namespace QueueTables

def IsActive (db : QueueTables) (q : Uuid) : Prop := ∃ row, db.activeQueue = some row ∧ row.id = q

variable {db db' : QueueTables} {q : Uuid}

theorem IsActive.activeTracks (h : db.IsActive q) : db.activeTracks = db.tracksOf q := by
  obtain ⟨row, hrow, rfl⟩ := h
  exact activeTracks_of_some hrow

theorem IsActive.mem (h : db.IsActive q) : q ∈ db.queues.map QueueRow.id := by
  obtain ⟨row, hrow, rfl⟩ := h
  exact List.mem_map_of_mem (activeQueue_mem hrow).1

theorem IsActive.of_queues_eq (h : db.IsActive q) (hqueues : db'.queues = db.queues) :
    db'.IsActive q := by
  obtain ⟨row, hrow, hid⟩ := h
  exact ⟨row, (activeQueue_congr hqueues).trans hrow, hid⟩

theorem queue_eq_of_id_eq {row other : QueueRow} (hrow : row ∈ db.queues) (hother : other ∈ db.queues)
    (hid : row.id = other.id) : row = other :=
  List.inj_on_of_nodup_map db.queues_key hrow hother hid

theorem activeQueue_append_of_ne {row : QueueRow} (hqueues : db'.queues = db.queues ++ [row])
    (hname : row.name ≠ activeQueueName) : db'.activeQueue = db.activeQueue := by
  grind [activeQueue]

theorem activeQueue_append_of_eq {row : QueueRow} (hqueues : db'.queues = db.queues ++ [row])
    (hname : row.name = activeQueueName) :
    db'.activeQueue = some row ∨
      db'.activeQueue = db.activeQueue ∧ db.activeQueue ≠ none := by
  have hfilter : (db'.queues.filter fun q => q.name = activeQueueName) =
      (db.queues.filter fun q => q.name = activeQueueName) ++ [row] := by
    rw [hqueues, List.filter_append]
    simp [hname]
  rw [activeQueue, hfilter, List.argmax_concat]
  cases hactive : db.activeQueue with
  | none =>
    left
    rw [activeQueue] at hactive
    rw [hactive]
  | some old =>
    rw [activeQueue] at hactive
    rw [hactive]
    grind

end QueueTables

variable {env : RequestEnv} {db db' : QueueTables} {q : Uuid} {trackIds : List Uuid}

theorem statement_eq_ok {α : Type} {r : Except String QueueTables} {a b : α}
    (h : statement r a = .ok (db', b)) : r = .ok db' ∧ a = b := by
  unfold statement at h
  grind

/-! ## Finding it -/

/-- The active queue is found, or created empty. -/
theorem findOrCreate_spec (h : findOrCreate env db = .ok (db', q)) :
    db'.IsActive q ∧ db'.queueItems = db.queueItems ∧ db'.activeTracks = db.activeTracks ∧
      ∀ id ∈ db'.queues.map QueueRow.id, id ∈ db.queues.map QueueRow.id ∨ id = env.uuid .queue := by
  unfold findOrCreate at h
  cases hactive : db.activeQueue with
  | some row =>
    rw [hactive] at h
    cases h
    exact ⟨⟨row, hactive, rfl⟩, rfl, rfl, fun id hid => .inl hid⟩
  | none =>
    rw [hactive] at h
    obtain ⟨hinsert, rfl⟩ := statement_eq_ok h
    obtain ⟨hnew, hqueues, hitems⟩ := insertQueue_spec hinsert
    have hrow : db'.activeQueue = some ⟨env.uuid .queue, activeQueueName, env.now⟩ := by
      grind [activeQueue_append_of_eq]
    have hempty : db'.tracksOf (env.uuid .queue) = [] := by
      have hsame : db'.tracksOf (env.uuid .queue) = db.tracksOf (env.uuid .queue) :=
        tracksOf_congr (by rw [hitems])
      rw [hsame]
      exact tracksOf_eq_nil hnew
    refine ⟨⟨_, hrow, rfl⟩, hitems, ?_, ?_⟩
    · rw [activeTracks_of_some hrow, hempty, activeTracks, hactive]
    · grind

/-! ## Filling it -/

theorem appendItems_spec (h : appendItems env trackIds db = .ok (db', q)) :
    db'.IsActive q ∧ ∀ t ∈ db'.activeTracks, t ∈ db.activeTracks ∨ t ∈ trackIds := by
  unfold appendItems at h
  cases hfind : findOrCreate env db with
  | error e =>
    rw [hfind] at h
    cases h
  | ok r =>
    obtain ⟨mid, q'⟩ := r
    rw [hfind] at h
    obtain ⟨hinsert, rfl⟩ := statement_eq_ok h
    obtain ⟨hactive, -, htracks, -⟩ := findOrCreate_spec hfind
    have hactive' : db'.IsActive q' := hactive.of_queues_eq (insertItems_spec hinsert).1
    refine ⟨hactive', fun t ht => ?_⟩
    rw [hactive'.activeTracks] at ht
    rw [← htracks, hactive.activeTracks]
    exact mem_tracksOf_append hinsert ht

theorem replaceItems_spec {new_item : ℕ → Uuid} (hactive : db.IsActive q)
    (h : (db.deleteItems q).insertItems (numbered q new_item 0 trackIds) = .ok db') :
    db'.IsActive q ∧ db'.activeTracks = trackIds := by
  have hactive' : db'.IsActive q := hactive.of_queues_eq (insertItems_spec h).1
  exact ⟨hactive', hactive'.activeTracks.trans (tracksOf_replace h)⟩

/-! ## Reordering it -/

theorem moveItem_spec {item : Uuid × ℕ} (h : moveItem q db item = .ok db') :
    db'.queues = db.queues ∧ ∀ t ∈ db'.tracksOf q, t ∈ db.tracksOf q := by
  unfold moveItem at h
  dsimp only at h
  split at h
  · cases h
  · cases h
    exact ⟨rfl, fun t => mem_tracksOf_setPosition⟩

theorem move_items_spec {items : List (Uuid × ℕ)}
    (h : items.foldlM (moveItem q) db = .ok db') :
    db'.queues = db.queues ∧ ∀ t ∈ db'.tracksOf q, t ∈ db.tracksOf q := by
  induction items generalizing db with
  | nil =>
    cases h
    exact ⟨rfl, fun t ht => ht⟩
  | cons item rest ih =>
    rw [List.foldlM_cons] at h
    cases hmove : moveItem q db item with
    | error e =>
      rw [hmove] at h
      cases h
    | ok mid =>
      rw [hmove] at h
      obtain ⟨hqueues, htracks⟩ := moveItem_spec hmove
      obtain ⟨hqueues', htracks'⟩ := ih h
      exact ⟨hqueues'.trans hqueues, fun t ht => htracks t (htracks' t ht)⟩

theorem reorderItems_spec {itemIds : List Uuid} {u : Unit}
    (h : reorderItems q itemIds db = .ok (db', u)) :
    db'.queues = db.queues ∧ ∀ t ∈ db'.tracksOf q, t ∈ db.tracksOf q := by
  unfold reorderItems at h
  dsimp only at h
  split at h
  · cases h
  · split at h
    · cases h
    · cases hmoves : itemIds.zipIdx.foldlM (moveItem q) db with
      | error e =>
        rw [hmoves] at h
        cases h
      | ok mid =>
        rw [hmoves] at h
        cases h
        exact move_items_spec hmoves

/-! ## Deleting a queue -/

/-- Deleting the queue leaves no queue of the active queue's name with items. -/
def QueueTables.LeavesNoOther (db : QueueTables) (q : Uuid) : Prop :=
  ∀ other ∈ db.queues, other.name = activeQueueName → other.id ≠ q → db.tracksOf other.id = []

theorem tracksOf_deleteQueue {other : Uuid} (hne : other ≠ q) :
    ((db.deleteItems q).deleteQueue q).tracksOf other = db.tracksOf other := by
  refine tracksOf_congr ?_
  rw [deleteQueue, deleteItems, List.filter_filter, List.filter_filter]
  grind

theorem exists_of_removeQueue (h : removeQueue q db = .ok (db', true)) :
    ∃ row ∈ db.queues, row.id = q ∧ row.name = activeQueueName := by
  grind [removeQueue, QueueRow]

theorem removeQueue_active (h : removeQueue q db = .ok (db', true)) (hother : db.LeavesNoOther q) :
    db'.activeTracks = [] := by
  unfold removeQueue at h
  split at h
  · cases h
  next row hfind =>
    obtain ⟨rfl, -⟩ := Prod.mk.inj (Except.ok.inj h)
    cases hactive : ((db.deleteItems q).deleteQueue q).activeQueue with
    | none => rw [activeTracks, hactive]
    | some left =>
      obtain ⟨hmem, hname⟩ := activeQueue_mem hactive
      obtain ⟨hleft, hne⟩ := List.mem_filter.mp hmem
      have hid : left.id ≠ q := of_decide_eq_true hne
      rw [activeTracks_of_some hactive, tracksOf_deleteQueue hid]
      exact hother left hleft hname hid

theorem removeQueue_other (h : removeQueue q db = .ok (db', false)) :
    db'.activeTracks = db.activeTracks := by
  unfold removeQueue at h
  split at h
  · cases h
  next row hfind =>
    obtain ⟨rfl, hname⟩ := Prod.mk.inj (Except.ok.inj h)
    have hfound := List.find?_some (p := fun r : QueueRow => decide (r.id = q)) hfind
    have hrow : row ∈ db.queues ∧ row.id = q :=
      ⟨List.mem_of_find?_eq_some hfind, of_decide_eq_true hfound⟩
    -- the deleted row is the only one of its id, and is not a candidate
    have hcandidate : ∀ other ∈ db.queues, other.name = activeQueueName → other.id ≠ q := by
      grind [queue_eq_of_id_eq]
    have hsame : ((db.deleteItems q).deleteQueue q).activeQueue = db.activeQueue := by
      rw [activeQueue, deleteQueue, deleteItems, activeQueue, List.filter_filter]
      congr 1
      refine List.filter_congr fun other hother => ?_
      grind [activeQueueName]
    grind [activeTracks, activeQueue_mem, tracksOf_deleteQueue]

/-! ## Saving a queue beside it -/

/-- New items of a known queue are stored in their order. -/
theorem store_items_spec {items : List QueueItem} {k : ℕ}
    (hfault : ∀ i, env.fault (.saveItem i) = none)
    (howner : ∀ item ∈ items, item.queueId ∈ db.queues.map QueueRow.id)
    (hfresh : ((db.queueItems ++ items).map QueueItem.id).Nodup) :
    ((items.zipIdx k).foldl (storeItem env) db).queues = db.queues ∧
      ((items.zipIdx k).foldl (storeItem env) db).queueItems = db.queueItems ++ items := by
  induction items generalizing db k with
  | nil => simp
  | cons item rest ih =>
    have hkey : item.id ∉ db.queueItems.map QueueItem.id := by
      grind
    have howner' : item.queueId ∈ db.queues.map QueueRow.id := howner item (List.mem_cons_self ..)
    obtain ⟨mid, hmid⟩ : ∃ mid, db.insertItem item = .ok mid := by
      rw [insertItem, dif_neg hkey, dif_pos howner']
      exact ⟨_, rfl⟩
    obtain ⟨hqueues, hitems⟩ := insertItem_spec hmid
    have hstore : storeItem env db (item, k) = mid := by
      simp only [storeItem, hfault, hmid]
    rw [List.zipIdx_cons, List.foldl_cons, hstore]
    have hrest := @ih mid (k + 1)
      (fun other hother => by
        grind)
      (by rwa [hitems, List.append_assoc, List.singleton_append])
    grind

/-- A queue that is saved beside the active one leaves its tracks alone. -/
theorem activeTracks_of_saved {new_item : ℕ → Uuid} {row : QueueRow} (hactive : db.IsActive q)
    (htracks : db.activeTracks = trackIds) (hnew : row.id ∉ db.queues.map QueueRow.id)
    (hqueues : db'.queues = db.queues ++ [row])
    (hitems : db'.queueItems = db.queueItems ++ numbered row.id new_item 0 trackIds) :
    db'.activeTracks = trackIds := by
  have hne : row.id ≠ q := fun heq => hnew (heq ▸ hactive.mem)
  have hold : db'.tracksOf q = trackIds := by
    rw [← htracks, hactive.activeTracks]
    refine tracksOf_congr ?_
    have hnone : ((numbered row.id new_item 0 trackIds).filter fun item => item.queueId = q) =
        [] := by
      rw [List.filter_eq_nil_iff]
      grind [numbered_queueId]
    rw [hitems, List.filter_append, hnone, List.append_nil]
  have hsaved : db'.tracksOf row.id = trackIds := by
    refine @tracksOf_numbered _ _ new_item 0 _ ?_
    have hnone : (db.queueItems.filter fun item => item.queueId = row.id) = [] := by
      rw [List.filter_eq_nil_iff]
      intro item hitem
      rw [decide_eq_true_eq]
      exact fun heq => hnew (heq ▸ db.items_owner item hitem)
    grind [filter_numbered_self]
  by_cases hname : row.name = activeQueueName
  · rcases activeQueue_append_of_eq hqueues hname with hrow | ⟨hsame, -⟩
    · rw [activeTracks_of_some hrow, hsaved]
    · obtain ⟨old, hrow, rfl⟩ := hactive
      rw [activeTracks_of_some (hsame.trans hrow), hold]
  · obtain ⟨old, hrow, rfl⟩ := hactive
    rw [activeTracks_of_some ((activeQueue_append_of_ne hqueues hname).trans hrow), hold]

end MichiServer.Queue
