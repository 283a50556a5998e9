import Mathlib.Data.List.MinMax
import Mathlib.Data.List.Sort
import Mathlib.Order.Basic
import MichiServer.Basic

/-!
# The queue tables

`queues` and `queue_items`, with the columns the queue routes read. A list holds a table's rows in
the order they were inserted. The keys and the reference between the tables are fields of
`QueueTables`, so a statement that would break one is refused, as SQLite refuses it.

The active queue is not a row of its own kind: it is the newest row of that name.
-/

namespace MichiServer.Queue

structure QueueRow where
  id : Uuid
  name : String
  createdAt : DateTime
deriving DecidableEq

structure QueueItem where
  id : Uuid
  queueId : Uuid
  trackId : Uuid
  position : ℤ
deriving DecidableEq

/-- The two tables, with their primary keys and the foreign key of the items. -/
structure QueueTables where
  queues : List QueueRow := []
  queueItems : List QueueItem := []
  queues_key : (queues.map QueueRow.id).Nodup := by simp
  items_key : (queueItems.map QueueItem.id).Nodup := by simp
  items_owner : ∀ item ∈ queueItems, item.queueId ∈ queues.map QueueRow.id := by simp

def activeQueueName : String := "active-queue"

def datetime (t : DateTime) : ℤ := t / 1000000000

namespace QueueTables

def empty : QueueTables := {}

/-! ## Queries -/

/-- `SELECT … FROM queues WHERE name = 'active-queue' ORDER BY datetime(created_at) DESC LIMIT 1`.
Rows of one second come in the order of their insertion. -/
def activeQueue (db : QueueTables) : Option QueueRow :=
  letI : Preorder ℤ := Int.instLinearOrder.toPartialOrder.toPreorder
  (db.queues.filter fun q => q.name = activeQueueName).argmax fun q => datetime q.createdAt

/-- `SELECT … FROM queue_items WHERE queue_id = ? ORDER BY position ASC`. Rows of one position come in
the order of their insertion. -/
def itemsOf (db : QueueTables) (queueId : Uuid) : List QueueItem :=
  (db.queueItems.filter fun item => item.queueId = queueId).insertionSort fun a b =>
    a.position ≤ b.position

def tracksOf (db : QueueTables) (queueId : Uuid) : List Uuid :=
  (db.itemsOf queueId).map QueueItem.trackId

def activeTracks (db : QueueTables) : List Uuid :=
  match db.activeQueue with
  | some q => db.tracksOf q.id
  | none => []

/-- `SELECT COALESCE(MAX(position), -1) FROM queue_items WHERE queue_id = ?`. -/
def maxPosition (db : QueueTables) (queueId : Uuid) : ℤ :=
  (((db.queueItems.filter fun item => item.queueId = queueId).map QueueItem.position).max?).getD
    (-1)

/-! ## Statements -/

def insertQueue (q : QueueRow) (db : QueueTables) : Except String QueueTables :=
  if hkey : q.id ∈ db.queues.map QueueRow.id then .error "UNIQUE constraint failed: queues.id"
  else .ok
    { db with
      queues := db.queues ++ [q]
      queues_key := by
        rw [List.map_append, List.nodup_append]
        refine ⟨db.queues_key, by simp, ?_⟩
        grind
      items_owner := fun item hitem => by
        rw [List.map_append]
        exact List.mem_append_left _ (db.items_owner item hitem) }

def insertItem (item : QueueItem) (db : QueueTables) : Except String QueueTables :=
  if hkey : item.id ∈ db.queueItems.map QueueItem.id then
    .error "UNIQUE constraint failed: queue_items.id"
  else if howner : item.queueId ∈ db.queues.map QueueRow.id then .ok
    { db with
      queueItems := db.queueItems ++ [item]
      items_key := by
        rw [List.map_append, List.nodup_append]
        refine ⟨db.items_key, by simp, ?_⟩
        grind
      items_owner := fun other hother => by
        rcases List.mem_append.mp hother with hold | hnew
        · exact db.items_owner other hold
        · rw [List.mem_singleton.mp hnew]
          exact howner }
  else .error "FOREIGN KEY constraint failed"

def insertItems (items : List QueueItem) (db : QueueTables) : Except String QueueTables :=
  items.foldlM (fun db item => db.insertItem item) db

def deleteItems (queueId : Uuid) (db : QueueTables) : QueueTables :=
  { db with
    queueItems := db.queueItems.filter fun item => item.queueId ≠ queueId
    items_key := db.items_key.sublist (List.filter_sublist.map _)
    items_owner := fun item hitem => db.items_owner item (List.mem_of_mem_filter hitem) }

/-- `DELETE FROM queues WHERE id = ?`; the reference cascades to the queue's items. -/
def deleteQueue (queueId : Uuid) (db : QueueTables) : QueueTables :=
  { db with
    queues := db.queues.filter fun q => q.id ≠ queueId
    queueItems := db.queueItems.filter fun item => item.queueId ≠ queueId
    queues_key := db.queues_key.sublist (List.filter_sublist.map _)
    items_key := db.items_key.sublist (List.filter_sublist.map _)
    items_owner := fun item hitem => by
      obtain ⟨hmem, hother⟩ := List.mem_filter.mp hitem
      obtain ⟨q, hq, hid⟩ := List.mem_map.mp (db.items_owner item hmem)
      grind }

/-- `UPDATE queue_items SET position = ? WHERE id = ? AND queue_id = ?`, and how many rows it
affected. -/
def setPosition (itemId queueId : Uuid) (position : ℤ) (db : QueueTables) : QueueTables × ℕ :=
  ({ db with
      queueItems := db.queueItems.map fun item =>
        if item.id = itemId ∧ item.queueId = queueId then { item with position := position }
        else item
      items_key := by
        have hid : QueueItem.id ∘ (fun item : QueueItem =>
            if item.id = itemId ∧ item.queueId = queueId then { item with position := position }
            else item) = QueueItem.id := by
          grind
        rw [List.map_map, hid]
        exact db.items_key
      items_owner := fun item hitem => by
        obtain ⟨old, hold, rfl⟩ := List.mem_map.mp hitem
        split_ifs <;> exact db.items_owner old hold },
    (db.queueItems.filter fun item => item.id = itemId ∧ item.queueId = queueId).length)

/-- The rows a loop over `tracks` inserts into a queue, numbered from a position on. -/
def numbered (queueId : Uuid) (new_item : ℕ → Uuid) (start : ℤ) (tracks : List Uuid) :
    List QueueItem :=
  tracks.zipIdx.map fun t => ⟨new_item t.2, queueId, t.1, start + t.2⟩

/-! ## What the queries see -/

variable {db db' : QueueTables} {q : Uuid}

theorem mem_tracksOf {t : Uuid} :
    t ∈ db.tracksOf q ↔ ∃ item ∈ db.queueItems, item.queueId = q ∧ item.trackId = t := by
  simp only [tracksOf, itemsOf, List.mem_map, List.mem_insertionSort, List.mem_filter,
    decide_eq_true_eq, and_assoc]

theorem tracksOf_congr
    (h : (db'.queueItems.filter fun item => item.queueId = q) =
      db.queueItems.filter fun item => item.queueId = q) : db'.tracksOf q = db.tracksOf q := by
  rw [tracksOf, itemsOf, h]
  rfl

theorem activeQueue_congr (h : db'.queues = db.queues) : db'.activeQueue = db.activeQueue := by
  rw [activeQueue, h]
  rfl

theorem activeQueue_mem {row : QueueRow} (h : db.activeQueue = some row) :
    row ∈ db.queues ∧ row.name = activeQueueName := by
  have hmem := List.mem_filter.mp (List.argmax_mem h)
  exact ⟨hmem.1, of_decide_eq_true hmem.2⟩

theorem activeTracks_of_some {row : QueueRow} (h : db.activeQueue = some row) :
    db.activeTracks = db.tracksOf row.id := by
  simp only [activeTracks, h]

theorem tracksOf_eq_nil (h : q ∉ db.queues.map QueueRow.id) : db.tracksOf q = [] := by
  rw [List.eq_nil_iff_forall_not_mem]
  intro t ht
  obtain ⟨item, hitem, rfl, -⟩ := mem_tracksOf.mp ht
  exact h (db.items_owner item hitem)

/-! ## What the statements do to them -/

theorem insertQueue_spec {row : QueueRow} (h : db.insertQueue row = .ok db') :
    row.id ∉ db.queues.map QueueRow.id ∧ db'.queues = db.queues ++ [row] ∧
      db'.queueItems = db.queueItems := by
  grind [insertQueue]

theorem insertItem_spec {item : QueueItem} (h : db.insertItem item = .ok db') :
    db'.queues = db.queues ∧ db'.queueItems = db.queueItems ++ [item] := by
  grind [insertItem]

theorem insertItems_spec {items : List QueueItem} (h : db.insertItems items = .ok db') :
    db'.queues = db.queues ∧ db'.queueItems = db.queueItems ++ items := by
  induction items generalizing db with
  | nil =>
    cases h
    simp
  | cons item rest ih =>
    rw [insertItems, List.foldlM_cons] at h
    cases hitem : db.insertItem item with
    | error e =>
      rw [hitem] at h
      cases h
    | ok mid =>
      rw [hitem] at h
      obtain ⟨hqueues, hitems⟩ := insertItem_spec hitem
      obtain ⟨hqueues', hitems'⟩ := ih h
      grind

variable {new_item : ℕ → Uuid}

theorem numbered_queueId {start : ℤ} {tracks : List Uuid} {item : QueueItem}
    (h : item ∈ numbered q new_item start tracks) : item.queueId = q := by
  obtain ⟨t, -, rfl⟩ := List.mem_map.mp h
  rfl

theorem map_trackId_numbered (new_item : ℕ → Uuid) (start : ℤ) (tracks : List Uuid) :
    (numbered q new_item start tracks).map QueueItem.trackId = tracks := by
  rw [numbered, List.map_map]
  exact List.zipIdx_map_fst 0 tracks

theorem nodup_numbered (hdistinct : Function.Injective new_item) (start : ℤ)
    (tracks : List Uuid) : ((numbered q new_item start tracks).map QueueItem.id).Nodup := by
  have hids : (numbered q new_item start tracks).map QueueItem.id =
      (tracks.zipIdx.map Prod.snd).map new_item := by
    rw [numbered, List.map_map, List.map_map]
    rfl
  rw [hids, List.zipIdx_map_snd]
  exact List.Nodup.map hdistinct List.nodup_range'

theorem pairwise_numbered (new_item : ℕ → Uuid) (start : ℤ) (tracks : List Uuid) :
    (numbered q new_item start tracks).Pairwise fun a b => a.position ≤ b.position := by
  rw [List.pairwise_iff_getElem]
  grind [numbered]

theorem tracksOf_numbered {start : ℤ} {tracks : List Uuid}
    (h : (db.queueItems.filter fun item => item.queueId = q) =
      numbered q new_item start tracks) : db.tracksOf q = tracks := by
  rw [tracksOf, itemsOf, h, (pairwise_numbered new_item start tracks).insertionSort_eq,
    map_trackId_numbered]

theorem filter_numbered_self (new_item : ℕ → Uuid) (start : ℤ) (tracks : List Uuid) :
    ((numbered q new_item start tracks).filter fun item => item.queueId = q) =
      numbered q new_item start tracks :=
  List.filter_eq_self.mpr fun _ hitem => decide_eq_true (numbered_queueId hitem)

theorem tracksOf_replace {tracks : List Uuid}
    (h : (db.deleteItems q).insertItems (numbered q new_item 0 tracks) = .ok db') :
    db'.tracksOf q = tracks := by
  refine @tracksOf_numbered _ _ new_item 0 _ ?_
  rw [(insertItems_spec h).2, List.filter_append, filter_numbered_self, deleteItems]
  simp

theorem mem_tracksOf_append {start : ℤ} {tracks : List Uuid} {t : Uuid}
    (h : db.insertItems (numbered q new_item start tracks) = .ok db') (ht : t ∈ db'.tracksOf q) :
    t ∈ db.tracksOf q ∨ t ∈ tracks := by
  obtain ⟨item, hitem, hqueue, rfl⟩ := mem_tracksOf.mp ht
  rw [(insertItems_spec h).2, List.mem_append] at hitem
  rcases hitem with hold | hnew
  · exact .inl (mem_tracksOf.mpr ⟨item, hold, hqueue, rfl⟩)
  · grind [map_trackId_numbered]

theorem tracksOf_deleteItems_self : (db.deleteItems q).tracksOf q = [] := by
  rw [List.eq_nil_iff_forall_not_mem]
  intro t ht
  obtain ⟨item, hitem, hqueue, -⟩ := mem_tracksOf.mp ht
  exact of_decide_eq_true (List.mem_filter.mp hitem).2 hqueue

theorem tracksOf_deleteItems_of_ne {other : Uuid} (hne : other ≠ q) :
    (db.deleteItems q).tracksOf other = db.tracksOf other := by
  refine tracksOf_congr ?_
  rw [deleteItems, List.filter_filter]
  grind

theorem mem_tracksOf_setPosition {itemId queueId : Uuid} {position : ℤ} {t : Uuid}
    (ht : t ∈ (db.setPosition itemId queueId position).1.tracksOf q) : t ∈ db.tracksOf q := by
  obtain ⟨item, hitem, hqueue, htrack⟩ := mem_tracksOf.mp ht
  obtain ⟨old, hold, rfl⟩ := List.mem_map.mp hitem
  refine mem_tracksOf.mpr ⟨old, hold, ?_, ?_⟩
  · rw [← hqueue]
    split_ifs <;> rfl
  · rw [← htrack]
    split_ifs <;> rfl

end QueueTables

end MichiServer.Queue
