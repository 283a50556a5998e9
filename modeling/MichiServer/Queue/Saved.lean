import MichiServer.Queue.ActiveQueue

/-!
# A saved queue

`save_queue_state` stores a queue three times over: as rows of a new queue, as the JSON of a playback
session, and as the session's index and current track. An item that is refused, for its track is gone,
is passed over, and the current track is the first of the list, whatever the index.
-/

namespace MichiServer.Queue

open QueueTables

/-- A row of `playback_sessions`; the JSON of `queue_state` is that of the ids. -/
structure PlaybackSessionRow where
  id : Uuid
  deviceId : Uuid
  queueId : Option Uuid
  queueState : List Uuid
  currentIndex : ℤ
  currentTrackId : Option Uuid
  positionMs : ℤ
  playing : Bool
  repeatMode : String
  shuffle : Bool
  volume : F64
  source : String
  resumePolicy : String
  restored : Bool
  createdAt : DateTime
  updatedAt : DateTime

/-- The tables that a save writes, and the ids of the tracks that there are. -/
structure SavedTables where
  tracks : List Uuid
  queues : QueueTables
  playbackSessions : List PlaybackSessionRow

/-- An insert of `save_queue_state` whose failure is ignored: an item whose track is not there breaks a
foreign key. -/
def saveItem (env : RequestEnv) (tables : SavedTables) (item : QueueItem × ℕ) : SavedTables :=
  if item.1.trackId ∈ tables.tracks then { tables with queues := storeItem env tables.queues item }
  else tables

def savedVolume : F64 := 0x3FE999999999999A

def savedSession (env : RequestEnv) (trackIds : List Uuid) (currentIndex : ℤ) (positionMs : ℕ) :
    PlaybackSessionRow where
  id := env.uuid .session
  deviceId := 0
  queueId := some (env.uuid .savedQueue)
  queueState := trackIds
  currentIndex := currentIndex
  currentTrackId := trackIds.head?
  positionMs := Int.bmod positionMs (2 ^ 64)
  playing := false
  repeatMode := "none"
  shuffle := false
  volume := savedVolume
  source := "cross-device"
  resumePolicy := "manual"
  restored := false
  createdAt := env.now
  updatedAt := env.now

/-- `save_queue_state`: the queue, its items and the session, which no transaction holds together. -/
def SavedTables.saveQueueState (env : RequestEnv) (tables : SavedTables) (name : String)
    (trackIds : List Uuid) (currentIndex : ℤ) (positionMs : ℕ) :
    Except String Uuid × SavedTables :=
  match env.fault .saveQueue with
  | some e => (.error e, tables)
  | none =>
    match tables.queues.insertQueue ⟨env.uuid .savedQueue, name, env.now⟩ with
    | .error e => (.error e, tables)
    | .ok queues =>
      let items := numbered (env.uuid .savedQueue) (fun i => env.uuid (.savedItem i)) 0 trackIds
      let tables := items.zipIdx.foldl (saveItem env) { tables with queues := queues }
      match env.fault .saveSession with
      | some e => (.error e, tables)
      | none =>
        if env.uuid .session ∈ tables.playbackSessions.map PlaybackSessionRow.id then
          (.error "UNIQUE constraint failed: playback_sessions.id", tables)
        else
          (.ok (env.uuid .session), { tables with
            playbackSessions := tables.playbackSessions ++
              [savedSession env trackIds currentIndex positionMs] })

def getQueueItems (tables : SavedTables) (queueId : Uuid) : List (Uuid × ℤ) :=
  (tables.queues.itemsOf queueId).map fun item => (item.trackId, item.position)

/-- The tracks whose items are stored: those that are there, but for the inserts that fail. -/
def storedTracks (env : RequestEnv) (tracks trackIds : List Uuid) : List Uuid :=
  (trackIds.zipIdx.filter fun t =>
    t.1 ∈ tracks && (env.fault (.saveItem t.2)).isNone).map Prod.fst

/-- What a save leaves: a session that is at the place it was saved at, in its index and track, in its
JSON and in the items of its queue; or, where it fails, nothing. -/
def ResumesAt (tables : SavedTables) (trackIds : List Uuid) (index : ℕ)
    (outcome : Except String Uuid × SavedTables) : Prop :=
  match outcome.1 with
  | .error _ => outcome.2 = tables
  | .ok sessionId =>
    ∃ session ∈ outcome.2.playbackSessions, session.id = sessionId ∧
      session.currentIndex = index ∧ session.currentTrackId = trackIds[index]? ∧
      session.queueState[index]? = trackIds[index]? ∧
      ∃ queueId ∈ session.queueId,
        ((getQueueItems outcome.2 queueId)[index]?).map Prod.fst = trackIds[index]?

structure RequestEnv.DrawsNew (env : RequestEnv) (tables : SavedTables) : Prop where
  distinct : Function.Injective env.uuid
  queue : env.uuid .savedQueue ∉ tables.queues.queues.map QueueRow.id
  item : ∀ i, env.uuid (.savedItem i) ∉ tables.queues.queueItems.map QueueItem.id
  session : env.uuid .session ∉ tables.playbackSessions.map PlaybackSessionRow.id

/-- The queue cannot be stored at all; or the session can, and its track at the index is the first of
the list, and is at the index of the tracks that are stored. -/
def KeepsPlace (env : RequestEnv) (tables : SavedTables) (trackIds : List Uuid) (index : ℕ) : Prop :=
  env.fault .saveQueue ≠ none ∨
  env.fault .saveSession = none ∧ trackIds.head? = trackIds[index]? ∧
    (storedTracks env tables.tracks trackIds)[index]? = trackIds[index]?

section Items

variable {env : RequestEnv} {tables : SavedTables} {q : Uuid} {new_item : ℕ → Uuid}

def stores (env : RequestEnv) (tracks : List Uuid) (item : QueueItem × ℕ) : Bool :=
  item.1.trackId ∈ tracks && (env.fault (.saveItem item.2)).isNone

/-- New items of a known queue are saved in their order. -/
theorem save_items_spec {items : List QueueItem} {k : ℕ}
    (howner : ∀ item ∈ items, item.queueId ∈ tables.queues.queues.map QueueRow.id)
    (hfresh : ((tables.queues.queueItems ++ items).map QueueItem.id).Nodup) :
    ((items.zipIdx k).foldl (saveItem env) tables).playbackSessions = tables.playbackSessions ∧
    ((items.zipIdx k).foldl (saveItem env) tables).queues.queues = tables.queues.queues ∧
      ((items.zipIdx k).foldl (saveItem env) tables).queues.queueItems =
        tables.queues.queueItems ++
          ((items.zipIdx k).filter (stores env tables.tracks)).map Prod.fst := by
  induction items generalizing tables k with
  | nil => simp
  | cons item rest ih =>
    rw [List.zipIdx_cons, List.foldl_cons]
    by_cases hstores : stores env tables.tracks (item, k)
    · simp only [stores, Bool.and_eq_true, decide_eq_true_eq, Option.isNone_iff_eq_none] at hstores
      have hkey : item.id ∉ tables.queues.queueItems.map QueueItem.id := by
        grind
      obtain ⟨mid, hmid⟩ : ∃ mid, tables.queues.insertItem item = .ok mid := by
        rw [insertItem, dif_neg hkey, dif_pos (howner item (List.mem_cons_self ..))]
        exact ⟨_, rfl⟩
      obtain ⟨hqueues, hitems⟩ := insertItem_spec hmid
      have hstep : saveItem env tables (item, k) = { tables with queues := mid } := by
        grind [saveItem, storeItem]
      obtain ⟨hsessions, hrest, hstored⟩ := @ih { tables with queues := mid } (k + 1)
        (fun other hother => by grind)
        (by rwa [hitems, List.append_assoc, List.singleton_append])
      grind [stores]
    · have hstep : saveItem env tables (item, k) = tables := by
        simp only [stores, Bool.and_eq_true, decide_eq_true_eq, Option.isNone_iff_eq_none,
          not_and] at hstores
        unfold saveItem
        split_ifs with hthere
        · obtain ⟨e, he⟩ := Option.ne_none_iff_exists'.mp (hstores hthere)
          simp only [storeItem, he]
        · rfl
      have hfresh' : ((tables.queues.queueItems ++ rest).map QueueItem.id).Nodup := by
        grind
      rw [hstep, List.filter_cons_of_neg hstores]
      exact ih (fun other hother => howner other (List.mem_cons_of_mem _ hother)) hfresh'

theorem stored_numbered (q : Uuid) (new_item : ℕ → Uuid) (tracks trackIds : List Uuid) :
    (((numbered q new_item 0 trackIds).zipIdx.filter (stores env tracks)).map Prod.fst).map
        QueueItem.trackId = storedTracks env tracks trackIds := by
  have hgeneral : ∀ k, ((((trackIds.zipIdx k).map fun t =>
      (⟨new_item t.2, q, t.1, 0 + t.2⟩ : QueueItem)).zipIdx k).filter (stores env tracks)).map
        (QueueItem.trackId ∘ Prod.fst) =
      ((trackIds.zipIdx k).filter fun t =>
        t.1 ∈ tracks && (env.fault (.saveItem t.2)).isNone).map Prod.fst := by
    induction trackIds with
    | nil => simp
    | cons t rest ih =>
      grind [stores]
  rw [List.map_map]
  exact hgeneral 0

theorem pairwise_stored (tracks trackIds : List Uuid) :
    (((numbered q new_item 0 trackIds).zipIdx.filter (stores env tracks)).map Prod.fst).Pairwise
      fun a b => a.position ≤ b.position := by
  have hsublist := (List.filter_sublist (p := stores env tracks)
    (l := (numbered q new_item 0 trackIds).zipIdx)).map Prod.fst
  rw [List.zipIdx_map_fst] at hsublist
  exact (pairwise_numbered new_item 0 trackIds).sublist hsublist

/-- The items that are saved are those whose tracks are stored. -/
theorem items_saved {name : String} (trackIds : List Uuid) (h : env.DrawsNew tables)
    {queues : QueueTables}
    (hqueue : tables.queues.insertQueue ⟨env.uuid .savedQueue, name, env.now⟩ = .ok queues) :
    let saved := (numbered (env.uuid .savedQueue) (fun i => env.uuid (.savedItem i)) 0
      trackIds).zipIdx.foldl (saveItem env) { tables with queues := queues }
    saved.playbackSessions = tables.playbackSessions ∧ saved.queues.queues = queues.queues ∧
      (getQueueItems saved (env.uuid .savedQueue)).map Prod.fst =
        storedTracks env tables.tracks trackIds := by
  intro saved
  obtain ⟨hnew, hqueues, hitems⟩ := insertQueue_spec hqueue
  have hkeys : ((queues.queueItems ++ numbered (env.uuid .savedQueue)
      (fun i => env.uuid (.savedItem i)) 0 trackIds).map QueueItem.id).Nodup := by
    rw [hitems, List.map_append, List.nodup_append]
    refine ⟨tables.queues.items_key, nodup_numbered (fun i j hij => ?_) 0 trackIds, ?_⟩
    · cases h.distinct hij
      rfl
    · intro a ha b hb hab
      obtain ⟨item, hnumbered, rfl⟩ := List.mem_map.mp hb
      obtain ⟨t, -, rfl⟩ := List.mem_map.mp hnumbered
      exact h.item _ (hab ▸ ha)
  obtain ⟨hsessions, hsame, hstored⟩ := @save_items_spec env { tables with queues := queues } _ 0
    (fun item hnumbered => by
      rw [numbered_queueId hnumbered, hqueues]
      simp)
    hkeys
  refine ⟨hsessions, hsame, ?_⟩
  have hold : (tables.queues.queueItems.filter fun item => item.queueId = env.uuid .savedQueue) =
      [] := by
    rw [List.filter_eq_nil_iff]
    intro item hitem
    rw [decide_eq_true_eq]
    exact fun heq => hnew (heq ▸ tables.queues.items_owner item hitem)
  have hown : ∀ item ∈ ((numbered (env.uuid .savedQueue) (fun i => env.uuid (.savedItem i)) 0
      trackIds).zipIdx.filter (stores env tables.tracks)).map Prod.fst,
      decide (item.queueId = env.uuid .savedQueue) := by
    grind [numbered, numbered_queueId]
  rw [getQueueItems, List.map_map, ← stored_numbered (env.uuid .savedQueue)
    fun i => env.uuid (.savedItem i), itemsOf, hstored, List.filter_append, hitems, hold,
    List.nil_append, List.filter_eq_self.mpr hown, (pairwise_stored tables.tracks trackIds).insertionSort_eq]
  rfl

end Items

/-- A save leaves a session at the place it was saved at, or fails without a trace, exactly where that
track is the first and is stored at its place, or where the queue cannot be stored. -/
theorem save_queue_state_resumes_iff {env : RequestEnv} {tables : SavedTables}
    (h : env.DrawsNew tables) (name : String) (trackIds : List Uuid) (index positionMs : ℕ) :
    ResumesAt tables trackIds index
        (tables.saveQueueState env name trackIds index positionMs) ↔
      KeepsPlace env tables trackIds index := by
  cases hsave : env.fault .saveQueue with
  | some e => simp [SavedTables.saveQueueState, hsave, ResumesAt, KeepsPlace]
  | none =>
    obtain ⟨queues, hqueue⟩ : ∃ queues, tables.queues.insertQueue
        ⟨env.uuid .savedQueue, name, env.now⟩ = .ok queues := by
      rw [insertQueue, dif_neg h.queue]
      exact ⟨_, rfl⟩
    obtain ⟨hsessions, hqueues, hitems⟩ := items_saved trackIds h hqueue
    set saved := (numbered (env.uuid .savedQueue) (fun i => env.uuid (.savedItem i)) 0
      trackIds).zipIdx.foldl (saveItem env) { tables with queues := queues } with hsaved
    cases hsession : env.fault .saveSession with
    | some e =>
      -- the queue stays behind
      have houtcome : tables.saveQueueState env name trackIds index positionMs =
          (.error e, saved) := by
        simp only [SavedTables.saveQueueState, hsave, hqueue, hsession, ← hsaved]
      rw [houtcome]
      refine iff_of_false (fun hsame => ?_) (by simp [KeepsPlace, hsave, hsession])
      have hrow : env.uuid .savedQueue ∈ saved.queues.queues.map QueueRow.id := by
        rw [hqueues, (insertQueue_spec hqueue).2.1]
        simp
      rw [show saved = tables from hsame] at hrow
      exact h.queue hrow
    | none =>
      have hnew : env.uuid .session ∉ saved.playbackSessions.map PlaybackSessionRow.id := by
        rw [hsessions]
        exact h.session
      have houtcome : tables.saveQueueState env name trackIds index positionMs =
          (.ok (env.uuid .session), { saved with
            playbackSessions := saved.playbackSessions ++
              [savedSession env trackIds index positionMs] }) := by
        simp only [SavedTables.saveQueueState, hsave, hqueue, hsession, ← hsaved, if_neg hnew]
      rw [houtcome]
      constructor
      · rintro ⟨session, hmem, hid, -, htrack, -, queueId, hqueueId, hitem⟩
        rcases List.mem_append.mp hmem with hold | hmem
        · exact absurd (hid ▸ List.mem_map_of_mem hold) hnew
        · obtain rfl := List.mem_singleton.mp hmem
          obtain rfl := Option.mem_some_iff.mp hqueueId
          refine .inr ⟨hsession, htrack, ?_⟩
          rw [← hitems, List.getElem?_map]
          exact hitem
      · rintro (hfault | ⟨-, htrack, hitem⟩)
        · exact absurd hsave hfault
        · refine ⟨_, List.mem_append_right _ (List.mem_singleton_self _), rfl, rfl, htrack, rfl, _,
            rfl, ?_⟩
          rw [← hitems, List.getElem?_map] at hitem
          exact hitem

def savingUuid : Drawn → ℕ
  | .queue => 0
  | .savedQueue => 1
  | .session => 2
  | .item i => 2 * i + 3
  | .savedItem i => 2 * i + 4

def savingEnv : RequestEnv where
  now := 0
  uuid := savingUuid
  engine _ := { now := 0 }

def twoTracks : SavedTables := ⟨[10, 11], .empty, []⟩

theorem savingEnv_draws : savingEnv.DrawsNew twoTracks where
  distinct := by
    intro a b hab
    change savingUuid a = savingUuid b at hab
    cases a <;> cases b <;> simp only [savingUuid, Drawn.item.injEq, Drawn.savedItem.injEq] at hab ⊢
      <;> omega
  queue := by decide
  item := fun i => List.not_mem_nil
  session := by decide

/-- Playback at the first of two tracks is resumed there. -/
theorem save_queue_state_resumes_first :
    ResumesAt twoTracks [10, 11] 0 (twoTracks.saveQueueState savingEnv "saved-queue" [10, 11]
      (0 : ℕ) 5000) :=
  (save_queue_state_resumes_iff savingEnv_draws "saved-queue" [10, 11] 0 5000).mpr
    (.inr ⟨rfl, rfl, rfl⟩)

/-- At the second of two tracks, the session is told the first. -/
theorem saved_at_first_track : ¬ ∀ (env : RequestEnv) (tables : SavedTables), env.DrawsNew tables →
    ∀ name trackIds (index positionMs : ℕ), index < trackIds.length →
      ResumesAt tables trackIds index
        (tables.saveQueueState env name trackIds index positionMs) := by
  intro h
  obtain ⟨session, hmem, -, -, htrack, -⟩ :=
    h savingEnv twoTracks savingEnv_draws "saved-queue" [10, 11] 1 5000 (by decide)
  have hsession : session = savedSession savingEnv [10, 11] 1 5000 := List.mem_singleton.mp hmem
  rw [hsession] at htrack
  exact absurd htrack (by decide)

end MichiServer.Queue
