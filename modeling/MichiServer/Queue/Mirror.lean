import MichiServer.Queue.ActiveQueue

/-!
# The engine mirrors the active queue

`Mirrored` says that the engine task is up and that its queue is the active queue's tracks, those that
resolve. A handler keeps it whether it succeeds or fails, under what each theorem asks: the database
does not fail between a transaction and the push that follows it, a push of stored tracks finds them
all, and a reorder is of the active queue. The last is what the source's `sync_active_queue_to_engine`
takes for granted, and what `queue_reorder_handler` does not see to.

Each helper has a rule of its own; a handler's proof goes down its `do` block.
-/

namespace MichiServer.Queue

open MichiServer.Logic MichiServer.Logic.Handler MichiServer.Playback QueueTables

/-- The engine task is up, and its queue is the resolvable tracks of the active queue. -/
def AppState.Mirrored (s : AppState) : Prop :=
  s.playbackEngine.Serves (s.library.resolvable s.db.activeTracks)

def AppState.AllResolve (s : AppState) : Prop :=
  ∀ id ∈ s.db.activeTracks, ∃ track, s.library.getTrack id = .ok track

def DbCall.afterCommit : DbCall → Bool
  | .sync | .saveQueue | .saveItem _ | .saveSession => true
  | .active | .items | .commit | .delete => false

/-- The environment fails no call after a transaction, and the ids it draws are new. -/
structure RequestEnv.Fair (env : RequestEnv) (db : QueueTables) : Prop where
  answers : ∀ call, call.afterCommit = true → env.fault call = none
  distinct : Function.Injective env.uuid
  new_queue : ∀ d, env.uuid d ∉ db.queues.map QueueRow.id
  new_item : ∀ d, env.uuid d ∉ db.queueItems.map QueueItem.id

abbrev KeepsMirror {α : Type} (m : Route α) (s : AppState) : Prop :=
  Leaves m s (fun _ s' => s'.Mirrored) fun _ s' => s'.Mirrored

variable {α : Type} {env : RequestEnv} {s : AppState} {P : α → AppState → Prop}
  {E : ApiError → AppState → Prop}

/-! ## Rules for the calls -/

/-- The rule for a transaction on the queues. -/
theorem transact_leaves {call : DbCall} {f : QueueTables → Except ApiError (QueueTables × α)}
    (hfail : ∀ e, E e s) (hok : ∀ db a, f s.db = .ok (db, a) → P a { s with db := db }) :
    Leaves (transact env call f) s P E := by
  unfold transact
  cases hfault : env.fault call with
  | some text =>
    refine .update (fun a h => ?_) fun e _ => hfail e
    cases h
  | none =>
    cases hf : f s.db with
    | error e =>
      refine .update (fun a h => ?_) fun e' h => ?_
      · simp only [hf] at h
        cases h
      · simp only [hf]
        exact hfail e'
    | ok r =>
      obtain ⟨db, b⟩ := r
      refine .update (fun a h => ?_) fun e h => ?_
      · grind
      · simp only [hf] at h
        cases h

theorem transact_leaves_of_ok {call : DbCall} {f : QueueTables → Except ApiError (QueueTables × α)}
    {db : QueueTables} {a : α} (hfault : env.fault call = none) (hf : f s.db = .ok (db, a))
    (h : P a { s with db := db }) : Leaves (transact env call f) s P E := by
  unfold transact
  simp only [hfault]
  refine .update (fun b hb => ?_) fun e he => ?_
  · grind
  · simp only [hf] at he
    cases he

theorem query_leaves {call : DbCall} {f : QueueTables → α} (hfault : env.fault call = none)
    (h : P (f s.db) s) : Leaves (query env call f) s P E :=
  transact_leaves_of_ok hfault rfl h

theorem command_leaves {f : EngineTask → EngineTask × Except PlaybackError α}
    {onError : PlaybackError → ApiError} {tracks : List Track}
    (hserves : (f s.playbackEngine).1.Serves tracks)
    (hok : ∀ a task, task.Serves tracks → P a { s with playbackEngine := task })
    (hfail : ∀ e task, task.Serves tracks → E e { s with playbackEngine := task }) :
    Leaves (command f onError) s P E :=
  .update (fun a _ => hok a _ hserves) fun e _ => hfail e _ hserves

variable {P : Unit → AppState → Prop}

theorem setQueue_leaves {old new : List Track} {currentIndex : ℕ}
    {current : Option Uuid} (h : s.playbackEngine.Serves old)
    (hP : ∀ task, task.Serves new → P () { s with playbackEngine := task }) :
    Leaves (setQueue env new currentIndex current) s P E := by
  obtain ⟨hserves, hok⟩ := EngineTask.setQueue_spec (env.engine .setQueue) h new currentIndex current
  refine .update (fun _ _ => hP _ hserves) fun e he => ?_
  simp only [hok] at he
  cases he

theorem currentTrackId_leaves {P : Option Uuid → AppState → Prop} {tracks : List Track}
    (h : s.playbackEngine.Serves tracks)
    (hP : ∀ current task, task.Serves tracks → P current { s with playbackEngine := task }) :
    Leaves (currentTrackId env) s P E := by
  obtain ⟨hserves, hok⟩ := EngineTask.snapshot_spec (env.engine .snapshot) h
  refine .bind (.update (fun snapshot _ => ?_) fun e he => ?_)
  · exact .pure (hP _ _ hserves)
  · simp only [hok] at he
    cases he

theorem playbackEnabled_leaves (hfail : ∀ e, E e s) (hP : P () s) :
    Leaves playbackEnabled s P E :=
  .bind (.get (.rejectIf (fun _ => hfail _) fun _ => hP))

theorem validate_leaves {P : List Track → AppState → Prop} {trackIds : List Uuid}
    (hfail : ∀ e, E e s)
    (hP : ∀ tracks, s.library.resolvable trackIds = tracks →
      (∀ id ∈ trackIds, ∃ track, s.library.getTrack id = .ok track) → P tracks s) :
    Leaves (validateAndLoadTracks trackIds) s P E :=
  .bind (.get (.ofExcept (fun tracks h => hP tracks (Library.resolvable_of_loadAll h)
    (Library.resolves_of_loadAll h)) fun e _ => hfail e))

theorem get_or_create_leaves {P : Uuid → AppState → Prop} (hfail : ∀ e, E e s)
    (hP : ∀ db q, findOrCreate env s.db = .ok (db, q) → P q { s with db := db }) :
    Leaves (getOrCreateActiveQueue env) s P E :=
  transact_leaves hfail hP

theorem sync_leaves {q : Uuid} {current : Option Uuid}
    {old : List Track} (hserves : s.playbackEngine.Serves old) (hfault : env.fault .sync = none)
    (hall : ∀ id ∈ s.db.tracksOf q, ∃ track, s.library.getTrack id = .ok track)
    (hP : ∀ task, task.Serves (s.library.resolvable (s.db.tracksOf q)) →
      P () { s with playbackEngine := task }) :
    Leaves (syncActiveQueueToEngine env q current) s P E := by
  refine .bind (query_leaves hfault (.ite (fun hempty => ?_) fun _ => ?_))
  · have hnil : s.db.tracksOf q = [] := List.isEmpty_iff.mp hempty
    rw [hnil] at hP
    exact setQueue_leaves hserves hP
  · obtain ⟨tracks, htracks⟩ :
        ∃ tracks, s.library.loadAll resolveFailed (s.db.tracksOf q) = .ok tracks :=
      Library.loadAll_of_resolves hall
    rw [Library.resolvable_of_loadAll htracks] at hP
    refine .bind (.get (.bind (.ofExcept (fun loaded hloaded => ?_) fun e he => ?_)))
    · grind [setQueue_leaves]
    · rw [htracks] at he
      cases he

/-! ## The handlers -/

theorem items_keeps_mirror {trackIds : List Uuid} (hs : s.Mirrored) (henv : env.Fair s.db)
    (hall : s.AllResolve) : KeepsMirror (queueItemsHandler env trackIds) s := by
  refine .bind (playbackEnabled_leaves (fun _ => hs) ?_)
  refine .bind (.rejectIf (fun _ => hs) fun _ => ?_)
  refine .bind (validate_leaves (fun _ => hs) fun tracks _ hvalid => ?_)
  refine .bind (transact_leaves (fun _ => hs) fun db q happend => ?_)
  obtain ⟨hactive, hmem⟩ := appendItems_spec happend
  refine .bind (currentTrackId_leaves hs fun current task htask => ?_)
  refine .bind (sync_leaves htask (henv.answers .sync rfl) ?_ fun task' htask' => ?_)
  · intro id hid
    rw [← hactive.activeTracks] at hid
    rcases hmem id hid with hold | hnew
    · exact hall id hold
    · exact hvalid id hnew
  · refine .bind (.modify (.pure ?_))
    show task'.Serves (s.library.resolvable db.activeTracks)
    rw [hactive.activeTracks]
    exact htask'

theorem promote_leaves {q active : Uuid} (hactive : s.db.IsActive active) (hfail : ∀ e, E e s)
    (hP : ∀ db, db.activeTracks = s.db.tracksOf q → P () { s with db := db }) :
    Leaves (promote env q active (s.db.tracksOf q)) s P E := by
  refine .ite (fun heq => ?_) fun _ => transact_leaves hfail fun db u hreplace => ?_
  · exact .pure (hP s.db (heq ▸ hactive.activeTracks))
  · obtain ⟨hinsert, -⟩ := statement_eq_ok hreplace
    exact hP db (replaceItems_spec hactive hinsert).2

/-- A jump keeps the engine on the active queue. -/
theorem jump_keeps_mirror {queueId : Option Uuid} {index : ℕ} (hs : s.Mirrored) :
    KeepsMirror (queueJumpHandler env queueId index) s := by
  refine .bind (playbackEnabled_leaves (fun _ => hs) ?_)
  refine .bind (get_or_create_leaves (fun _ => hs) fun db active hfind => ?_)
  obtain ⟨hactive, -, htracks, -⟩ := findOrCreate_spec hfind
  have hs1 : AppState.Mirrored { s with db := db } := by
    show s.playbackEngine.Serves (s.library.resolvable db.activeTracks)
    rw [htracks]
    exact hs
  refine .bind (transact_leaves (fun _ => hs1) fun db' trackIds hread => ?_)
  cases hread
  refine .bind (.rejectIf (fun _ => hs1) fun _ => ?_)
  refine .bind (.require (fun _ => hs1) fun target _ => ?_)
  refine .bind (validate_leaves (fun _ => hs1) fun tracks hvalid _ => ?_)
  refine .bind (promote_leaves hactive (fun _ => hs1) fun db2 htracks2 => ?_)
  have hpushed : s.library.resolvable db2.activeTracks = tracks := by
    rw [htracks2]
    exact hvalid
  refine .bind (setQueue_leaves hs fun task htask => ?_)
  rw [← hpushed] at htask
  have hjump := EngineTask.jumpToIndex_serves (env.engine .jumpToIndex) htask index
  exact .bind (command_leaves hjump (fun _ _ h => .bind (.modify (.pure h))) fun _ _ h => h)

/-- The rule for a queue that is saved with its session. -/
theorem saveQueueState_leaves {P : Uuid → AppState → Prop} {name : String} {trackIds : List Uuid}
    {q : Uuid} (hanswers : ∀ call, call.afterCommit = true → env.fault call = none)
    (hdistinct : Function.Injective env.uuid)
    (hqueue : env.uuid .savedQueue ∉ s.db.queues.map QueueRow.id)
    (hitem : ∀ i, env.uuid (.savedItem i) ∉ s.db.queueItems.map QueueItem.id)
    (hactive : s.db.IsActive q) (htracks : s.db.activeTracks = trackIds)
    (hP : ∀ id db, db.activeTracks = trackIds → P id { s with db := db }) :
    Leaves (saveQueueState env name trackIds) s P E := by
  obtain ⟨saved, hsaved⟩ : ∃ saved, s.db.insertQueue
      ⟨env.uuid .savedQueue, name, env.now⟩ = .ok saved := by
    rw [insertQueue, dif_neg hqueue]
    exact ⟨_, rfl⟩
  obtain ⟨hnew, hqueues, hitems⟩ := insertQueue_spec hsaved
  have hstatement : statement (s.db.insertQueue ⟨env.uuid .savedQueue, name, env.now⟩) () =
      .ok (saved, ()) := by rw [hsaved, statement]
  refine .bind (transact_leaves_of_ok (hanswers .saveQueue rfl) hstatement (.bind (.modify ?_)))
  refine query_leaves (hanswers .saveSession rfl) (hP _ _ ?_)
  have hkeys : ((saved.queueItems ++ numbered (env.uuid .savedQueue)
      (fun i => env.uuid (.savedItem i)) 0 trackIds).map QueueItem.id).Nodup := by
    rw [hitems, List.map_append, List.nodup_append]
    refine ⟨s.db.items_key, nodup_numbered (fun i j hij => ?_) 0 trackIds, ?_⟩
    · cases hdistinct hij
      rfl
    · intro a ha b hb hab
      obtain ⟨item, hnumbered, rfl⟩ := List.mem_map.mp hb
      obtain ⟨t, -, rfl⟩ := List.mem_map.mp hnumbered
      exact hitem _ (hab ▸ ha)
  have hstored := @store_items_spec env saved _ 0 (fun i => hanswers (.saveItem i) rfl)
    (fun item hnumbered => by
      rw [numbered_queueId hnumbered, hqueues]
      simp)
    hkeys
  exact activeTracks_of_saved hactive htracks hnew (hstored.1.trans hqueues)
    (hstored.2.trans (by rw [hitems]))

/-- A transfer keeps the engine on the active queue. -/
theorem transfer_keeps_mirror {body : QueueTransferBody} (hs : s.Mirrored) (henv : env.Fair s.db) :
    KeepsMirror (queueTransferHandler env body) s := by
  refine .bind (playbackEnabled_leaves (fun _ => hs) ?_)
  refine .bind (.rejectIf (fun _ => hs) fun _ => ?_)
  refine .bind (.rejectIf (fun _ => hs) fun _ => ?_)
  refine .bind (.get (.bind (.ofExcept (fun tracks hload => ?_) fun _ _ => hs)))
  have hvalid : s.library.resolvable body.trackIds = tracks := by
    cases hall : s.library.loadAll validationFailed body.trackIds with
    | error e =>
      rw [hall] at hload
      cases hload
    | ok loaded =>
      rw [hall] at hload
      cases hload
      exact Library.resolvable_of_loadAll hall
  refine .bind (get_or_create_leaves (fun _ => hs) fun db q hfind => ?_)
  obtain ⟨hactive, hitems, htracks, hqueues⟩ := findOrCreate_spec hfind
  have hs1 : AppState.Mirrored { s with db := db } := by
    show s.playbackEngine.Serves (s.library.resolvable db.activeTracks)
    rw [htracks]
    exact hs
  refine .bind (transact_leaves (fun _ => hs1) fun db2 u hreplace => ?_)
  obtain ⟨hinsert, -⟩ := statement_eq_ok hreplace
  obtain ⟨hactive2, htracks2⟩ := replaceItems_spec hactive hinsert
  obtain ⟨hqueues2, hitems2⟩ := insertItems_spec hinsert
  -- the ids drawn for the saved queue are none of those drawn before
  have hqueue : env.uuid .savedQueue ∉ db2.queues.map QueueRow.id := by
    rw [hqueues2]
    intro hmem
    rcases hqueues _ hmem with hold | hdrawn
    · exact henv.new_queue _ hold
    · cases henv.distinct hdrawn
  have hitem : ∀ i, env.uuid (.savedItem i) ∉ db2.queueItems.map QueueItem.id := by
    intro i hmem
    rw [hitems2, List.map_append, List.mem_append] at hmem
    rcases hmem with hold | hdrawn
    · obtain ⟨item, hkept, hid⟩ := List.mem_map.mp hold
      refine henv.new_item (.savedItem i) ?_
      rw [← hid, ← hitems]
      exact List.mem_map_of_mem (List.mem_of_mem_filter hkept)
    · obtain ⟨item, hnumbered, hid⟩ := List.mem_map.mp hdrawn
      obtain ⟨t, -, rfl⟩ := List.mem_map.mp hnumbered
      cases henv.distinct hid
  refine .bind (saveQueueState_leaves henv.answers henv.distinct hqueue hitem hactive2 htracks2
    fun session db3 htracks3 => ?_)
  refine .bind (setQueue_leaves hs fun task htask => ?_)
  have hpushed : s.library.resolvable db3.activeTracks = tracks := by
    rw [htracks3]
    exact hvalid
  rw [← hpushed] at htask
  have hseek := EngineTask.seek_serves (env.engine .seek) htask body.positionMs
  have hdone : ∀ task', task'.Serves (s.library.resolvable db3.activeTracks) →
      KeepsMirror (do
        announce (.queueTransferred session)
        pure (.accepted q session body.currentIndex body.positionMs) : Route QueueResponse)
        { s with db := db3, playbackEngine := task' } := fun task' h => .bind (.modify (.pure h))
  exact .bind (.ite (fun _ => command_leaves hseek (fun _ task' h => hdone task' h) fun _ _ h => h)
    fun _ => .pure (hdone task htask))

/-- So does a reorder of the active queue. -/
theorem reorder_keeps_mirror {itemIds : List Uuid} {queueId : Option Uuid} (hs : s.Mirrored)
    (henv : env.Fair s.db) (hactive : ∀ q ∈ queueId, s.db.IsActive q) (hall : s.AllResolve) :
    KeepsMirror (queueReorderHandler env itemIds queueId) s := by
  -- from the queue on, whichever way it was found
  have hrest : ∀ db q, db.IsActive q → db.activeTracks = s.db.activeTracks →
      KeepsMirror (do
        transact env .commit (reorderItems q itemIds)
        let curTrackId ← currentTrackId env
        syncActiveQueueToEngine env q curTrackId
        announce (.queueReordered q)
        pure (.reordered itemIds.length) : Route QueueResponse) { s with db := db } := by
    intro db q hq htracks
    have hs1 : AppState.Mirrored { s with db := db } := by
      show s.playbackEngine.Serves (s.library.resolvable db.activeTracks)
      rw [htracks]
      exact hs
    refine .bind (transact_leaves (fun _ => hs1) fun db2 u hreorder => ?_)
    obtain ⟨hqueues2, hmem⟩ := reorderItems_spec hreorder
    have hq2 : db2.IsActive q := hq.of_queues_eq hqueues2
    refine .bind (currentTrackId_leaves hs fun current task htask => ?_)
    refine .bind (sync_leaves htask (henv.answers .sync rfl) ?_ fun task' htask' => ?_)
    · intro id hid
      refine hall id ?_
      rw [← htracks, hq.activeTracks]
      exact hmem id hid
    · refine .bind (.modify (.pure ?_))
      show task'.Serves (s.library.resolvable db2.activeTracks)
      rw [hq2.activeTracks]
      exact htask'
  refine .bind (playbackEnabled_leaves (fun _ => hs) ?_)
  cases queueId with
  | some q => exact .bind (.pure (hrest s.db q (hactive q rfl) rfl))
  | none =>
    refine .bind (get_or_create_leaves (fun _ => hs) fun db q hfind => ?_)
    obtain ⟨hq, -, htracks, -⟩ := findOrCreate_spec hfind
    exact hrest db q hq htracks

theorem empty_engine_leaves {active : Bool} {old : List Track}
    {db : QueueTables} (hserves : s.playbackEngine.Serves old) (hdb : s.db = db)
    (hnone : active = true → db.activeTracks = [])
    (hsame : active = false → s.Mirrored)
    (hP : ∀ task, task.Serves (s.library.resolvable db.activeTracks) →
      P () { s with playbackEngine := task }) : Leaves (emptyEngineIf env active) s P E := by
  subst hdb
  refine .ite (fun hactive => ?_) fun hother => ?_
  · rw [hnone hactive] at hP
    exact setQueue_leaves hserves hP
  · exact .pure (hP _ (hsame ((Bool.not_eq_true active).mp hother)))

/-- To clear a queue keeps the engine on the active one. -/
theorem clear_keeps_mirror {q : Uuid} (hs : s.Mirrored) :
    KeepsMirror (clearQueueHandler env q) s := by
  refine .bind (playbackEnabled_leaves (fun _ => hs) ?_)
  refine .bind (get_or_create_leaves (fun _ => hs) fun db active hfind => ?_)
  obtain ⟨hactive, -, htracks, -⟩ := findOrCreate_spec hfind
  have hs1 : AppState.Mirrored { s with db := db } := by
    show s.playbackEngine.Serves (s.library.resolvable db.activeTracks)
    rw [htracks]
    exact hs
  refine .bind (transact_leaves (fun _ => hs1) fun db2 u hdelete => ?_)
  cases hdelete
  have hactive2 : (db.deleteItems q).IsActive active := hactive.of_queues_eq rfl
  refine .bind (empty_engine_leaves hs rfl (fun hcleared => ?_) (fun hother => ?_)
    fun task htask => .pure htask)
  · rw [hactive2.activeTracks, of_decide_eq_true hcleared]
    exact tracksOf_deleteItems_self
  · show s.playbackEngine.Serves (s.library.resolvable (db.deleteItems q).activeTracks)
    have hne : active ≠ q := fun heq => of_decide_eq_false hother heq.symm
    rw [hactive2.activeTracks, tracksOf_deleteItems_of_ne hne, ← hactive.activeTracks]
    exact hs1

theorem delete_keeps_mirror {q : Uuid} (hs : s.Mirrored)
    (hother : ∀ row ∈ s.db.queues, row.id = q → row.name = activeQueueName →
      s.db.LeavesNoOther q) : KeepsMirror (queueDeleteHandler env q) s := by
  refine .bind (playbackEnabled_leaves (fun _ => hs) ?_)
  refine .bind (transact_leaves (fun _ => hs) fun db isActive hremove => ?_)
  refine .bind (empty_engine_leaves hs rfl (fun hactive => ?_) (fun hinactive => ?_)
    fun task htask => .pure htask)
  · grind [exists_of_removeQueue, removeQueue_active]
  · subst hinactive
    show s.playbackEngine.Serves (s.library.resolvable db.activeTracks)
    rw [removeQueue_other hremove]
    exact hs

end MichiServer.Queue
