import MichiServer.Interleave.Solo
import MichiServer.Queue.Handover
import MichiServer.Transfer.CurrentTrack

/-!
# What a failed commit leaves behind

A commit selects the output, starts the receiver's session, installs the queue in the database and
then in the engine, and starts the track. Each of these steps can end it with an error, and none of
them takes back what the steps before it did. So a commit that fails leaves everything as it was only
if it is stopped before its first step, or if the steps it came to wrote what was there already.
-/

namespace MichiServer.Playback

variable {env : EngineEnv}

namespace PlaybackEngine

variable {e : PlaybackEngine}

def loaded (e : PlaybackEngine) : List Track × Option Track := (e.queue, e.currentTrack)

theorem loaded_cleanupPlayback (env : EngineEnv) (e : PlaybackEngine) :
    (e.cleanupPlayback env).1.loaded = e.loaded :=
  view_cleanupPlayback loaded (fun _ _ => rfl) env e

theorem loaded_of_failed_start {track : Track} {positionMs : ℕ} {err : PlaybackError}
    (h : (e.startPlaybackInternal env track positionMs).2 = .error err) :
    (e.startPlaybackInternal env track positionMs).1.loaded = e.loaded := by
  revert h
  unfold startPlaybackInternal
  dsimp only
  split
  · exact fun _ => rfl
  · split
    · exact fun _ => rfl
    · cases env.decoderStart with
      | error err' => exact fun _ => rfl
      | ok u => exact nofun

theorem loaded_of_failed_play {track : Track} {sinks : List AudioSink}
    {outputDesc : PlaybackOutputDescription} {positionMs : ℕ} {err : PlaybackError}
    (h : (e.handlePlay env track sinks outputDesc positionMs).2 = .error err) :
    (e.handlePlay env track sinks outputDesc positionMs).1.loaded = e.loaded := by
  revert h
  unfold handlePlay
  dsimp only
  split
  · exact fun _ => rfl
  · exact fun h => (loaded_of_failed_start h).trans (loaded_cleanupPlayback env e.takeTimeline)

end PlaybackEngine

namespace EngineTask

variable {t : EngineTask} {err : PlaybackError}

theorem loaded_of_failed_play {track : Track} {sinks : List AudioSink}
    {outputDesc : PlaybackOutputDescription} {positionMs : ℕ}
    (h : (t.play env track sinks outputDesc positionMs).2 = .error err) :
    (t.play env track sinks outputDesc positionMs).1.engine.loaded = t.engine.loaded := by
  rcases @issue_outcome t env (.play track sinks outputDesc positionMs .local)
    (fun r hr => by cases hr; rfl) with hclosed | ⟨r, hr, hengine, hanswer⟩
  · exact congrArg PlaybackEngine.loaded hclosed.1
  · cases hr
    have hplay := Eq.trans hanswer.symm h
    exact (congrArg PlaybackEngine.loaded hengine).trans (PlaybackEngine.loaded_of_failed_play hplay)

theorem engine_of_failed_load {track : Track} {positionMs : ℕ}
    (h : (t.loadTrack env track positionMs).2 = .error err) :
    (t.loadTrack env track positionMs).1.engine = t.engine := by
  rcases @issue_outcome t env (.loadTrack track positionMs .local)
    (fun r hr => by cases hr; rfl) with hclosed | ⟨r, hr, hengine, hanswer⟩
  · exact hclosed.1
  · cases hr
    cases Eq.trans hanswer.symm h

variable {tracks : List Track} {currentIndex : ℕ} {current : Option Uuid}

theorem loaded_of_setQueue (h : (t.setQueue env tracks currentIndex current).2 = .ok ()) :
    (t.setQueue env tracks currentIndex current).1.engine.loaded = (tracks, t.engine.queuedTrack
      tracks (min (PlaybackEngine.resolvedIndex tracks currentIndex current)
        (tracks.length - 1))) := by
  have hqueue := congrArg Prod.fst (setQueue_ok env h)
  have htrack := congrArg Deck.currentTrack (Queue.deck_of_setQueue h)
  exact Prod.ext hqueue htrack

theorem stopped_of_failed_setQueue
    (h : (t.setQueue env tracks currentIndex current).2 = .error err) :
    t.running = false ∧ (t.setQueue env tracks currentIndex current).1.engine = t.engine := by
  grind [call_of_stopped, setQueue, setQueue_of_running]

theorem running_of_setQueue
    (h : (t.setQueue env tracks currentIndex current).2 = .ok ()) : t.running = true := by
  cases hrunning : t.running with
  | true => rfl
  | false =>
    have hcall := call_of_stopped env hrunning (.setQueue tracks currentIndex current .local)
    rw [setQueue, hcall] at h
    cases h

end EngineTask

end MichiServer.Playback

/-! ## The rows of the active queue -/

namespace MichiServer.Queue.QueueTables

variable {db db' : QueueTables} {q : Uuid} {row : QueueRow} {items : List QueueItem}

def activeItems (db : QueueTables) : List QueueItem :=
  match db.activeQueue with
  | some row => db.itemsOf row.id
  | none => []

theorem activeItems_of_some (h : db.activeQueue = some row) :
    db.activeItems = db.itemsOf row.id := by
  simp only [activeItems, h]

/-- Items of known queues can be inserted exactly where their ids are new. -/
theorem insertItems_ok_iff (howner : ∀ item ∈ items, item.queueId ∈ db.queues.map QueueRow.id) :
    (∃ db', db.insertItems items = .ok db') ↔ ((db.queueItems ++ items).map QueueItem.id).Nodup := by
  constructor
  · rintro ⟨db', h⟩
    rw [← (insertItems_spec h).2]
    exact db'.items_key
  · intro hfresh
    induction items generalizing db with
    | nil => exact ⟨db, rfl⟩
    | cons item rest ih =>
      have hkey : item.id ∉ db.queueItems.map QueueItem.id := by
        grind
      obtain ⟨mid, hmid⟩ : ∃ mid, db.insertItem item = .ok mid := by
        grind [insertItem]
      obtain ⟨hqueues, hitems⟩ := insertItem_spec hmid
      obtain ⟨db', hrest⟩ := @ih mid
        (fun other hother => hqueues ▸ howner other (List.mem_cons_of_mem _ hother))
        (by rwa [hitems, List.append_assoc, List.singleton_append])
      refine ⟨db', ?_⟩
      rw [insertItems, List.foldlM_cons, hmid]
      exact hrest

theorem itemsOf_replace {new_item : ℕ → Uuid} {tracks : List Uuid}
    (h : (db.deleteItems q).insertItems (numbered q new_item 0 tracks) = .ok db') :
    db'.itemsOf q = numbered q new_item 0 tracks := by
  have hrows : (db'.queueItems.filter fun item => item.queueId = q) =
      numbered q new_item 0 tracks := by
    rw [(insertItems_spec h).2, List.filter_append, filter_numbered_self, deleteItems]
    simp
  rw [itemsOf, hrows, (pairwise_numbered new_item 0 tracks).insertionSort_eq]

end MichiServer.Queue.QueueTables

/-! ## The marks of a commit -/

namespace MichiServer.Transfer

open MichiServer.Interleave MichiServer.Order MichiServer.Playback MichiServer.Queue

/-- What a commit acts on: the selected output, the active queue of the database with its rows, and
the queue and the track of the engine. -/
@[ext] structure PlaybackSetup where
  output : Option PlaybackOutputSelection
  activeQueue : Option QueueRow
  activeItems : List QueueItem
  loaded : List Track × Option Track
deriving DecidableEq

def Server.setup (s : Server) : PlaybackSetup :=
  ⟨s.playbackOutputSelection, s.db.activeQueue, s.db.activeItems, s.playbackEngine.engine.loaded⟩

namespace PendingPlaybackTransfer

variable (p : PendingPlaybackTransfer)

def rows (env : StepEnv) (queueId : Uuid) : List QueueItem :=
  QueueTables.numbered queueId (fun i => env.uuid (.item i)) 0 (p.queueTracks.map Track.id)

/-- The transaction of a commit goes through: the database is there, and the rows take no id of a row
of another queue, and no id twice. -/
def Installs (env : StepEnv) (queueId : Uuid) (db : QueueTables) : Prop :=
  env.dbFault = none ∧
    (((db.deleteItems queueId).queueItems ++ p.rows env queueId).map QueueItem.id).Nodup

instance (env : StepEnv) (queueId : Uuid) (db : QueueTables) : Decidable (p.Installs env queueId db) :=
  inferInstanceAs (Decidable (_ ∧ _))

def queued (e : PlaybackEngine) : Option Track :=
  e.queuedTrack p.queueTracks (min (PlaybackEngine.resolvedIndex p.queueTracks p.currentIndex
    (some p.currentTrack.id)) (p.queueTracks.length - 1))

/-- What the commit makes of the setup of a server whose active queue has been found. -/
def marked (env : StepEnv) (queueId : Uuid) (s : Server) : PlaybackSetup :=
  if p.Installs env queueId s.db then
    { s.setup with
      activeItems := p.rows env queueId
      loaded :=
        if s.playbackEngine.running then (p.queueTracks, p.queued s.playbackEngine.engine)
        else s.playbackEngine.engine.loaded }
  else s.setup

/-- The engine has what the commit gives it: the tracks, and a track of its own unless it plays. One
that does not run is given nothing. -/
def HasLoaded (t : EngineTask) : Prop :=
  t.running = true → t.engine.queue = p.queueTracks ∧
    (t.engine.currentTrack ≠ none ∨ t.engine.state.isPlaying = true)

/-- What a commit comes to write is there already. The output is selected; where the session starts
and the database is there, an active queue is as well, or the id of the new one is taken; and where the
transaction goes through, the queue has its rows and the engine its tracks. The environments are those
of the session, of the active queue and of the transaction. -/
def Unmarked (session active install : StepEnv) (s : Server) : Prop :=
  s.playbackOutputSelection = some (.receiver p.receiverMichiId) ∧
    (session.session.isOk = true → active.dbFault = none →
      (s.db.activeQueue = none → active.uuid .queue ∈ s.db.queues.map QueueRow.id) ∧
      ∀ row ∈ s.db.activeQueue, p.Installs install row.id s.db →
        s.db.activeItems = p.rows install row.id ∧ p.HasLoaded s.playbackEngine)

instance (t : EngineTask) : Decidable (p.HasLoaded t) := inferInstanceAs (Decidable (_ → _))

instance (session active install : StepEnv) (s : Server) :
    Decidable (p.Unmarked session active install s) := inferInstanceAs (Decidable (_ ∧ _))

variable {p} {e : PlaybackEngine}

theorem queued_eq_iff :
    p.queued e = e.currentTrack ↔ e.currentTrack ≠ none ∨ e.state.isPlaying = true := by
  have hentry := p.getElem?_resolvedIndex
  rw [List.getElem?_map] at hentry
  unfold queued PlaybackEngine.queuedTrack
  split
  next hvacant =>
    have hnone : e.currentTrack = none := Option.isNone_iff_eq_none.mp hvacant.2
    grind
  next htaken =>
    grind

theorem hasLoaded_iff {t : EngineTask} : p.HasLoaded t ↔
    (if t.running then (p.queueTracks, p.queued t.engine) else t.engine.loaded) =
      t.engine.loaded := by
  grind [HasLoaded, PlaybackEngine.loaded, queued_eq_iff]

theorem marked_eq_setup_iff {env : StepEnv} {queueId : Uuid} {s : Server} :
    p.marked env queueId s = s.setup ↔ (p.Installs env queueId s.db →
      s.db.activeItems = p.rows env queueId ∧ p.HasLoaded s.playbackEngine) := by
  unfold marked
  split
  next hinstalls =>
    rw [hasLoaded_iff, PlaybackSetup.ext_iff]
    exact ⟨fun h _ => ⟨h.2.2.1.symm, h.2.2.2⟩, fun h => ⟨rfl, rfl, (h hinstalls).1.symm, (h hinstalls).2⟩⟩
  next hnot => exact iff_of_true rfl fun h => absurd h hnot

theorem marked_activeQueue {env : StepEnv} {queueId : Uuid} {s : Server} :
    (p.marked env queueId s).activeQueue = s.db.activeQueue := by
  unfold marked
  split <;> rfl

end PendingPlaybackTransfer

/-! ### Steps that can fail -/

section Steps

variable {α β ε : Type} {Q : Except ApiError α → TransferWorld → Prop} {envs : ℕ → StepEnv}
  {w : TransferWorld}

theorem ends_attempt {onError : ε → ApiError} {a : TransferAct} {c : a.Resp → Except ε β}
    {f : β → TransferM α}
    (hok : ∀ b, c (exec 0 a (envs 0) w).1 = .ok b →
      Ends semantics 0 Q (f b) (fun n => envs (n + 1)) (exec 0 a (envs 0) w).2)
    (hfailed : ∀ e, c (exec 0 a (envs 0) w).1 = .error e →
      Q (.error (onError e)) (exec 0 a (envs 0) w).2) :
    Ends semantics 0 Q (attempt onError (.act a fun r => .ret (c r)) >>= f) envs w := by
  constructor
  have hrun : (attempt onError (.act a fun r => .ret (c r)) >>= f).run.solo semantics 0 envs w =
      (MonadExcept.ofExcept (m := TransferM) ((c (exec 0 a (envs 0) w).1).mapError onError) >>=
        f).run.solo semantics 0 (fun n => envs (n + 1)) (exec 0 a (envs 0) w).2 := rfl
  rw [hrun]
  cases hc : c (exec 0 a (envs 0) w).1 with
  | ok b => exact (hok b hc).ends
  | error e => exact hfailed e hc

theorem ends_rejectIf {c : Prop} [Decidable c] {error : ApiError} {f : Unit → TransferM α}
    (hyes : c → Q (.error error) w) (hno : ¬ c → Ends semantics 0 Q (f ()) envs w) :
    Ends semantics 0 Q (rejectIf c error >>= f) envs w := by
  unfold rejectIf
  by_cases hc : c
  · rw [if_pos hc]
    exact ⟨hyes hc⟩
  · rw [if_neg hc]
    exact ⟨(hno hc).ends⟩

theorem ends_require {x : Option β} {error : ApiError} {f : β → TransferM α}
    (hnone : x = none → Q (.error error) w) (hsome : ∀ b, x = some b → Ends semantics 0 Q (f b) envs w) :
    Ends semantics 0 Q (require x error >>= f) envs w := by
  cases x with
  | none => exact ⟨hnone rfl⟩
  | some b => exact ⟨(hsome b rfl).ends⟩

theorem ends_playbackEnabled {f : Unit → TransferM α}
    (hclosed : w.server.disabledModules.contains "playback" = true →
      Q (.error (v1Error 403 "MODULE_DISABLED" "playback module is currently disabled")) w)
    (hopen : ¬ w.server.disabledModules.contains "playback" = true →
      Ends semantics 0 Q (f ()) (fun n => envs (n + 1)) w) :
    Ends semantics 0 Q (playbackEnabled >>= f) envs w := by
  have hchecked := ends_rejectIf (c := w.server.disabledModules.contains "playback" = true) hclosed
    hopen
  have h : Ends semantics 0 Q (sure (.perform TransferAct.playbackDisabled) >>= fun disabled : Bool =>
      rejectIf (disabled = true) (v1Error 403 "MODULE_DISABLED"
        "playback module is currently disabled") >>= f) envs w :=
    .perform (a := TransferAct.playbackDisabled) (c := fun r => r) hchecked
  exact ⟨h.ends⟩

end Steps

/-! ### From the queue on -/

section Installing

variable (p : PendingPlaybackTransfer) {env : StepEnv} {envs : ℕ → StepEnv} {w : TransferWorld}
  {row : QueueRow}

/-- The transfer is installed, or the transaction fails. -/
theorem install_outcome (hrow : w.server.db.activeQueue = some row) :
    (p.Installs env row.id w.server.db ∧ ∃ db,
        w.transact env (replaceQueue env row.id p.queueTracks) =
          (.ok (), { w with server := { w.server with db := db } }) ∧
        db.activeQueue = some row ∧ db.activeItems = p.rows env row.id) ∨
      ¬ p.Installs env row.id w.server.db ∧
        (w.transact env (replaceQueue env row.id p.queueTracks)).2 = w ∧
        ∃ e, (w.transact env (replaceQueue env row.id p.queueTracks)).1 = .error e := by
  have howner : ∀ item ∈ p.rows env row.id,
      item.queueId ∈ (w.server.db.deleteItems row.id).queues.map QueueRow.id := by
    intro item hitem
    rw [QueueTables.numbered_queueId hitem]
    exact List.mem_map_of_mem (QueueTables.activeQueue_mem hrow).1
  have hok := QueueTables.insertItems_ok_iff howner
  unfold TransferWorld.transact replaceQueue PendingPlaybackTransfer.Installs
  cases hfault : env.dbFault with
  | some text => exact .inr ⟨fun h => absurd h.1 (by simp), rfl, _, rfl⟩
  | none =>
    cases hinsert : (w.server.db.deleteItems row.id).insertItems (p.rows env row.id) with
    | ok db =>
      refine .inl ⟨⟨rfl, hok.mp ⟨db, hinsert⟩⟩, db, ?_, ?_⟩
      · have hstatement : (w.server.db.deleteItems row.id).insertItems
            (QueueTables.numbered row.id (fun i => env.uuid (.item i)) 0
              (p.queueTracks.map Track.id)) = .ok db := hinsert
        simp only [hstatement, statement]
      · have hactive : db.activeQueue = some row :=
          (QueueTables.activeQueue_congr (QueueTables.insertItems_spec hinsert).1).trans hrow
        exact ⟨hactive, (QueueTables.activeItems_of_some hactive).trans
          (QueueTables.itemsOf_replace hinsert)⟩
    | error text =>
      have hstatement : (w.server.db.deleteItems row.id).insertItems
          (QueueTables.numbered row.id (fun i => env.uuid (.item i)) 0
            (p.queueTracks.map Track.id)) = .error text := hinsert
      grind [statement]

def installAndStart (queueId : Uuid) (sessionId : String) : TransferM String := do
  attempt id (.perform (TransferAct.installQueue queueId p.queueTracks))
  attempt (fun e => runtimeSyncFailed (PlaybackError.toString e))
    (.perform (TransferAct.setQueue p.queueTracks p.currentIndex (some p.currentTrack.id)))
  let plan : ResolvedOutputPlan ← attempt
    (fun e => v1Error 502 (PlaybackError.errorCode e) e.toString)
    (.perform (TransferAct.resolveOutput p.receiverMichiId))
  startTrack p plan
  pure sessionId

theorem setup_of_loaded {s : Server} {t : EngineTask}
    (h : t.engine.loaded = s.playbackEngine.engine.loaded) :
    Server.setup { s with playbackEngine := t } = s.setup :=
  PlaybackSetup.ext rfl rfl rfl h

theorem ends_startTrack {plan : ResolvedOutputPlan} {sessionId : String} :
    Ends semantics 0 (fun r w' => ∀ e, r = .error e → w'.server.setup = w.server.setup)
      (startTrack p plan >>= fun _ => pure sessionId) envs w := by
  unfold startTrack
  split
  · refine ends_attempt (a := .play p.currentTrack plan p.tailsync.positionMs) (c := fun r => r)
      (fun u hu => .pure nofun) fun err herr e he => ?_
    exact setup_of_loaded (EngineTask.loaded_of_failed_play herr)
  · refine ends_attempt (a := .loadTrack p.currentTrack p.tailsync.positionMs) (c := fun r => r)
      (fun u hu => .pure nofun) fun err herr e he => ?_
    exact setup_of_loaded (congrArg _ (EngineTask.engine_of_failed_load herr))

/-- Behind the installation the setup is the marked one. -/
theorem ends_installAndStart {sessionId : String} (hrow : w.server.db.activeQueue = some row) :
    Ends semantics 0 (fun r w' => ∀ e, r = .error e →
        w'.server.setup = p.marked (envs 0) row.id w.server)
      (installAndStart p row.id sessionId) envs w := by
  refine ends_attempt (a := .installQueue row.id p.queueTracks) (c := fun r => r)
    (fun u hu => ?_) fun err herr e he => ?_
  · rcases @install_outcome p (envs 0) w row hrow with ⟨hinstalls, db, hdone, hactive, hitems⟩ |
      ⟨-, -, e, hfailed⟩
    · show Ends _ _ _ _ _ (w.transact (envs 0) (replaceQueue (envs 0) row.id p.queueTracks)).2
      rw [hdone]
      have hmarked : ∀ t : EngineTask, t.engine.loaded = (if w.server.playbackEngine.running then
            (p.queueTracks, p.queued w.server.playbackEngine.engine)
          else w.server.playbackEngine.engine.loaded) →
          Server.setup { w.server with db := db, playbackEngine := t } =
            p.marked (envs 0) row.id w.server := by
        intro t ht
        rw [PendingPlaybackTransfer.marked, if_pos hinstalls]
        exact PlaybackSetup.ext rfl (hactive.trans hrow.symm) hitems ht
      refine ends_attempt (a := .setQueue p.queueTracks p.currentIndex (some p.currentTrack.id))
        (c := fun r => r) (fun u hset => ?_) fun err herr e he => hmarked _ ?_
      · have htaken := hmarked _ (((EngineTask.loaded_of_setQueue hset)).trans
          (if_pos (EngineTask.running_of_setQueue hset)).symm)
        refine ends_attempt (a := .resolveOutput p.receiverMichiId) (c := fun r => r)
          (fun plan hplan => ?_) fun err herr e he => htaken
        exact (ends_startTrack p).mono fun r w' h e he => (h e he).trans htaken
      · obtain ⟨hrunning, hsame⟩ := EngineTask.stopped_of_failed_setQueue herr
        grind [PlaybackEngine.loaded]
    · cases hfailed.symm.trans hu
  · rcases @install_outcome p (envs 0) w row hrow with ⟨-, db, hdone, -⟩ | ⟨hnot, hsame, -⟩
    · have hok := congrArg Prod.fst hdone
      cases hok.symm.trans herr
    · rw [PendingPlaybackTransfer.marked, if_neg hnot]
      exact congrArg (fun w => w.server.setup) hsame

/-! ### A whole commit -/

/-- The active queue is found, or created, or the search fails. -/
theorem find_outcome {env : StepEnv} {w : TransferWorld} :
    (env.dbFault = none ∧ ∃ row, w.server.db.activeQueue = some row ∧
        w.transact env (findOrCreate env.request) = (.ok row.id, w)) ∨
      (env.dbFault = none ∧ w.server.db.activeQueue = none ∧
        env.uuid .queue ∉ w.server.db.queues.map QueueRow.id ∧ ∃ db row,
        w.transact env (findOrCreate env.request) =
          (.ok row.id, { w with server := { w.server with db := db } }) ∧
        db.activeQueue = some row) ∨
      (env.dbFault = none → w.server.db.activeQueue = none ∧
        env.uuid .queue ∈ w.server.db.queues.map QueueRow.id) ∧
        ∃ e, w.transact env (findOrCreate env.request) = (.error e, w) := by
  unfold TransferWorld.transact
  cases hfault : env.dbFault with
  | some text => exact .inr (.inr ⟨nofun, _, rfl⟩)
  | none =>
    cases hactive : w.server.db.activeQueue with
    | some row =>
      have hfound : findOrCreate env.request w.server.db = .ok (w.server.db, row.id) := by
        rw [findOrCreate, hactive]
      exact .inl ⟨rfl, row, rfl, by simp only [hfound]⟩
    | none =>
      have hmade : findOrCreate env.request w.server.db = statement (w.server.db.insertQueue
          ⟨env.uuid .queue, activeQueueName, env.utcNow⟩) (env.uuid .queue) := by
        rw [findOrCreate, hactive]
        rfl
      cases hinsert : w.server.db.insertQueue ⟨env.uuid .queue, activeQueueName, env.utcNow⟩ with
      | ok db =>
        have hfound : findOrCreate env.request w.server.db = .ok (db, env.uuid .queue) := by
          rw [hmade, hinsert, statement]
        obtain ⟨row, hrow, hid⟩ := (findOrCreate_spec hfound).1
        refine .inr (.inl ⟨rfl, rfl, (QueueTables.insertQueue_spec hinsert).1, db, row, ?_, hrow⟩)
        simp only [hfound, hid]
      | error text =>
        refine .inr (.inr ⟨fun _ => ⟨rfl, by_contra fun hfresh => ?_⟩, databaseError text, ?_⟩)
        · grind [QueueTables.insertQueue]
        · simp only [hmade, hinsert, statement]

def selected (s : Server) : Server :=
  { s with playbackOutputSelection := some (.receiver p.receiverMichiId) }

theorem setup_selected_iff {s : Server} : (selected p s).setup = s.setup ↔
    s.playbackOutputSelection = some (.receiver p.receiverMichiId) :=
  ⟨fun h => (congrArg PlaybackSetup.output h).symm, fun h => PlaybackSetup.ext h.symm rfl rfl rfl⟩

theorem marked_selected_iff {env : StepEnv} {queueId : Uuid} {s : Server} :
    p.marked env queueId (selected p s) = s.setup ↔
      s.playbackOutputSelection = some (.receiver p.receiverMichiId) ∧
        (p.Installs env queueId s.db →
          s.db.activeItems = p.rows env queueId ∧ p.HasLoaded s.playbackEngine) := by
  have houtput : (p.marked env queueId (selected p s)).output =
      some (.receiver p.receiverMichiId) := by
    unfold PendingPlaybackTransfer.marked
    split <;> rfl
  constructor
  · intro h
    have hselected : s.playbackOutputSelection = some (.receiver p.receiverMichiId) := by
      rw [← houtput, h]
      rfl
    grind [setup_selected_iff, PendingPlaybackTransfer.marked_eq_setup_iff, selected]
  · grind [setup_selected_iff, PendingPlaybackTransfer.marked_eq_setup_iff, selected]

/-- A transfer that fails leaves no trace exactly where it has not marked anything. -/
theorem ends_applyTransfer (grant : AuthorityGrant) :
    Ends semantics 0 (fun r w' => ∀ e, r = .error e → (w'.server.setup = w.server.setup ↔
        p.Unmarked (envs 1) (envs 2) (envs 3) w.server)) (applyTransfer p grant) envs w := by
  unfold applyTransfer
  refine .perform (a := TransferAct.selectOutput (.receiver p.receiverMichiId)) (c := fun r => r) ?_
  refine ends_attempt (a := .startSession p.receiverMichiId grant) (c := fun r => r)
    (fun sessionId hsession => ?_) fun err hfailed e he => ?_
  · have hsession : (envs 1).session = .ok sessionId := hsession
    show Ends _ _ _ _ _ { w with server := selected p w.server }
    unfold PendingPlaybackTransfer.Unmarked
    refine ends_attempt (a := .getOrCreateActiveQueue) (c := fun r => r)
      (fun queueId hfound => ?_) fun err hfailed e he => ?_
    · rcases @find_outcome (envs 2) { w with server := selected p w.server } with
        ⟨hfault, row, hrow, hdone⟩ | ⟨hfault, hnone, hfresh, db, row, hdone, hrow⟩ | ⟨-, e, hdone⟩
      · have hid : queueId = row.id := Except.ok.inj (hfound.symm.trans (congrArg Prod.fst hdone))
        rw [hid]
        show Ends _ _ _ (installAndStart p row.id sessionId) _
          (TransferWorld.transact (envs 2) (findOrCreate (envs 2).request) _).2
        rw [hdone]
        refine (ends_installAndStart p hrow).mono fun r w' h e he => ?_
        rw [h e he]
        refine (marked_selected_iff p).trans (and_congr_right fun _ => ⟨fun h _ _ => ⟨fun hnone => ?_,
          fun row' hrow' => ?_⟩, fun h => (h (by rw [hsession]; rfl) hfault).2 row hrow⟩)
        · cases hnone.symm.trans hrow
        · cases hrow'.symm.trans hrow
          exact h
      · have hid : queueId = row.id := Except.ok.inj (hfound.symm.trans (congrArg Prod.fst hdone))
        rw [hid]
        show Ends _ _ _ (installAndStart p row.id sessionId) _
          (TransferWorld.transact (envs 2) (findOrCreate (envs 2).request) _).2
        rw [hdone]
        refine (ends_installAndStart p hrow).mono fun r w' h e he => ?_
        rw [h e he]
        refine iff_of_false (fun hsame => ?_) fun hwas => ?_
        · have hqueue := congrArg PlaybackSetup.activeQueue hsame
          rw [PendingPlaybackTransfer.marked_activeQueue] at hqueue
          cases hnone.symm.trans (hqueue.symm.trans hrow)
        · exact hfresh ((hwas.2 (by rw [hsession]; rfl) hfault).1 hnone)
      · cases (congrArg Prod.fst hdone).symm.trans hfound
    · rcases @find_outcome (envs 2) { w with server := selected p w.server } with
        ⟨-, row, -, hdone⟩ | ⟨-, -, -, db, row, hdone, -⟩ | ⟨hwhy, e, hdone⟩
      · cases (congrArg Prod.fst hdone).symm.trans hfailed
      · cases (congrArg Prod.fst hdone).symm.trans hfailed
      · show (TransferWorld.transact (envs 2) (findOrCreate (envs 2).request) _).2.server.setup = _ ↔ _
        rw [hdone]
        refine (setup_selected_iff p).trans ⟨fun h => ⟨h, fun _ hfault => ?_⟩, fun h => h.1⟩
        obtain ⟨hnone, htaken⟩ := hwhy hfault
        exact ⟨fun _ => htaken, fun row hrow => nomatch hnone.symm.trans hrow⟩
  · have hfailed : (envs 1).session = .error err := hfailed
    refine (setup_selected_iff p).trans ⟨fun h => ⟨h, fun hok => ?_⟩, fun h => h.1⟩
    rw [hfailed] at hok
    cases hok

end Installing

/-- A commit that fails leaves no trace: it is stopped before its first step, or what it comes to
write is there already. -/
def PlaybackTransferCommitRequest.Traceless (body : PlaybackTransferCommitRequest)
    (envs : ℕ → StepEnv) (w : TransferWorld) : Prop :=
  w.server.disabledModules.contains "playback" = true ∨
    Receivers.Trust.trim body.grant.grantToken = "" ∨
    ∀ p ∈ w.get body.transferId, p.Unmarked (envs 3) (envs 4) (envs 5) w.server

instance (body : PlaybackTransferCommitRequest) (envs : ℕ → StepEnv) (w : TransferWorld) :
    Decidable (body.Traceless envs w) := inferInstanceAs (Decidable (_ ∨ _ ∨ _))

/-- A commit that fails leaves no trace exactly where it is traceless. -/
theorem ends_commit (body : PlaybackTransferCommitRequest) (envs : ℕ → StepEnv) (w : TransferWorld) :
    Ends semantics 0 (fun r w' => ∀ e, r = .error e →
      (w'.server.setup = w.server.setup ↔ body.Traceless envs w))
      (playbackTransferCommitHandler body) envs w := by
  unfold playbackTransferCommitHandler
  refine ends_playbackEnabled (fun hdisabled e he => iff_of_true rfl (.inl hdisabled))
    fun henabled => ?_
  refine .perform (a := TransferAct.get body.transferId) (c := fun r => r) ?_
  refine ends_require (fun hnone e he => iff_of_true rfl (.inr (.inr ?_))) fun p hloaded => ?_
  · exact fun p hp => nomatch (hnone : w.get body.transferId = none).symm.trans hp
  refine ends_rejectIf (fun hblank e he => iff_of_true rfl (.inr (.inl hblank))) fun htoken => ?_
  refine .bind (fun err hfailed e he => ?_) fun sessionId done hdone => ?_
  · refine ((ends_applyTransfer p body.grant).ends err hfailed).trans ?_
    have hloaded : w.get body.transferId = some p := hloaded
    constructor
    · intro hp
      refine .inr (.inr fun p' hp' => ?_)
      cases hloaded.symm.trans hp'
      exact hp
    · rintro (hdisabled | hblank | hp)
      · exact absurd hdisabled henabled
      · exact absurd hblank htoken
      · exact hp p hloaded
  · exact .perform (a := TransferAct.remove body.transferId) (c := fun r => r) (.pure nofun)

theorem solo_answered (body : TransferM TransferResponse) (envs : ℕ → StepEnv) (w : TransferWorld) :
    ((answered body).solo semantics 0 envs w).1 = (body.run.solo semantics 0 envs w).1 ∧
      ((answered body).solo semantics 0 envs w).2.server =
        (body.run.solo semantics 0 envs w).2.server := by
  obtain ⟨done, hdone⟩ := @Prog.solo_bind _ _ _ _ _ _ _ semantics 0 body.run (fun answer => do
    let _ ← Prog.perform (TransferAct.respond answer)
    pure answer) envs w
  have hrun : (answered body).solo semantics 0 envs w = _ := hdone
  rw [hrun]
  exact ⟨rfl, rfl⟩

/-- A commit that fails leaves the selected output, the active queue and the engine's queue and track
as they were exactly if it was stopped before its first step, or wrote what was there. -/
theorem failed_commit_leaves_no_trace_iff {body : PlaybackTransferCommitRequest}
    {envs : ℕ → StepEnv} {w : TransferWorld} {e : ApiError}
    (h : ((TransferCall.commit body).alone envs w).1 = .error e) :
    ((TransferCall.commit body).alone envs w).2.server.setup = w.server.setup ↔
      body.Traceless envs w := by
  obtain ⟨hanswer, hserver⟩ := solo_answered (playbackTransferCommitHandler body) envs w
  have hsetup := (ends_commit body envs w).ends e (hanswer.symm.trans h)
  rw [← hsetup]
  exact iff_of_eq (congrArg (fun s : Server => s.setup = w.server.setup) hserver)

/-! ### A receiver that cannot be reached -/

def samplePrepared (output : Option PlaybackOutputSelection) : TransferWorld :=
  let w := ((TransferCall.prepare sampleIdentity sampleBody).alone sampleEnvs
    (sampleWorld [1, 2, 3])).2
  { w with server := { w.server with playbackOutputSelection := output } }

def unreachableEnvs (n : ℕ) : StepEnv :=
  { sampleEnvs n with session := .error "connection refused" }

/-- Where the receiver is selected already, a commit that does not reach it leaves no trace. -/
theorem failed_commit_leaves_no_trace_iff_selected :
    ((TransferCall.commit sampleCommit).alone unreachableEnvs
        (samplePrepared (some (.receiver "kitchen")))).2.server.setup =
      (samplePrepared (some (.receiver "kitchen"))).server.setup := by
  have hfailed : ((TransferCall.commit sampleCommit).alone unreachableEnvs
      (samplePrepared (some (.receiver "kitchen")))).1 =
        .error (v1Error 502 "RECEIVER_SESSION_FAILED"
          "failed to start receiver session with authority grant: connection refused") := by
    decide +kernel
  exact (failed_commit_leaves_no_trace_iff hfailed).mpr (by decide +kernel)

/-- Where another output was selected, it is the receiver's now. -/
theorem failed_commit_takes_output :
    ¬ ∀ (body : PlaybackTransferCommitRequest) (envs : ℕ → StepEnv) (w : TransferWorld) (e : ApiError),
      ((TransferCall.commit body).alone envs w).1 = .error e →
      ((TransferCall.commit body).alone envs w).2.server.setup = w.server.setup := by
  intro h
  have hfailed : ((TransferCall.commit sampleCommit).alone unreachableEnvs
      (samplePrepared none)).1 = .error (v1Error 502 "RECEIVER_SESSION_FAILED"
        "failed to start receiver session with authority grant: connection refused") := by
    decide +kernel
  have houtput : ((TransferCall.commit sampleCommit).alone unreachableEnvs
      (samplePrepared none)).2.server.playbackOutputSelection = some (.receiver "kitchen") := by
    decide +kernel
  have hbefore : (samplePrepared none).server.playbackOutputSelection = none := rfl
  have hsame := congrArg PlaybackSetup.output (h _ _ _ _ hfailed)
  cases houtput.symm.trans (hsame.trans hbefore)

end MichiServer.Transfer
