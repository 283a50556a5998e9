import MichiServer.Order.Kept
import MichiServer.Queue.ActiveQueue
import MichiServer.Transfer.Routes

/-!
# The track a commit plays

A transfer names its current track twice: by itself, and by an index into its queue. Preparing it keeps
the entries of the queue that resolve, and leaves the index as it was; committing it starts the kept
entry at that index. So the engine is on the current track when the index still points to it.
-/

namespace MichiServer.Transfer

open MichiServer.Interleave MichiServer.Order MichiServer.Playback MichiServer.Queue

/-- The engine is on the track, and its place in the queue is that of the track's entry in the stored
active queue. -/
def TransferWorld.Plays (w : TransferWorld) (id : Uuid) : Prop :=
  w.server.playbackEngine.engine.trackId = some id ∧
    w.server.db.activeTracks[w.server.playbackEngine.engine.queueIndex]? = some id

instance (w : TransferWorld) (id : Uuid) : Decidable (w.Plays id) :=
  inferInstanceAs (Decidable (_ ∧ _))

/-- Among the tracks that resolve, the one at the index, or the last one before it, is the track; or
none resolves. -/
def Aligned (resolved : List Track) (queueIndex : ℕ) (id : Uuid) : Prop :=
  resolved = [] ∨ ∃ t, resolved[min queueIndex (resolved.length - 1)]? = some t ∧ t.id = id

/-! ## The tracks of a transfer -/

namespace PendingPlaybackTransfer

variable (p : PendingPlaybackTransfer)

theorem queueTracks_ne_nil : p.queueTracks ≠ [] := by
  grind [queueTracks]

theorem getElem?_currentIndex : p.queueTracks[p.currentIndex]? = some p.currentTrack := by
  have hpos : 0 < p.queueTracks.length := List.length_pos_of_ne_nil p.queueTracks_ne_nil
  grind [currentIndex, currentTrack]

theorem getElem?_resolvedIndex :
    (p.queueTracks.map Track.id)[min (PlaybackEngine.resolvedIndex p.queueTracks p.currentIndex
      (some p.currentTrack.id)) (p.queueTracks.length - 1)]? = some p.currentTrack.id :=
  PlaybackEngine.getElem?_resolvedIndex p.currentIndex
    (List.mem_map_of_mem (List.mem_of_getElem? p.getElem?_currentIndex))

theorem currentTrack_id_eq_iff :
    p.currentTrack.id = p.preparedCurrentTrack.id ↔
      Aligned p.preparedQueue p.tailsync.queueIndex p.preparedCurrentTrack.id := by
  have hcurrent := p.getElem?_currentIndex
  grind [Aligned, queueTracks, currentIndex]

end PendingPlaybackTransfer

/-! ## Routes with nothing in between -/

section Quiet

variable {α ε : Type} {w : TransferWorld}

/-- A result of the route, run with nothing in between, comes with `Q`. -/
abbrev Quietly (Q : α → TransferWorld → Prop) (x : TransferM α) (w : TransferWorld) : Prop :=
  Yields (Discipline.quiet StepEnv TransferWorld) semantics 0 Q x w

theorem quietly_playbackEnabled : Quietly (fun _ w' => w' = w) playbackEnabled w := by
  refine .bind (.lift (.quiet fun _ => rfl)) fun disabled w' (hw : w' = w) => ?_
  rw [hw]
  exact yields_rejectIf

theorem transact_ok {env : StepEnv} {f : QueueTables → Except ApiError (QueueTables × α)} {a : α}
    (h : (w.transact env f).1 = .ok a) :
    ∃ db, f w.server.db = .ok (db, a) ∧ (w.transact env f).2.server.db = db := by
  grind [TransferWorld.transact]

/-! ### Committing -/

/-- The stored queue and the engine's are the installed tracks, and the engine is at the place of the
started one. -/
structure Installed (p : PendingPlaybackTransfer) (w : TransferWorld) : Prop where
  stored : w.server.db.activeTracks = p.queueTracks.map Track.id
  place : w.server.playbackEngine.engine.place =
    (p.queueTracks, min (PlaybackEngine.resolvedIndex p.queueTracks p.currentIndex
      (some p.currentTrack.id)) (p.queueTracks.length - 1))

variable (p : PendingPlaybackTransfer)

theorem quietly_setQueue (h : w.server.db.activeTracks = p.queueTracks.map Track.id) :
    Quietly (fun _ w' => Installed p w')
      (attempt (fun e => runtimeSyncFailed (PlaybackError.toString e))
        (.perform (TransferAct.setQueue p.queueTracks p.currentIndex
          (some p.currentTrack.id)))) w := by
  refine yields_attempt (.quiet fun env u hu => ⟨h, ?_⟩)
  exact EngineTask.setQueue_ok env.engine hu

theorem quietly_startTrack {plan : ResolvedOutputPlan} (h : Installed p w) :
    Quietly (fun _ w' => Installed p w' ∧
      w'.server.playbackEngine.engine.currentTrack = some p.currentTrack) (startTrack p plan) w := by
  refine .ite (fun _ => ?_) fun _ => ?_
  · refine yields_attempt (.quiet fun env u hu => ?_)
    obtain ⟨htrack, hplace⟩ := EngineTask.play_ok env.engine hu
    exact ⟨⟨h.stored, hplace.trans h.place⟩, htrack⟩
  · refine yields_attempt (.quiet fun env u hu => ?_)
    obtain ⟨htrack, hplace⟩ := EngineTask.loadTrack_ok env.engine hu
    exact ⟨⟨h.stored, hplace.trans h.place⟩, htrack⟩

theorem Installed.plays_iff {id : Uuid} (h : Installed p w)
    (htrack : w.server.playbackEngine.engine.currentTrack = some p.currentTrack) :
    w.Plays id ↔ p.currentTrack.id = id := by
  have hindex : w.server.playbackEngine.engine.queueIndex =
      min (PlaybackEngine.resolvedIndex p.queueTracks p.currentIndex
        (some p.currentTrack.id)) (p.queueTracks.length - 1) := congrArg Prod.snd h.place
  unfold TransferWorld.Plays
  rw [PlaybackEngine.trackId, htrack, h.stored, hindex, p.getElem?_resolvedIndex]
  simp

/-- A transfer that is applied plays its current track. -/
theorem quietly_applyTransfer (grant : AuthorityGrant) :
    Quietly (fun _ w' => ∀ id, w'.Plays id ↔ p.currentTrack.id = id) (applyTransfer p grant) w := by
  unfold applyTransfer
  refine .bind (.lift (.quiet (Q := fun _ _ => True) fun _ => trivial)) fun _ _ _ => ?_
  refine .bind (yields_attempt (Q := fun _ _ => True) (.quiet fun _ _ _ => trivial)) fun sessionId w₁ _ => ?_
  refine .bind (Q := fun q w' => w'.server.db.IsActive q)
    (yields_attempt (.quiet fun env q hq => ?_)) fun q w₂ hactive => ?_
  · obtain ⟨db, hfound, hdb⟩ := transact_ok hq
    have hspec := findOrCreate_spec hfound
    exact hdb ▸ hspec.1
  refine .bind (Q := fun _ w' => w'.server.db.activeTracks = p.queueTracks.map Track.id)
    (yields_attempt (.quiet fun env u hu => ?_)) fun _ w₃ hstored => ?_
  · obtain ⟨db, hreplaced, hdb⟩ := transact_ok hu
    have hstatement := (statement_eq_ok hreplaced).1
    exact hdb ▸ (replaceItems_spec hactive hstatement).2
  refine .bind (quietly_setQueue p hstored) fun _ w₄ hinstalled => ?_
  refine .bind (Q := fun _ w' => Installed p w')
    (yields_attempt (.quiet fun _ _ _ => hinstalled)) fun plan w₅ hinstalled => ?_
  refine .bind (quietly_startTrack p hinstalled) fun _ w₆ hstarted => ?_
  exact .pure fun id => hstarted.1.plays_iff p hstarted.2

theorem quietly_commit (body : PlaybackTransferCommitRequest) :
    Quietly (fun _ w' => ∃ p, w.pendingTransfers body.transferId = some p ∧
      ∀ id, w'.Plays id ↔ p.currentTrack.id = id) (playbackTransferCommitHandler body) w := by
  refine .bind quietly_playbackEnabled fun _ w₁ h₁ => ?_
  rw [h₁]
  refine .bind (.lift (.quiet (a := TransferAct.get body.transferId)
    (Q := fun loaded w' => loaded = w.get body.transferId ∧ w' = w)
    fun _ => ⟨rfl, rfl⟩)) fun loaded w₂ h₂ => ?_
  rw [h₂.1, h₂.2]
  refine .bind yields_require fun p w₃ h₃ => ?_
  have hpending : w.pendingTransfers body.transferId = some p :=
    (Option.filter_eq_some_iff.mp h₃.1).1
  refine .bind yields_rejectIf fun _ w₄ _ => ?_
  refine .bind (quietly_applyTransfer p body.grant) fun sessionId w₅ hplays => ?_
  refine .bind (.lift (.quiet (Q := fun _ w' => ∀ id, w'.Plays id ↔ p.currentTrack.id = id)
    fun _ => hplays)) fun _ w₆ hplays => ?_
  exact .pure ⟨p, hpending, hplays⟩

/-! ### Preparing -/

theorem quietly_resolveQueue (queue : List ContentRefV1) :
    Quietly (fun tracks w' => tracks = queue.filterMap w.server.catalog.resolved ∧ w' = w)
      (resolveQueue queue) w := by
  induction queue with
  | nil => exact .pure ⟨rfl, rfl⟩
  | cons qref rest ih =>
    refine .bind (.lift (.quiet (a := TransferAct.resolve qref)
      (Q := fun r w' => r = w.server.catalog.resolve qref ∧ w' = w)
      fun _ => ⟨rfl, rfl⟩)) fun r w₁ h₁ => ?_
    rw [h₁.1, h₁.2]
    refine .bind ih fun others w₂ h₂ => ?_
    rw [h₂.1, h₂.2, List.filterMap_cons, Catalog.resolved]
    cases w.server.catalog.resolve qref with
    | ok track => exact .pure ⟨rfl, rfl⟩
    | error e => exact .pure ⟨rfl, rfl⟩

theorem quietly_checkedReceiver (receiverMichiId : String) :
    Quietly (fun _ w' => w' = w) (checkedReceiver receiverMichiId) w := by
  refine .bind (.lift (.quiet (a := TransferAct.findReceiver receiverMichiId)
    (Q := fun _ w' => w' = w) fun _ => rfl)) fun found w₁ h₁ => ?_
  rw [h₁]
  refine .bind yields_require fun receiver w₂ h₂ => ?_
  rw [h₂.2]
  refine .bind yields_rejectIf fun _ w₃ h₃ => ?_
  rw [h₃]
  refine .bind yields_rejectIf fun _ w₄ h₄ => ?_
  exact .pure h₄

theorem quietly_expectedEpoch (receiver : ReceiverRecord) :
    Quietly (fun _ w' => w' = w) (expectedEpoch receiver) w := by
  refine .ite (fun _ => ?_) fun _ => .pure rfl
  refine .bind (Q := fun _ w' => w' = w) (yields_attempt (.quiet fun _ _ _ => rfl))
    fun st w₁ h₁ => ?_
  rw [h₁]
  cases st with
  | some leaseEpoch => exact .pure rfl
  | none =>
    refine .bind (.lift (.quiet (a := TransferAct.getGrant receiver.receiverId)
      (Q := fun _ w' => w' = w) fun _ => rfl)) fun grant w₂ h₂ => ?_
    rw [h₂]
    refine .bind yields_require fun leaseEpoch w₃ h₃ => ?_
    exact .pure h₃.2

/-- What is prepared is the current track, resolved. -/
theorem quietly_prepare (identity : Identity) (body : PlaybackTransferPrepareRequest) :
    Quietly (fun _ w' => ∃ p current, w'.pendingTransfers body.transferId = some p ∧
        w.server.catalog.resolve body.tailsync.currentTrack = .ok current ∧
        p.preparedCurrentTrack = current ∧ p.tailsync = body.tailsync ∧
        p.preparedQueue = body.tailsync.queue.filterMap w.server.catalog.resolved)
      (playbackTransferPrepareHandler identity body) w := by
  refine .bind quietly_playbackEnabled fun _ w₁ h₁ => ?_
  rw [h₁]
  refine .bind (Q := fun _ w' => w' = w) (.ofExcept fun _ _ => rfl) fun _ w₂ h₂ => ?_
  rw [h₂]
  refine .bind yields_rejectIf fun _ w₃ h₃ => ?_
  rw [h₃]
  refine .bind (quietly_checkedReceiver body.receiverMichiId) fun receiver w₄ h₄ => ?_
  rw [h₄]
  refine .bind (Q := fun current w' =>
    w.server.catalog.resolve body.tailsync.currentTrack = .ok current ∧ w' = w)
    (yields_attempt (.quiet fun _ current hcurrent => ⟨hcurrent, rfl⟩)) fun current w₅ h₅ => ?_
  rw [h₅.2]
  refine .bind (Q := fun _ w' => w' = w) (yields_attempt (.quiet fun _ _ _ => rfl)) fun _ w₆ h₆ => ?_
  rw [h₆]
  refine .bind (quietly_resolveQueue body.tailsync.queue) fun preparedQueue w₇ h₇ => ?_
  rw [h₇.2]
  refine .bind yields_require fun nonce w₈ h₈ => ?_
  rw [h₈.2]
  refine .bind (quietly_expectedEpoch receiver) fun epoch w₉ h₉ => ?_
  rw [h₉]
  refine .bind (Q := fun _ w' => ∃ p, w'.pendingTransfers body.transferId = some p ∧
    p.preparedCurrentTrack = current ∧ p.tailsync = body.tailsync ∧
    p.preparedQueue = preparedQueue) (.lift (.quiet fun env => ?_)) fun _ w₁₀ h₁₀ => ?_
  · exact ⟨_, Function.update_self .., rfl, rfl, rfl⟩
  · obtain ⟨p, hpending, hcurrent, htailsync, hqueue⟩ := h₁₀
    exact .pure ⟨p, current, hpending, h₅.1, hcurrent, htailsync, hqueue.trans h₇.1⟩

theorem quietly_answered {body : TransferM TransferResponse}
    {Q : TransferResponse → TransferWorld → Prop} (h : Quietly Q body w)
    (hanswers : ∀ r w' answers, Q r w' → Q r { w' with answers := answers }) {envs : ℕ → StepEnv}
    {r : TransferResponse} (hr : ((answered body).solo semantics 0 envs w).1 = .ok r) :
    Q r ((answered body).solo semantics 0 envs w).2 := by
  have houtline : Outline (Discipline.quiet StepEnv TransferWorld) semantics 0
      (fun answer w' => ∀ r, answer = .ok r → Q r w') (answered body) w := by
    refine .bind (h.outline.mono fun answer w' hanswer => ?_)
    refine .bind (Outline.quiet (a := TransferAct.respond answer) fun env => ?_)
    exact fun r hr => hanswers r w' _ (hanswer r hr)
  exact houtline.solo_quiet r hr

end Quiet

/-! ## The current track -/

/-- A transfer is prepared, and later committed as it was prepared. The engine then plays the current
track exactly if the index, among the entries of the queue that resolved, points to it. In a queue of
distinct tracks whose entry at the index is the current track, that is when all entries before it
resolved, or none after it did. -/
theorem commit_plays_current_track_iff {identity : Identity} {body : PlaybackTransferPrepareRequest}
    {commit : PlaybackTransferCommitRequest} {envs envs' : ℕ → StepEnv} {w w₀ : TransferWorld}
    {ready done : TransferResponse}
    (hprepare : ((TransferCall.prepare identity body).alone envs w₀).1 = .ok ready)
    (hid : commit.transferId = body.transferId)
    (hpending : w.pendingTransfers body.transferId =
      ((TransferCall.prepare identity body).alone envs w₀).2.pendingTransfers body.transferId)
    (hcommit : ((TransferCall.commit commit).alone envs' w).1 = .ok done) :
    ∃ current, w₀.server.catalog.resolve body.tailsync.currentTrack = .ok current ∧
      (((TransferCall.commit commit).alone envs' w).2.Plays current.id ↔
        Aligned (body.tailsync.queue.filterMap w₀.server.catalog.resolved)
          body.tailsync.queueIndex current.id) ∧
      ∀ entry, body.tailsync.queue[body.tailsync.queueIndex]? = some entry →
        w₀.server.catalog.resolved entry = some current →
        ((body.tailsync.queue.filterMap w₀.server.catalog.resolved).map Track.id).Nodup →
        (((TransferCall.commit commit).alone envs' w).2.Plays current.id ↔
          (∀ e ∈ body.tailsync.queue.take body.tailsync.queueIndex,
            (w₀.server.catalog.resolved e).isSome) ∨
          ∀ e ∈ body.tailsync.queue.drop (body.tailsync.queueIndex + 1),
            w₀.server.catalog.resolved e = none) := by
  obtain ⟨p, current, hstored, hresolve, hcurrent, htailsync, hqueue⟩ :=
    quietly_answered (quietly_prepare identity body) (fun _ _ _ h => h) hprepare
  obtain ⟨p', hloaded, hplays⟩ :=
    quietly_answered (quietly_commit commit) (fun _ _ _ h => h) hcommit
  have hsame : p' = p := by
    rw [hid, hpending] at hloaded
    exact Option.some.inj (hloaded.symm.trans hstored)
  have haligned : ((TransferCall.commit commit).alone envs' w).2.Plays current.id ↔
      Aligned (body.tailsync.queue.filterMap w₀.server.catalog.resolved)
        body.tailsync.queueIndex current.id := by
    rw [← hqueue, ← htailsync, ← hcurrent, ← p.currentTrack_id_eq_iff, ← hsame]
    exact hplays _
  refine ⟨current, hresolve, haligned, fun entry hentry hentryCurrent hnodup => ?_⟩
  rw [haligned, ← clamped_iff hnodup hentry hentryCurrent]
  refine or_iff_right fun hnil => ?_
  have hkept := getElem?_keptBefore hentry hentryCurrent
  rw [hnil] at hkept
  cases hkept

/-! ### A transfer of three tracks -/

def sampleRef (trackId : String) : ContentRefV1 :=
  { trackId := some trackId, title := "Title", artist := "Artist", durationMs := 200000 }

def sampleBody : PlaybackTransferPrepareRequest where
  transferId := "transfer-1"
  sourceMichiId := "player"
  targetMichiId := "micro"
  receiverMichiId := "kitchen"
  nonce := some "nonce-1"
  tailsync := {
    transferId := "transfer-1"
    sourceMichiId := "player"
    targetMichiId := "micro"
    receiverMichiId := "kitchen"
    status := "paused"
    positionMs := 15000
    currentTrack := sampleRef "2"
    queue := [sampleRef "1", sampleRef "2", sampleRef "3"]
    queueIndex := 1
    timestampMs := 0 }

def sampleCommit : PlaybackTransferCommitRequest where
  transferId := "transfer-1"
  grant := ⟨"instance-1", 1, "token", 0⟩

def sampleIdentity : Identity where
  michiId := "micro"

def sampleWorld (ids : List Uuid) : TransferWorld where
  server := {
    identity := sampleIdentity
    receivers := [{ receiverId := "kitchen", paired := true, presence := .verifiedOnline }]
    catalog := {
      tracks := ids.map fun id => { track := ⟨id, "/music/a.flac", some 200000⟩ }
      parseUuid := fun text =>
        if text = "1" then some 1 else if text = "2" then some 2
        else if text = "3" then some 3 else none }
    playbackEngine := { engine := .new {} 0 } }

def sampleEnvs (_ : ℕ) : StepEnv where
  uuid drawn :=
    match drawn with
    | .item i => i
    | _ => 0
  session := .ok "session-1"

/-- The sample transfer, prepared and committed at a server whose library has the tracks of these
ids. -/
def sampleCommitted (ids : List Uuid) : Answer × TransferWorld :=
  (TransferCall.commit sampleCommit).alone sampleEnvs
    ((TransferCall.prepare sampleIdentity sampleBody).alone sampleEnvs (sampleWorld ids)).2

/-- Where all three tracks are there, the second one plays. -/
theorem commit_plays_current_track_iff_sample :
    (sampleCommitted [1, 2, 3]).2.Plays 2 := by
  have hprepare : ((TransferCall.prepare sampleIdentity sampleBody).alone sampleEnvs
      (sampleWorld [1, 2, 3])).1 = .ok (.ready "transfer-1" "micro"
        "transfer-1:player:micro:kitchen:1:nonce-1" 2 3 15) := by decide +kernel
  have hcommit : ((TransferCall.commit sampleCommit).alone sampleEnvs
      ((TransferCall.prepare sampleIdentity sampleBody).alone sampleEnvs
        (sampleWorld [1, 2, 3])).2).1 = .ok (.committed "transfer-1" "session-1") := by
    decide +kernel
  obtain ⟨current, hcurrent, hplays, -⟩ := commit_plays_current_track_iff hprepare rfl rfl hcommit
  have htwo : (sampleWorld [1, 2, 3]).server.catalog.resolve sampleBody.tailsync.currentTrack =
      .ok ⟨2, "/music/a.flac", some 200000⟩ := by decide +kernel
  cases Except.ok.inj (hcurrent.symm.trans htwo)
  refine hplays.mpr (.inr ⟨⟨2, "/music/a.flac", some 200000⟩, ?_, rfl⟩)
  decide +kernel

/-- Where the first track is missing, the third one plays: the index still counts the first. -/
theorem commit_skips_current_track :
    ¬ ∀ (body : PlaybackTransferPrepareRequest) (commit : PlaybackTransferCommitRequest)
      (w₀ : TransferWorld) (current : Track) (ready done : TransferResponse),
      ((TransferCall.prepare sampleIdentity body).alone sampleEnvs w₀).1 = .ok ready →
      commit.transferId = body.transferId →
      w₀.server.catalog.resolve body.tailsync.currentTrack = .ok current →
      ((TransferCall.commit commit).alone sampleEnvs
        ((TransferCall.prepare sampleIdentity body).alone sampleEnvs w₀).2).1 = .ok done →
      ((TransferCall.commit commit).alone sampleEnvs
        ((TransferCall.prepare sampleIdentity body).alone sampleEnvs w₀).2).2.Plays current.id := by
  intro h
  have hprepare : ((TransferCall.prepare sampleIdentity sampleBody).alone sampleEnvs
      (sampleWorld [2, 3])).1 = .ok (.ready "transfer-1" "micro"
        "transfer-1:player:micro:kitchen:1:nonce-1" 2 2 15) := by decide +kernel
  have htwo : (sampleWorld [2, 3]).server.catalog.resolve sampleBody.tailsync.currentTrack =
      .ok ⟨2, "/music/a.flac", some 200000⟩ := by decide +kernel
  have hcommit : (sampleCommitted [2, 3]).1 = .ok (.committed "transfer-1" "session-1") := by
    decide +kernel
  have hnot : ¬ (sampleCommitted [2, 3]).2.Plays 2 := by decide +kernel
  exact hnot (h sampleBody sampleCommit (sampleWorld [2, 3]) _ _ _ hprepare rfl htwo hcommit)

end MichiServer.Transfer
