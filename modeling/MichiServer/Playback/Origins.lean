import MichiServer.Playback.DeckRuns
import MichiServer.Playback.Events

/-!
# Whose change an event is

Peers are told of a change with the origin its events carry, and leave out their own. The events of a
command carry the command's origin, whatever it does. Those the engine sends on its own carry the
timeline's, which should be the origin of whoever last moved the track or the position: `mover` follows
the run for that. The two agree along the runs in which a command that moves nothing, or moves without
taking the timeline, comes from the one who has it.
-/

namespace MichiServer.Playback

open MichiServer.Logic

def EngineCommand.moves : EngineCommand → Bool
  | .play .. | .loadTrack .. | .jumpToIndex .. | .pause _ | .resume _ | .seek .. | .next _
  | .previous _ | .stop _ => true
  | _ => false

def EngineCommand.steps : EngineCommand → Bool
  | .next _ | .previous _ => true
  | _ => false

def EngineCommand.credit : EngineCommand → CommandOrigin
  | .stop _ => .local
  | cmd => cmd.origin

def PlaybackEngine.accepts (e : PlaybackEngine) (env : EngineEnv) (cmd : EngineCommand) : Bool :=
  match e.handleCommand env cmd with
  | some (_, .done (.ok _), _) => true
  | _ => false

namespace EngineTask

open PlaybackEngine

def movedBy (t : EngineTask) (input : EngineTurn) (before : CommandOrigin) : CommandOrigin :=
  match input with
  | .recv env cmd =>
    if t.running && cmd.moves && t.engine.accepts env cmd then cmd.credit else before
  | .audio _ | .closed _ => before

/-- **Who moved last**: the origin of the last command of the run that moved the track or the position
and was accepted. -/
def mover : EngineTask → List EngineTurn → CommandOrigin → CommandOrigin
  | _, [], origin => origin
  | t, input :: rest, origin =>
    match t.turn input with
    | some t' => mover t' rest (t.movedBy input origin)
    | none => origin

/-- A command that is refused, or goes to a neighbour, comes from the one who has the timeline. -/
def Steady (t : EngineTask) (input : EngineTurn) : Prop :=
  match input with
  | .recv env cmd =>
    cmd.moves = true → (t.engine.accepts env cmd = true ∧ cmd.steps = false) ∨
      cmd.credit = t.engine.currentTimelineOrigin
  | .audio _ | .closed _ => True

instance (t : EngineTask) : (input : EngineTurn) → Decidable (t.Steady input)
  | .recv _ _ => inferInstanceAs (Decidable (_ → _ ∨ _))
  | .audio _ | .closed _ => .isTrue trivial

variable {t t' : EngineTask} {input : EngineTurn}

theorem timeline_of_not_moves {cmd : EngineCommand} {before : CommandOrigin}
    (h : cmd.moves = false ∨ cmd.steps = true) : cmd.timelineAfter before = before := by
  cases cmd <;> first | rfl | simp [EngineCommand.moves, EngineCommand.steps] at h

theorem timeline_of_moves {cmd : EngineCommand} {before : CommandOrigin}
    (hmoves : cmd.moves = true) (hsteps : cmd.steps = false) :
    cmd.timelineAfter before = cmd.credit := by
  cases cmd <;> first | rfl | (cases hmoves; done) | cases hsteps

/-- On a steady turn the timeline's origin is that of the command that moves it. -/
theorem timelineAfter_eq_movedBy (hrunning : t.running = true) (hsteady : t.Steady input) :
    input.timelineAfter t.engine.currentTimelineOrigin =
      t.movedBy input t.engine.currentTimelineOrigin := by
  cases input with
  | audio env => rfl
  | closed env => rfl
  | recv env cmd =>
    unfold movedBy EngineTurn.timelineAfter
    dsimp only
    rw [hrunning, Bool.true_and]
    cases hmoves : cmd.moves with
    | false => exact timeline_of_not_moves (.inl hmoves)
    | true =>
      rw [Bool.true_and]
      cases hsteps : cmd.steps with
      | true =>
        rw [timeline_of_not_moves (.inr hsteps)]
        split
        · rcases hsteady hmoves with ⟨-, hno⟩ | hsame
          · exact absurd (hno.symm.trans hsteps) Bool.false_ne_true
          · exact hsame.symm
        · rfl
      | false =>
        rw [timeline_of_moves hmoves hsteps]
        split
        · rfl
        · rename_i hrefused
          rcases hsteady hmoves with ⟨haccepted, -⟩ | hsame
          · exact absurd haccepted hrefused
          · exact hsame

/-- What a turn sends carries one origin, and the timeline keeps its own. -/
theorem turn_origins (hcommand : t.engine.currentCommandOrigin = none) :
    Returns (t.turn input) fun t' =>
      t'.engine.currentCommandOrigin = none ∧
      (∃ sent : List EngineEvent, t'.engine.events = t.engine.events ++
        sent.map (⟨·, input.carried t.engine.currentTimelineOrigin⟩)) ∧
      (t.Steady input → t'.engine.currentTimelineOrigin =
        t.movedBy input t.engine.currentTimelineOrigin) := by
  by_cases hrunning : t.running = true
  · have hannounces : input.Announces (fun _ _ => True) t.engine := by
      cases input with
      | audio env => exact ⟨fun _ _ _ => trivial, fun _ _ _ => trivial⟩
      | closed env => trivial
      | recv env cmd =>
        cases cmd <;> first | trivial | exact ⟨fun _ _ _ => trivial, fun _ _ _ => trivial⟩
    refine (told_turn hrunning hcommand hannounces).mono fun t' h => ⟨h.command, ?_, ?_⟩
    · obtain ⟨sent, hsent, -⟩ := h.events
      exact ⟨sent, hsent⟩
    · intro hsteady
      rw [h.timeline, timelineAfter_eq_movedBy hrunning hsteady]
  · refine .ite (fun _ => .some ⟨hcommand, ⟨[], by simp⟩, fun _ => ?_⟩) fun h => absurd hrunning h
    unfold movedBy
    cases input <;> simp [hrunning]

theorem run_origins (turns : List EngineTurn) (hqueue : t.engine.QueueInv)
    (hcommand : t.engine.currentCommandOrigin = none) :
    ∃ t', run t turns = some t' ∧ t'.engine.QueueInv ∧ t'.engine.currentCommandOrigin = none ∧
      (Along turn Steady t turns →
        t'.engine.currentTimelineOrigin = mover t turns t.engine.currentTimelineOrigin) := by
  induction turns generalizing t with
  | nil => exact ⟨t, rfl, hqueue, hcommand, fun _ => rfl⟩
  | cons input rest ih =>
    obtain ⟨t₁, hturn, hqueue₁⟩ := turn_queueInv hqueue input
    obtain ⟨hcommand₁, -, htimeline⟩ := turn_origins hcommand t₁ hturn
    obtain ⟨t', hrun, hqueue', hcommand', hmover⟩ := ih hqueue₁ hcommand₁
    refine ⟨t', ?_, hqueue', hcommand', ?_⟩
    · unfold run
      rw [List.foldlM_cons, hturn]
      exact hrun
    · rintro ⟨hsteady, hrest⟩
      rw [hmover (hrest t₁ hturn), htimeline hsteady, mover, hturn]

/-- **Whose change an event is.** In every run, the events sent at a command carry the command's origin.
Those the engine sends on its own carry the origin of the last accepted command that moved the track or
the position, if the turns before were steady. -/
theorem events_carry_their_origin (format : PcmFormat) (now : ℕ) (before : List EngineTurn)
    (input : EngineTurn) :
    ∃ t t', run (start format now) before = some t ∧ t.turn input = some t' ∧
      ∃ (sent : List EngineEvent) (origin : CommandOrigin),
        t'.engine.events = t.engine.events ++ sent.map (⟨·, origin⟩) ∧
        (∀ env cmd, input = .recv env cmd → origin = cmd.origin) ∧
        ((∀ env cmd, input ≠ .recv env cmd) → Along turn Steady (start format now) before →
          origin = mover (start format now) before .local) := by
  obtain ⟨t, hrun, hqueue, hcommand, hmover⟩ :=
    run_origins (t := start format now) before (queueInv_of_empty rfl rfl) rfl
  obtain ⟨t', hturn, -⟩ := turn_queueInv hqueue input
  obtain ⟨-, ⟨sent, hsent⟩, -⟩ := turn_origins hcommand t' hturn
  refine ⟨t, t', hrun, hturn, sent, _, hsent, ?_, ?_⟩
  · rintro env cmd rfl
    rfl
  · intro halone hsteady
    cases input with
    | recv env cmd => exact absurd rfl (halone env cmd)
    | audio env => exact hmover hsteady
    | closed env => exact hmover hsteady

def phone : CommandOrigin := .remote "phone" 7 none none none none

/-- The listener at the server plays a track, and the phone turns the volume down: the track and the
position are as the server's listener left them, and the event carries the phone's origin. -/
theorem volume_carries_its_own_origin :
    ∃ t, run (start {} 0) (kitchenChunks 10 ++ [.recv { now := 1 } (.setVolume 50 phone)]) = some t ∧
      t.engine.events.getLast? = some ⟨.volumeChanged 50, phone⟩ ∧
      mover (start {} 0) (kitchenChunks 10 ++ [.recv { now := 1 } (.setVolume 50 phone)]) .local =
        .local := by
  refine ⟨_, rfl, ?_, ?_⟩ <;> decide +kernel

end EngineTask

end MichiServer.Playback
