import MichiServer.Logic.Trace
import Mathlib.Logic.Function.Basic
import Mathlib.Algebra.Notation.Defs
import Mathlib.Tactic.NormNum

/-!
# The job queue

A row for each job, which workers claim, report on and finish, and which anyone may cancel. Each call
is one statement, so calls of any number of workers happen one after the other. The statements that
move a job name the states they move it from; the one that records its progress names none, and so
also writes to a job that is over.
-/

namespace MichiServer.Jobs

open MichiServer.Logic

inductive JobState where
  | pending
  | running
  | completed
  | failed
  | cancelled
deriving DecidableEq

namespace JobState

def terminal : JobState → Bool
  | pending | running => false
  | completed | failed | cancelled => true

inductive Moves : JobState → JobState → Prop where
  | stay (state : JobState) : Moves state state
  | claim : Moves pending running
  | complete : Moves running completed
  | fail : Moves running failed
  | cancelPending : Moves pending cancelled
  | cancelRunning : Moves running cancelled

theorem Moves.eq_pending {state : JobState} (h : Moves state pending) : state = pending := by
  cases h with
  | stay => rfl

end JobState

/-- A row of `job_queue`; `Double` stands for the doubles that the column `progress` holds. -/
structure Job (Double : Type) where
  id : String
  kind : String
  state : JobState
  priority : ℤ
  progress : Double
  payloadJson : Option String
  errorMessage : Option String
  createdAt : String
  startedAt : Option String
  finishedAt : Option String

abbrev JobQueue (Double : Type) := String → Option (Job Double)

variable {Double : Type}

/-- An `UPDATE` of the row of a job in one of the states that the statement names, and whether it
affected a row. -/
def updateJob (jobs : JobQueue Double) (id : String) (named : JobState → Bool)
    (set : Job Double → Job Double) : Bool × JobQueue Double :=
  match jobs id with
  | some job => if named job.state then (true, Function.update jobs id (some (set job))) else (false, jobs)
  | none => (false, jobs)

def claimJob (jobs : JobQueue Double) (id now : String) : Bool × JobQueue Double :=
  updateJob jobs id (· = .pending) fun job =>
    { job with state := .running, startedAt := some now }

def updateJobProgress (jobs : JobQueue Double) (id : String) (progress : Double) : JobQueue Double :=
  (updateJob jobs id (fun _ => true) fun job => { job with progress := progress }).2

def failJob (jobs : JobQueue Double) (id error now : String) : JobQueue Double :=
  (updateJob jobs id (· = .running) fun job =>
    { job with state := .failed, errorMessage := some error, finishedAt := some now }).2

def cancelJob (jobs : JobQueue Double) (id now : String) : Bool × JobQueue Double :=
  updateJob jobs id (fun state => state = .pending ∨ state = .running) fun job =>
    { job with state := .cancelled, finishedAt := some now }

variable [Zero Double] [One Double]

/-- `create_job`, under a drawn id: nothing where the primary key is taken. -/
def createJob (jobs : JobQueue Double) (id kind : String) (priority : ℤ) (payload : Option String)
    (now : String) : JobQueue Double :=
  match jobs id with
  | some _ => jobs
  | none =>
    Function.update jobs id (some {
      id := id
      kind := kind
      state := .pending
      priority := priority
      progress := 0
      payloadJson := payload
      errorMessage := none
      createdAt := now
      startedAt := none
      finishedAt := none })

def completeJob (jobs : JobQueue Double) (id now : String) : JobQueue Double :=
  (updateJob jobs id (· = .running) fun job =>
    { job with state := .completed, progress := 1, finishedAt := some now }).2

/-! ## Runs -/

inductive Call (Double : Type) where
  | create (id kind : String) (priority : ℤ) (payload : Option String) (now : String)
  | claim (id now : String)
  | progress (id : String) (value : Double)
  | complete (id now : String)
  | fail (id error now : String)
  | cancel (id now : String)

namespace Call

def step (jobs : JobQueue Double) : Call Double → JobQueue Double
  | create id kind priority payload now => createJob jobs id kind priority payload now
  | claim id now => (claimJob jobs id now).2
  | progress id value => updateJobProgress jobs id value
  | complete id now => completeJob jobs id now
  | fail id error now => failJob jobs id error now
  | cancel id now => (cancelJob jobs id now).2

omit [Zero Double] [One Double] in
def claims (id : String) (jobs : JobQueue Double) : Call Double → Bool
  | claim id' now => id' = id && (claimJob jobs id' now).1
  | _ => false

omit [Zero Double] [One Double] in
/-- The call reports no other progress of the job than it has, once the job is over. -/
def InTime (id : String) (jobs : JobQueue Double) : Call Double → Prop
  | progress id' value =>
    id' = id → ∀ job ∈ jobs id, job.state.terminal → value = job.progress
  | _ => True

end Call

def claims (id : String) : JobQueue Double → List (Call Double) → ℕ
  | _, [] => 0
  | jobs, call :: rest => (call.claims id jobs).toNat + claims id (call.step jobs) rest

def noJobs : JobQueue Double := fun _ => none

omit [Zero Double] [One Double] in
structure Job.Frozen (job after : Job Double) : Prop where
  state : after.state = job.state
  progress : after.progress = job.progress
  errorMessage : after.errorMessage = job.errorMessage
  finishedAt : after.finishedAt = job.finishedAt

/-- The life of a job in a run: it is claimed once at most, moves forward only, and stays as it is
once it is over, where a completed job is at 1. -/
structure Lawful (id : String) (calls : List (Call Double)) : Prop where
  once : claims id noJobs calls ≤ 1
  moves : ∀ before call, before ++ [call] <+: calls →
    ∀ job ∈ Trace.run Call.step noJobs before id,
      ∃ job' ∈ Trace.run Call.step noJobs (before ++ [call]) id, JobState.Moves job.state job'.state
  frozen : ∀ before after, before ++ after <+: calls →
    ∀ job ∈ Trace.run Call.step noJobs before id, job.state.terminal →
      ∃ job' ∈ Trace.run Call.step noJobs (before ++ after) id, job.Frozen job'
  completed : ∀ before, before <+: calls →
    ∀ job ∈ Trace.run Call.step noJobs before id, job.state = .completed → job.progress = 1
  created : ∀ before call, before ++ [call] <+: calls →
    Trace.run Call.step noJobs before id = none →
      ∀ job ∈ Trace.run Call.step noJobs (before ++ [call]) id, job.state = .pending

/-! ## One call -/

section Update

omit [Zero Double] [One Double]

variable {jobs : JobQueue Double} {id other : String} {named : JobState → Bool}
  {set : Job Double → Job Double}

theorem updateJob_self {job : Job Double} (h : jobs id = some job) :
    (updateJob jobs id named set).2 id = some (if named job.state then set job else job) := by
  simp only [updateJob, h]
  split_ifs
  · exact Function.update_self _ _ _
  · exact h

theorem updateJob_of_ne (h : id ≠ other) : (updateJob jobs other named set).2 id = jobs id := by
  unfold updateJob
  split
  · split
    · exact Function.update_of_ne h _ _
    · rfl
  · rfl

theorem updateJob_none (h : jobs id = none) : (updateJob jobs other named set).2 id = none := by
  by_cases hid : id = other
  · subst hid
    simp only [updateJob, h]
  · exact (updateJob_of_ne hid).trans h

theorem claimJob_fst {now : String} :
    (claimJob jobs id now).1 = (jobs id).any (·.state = .pending) := by
  grind [claimJob, updateJob]

namespace Job.Frozen

variable {job after last : Job Double}

theorem refl (job : Job Double) : job.Frozen job := ⟨rfl, rfl, rfl, rfl⟩

theorem trans (h : job.Frozen after) (h' : after.Frozen last) :
    job.Frozen last where
  state := h'.state.trans h.state
  progress := h'.progress.trans h.progress
  errorMessage := h'.errorMessage.trans h.errorMessage
  finishedAt := h'.finishedAt.trans h.finishedAt

end Job.Frozen

end Update

inductive Change (id : String) (call : Call Double) (job : Job Double) : Job Double → Prop where
  | same : Change id call job job
  | claim (now : String) : job.state = .pending →
      Change id call job { job with state := .running, startedAt := some now }
  | progress (value : Double) : call = .progress id value →
      Change id call job { job with progress := value }
  | complete (now : String) : job.state = .running →
      Change id call job { job with state := .completed, progress := 1, finishedAt := some now }
  | fail (error now : String) : job.state = .running →
      Change id call job
        { job with state := .failed, errorMessage := some error, finishedAt := some now }
  | cancel (now : String) : job.state = .pending ∨ job.state = .running →
      Change id call job { job with state := .cancelled, finishedAt := some now }

section Steps

variable {jobs : JobQueue Double} {id : String} {call : Call Double} {job after : Job Double}

omit [Zero Double] in
theorem change_of_update {id' : String} {named : JobState → Bool} {set : Job Double → Job Double}
    (h : jobs id = some job) (hset : id' = id → named job.state → Change id call job (set job)) :
    ∃ after, (updateJob jobs id' named set).2 id = some after ∧ Change id call job after := by
  by_cases hid : id' = id
  · subst hid
    refine ⟨_, updateJob_self h, ?_⟩
    split_ifs with hnamed
    · exact hset rfl hnamed
    · exact .same
  · exact ⟨job, (updateJob_of_ne (Ne.symm hid)).trans h, .same⟩

/-- What one call does to a job that is there. -/
theorem change (call : Call Double) (h : jobs id = some job) :
    ∃ after, call.step jobs id = some after ∧ Change id call job after := by
  cases call with
  | create id' kind priority payload now =>
    refine ⟨job, ?_, .same⟩
    cases htaken : jobs id' with
    | some other => simpa only [Call.step, createJob, htaken] using h
    | none =>
      have hne : id ≠ id' := by
        rintro rfl
        exact nomatch h.symm.trans htaken
      simp only [Call.step, createJob, htaken]
      rwa [Function.update_of_ne hne]
  | claim id' now =>
    unfold Call.step claimJob
    exact change_of_update h fun _ hnamed => .claim now (by simpa using hnamed)
  | progress id' value =>
    unfold Call.step updateJobProgress
    exact change_of_update h fun hid _ => .progress value (by rw [hid])
  | complete id' now =>
    unfold Call.step completeJob
    exact change_of_update h fun _ hnamed => .complete now (by simpa using hnamed)
  | fail id' error now =>
    unfold Call.step failJob
    exact change_of_update h fun _ hnamed => .fail error now (by simpa using hnamed)
  | cancel id' now =>
    unfold Call.step cancelJob
    exact change_of_update h fun _ hnamed => .cancel now (by simpa using hnamed)

theorem step_none (call : Call Double) (h : jobs id = none) :
    ∀ job ∈ call.step jobs id, job.state = .pending := by
  intro job hjob
  cases call with
  | create id' kind priority payload now =>
    cases htaken : jobs id' with
    | some other =>
      simp only [Call.step, createJob, htaken, h] at hjob
      exact nomatch hjob
    | none =>
      simp only [Call.step, createJob, htaken] at hjob
      grind
  | claim id' now => exact absurd (hjob.symm.trans (updateJob_none h)) nofun
  | progress id' value => exact absurd (hjob.symm.trans (updateJob_none h)) nofun
  | complete id' now => exact absurd (hjob.symm.trans (updateJob_none h)) nofun
  | fail id' error now => exact absurd (hjob.symm.trans (updateJob_none h)) nofun
  | cancel id' now => exact absurd (hjob.symm.trans (updateJob_none h)) nofun

omit [Zero Double] in
theorem Change.moves (h : Change id call job after) : JobState.Moves job.state after.state := by
  cases h with
  | same => exact .stay _
  | claim now hpending =>
    rw [hpending]
    exact .claim
  | progress value hcall => exact .stay _
  | complete now hrunning =>
    rw [hrunning]
    exact .complete
  | fail error now hrunning =>
    rw [hrunning]
    exact .fail
  | cancel now hopen =>
    rcases hopen with hpending | hrunning
    · rw [hpending]
      exact .cancelPending
    · rw [hrunning]
      exact .cancelRunning

omit [Zero Double] in
theorem Change.terminal (h : Change id call job after) (hover : job.state.terminal) :
    after = job ∨ ∃ value, call = .progress id value ∧ after = { job with progress := value } := by
  cases h with
  | same => exact .inl rfl
  | progress value hcall => exact .inr ⟨value, hcall, rfl⟩
  | claim now hpending =>
    rw [hpending] at hover
    exact nomatch hover
  | complete now hrunning =>
    rw [hrunning] at hover
    exact nomatch hover
  | fail error now hrunning =>
    rw [hrunning] at hover
    exact nomatch hover
  | cancel now hopen =>
    rcases hopen with hopen | hopen
    all_goals
      rw [hopen] at hover
      exact nomatch hover

/-- A call leaves an ended job alone exactly where it comes in time. -/
theorem frozen_step_iff (call : Call Double) (h : jobs id = some job) (hover : job.state.terminal) :
    (∃ after ∈ call.step jobs id, job.Frozen after) ↔ call.InTime id jobs := by
  obtain ⟨after, hafter, hchange⟩ := change call h
  constructor
  · rintro ⟨after', hafter', hfrozen⟩
    cases call with
    | progress id' value =>
      rintro rfl job' hjob' -
      obtain rfl := Option.some_inj.mp (h.symm.trans hjob')
      have hset : (Call.progress id' value).step jobs id' = some { job with progress := value } :=
        updateJob_self h
      obtain rfl := Option.some_inj.mp (hset.symm.trans hafter')
      exact hfrozen.progress
    | create id' kind priority payload now => trivial
    | claim id' now => trivial
    | complete id' now => trivial
    | fail id' error now => trivial
    | cancel id' now => trivial
  · intro htime
    refine ⟨after, hafter, ?_⟩
    rcases hchange.terminal hover with rfl | ⟨value, rfl, rfl⟩
    · exact .refl _
    · exact ⟨rfl, htime rfl job h hover, rfl, rfl⟩

omit [Zero Double] in
theorem Change.not_pending (h : Change id call job after) (hclaimed : job.state ≠ .pending) :
    after.state ≠ .pending := by
  intro hpending
  have hmoves := h.moves
  rw [hpending] at hmoves
  exact hclaimed hmoves.eq_pending

theorem claims_row (h : call.claims id jobs = true) :
    ∃ job after, jobs id = some job ∧ job.state = .pending ∧ call.step jobs id = some after ∧
      after.state = .running := by
  cases call with
  | claim id' now =>
    simp only [Call.claims, Bool.and_eq_true, decide_eq_true_eq] at h
    obtain ⟨rfl, hclaim⟩ := h
    rw [claimJob_fst] at hclaim
    obtain ⟨job, hjob, hpending⟩ := Option.any_eq_true _ _ |>.mp hclaim
    refine ⟨job, _, hjob, by simpa using hpending, updateJob_self hjob, ?_⟩
    rw [if_pos (by simpa using hpending)]
  | create | progress | complete | fail | cancel => exact nomatch h

end Steps

/-! ## Every run -/

section Runs

variable {jobs : JobQueue Double} {id : String} {calls : List (Call Double)} {job : Job Double}

theorem claims_eq_zero (h : jobs id = some job) (hclaimed : job.state ≠ .pending) :
    claims id jobs calls = 0 := by
  induction calls generalizing jobs job with
  | nil => rfl
  | cons call rest ih =>
    obtain ⟨after, hafter, hchange⟩ := change call h
    have hnone : call.claims id jobs = false := by
      by_contra hclaims
      obtain ⟨job', -, hjob', hpending, -, -⟩ := claims_row (Bool.eq_true_of_not_eq_false hclaims)
      grind
    rw [claims, hnone, ih hafter (hchange.not_pending hclaimed)]
    rfl

theorem claims_le_one : claims id jobs calls ≤ 1 := by
  induction calls generalizing jobs with
  | nil => exact Nat.zero_le _
  | cons call rest ih =>
    rw [claims]
    cases hclaims : call.claims id jobs with
    | false => simpa using ih
    | true =>
      obtain ⟨job, after, -, -, hafter, hrunning⟩ := claims_row hclaims
      grind [claims, claims_eq_zero]

theorem frozen_run (h : jobs id = some job) (hover : job.state.terminal)
    (htime : Trace.Obeys Call.step (fun jobs call => call.InTime id jobs) jobs calls) :
    ∃ after ∈ Trace.run Call.step jobs calls id, job.Frozen after := by
  induction calls generalizing jobs job with
  | nil => exact ⟨job, h, .refl job⟩
  | cons call rest ih =>
    obtain ⟨hcall, hrest⟩ := htime
    obtain ⟨after, hafter, hfrozen⟩ := (frozen_step_iff call h hover).mpr hcall
    obtain ⟨last, hlast, hfrozen'⟩ := ih hafter (by rw [hfrozen.state]; exact hover) hrest
    exact ⟨last, hlast, hfrozen.trans hfrozen'⟩

def CompletedAtOne (id : String) (jobs : JobQueue Double) : Prop :=
  ∀ job ∈ jobs id, job.state = .completed → job.progress = 1

theorem completed_step {call : Call Double} (h : CompletedAtOne id jobs)
    (htime : call.InTime id jobs) : CompletedAtOne id (call.step jobs) := by
  intro after hafter hcompleted
  cases hjob : jobs id with
  | none =>
    grind [step_none]
  | some job =>
    obtain ⟨after', hafter', hchange⟩ := change call hjob
    obtain rfl := Option.some_inj.mp (hafter'.symm.trans hafter)
    cases hchange with
    | same => exact h job hjob hcompleted
    | progress value hcall =>
      subst hcall
      have hover : job.state.terminal := by
        rw [show job.state = .completed from hcompleted]
        rfl
      exact (htime rfl job hjob hover).trans (h job hjob hcompleted)
    | complete now hrunning => rfl
    | claim | fail | cancel => exact nomatch hcompleted

/-- The life of a job is lawful exactly in the runs in which no progress is reported of it late, but
for the progress that it has. -/
theorem lawful_iff (id : String) (calls : List (Call Double)) :
    Lawful id calls ↔ Trace.Obeys Call.step (fun jobs call => call.InTime id jobs) noJobs calls := by
  constructor
  · intro h
    rw [Trace.obeys_iff_forall_prefix]
    intro before call hpre
    cases call with
    | progress id' value =>
      rintro rfl job hjob hover
      have hfrozen := h.frozen before [.progress id' value] hpre job hjob hover
      rw [Trace.run_append] at hfrozen
      exact (frozen_step_iff (.progress id' value) hjob hover).mp hfrozen rfl job hjob hover
    | create | claim | complete | fail | cancel => trivial
  · intro h
    have hpre : ∀ before, before <+: calls →
        Trace.Obeys Call.step (fun jobs call => call.InTime id jobs) noJobs before := by
      rintro before ⟨after, rfl⟩
      exact (Trace.obeys_append_iff.mp h).1
    constructor
    case once => exact claims_le_one
    case moves =>
      intro before call _ job hjob
      obtain ⟨after, hafter, hchange⟩ := change call hjob
      rw [Trace.run_append]
      exact ⟨after, hafter, hchange.moves⟩
    case frozen =>
      intro before after hsplit job hjob hover
      rw [Trace.run_append]
      exact frozen_run hjob hover (Trace.obeys_append_iff.mp (hpre _ hsplit)).2
    case completed =>
      intro before hbefore
      have hnew : CompletedAtOne id (noJobs : JobQueue Double) := by simp [CompletedAtOne, noJobs]
      have hstep : ∀ jobs (call : Call Double), CompletedAtOne id jobs → call.InTime id jobs →
          CompletedAtOne id (call.step jobs) := fun _ _ h htime => completed_step h htime
      exact Trace.run_invariant hstep hnew (hpre before hbefore)
    case created =>
      intro before call _ hnone
      rw [Trace.run_append]
      exact step_none call hnone

def lateProgress : List (Call ℚ) :=
  [.create "job" "scan" 0 none "t0", .claim "job" "t1", .complete "job" "t2", .progress "job" (1 / 2)]

/-- Progress that comes after the end is written. -/
theorem late_progress_is_written : ¬ ∀ id (calls : List (Call ℚ)), Lawful id calls := by
  intro h
  have hcompleted := (h "job" lateProgress).completed lateProgress List.prefix_rfl
  have hhalf : (1 / 2 : ℚ) = 1 := hcompleted _ rfl rfl
  norm_num at hhalf

end Runs

end MichiServer.Jobs
