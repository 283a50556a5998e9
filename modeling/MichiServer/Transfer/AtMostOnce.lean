import MichiServer.Transfer.CurrentTrack

/-!
# Committing a transfer at most once

A commit loads the transfer first and removes it last. In between it waits, and nothing holds the
transfer for it: another commit can load it too, an abort can remove it and report so, and it can
expire. So the transfer is committed at most once, and not after an abort or its expiry, in the runs
where none of this happens to a commit that is under way.

The transfer is followed through a run by its id. Commits, aborts and the clock act on it; other
transfers may be prepared meanwhile.
-/

namespace MichiServer.Transfer

open MichiServer.Interleave MichiServer.Queue

/-! ## Reports -/

def Answer.commits (t : String) : Answer → Bool
  | .ok (.committed transferId _) => transferId = t
  | _ => false

def Answer.aborts (t : String) : Answer → Bool
  | .ok (.aborted transferId) => transferId = t
  | _ => false

namespace TransferWorld

def committedBy (t : String) (w : TransferWorld) : List TaskId :=
  (w.answers.filter fun r => r.2.commits t).map Prod.fst

def abortedBy (t : String) (w : TransferWorld) : List TaskId :=
  (w.answers.filter fun r => r.2.aborts t).map Prod.fst

/-- The transfer is there, and has neither expired nor been reported committed or aborted. -/
structure Available (t : String) (w : TransferWorld) : Prop where
  held : (w.get t).isSome
  not_committed : w.committedBy t = []
  not_aborted : w.abortedBy t = []

end TransferWorld

/-! ## Steps on a transfer -/

namespace TransferAct

def applies : TransferAct → Bool
  | selectOutput _ => true
  | startSession _ _ => true
  | getOrCreateActiveQueue => true
  | installQueue _ _ => true
  | setQueue _ _ _ => true
  | resolveOutput _ => true
  | play _ _ _ => true
  | loadTrack _ _ => true
  | _ => false

def removes (t : String) : TransferAct → Bool
  | remove transferId => transferId = t
  | _ => false

def commits (t : String) : TransferAct → Bool
  | respond answer => answer.commits t
  | _ => false

def aborts (t : String) : TransferAct → Bool
  | respond answer => answer.aborts t
  | _ => false

def Avoids (t : String) : TransferAct → Prop
  | insert p => ∀ createdAt expiresAt, (p createdAt expiresAt).transferId ≠ t
  | _ => True

end TransferAct

section Exec

variable (t : String) (i : TaskId) (a : TransferAct) (env : StepEnv) (w : TransferWorld)

theorem transact_elsewhere {α : Type}
    (f : QueueTables → Except ApiError (QueueTables × α)) :
    ∃ server, (w.transact env f).2 = { w with server := server } := by
  unfold TransferWorld.transact
  split
  · exact ⟨w.server, rfl⟩
  · split
    · exact ⟨_, rfl⟩
    · exact ⟨w.server, rfl⟩

theorem exec_cases :
    (∃ p, a = .insert p ∧
      (exec i a env w).2 = w.insert (p env.utcNow (w.now + defaultTransferTtl))) ∨
    (∃ transferId, a = .remove transferId ∧ (exec i a env w).2 = w.remove i transferId) ∨
    (∃ answer, a = .respond answer ∧
      (exec i a env w).2 = { w with answers := w.answers ++ [(i, answer)] }) ∨
    ((∀ t, a.Avoids t ∧ a.removes t = false ∧ a.commits t = false ∧ a.aborts t = false) ∧
      ∃ server, (exec i a env w).2 = { w with server := server }) := by
  have hquiet : ∀ t : String, True ∧ false = false ∧ false = false ∧ false = false :=
    fun _ => ⟨trivial, rfl, rfl, rfl⟩
  cases a with
  | insert p => exact .inl ⟨p, rfl, rfl⟩
  | remove transferId => exact .inr (.inl ⟨transferId, rfl, rfl⟩)
  | respond answer => exact .inr (.inr (.inl ⟨answer, rfl, rfl⟩))
  | getOrCreateActiveQueue =>
    exact .inr (.inr (.inr ⟨hquiet, transact_elsewhere env w _⟩))
  | installQueue queueId tracks =>
    exact .inr (.inr (.inr ⟨hquiet, transact_elsewhere env w _⟩))
  | _ => exact .inr (.inr (.inr ⟨hquiet, _, rfl⟩))

theorem pending_exec (havoids : a.Avoids t) :
    (exec i a env w).2.pendingTransfers t =
      if a.removes t then none else w.pendingTransfers t := by
  obtain ⟨p, rfl, hw⟩ | ⟨transferId, rfl, hw⟩ | ⟨answer, rfl, hw⟩ | ⟨hquiet, server, hw⟩ :=
    exec_cases i a env w
  · rw [hw]
    exact Function.update_of_ne (havoids _ _).symm _ _
  · rw [hw]
    by_cases hid : transferId = t
    · subst hid
      simp [TransferWorld.remove, TransferAct.removes]
    · simp [TransferWorld.remove, TransferAct.removes, hid, Function.update_of_ne (Ne.symm hid)]
  · rw [hw]
    rfl
  · rw [hw, (hquiet t).2.1]
    rfl

theorem now_exec : (exec i a env w).2.now = w.now := by
  obtain ⟨p, -, hw⟩ | ⟨transferId, -, hw⟩ | ⟨answer, -, hw⟩ | ⟨-, server, hw⟩ :=
    exec_cases i a env w <;> rw [hw] <;> rfl

theorem get_exec (havoids : a.Avoids t) (hremoves : a.removes t = false) :
    (exec i a env w).2.get t = w.get t := by
  grind [TransferWorld.get, pending_exec, now_exec]

theorem removals_exec :
    (exec i a env w).2.removals t = w.removals t ++ if a.removes t then [i] else [] := by
  obtain ⟨p, rfl, hw⟩ | ⟨transferId, rfl, hw⟩ | ⟨answer, rfl, hw⟩ | ⟨hquiet, server, hw⟩ :=
    exec_cases i a env w
  · rw [hw]
    exact (List.append_nil _).symm
  · rw [hw]
    by_cases hid : transferId = t
    · subst hid
      simp [TransferWorld.remove, TransferAct.removes]
    · simp [TransferWorld.remove, TransferAct.removes, hid, Function.update_of_ne (Ne.symm hid)]
  · rw [hw]
    exact (List.append_nil _).symm
  · rw [hw, (hquiet t).2.1]
    exact (List.append_nil _).symm

theorem committedBy_exec :
    (exec i a env w).2.committedBy t = w.committedBy t ++ if a.commits t then [i] else [] := by
  obtain ⟨p, rfl, hw⟩ | ⟨transferId, rfl, hw⟩ | ⟨answer, rfl, hw⟩ | ⟨hquiet, server, hw⟩ :=
    exec_cases i a env w
  · rw [hw]
    exact (List.append_nil _).symm
  · rw [hw]
    exact (List.append_nil _).symm
  · grind [TransferWorld.committedBy, TransferAct.commits]
  · rw [hw, (hquiet t).2.2.1]
    exact (List.append_nil _).symm

theorem abortedBy_exec :
    (exec i a env w).2.abortedBy t = w.abortedBy t ++ if a.aborts t then [i] else [] := by
  obtain ⟨p, rfl, hw⟩ | ⟨transferId, rfl, hw⟩ | ⟨answer, rfl, hw⟩ | ⟨hquiet, server, hw⟩ :=
    exec_cases i a env w
  · rw [hw]
    exact (List.append_nil _).symm
  · rw [hw]
    exact (List.append_nil _).symm
  · grind [TransferWorld.abortedBy, TransferAct.aborts]
  · rw [hw, (hquiet t).2.2.2]
    exact (List.append_nil _).symm

end Exec

/-! ## Runs -/

def TransferCall.commits (t : String) : TransferCall → Bool
  | commit body => body.transferId = t
  | _ => false

section Runs

variable (calls : List TransferCall) (t : String)

def IsCommit (i : TaskId) : Prop := calls[i]?.any (TransferCall.commits t) = true

instance (i : TaskId) : Decidable (IsCommit calls t i) := inferInstanceAs (Decidable (_ = true))

/-- The task has loaded the transfer to commit it, and has not reported yet. -/
def UnderWay (s : TransferRun) (i : TaskId) : Prop :=
  IsCommit calls t i ∧
    (s.next i).any (fun a => a.applies || a.removes t || a.commits t) = true

instance (s : TransferRun) (i : TaskId) : Decidable (UnderWay calls t s i) :=
  inferInstanceAs (Decidable (_ ∧ _))

/-- While a commit is under way, no other task removes the transfer, and it does not expire. -/
def Undisturbed (s : TransferRun) : Move StepEnv ServerTick → Prop
  | .act j _ => ∀ i < s.tasks.length, UnderWay calls t s i → i = j ∨
      (s.next j).any (TransferAct.removes t) = false
  | .tick (.advance ns) => ∀ i < s.tasks.length, UnderWay calls t s i →
      (s.world.pendingTransfers t).all (fun p => s.world.now + ns < p.expiresAt) = true
  | _ => True

instance (s : TransferRun) : (m : Move StepEnv ServerTick) → Decidable (Undisturbed calls t s m)
  | .act _ _ => inferInstanceAs (Decidable (∀ i < s.tasks.length, UnderWay calls t s i → _))
  | .tick (.advance _) => inferInstanceAs (Decidable (∀ i < s.tasks.length, UnderWay calls t s i → _))
  | .tick .checkExpirations => .isTrue trivial
  | .tick (.elsewhere _) => .isTrue trivial
  | .drop _ => .isTrue trivial

/-- A commit acts on the world, and reports its success, only where the transfer is available. By the
time it reports, the transfer is its own to have removed. -/
def CommitStep (s : TransferRun) : Move StepEnv ServerTick → Prop
  | .act i _ =>
    (IsCommit calls t i → (s.next i).any (fun a => a.applies || a.removes t) = true →
      s.world.Available t) ∧
    ((s.next i).any (TransferAct.commits t) = true →
      IsCommit calls t i ∧ s.world.removals t = [i] ∧
        s.world.committedBy t = [] ∧ s.world.abortedBy t = [])
  | _ => True

instance (w : TransferWorld) : Decidable (w.Available t) :=
  decidable_of_iff ((w.get t).isSome ∧ w.committedBy t = [] ∧ w.abortedBy t = [])
    ⟨fun h => ⟨h.1, h.2.1, h.2.2⟩, fun h => ⟨h.held, h.not_committed, h.not_aborted⟩⟩

instance (s : TransferRun) : (m : Move StepEnv ServerTick) → Decidable (CommitStep calls t s m)
  | .act _ _ => inferInstanceAs (Decidable (_ ∧ _))
  | .tick _ => .isTrue trivial
  | .drop _ => .isTrue trivial

/-- In the run, at most one task reports the commit of the transfer, and every commit acts and reports
where it may. -/
def AtMostOnce (s : TransferRun) (moves : List (Move StepEnv ServerTick)) : Prop :=
  ((s.run semantics moves).world.committedBy t).length ≤ 1 ∧
    s.Obeys semantics (CommitStep calls t) moves

/-! ### What a task counts on -/

structure TransferPre (i : TaskId) (a : TransferAct) (w : TransferWorld) : Prop where
  avoids : a.Avoids t
  held : IsCommit calls t i → (a.applies || a.removes t) = true → (w.get t).isSome
  commits : a.commits t = true →
    IsCommit calls t i ∧ w.removals t = [i] ∧ w.committedBy t = []
  aborts : a.aborts t = true → ¬ IsCommit calls t i ∧ i ∈ w.removals t

/-- A transfer that has been removed stays away, one that was reported committed has been removed, and
one that was reported aborted has been removed by a task that does not commit it. -/
structure TransferInv (w : TransferWorld) : Prop where
  gone : w.removals t ≠ [] → w.pendingTransfers t = none
  once : (w.committedBy t).length ≤ 1
  committed : w.committedBy t ≠ [] → w.removals t ≠ []
  aborted : ∀ i ∈ w.abortedBy t, ¬ IsCommit calls t i ∧ i ∈ w.removals t

variable {calls t}

variable {w : TransferWorld} {i : TaskId} {a : TransferAct}

theorem TransferInv.removals_eq_nil (h : TransferInv calls t w) (hheld : (w.get t).isSome) :
    w.removals t = [] := by
  by_contra hne
  rw [TransferWorld.get, h.gone hne] at hheld
  cases hheld

theorem TransferInv.available (h : TransferInv calls t w) (hheld : (w.get t).isSome) :
    w.Available t := by
  have hremovals := h.removals_eq_nil hheld
  refine ⟨hheld, ?_, ?_⟩
  · by_contra hne
    exact h.committed hne hremovals
  · refine List.eq_nil_iff_forall_not_mem.mpr fun i hi => ?_
    have hmem := (h.aborted i hi).2
    rw [hremovals] at hmem
    cases hmem

theorem TransferInv.not_aborted (h : TransferInv calls t w)
    (hcommit : IsCommit calls t i) (hremovals : w.removals t = [i]) : w.abortedBy t = [] := by
  refine List.eq_nil_iff_forall_not_mem.mpr fun j hj => ?_
  obtain ⟨hnot, hmem⟩ := h.aborted j hj
  grind

/-- Each act keeps the invariant. -/
theorem TransferInv.exec (h : TransferInv calls t w)
    (hpre : TransferPre calls t i a w) (env : StepEnv) : TransferInv calls t (exec i a env w).2 := by
  have hpending := pending_exec t i a env w hpre.avoids
  have hremovals := removals_exec t i a env w
  have hcommitted := committedBy_exec t i a env w
  have haborted := abortedBy_exec t i a env w
  constructor
  case gone =>
    intro hne
    rw [hpending]
    by_cases hremoves : a.removes t = true
    · exact if_pos hremoves
    · rw [if_neg hremoves]
      rw [hremovals, if_neg hremoves, List.append_nil] at hne
      exact h.gone hne
  case once =>
    rw [hcommitted]
    by_cases hcommits : a.commits t = true
    · rw [if_pos hcommits, (hpre.commits hcommits).2.2]
      simp
    · rw [if_neg hcommits, List.append_nil]
      exact h.once
  case committed =>
    intro hne
    rw [hremovals]
    refine List.append_ne_nil_of_left_ne_nil ?_ _
    by_cases hcommits : a.commits t = true
    · rw [(hpre.commits hcommits).2.1]
      simp
    · rw [hcommitted, if_neg hcommits, List.append_nil] at hne
      exact h.committed hne
  case aborted =>
    intro j hj
    rw [haborted] at hj
    have hkept : ¬ IsCommit calls t j ∧ j ∈ w.removals t := by
      by_cases haborts : a.aborts t = true
      · rw [if_pos haborts] at hj
        rcases List.mem_append.mp hj with hj | hj
        · exact h.aborted j hj
        · cases List.mem_singleton.mp hj
          exact hpre.aborts haborts
      · rw [if_neg haborts, List.append_nil] at hj
        exact h.aborted j hj
    rw [hremovals]
    exact ⟨hkept.1, List.mem_append_left _ hkept.2⟩

/-- An act leaves what another task is about to do as it was. -/
theorem TransferPre.exec {i j : TaskId} {a b : TransferAct} (hij : i ≠ j)
    (hpre : TransferPre calls t i a w) (hother : TransferPre calls t j b w)
    (hquiet : IsCommit calls t i → (a.applies || a.removes t || a.commits t) = true →
      b.removes t = false) (env : StepEnv) : TransferPre calls t i a (exec j b env w).2 := by
  have hremovals := removals_exec t j b env w
  have hcommitted := committedBy_exec t j b env w
  constructor
  case avoids => exact hpre.avoids
  case held =>
    intro hcommit hacts
    rw [get_exec t j b env w hother.avoids (hquiet hcommit (by rw [hacts]; rfl))]
    exact hpre.held hcommit hacts
  case commits =>
    intro hcommits
    obtain ⟨hcommit, hown, hnone⟩ := hpre.commits hcommits
    have hremoves := hquiet hcommit (by rw [hcommits, Bool.or_true])
    -- the other one would report a removal of its own
    have hsilent : ¬ b.commits t = true := by
      intro hb
      have hlist : [i] = [j] := hown.symm.trans (hother.commits hb).2.1
      exact hij (List.singleton_inj.mp hlist)
    grind
  grind [aborts]

theorem TransferInv.tick (h : TransferInv calls t w) (k : ServerTick) :
    TransferInv calls t (tick k w) := by
  cases k with
  | advance ns => exact ⟨h.gone, h.once, h.committed, h.aborted⟩
  | checkExpirations =>
    refine ⟨fun hne => ?_, h.once, h.committed, h.aborted⟩
    change w.get t = none
    rw [TransferWorld.get, h.gone hne]
    rfl
  | elsewhere server => exact ⟨h.gone, h.once, h.committed, h.aborted⟩

theorem get_checkExpirations (w : TransferWorld) : w.checkExpirations.get t = w.get t := by
  change (w.get t).filter (fun p => ¬ p.isExpired w.now) = w.get t
  simp [TransferWorld.get, Option.filter_filter]

theorem get_advance {ns : ℕ} (hheld : (w.get t).isSome)
    (hlasts : (w.pendingTransfers t).all (fun p => w.now + ns < p.expiresAt) = true) :
    (({ w with now := w.now + ns } : TransferWorld).get t).isSome := by
  obtain ⟨p, hp⟩ := Option.isSome_iff_exists.mp hheld
  have hpending : w.pendingTransfers t = some p := (Option.filter_eq_some_iff.mp hp).1
  rw [hpending] at hlasts
  have hlt : w.now + ns < p.expiresAt := of_decide_eq_true hlasts
  rw [Option.isSome_iff_exists]
  refine ⟨p, Option.filter_eq_some_iff.mpr ⟨hpending, ?_⟩⟩
  simp [PendingPlaybackTransfer.isExpired, hlt]

theorem TransferPre.tick (hpre : TransferPre calls t i a w)
    {k : ServerTick} (hlasts : ∀ ns, k = .advance ns → IsCommit calls t i →
      (a.applies || a.removes t) = true →
      (w.pendingTransfers t).all (fun p => w.now + ns < p.expiresAt) = true) :
    TransferPre calls t i a (tick k w) := by
  refine ⟨hpre.avoids, fun hcommit hacts => ?_, ?_, ?_⟩
  · have hheld := hpre.held hcommit hacts
    cases k with
    | advance ns => exact get_advance hheld (hlasts ns rfl hcommit hacts)
    | checkExpirations => exact (congrArg Option.isSome (get_checkExpirations w)).trans hheld
    | elsewhere server => exact hheld
  · cases k <;> exact hpre.commits
  · cases k <;> exact hpre.aborts

variable (calls t) in
def transferDiscipline : Discipline TransferAct StepEnv TransferWorld where
  Inv := TransferInv calls t
  Pre := TransferPre calls t
  Ok _ _ _ _ := True
  Rely i a w w' := TransferPre calls t i a w → TransferPre calls t i a w'
  rely_refl _ _ _ := id
  rely_trans _ _ _ _ _ h h' := h' ∘ h

theorem underWay_of_next {s : TransferRun} (hnext : s.next i = some a)
    (hcommit : IsCommit calls t i) (hacts : (a.applies || a.removes t || a.commits t) = true) :
    UnderWay calls t s i := ⟨hcommit, by rw [hnext]; exact hacts⟩

theorem transfer_sound :
    Sound (transferDiscipline calls t) semantics (Undisturbed calls t) where
  ok _ _ _ _ _ _ := trivial
  inv i a env w hinv hpre _ := TransferInv.exec hinv hpre env
  rely s i j a b env hij ha hb _ hpre hother hallowed _ := by
    refine TransferPre.exec hij hpre hother (fun hcommit hacts => ?_) env
    have hunder := underWay_of_next ha hcommit hacts
    have hremoves := (hallowed i (System.lt_of_next ha) hunder).resolve_left hij
    rw [hb] at hremoves
    exact hremoves
  tick_inv s k hinv _ := TransferInv.tick hinv k
  tick_rely s k i a ha _ hpre hallowed _ := by
    refine TransferPre.tick hpre fun ns hk hcommit hacts => ?_
    subst hk
    exact hallowed i (System.lt_of_next ha)
      (underWay_of_next ha hcommit (by rw [hacts]; rfl))

/-! ### The routes -/

section Routes

variable {i : TaskId} {w : TransferWorld} {α ε : Type}

/-- A result of the route comes with `Q`, and its steps have what they count on. -/
abbrev Outlined (calls : List TransferCall) (t : String) (i : TaskId) (Q : α → TransferWorld → Prop)
    (x : TransferM α) (w : TransferWorld) : Prop :=
  Yields (transferDiscipline calls t) semantics i Q x w

def HeldFor (calls : List TransferCall) (t : String) (i : TaskId) (w : TransferWorld) : Prop :=
  IsCommit calls t i → (w.get t).isSome

variable {a : TransferAct}

theorem outline_step {Q : a.Resp → TransferWorld → Prop} (hpre : TransferPre calls t i a w)
    (h : ∀ w' env, TransferInv calls t w' → TransferPre calls t i a w' → Q (exec i a env w').1 (exec i a env w').2) :
    Outline (transferDiscipline calls t) semantics i Q (.perform a) w := by
  refine Outline.perform fun w' hrely hinv => ?_
  have hpre' : TransferPre calls t i a w' := hrely hpre
  exact ⟨hpre', fun env _ => h w' env hinv hpre'⟩

theorem TransferPre.free (havoids : a.Avoids t)
    (hfree : (a.applies || a.removes t || a.commits t || a.aborts t) = false) : TransferPre calls t i a w := by
  simp only [Bool.or_eq_false_iff] at hfree
  obtain ⟨⟨⟨happlies, hremoves⟩, hcommits⟩, haborts⟩ := hfree
  exact ⟨havoids, by simp [happlies, hremoves], by simp [hcommits], by simp [haborts]⟩

theorem outline_free (havoids : a.Avoids t)
    (hfree : (a.applies || a.removes t || a.commits t || a.aborts t) = false) :
    Outline (transferDiscipline calls t) semantics i (fun _ _ => True) (.perform a) w :=
  outline_step (.free havoids hfree) fun _ _ _ _ => trivial

theorem outline_applies (happlies : a.applies = true) (hheld : HeldFor calls t i w) :
    Outline (transferDiscipline calls t) semantics i (fun _ => HeldFor calls t i)
      (.perform a) w := by
  have hothers : a.Avoids t ∧ a.removes t = false ∧ a.commits t = false ∧ a.aborts t = false := by
    cases a <;> first | exact ⟨trivial, rfl, rfl, rfl⟩ | cases happlies
  obtain ⟨havoids, hremoves, hcommits, haborts⟩ := hothers
  refine outline_step ⟨havoids, fun hcommit _ => hheld hcommit, by simp [hcommits],
    by simp [haborts]⟩ fun w' env _ hpre hcommit => ?_
  rw [get_exec t i a env w' havoids hremoves]
  exact hpre.held hcommit (by rw [happlies]; rfl)

theorem outlined_attempt {onError : ε → ApiError} {p : Prog TransferAct.Resp (Except ε α)}
    {Q : TransferWorld → Prop}
    (h : Outline (transferDiscipline calls t) semantics i (fun _ => Q) p w) :
    Outlined calls t i (fun _ => Q) (attempt onError p) w :=
  yields_attempt (Outline.mono h fun _ _ h' _ _ => h')

theorem outlined_playbackEnabled :
    Outlined calls t i (fun _ _ => True) playbackEnabled w := by
  refine .bind (.lift (outline_free trivial rfl)) fun disabled w' _ => ?_
  exact .mono yields_rejectIf fun _ _ _ => trivial

theorem outlined_applyTransfer (p : PendingPlaybackTransfer) (grant : AuthorityGrant)
    (hheld : HeldFor calls t i w) :
    Outlined calls t i (fun _ => HeldFor calls t i) (applyTransfer p grant) w := by
  refine .bind (.lift (outline_applies rfl hheld)) fun _ w₁ h₁ => ?_
  refine .bind (outlined_attempt (outline_applies rfl h₁)) fun sessionId w₂ h₂ => ?_
  refine .bind (outlined_attempt (outline_applies rfl h₂)) fun queueId w₃ h₃ => ?_
  refine .bind (outlined_attempt (outline_applies rfl h₃)) fun _ w₄ h₄ => ?_
  refine .bind (outlined_attempt (outline_applies rfl h₄)) fun _ w₅ h₅ => ?_
  refine .bind (outlined_attempt (outline_applies rfl h₅)) fun plan w₆ h₆ => ?_
  refine .bind (Q := fun _ => HeldFor calls t i) (.ite (fun _ => ?_) fun _ => ?_)
    fun _ w₇ h₇ => .pure h₇
  · exact outlined_attempt (outline_applies rfl h₆)
  · exact outlined_attempt (outline_applies rfl h₆)

/-- The outline of a commit. -/
theorem outlined_commit {body : PlaybackTransferCommitRequest} (hcall : calls[i]? = some (.commit body)) :
    Outlined calls t i (fun r w' => TransferPre calls t i (.respond (.ok r)) w')
      (playbackTransferCommitHandler body) w := by
  have hcommit : IsCommit calls t i ↔ body.transferId = t := by
    simp [IsCommit, hcall, TransferCall.commits]
  refine .bind outlined_playbackEnabled fun _ w₁ _ => ?_
  refine .bind (.lift (outline_step (a := .get body.transferId)
    (Q := fun loaded w' => loaded.isSome → HeldFor calls t i w') (.free trivial rfl)
    fun w' env _ _ hloaded hc => ?_)) fun loaded w₂ h₂ => ?_
  · rw [← hcommit.mp hc]
    exact hloaded
  refine .bind yields_require fun p w₃ h₃ => ?_
  obtain ⟨rfl, rfl⟩ := h₃
  refine .bind yields_rejectIf fun _ w₄ h₄ => ?_
  subst h₄
  refine .bind (outlined_applyTransfer p body.grant (h₂ rfl)) fun sessionId w₅ hheld => ?_
  -- what is removed was still there, so nobody has removed it before
  refine .bind (.lift (outline_step (a := .remove body.transferId)
    (Q := fun _ w' => body.transferId = t → w'.removals t = [i] ∧ w'.committedBy t = [])
    ⟨trivial, fun hc _ => hheld hc, nofun, nofun⟩ fun w' env hinv hpre hid => ?_))
    fun _ w₆ hremoved => ?_
  · have hown : (TransferAct.remove body.transferId).removes t = true := decide_eq_true hid
    have hthere : (w'.get t).isSome := hpre.held (hcommit.mpr hid) (by rw [hown, Bool.or_true])
    rw [removals_exec, committedBy_exec, if_pos hown, hinv.removals_eq_nil hthere,
      (hinv.available hthere).not_committed]
    exact ⟨rfl, rfl⟩
  · refine .pure ⟨trivial, nofun, fun hc => ?_, nofun⟩
    have hid : body.transferId = t := of_decide_eq_true hc
    exact ⟨hcommit.mpr hid, hremoved hid⟩

theorem outlined_abort {transferId : String} (hcall : calls[i]? = some (.abort transferId)) :
    Outlined calls t i (fun r w' => TransferPre calls t i (.respond (.ok r)) w')
      (playbackTransferAbortHandler transferId) w := by
  have hnot : ¬ IsCommit calls t i := by simp [IsCommit, hcall, TransferCall.commits]
  refine .bind (.lift (outline_step (a := .remove transferId)
    (Q := fun _ w' => transferId = t → i ∈ w'.removals t)
    ⟨trivial, fun hc _ => absurd hc hnot, nofun, nofun⟩ fun w' env _ _ hid => ?_))
    fun _ w₁ hremoved => ?_
  · have hown : (TransferAct.remove transferId).removes t = true := decide_eq_true hid
    rw [removals_exec, if_pos hown]
    simp
  · exact .pure ⟨trivial, nofun, nofun, fun ha => ⟨hnot, hremoved (of_decide_eq_true ha)⟩⟩

theorem outlined_resolveQueue (queue : List ContentRefV1) :
    Outlined calls t i (fun _ _ => True) (resolveQueue queue) w := by
  induction queue generalizing w with
  | nil => exact .pure trivial
  | cons qref rest ih =>
    refine .bind (.lift (outline_free trivial rfl)) fun r w₁ _ => ?_
    refine .bind ih fun others w₂ _ => ?_
    cases r with
    | ok track => exact .pure trivial
    | error e => exact .pure trivial

theorem outlined_checkedReceiver (receiverMichiId : String) :
    Outlined calls t i (fun _ _ => True) (checkedReceiver receiverMichiId) w := by
  refine .bind (.lift (outline_free trivial rfl)) fun found w₁ _ => ?_
  refine .bind yields_require fun receiver w₂ _ => ?_
  refine .bind yields_rejectIf fun _ w₃ _ => ?_
  refine .bind yields_rejectIf fun _ w₄ _ => ?_
  exact .pure trivial

theorem outlined_expectedEpoch (receiver : ReceiverRecord) :
    Outlined calls t i (fun _ _ => True) (expectedEpoch receiver) w := by
  refine .ite (fun _ => ?_) fun _ => .pure trivial
  refine .bind (outlined_attempt (outline_free trivial rfl)) fun st w₁ _ => ?_
  cases st with
  | some leaseEpoch => exact .pure trivial
  | none =>
    refine .bind (.lift (outline_free trivial rfl)) fun grant w₂ _ => ?_
    refine .bind yields_require fun leaseEpoch w₃ _ => ?_
    exact .pure trivial

theorem outlined_prepare {identity : Identity} {body : PlaybackTransferPrepareRequest}
    (hother : body.transferId ≠ t) :
    Outlined calls t i (fun r w' => TransferPre calls t i (.respond (.ok r)) w')
      (playbackTransferPrepareHandler identity body) w := by
  refine .bind outlined_playbackEnabled fun _ w₁ _ => ?_
  refine .bind (Q := fun _ _ => True) (.ofExcept fun _ _ => trivial) fun _ w₂ _ => ?_
  refine .bind yields_rejectIf fun _ w₃ _ => ?_
  refine .bind (outlined_checkedReceiver body.receiverMichiId) fun receiver w₄ _ => ?_
  refine .bind (outlined_attempt (outline_free trivial rfl)) fun currentTrack w₅ _ => ?_
  refine .bind (outlined_attempt (outline_free trivial rfl)) fun _ w₆ _ => ?_
  refine .bind (outlined_resolveQueue body.tailsync.queue) fun preparedQueue w₇ _ => ?_
  refine .bind yields_require fun nonce w₈ _ => ?_
  refine .bind (outlined_expectedEpoch receiver) fun epoch w₉ _ => ?_
  refine .bind (.lift (outline_free (fun _ _ => hother) rfl)) fun _ w₁₀ _ => ?_
  exact .pure (.free trivial rfl)

theorem outline_answered {body : TransferM TransferResponse}
    (h : Outlined calls t i (fun r w' => TransferPre calls t i (.respond (.ok r)) w') body w) :
    Outline (transferDiscipline calls t) semantics i (fun _ _ => True) (answered body) w := by
  refine .bind (h.outline.mono fun answer w' hanswer => ?_)
  have hpre : TransferPre calls t i (.respond answer) w' := by
    cases answer with
    | ok r => exact hanswer r rfl
    | error e => exact .free trivial rfl
  refine .bind (outline_step hpre fun _ _ _ _ => ?_)
  trivial

end Routes

theorem wellOutlined_start (server : Server) (now : ℕ)
    (pending : String → Option PendingPlaybackTransfer)
    (hprepare : ∀ identity body, .prepare identity body ∈ calls → body.transferId ≠ t) :
    WellOutlined (transferDiscipline calls t) semantics
      (TransferRun.start calls server now pending) := by
  refine ⟨⟨fun h => absurd rfl h, Nat.zero_le 1, fun h => absurd rfl h, nofun⟩, fun i p hp => ?_⟩
  obtain ⟨call, hcall, hprogram⟩ : ∃ call, calls[i]? = some call ∧ call.program = p := by grind [TransferRun.start,
    System.task]
  subst hprogram
  cases call with
  | prepare identity body =>
    exact outline_answered (outlined_prepare (hprepare identity body (List.mem_of_getElem? hcall)))
  | commit body => exact outline_answered (outlined_commit hcall)
  | abort transferId => exact outline_answered (outlined_abort hcall)

theorem commitStep_of_wellOutlined {s : TransferRun}
    (h : WellOutlined (transferDiscipline calls t) semantics s) (m : Move StepEnv ServerTick) :
    CommitStep calls t s m := by
  have hinv : TransferInv calls t s.world := h.1
  cases m with
  | drop i => trivial
  | tick k => trivial
  | act i env =>
    refine ⟨fun hcommit hacts => ?_, fun hreports => ?_⟩
    · obtain ⟨a, hnext, ha⟩ := (Option.any_eq_true _ _).mp hacts
      have hpre : TransferPre calls t i a s.world := h.pre hnext
      exact hinv.available (hpre.held hcommit ha)
    · obtain ⟨a, hnext, ha⟩ := (Option.any_eq_true _ _).mp hreports
      have hpre : TransferPre calls t i a s.world := h.pre hnext
      obtain ⟨hcommit, hremovals, hcommitted⟩ := hpre.commits ha
      exact ⟨hcommit, hremovals, hcommitted, hinv.not_aborted hcommit hremovals⟩

/-- If no task removes the transfer, and it does not expire, while a commit of it is under way, then
at most one commit of it reports success, and a commit acts on the world only while the transfer is
there and has neither expired nor been reported committed or aborted. -/
theorem commit_at_most_once {server : Server} {now : ℕ}
    {pending : String → Option PendingPlaybackTransfer} {moves : List (Move StepEnv ServerTick)}
    (hprepare : ∀ identity body, .prepare identity body ∈ calls → body.transferId ≠ t)
    (hmoves : (TransferRun.start calls server now pending).Obeys semantics (Undisturbed calls t)
      moves) :
    AtMostOnce calls t (TransferRun.start calls server now pending) moves := by
  have hstart := wellOutlined_start server now pending hprepare
  have hend := transfer_sound.run hstart hmoves
  have hinv : TransferInv calls t _ := hend.1
  exact ⟨hinv.once, transfer_sound.obeys (fun _ m h _ => commitStep_of_wellOutlined h m) hstart hmoves⟩

end Runs

/-! ### Two commits and an abort -/

def sampleCalls : List TransferCall :=
  [.commit sampleCommit, .commit sampleCommit, .abort "transfer-1"]

def sampleStart : TransferRun :=
  let w := ((TransferCall.prepare sampleIdentity sampleBody).alone sampleEnvs
    (sampleWorld [1, 2, 3])).2
  .start sampleCalls w.server w.now w.pendingTransfers

def sampleSteps (i : TaskId) (n : ℕ) : List (Move StepEnv ServerTick) :=
  List.replicate n (.act i (sampleEnvs 0))

def sampleMoves : List (Move StepEnv ServerTick) :=
  sampleSteps 0 2 ++ [.tick (.advance 1000000000)] ++ sampleSteps 0 9 ++ sampleSteps 2 2 ++
    sampleSteps 1 3

set_option maxRecDepth 20000 in
/-- Of two commits and an abort, one commits the transfer. -/
theorem commit_at_most_once_sample :
    AtMostOnce sampleCalls "transfer-1" sampleStart sampleMoves ∧
      (sampleStart.run semantics sampleMoves).world.committedBy "transfer-1" = [0] := by
  refine ⟨commit_at_most_once (fun identity body h => ?_) ?_, ?_⟩
  · simp [sampleCalls] at h
  · decide +kernel
  · decide +kernel

def sampleTwice : List (Move StepEnv ServerTick) :=
  sampleSteps 0 2 ++ sampleSteps 1 2 ++ sampleSteps 0 9 ++ sampleSteps 1 9

def sampleAborted : List (Move StepEnv ServerTick) :=
  sampleSteps 0 2 ++ sampleSteps 2 2 ++ sampleSteps 0 9

def sampleExpired : List (Move StepEnv ServerTick) :=
  sampleSteps 0 2 ++ [.tick (.advance defaultTransferTtl)] ++ sampleSteps 0 9

set_option maxRecDepth 20000 in
/-- Both commits report success; so does the one whose transfer has been reported aborted, and the one
whose transfer has expired. -/
theorem commit_not_at_most_once :
    ¬ AtMostOnce sampleCalls "transfer-1" sampleStart sampleTwice ∧
      ¬ AtMostOnce sampleCalls "transfer-1" sampleStart sampleAborted ∧
      ¬ AtMostOnce sampleCalls "transfer-1" sampleStart sampleExpired ∧
      (sampleStart.run semantics sampleAborted).world.answers =
        [(2, .ok (.aborted "transfer-1")), (0, .ok (.committed "transfer-1" "session-1"))] ∧
      (sampleStart.run semantics sampleExpired).world.answers =
        [(0, .ok (.committed "transfer-1" "session-1"))] := by
  refine ⟨fun h => ?_, fun h => ?_, fun h => ?_, ?_, ?_⟩
  · have htwo : (sampleStart.run semantics sampleTwice).world.committedBy "transfer-1" =
        [0, 1] := by decide +kernel
    have honce := h.1
    rw [htwo] at honce
    exact absurd honce (by decide)
  · exact absurd h.2 (by decide +kernel)
  · exact absurd h.2 (by decide +kernel)
  · decide +kernel
  · decide +kernel

end MichiServer.Transfer
