import MichiServer.Outbox.Delivery

/-!
# When a row comes due

A row that waits is due from its next attempt on. A row that a flush delivers waits or is acknowledged
within three steps of that flush, whatever they meet. A row that is in `delivering` and that no flush
delivers is never due again, unless it is reset.
-/

namespace MichiServer.Outbox

open Interleave OutboxWorld

variable {home : Home} {p : OutboxPool} {t : OutboxTask} {w : OutboxWorld}

/-! ## The property -/

namespace OutboxWorld

variable (w)

def DueFrom (row : OutboxEntry) : Prop := ∃ time, ∀ now, time ≤ now → row ∈ w.listDue now

/-- The target of the row has acknowledged the stored content, or the row is due from some time on. -/
def Settled (id : String) : Prop := ∀ row ∈ w.outbox, row.id = id → w.Acked row ∨ w.DueFrom row

end OutboxWorld

/-- The task at the place can go on, and within so many steps of it, whatever they meet, the row is
settled. -/
def Soon (home : Home) (i : ℕ) (id : String) : ℕ → OutboxPool → Prop
  | 0, p => p.world.Settled id
  | n + 1, p => p.world.Settled id ∨
    (∃ env, CarefulMove home p (.act i env)) ∧
      ∀ env, CarefulMove home p (.act i env) →
        Soon home i id n (p.step (outboxMachine home) (.act i env))

def ComesDue (home : Home) (p : OutboxPool) (id : String) : Prop := ∃ i n, Soon home i id n p

/-- Each row whose target has not acknowledged the stored content comes due, and is not marked
acknowledged. -/
def NoneLost (home : Home) (p : OutboxPool) : Prop :=
  ∀ row ∈ p.world.outbox, (p.world.Acked row ∨ ComesDue home p row.id) ∧
    (row.status = .acknowledged → p.world.Acked row)

theorem mem_listDue {row : OutboxEntry} {now : DateTime} :
    row ∈ w.listDue now ↔ row ∈ w.outbox ∧ row.Due now := by
  simp [listDue]

theorem dueFrom_of_waits {row : OutboxEntry} (hrow : row ∈ w.outbox) (h : row.Waits) :
    w.DueFrom row := by
  refine ⟨row.nextAttemptAt.getD 0, fun now hnow => mem_listDue.mpr ⟨hrow, h, fun next hnext => ?_⟩⟩
  rw [Option.mem_def.mp hnext] at hnow
  exact hnow

/-! ## A flush goes on -/

variable {id : String}

theorem Soon.succ {i n : ℕ} (h : Soon home i id n p) : Soon home i id (n + 1) p := by
  induction n generalizing p with
  | zero => exact .inl h
  | succ n ih => exact h.imp_right fun ⟨hcan, hsteps⟩ => ⟨hcan, fun env hcareful => ih (hsteps env hcareful)⟩

theorem OutboxInv.settled (hinv : OutboxInv p) (h : p.world.Loose id) :
    p.world.Settled id := by
  intro row hrow hid
  by_cases hwaits : row.Waits
  · exact .inr (dueFrom_of_waits hrow hwaits)
  · rcases OutboxEntry.not_waits_iff.mp hwaits with hstatus | hstatus
    · exact .inl (h row hrow hid hstatus)
    · exact .inl (hinv.acknowledged row hrow hstatus)

theorem loose_update {change : OutboxEntry → OutboxEntry}
    (hchange : ∀ row, (change row).status ≠ .delivering) :
    (w.update (fun row => row.id == id) change).Loose id := by
  intro row' hrow' hid' hstatus
  obtain ⟨row, hrow, rfl⟩ := List.mem_map.mp hrow'
  grind

variable {i : ℕ} {item : OutboxEntry} {rest : List OutboxEntry}

theorem careful_act (ht : p.tasks[i]? = some t) {env : OutboxEnv} :
    CarefulMove home p (.act i env) ↔ t.Careful home env p.world := by
  simp [CarefulMove, ht]

theorem soon_markAttemptFailed (hinv : OutboxInv p) {delay : ℤ}
    (ht : p.tasks[i]? = some (.markAttemptFailed item delay rest)) : Soon home i item.id 1 p := by
  refine .inr ⟨⟨{}, (careful_act ht).mpr (.inl rfl)⟩, fun env hcareful => ?_⟩
  refine (hinv.step hcareful).settled ?_
  rw [Pool.step_world ht]
  simp only [outboxMachine, OutboxTask.step]
  split
  · exact loose_update fun _ h => by cases h
  next hdatabase => exact ((careful_act ht).mp hcareful).resolve_left hdatabase

theorem soon_markAcknowledged (hinv : OutboxInv p) {dto : RevocationDto}
    (ht : p.tasks[i]? = some (.markAcknowledged item dto rest))
    (hfresh : (OutboxTask.markAcknowledged item dto rest).Fresh p.world) :
    Soon home i item.id 1 p := by
  have hcontent := fun r hr => hfresh (item.revocationId, dto) rfl r hr
  refine .inr ⟨⟨{}, (careful_act ht).mpr fun _ => hcontent⟩, fun env hcareful => ?_⟩
  refine (hinv.step hcareful).settled ?_
  rw [Pool.step_world ht]
  simp only [outboxMachine, OutboxTask.step]
  split
  · exact loose_update fun _ h => by cases h
  · exact fun row hrow hid _ =>
      acked_of_taken hinv (hinv.good _ (List.mem_of_getElem? ht)) hcontent hrow hid.symm

/-- A row that is pushed is settled within two acts. -/
theorem soon_push (hinv : OutboxInv p) {dto : RevocationDto}
    (ht : p.tasks[i]? = some (.push item dto rest))
    (hfresh : (OutboxTask.push item dto rest).Fresh p.world) : Soon home i item.id 2 p := by
  refine .inr ⟨⟨{}, (careful_act ht).mpr trivial⟩, fun env hcareful => ?_⟩
  have hinv' := hinv.step hcareful
  have hfailed : ∀ delay, (OutboxTask.push item dto rest).step home env p.world =
      ([.markAttemptFailed item delay rest], p.world) →
        Soon home i item.id 1 (p.step (outboxMachine home) (.act i env)) := fun delay hstep =>
    soon_markAttemptFailed hinv' (Pool.getElem?_step ht (congrArg Prod.fst hstep))
  by_cases hmismatch : env.identityMismatch
  · exact hfailed 300 (by simp [OutboxTask.step, hmismatch])
  · by_cases hpushed : env.pushed
    · have hstep : (OutboxTask.push item dto rest).step home env p.world =
          ([.markAcknowledged item dto rest],
            { p.world with delivered := (item.id, dto) :: p.world.delivered }) := by
        simp [OutboxTask.step, hmismatch, hpushed]
      refine soon_markAcknowledged hinv' (Pool.getElem?_step ht (congrArg Prod.fst hstep)) ?_
      rw [Pool.step_world ht, show (outboxMachine home).step = OutboxTask.step home from rfl, hstep]
      exact hfresh
    · exact hfailed (backoffSecs item.attemptCount) (by simp [OutboxTask.step, hmismatch, hpushed])

/-- A row that is looked up is settled within three acts. -/
theorem soon_lookup (hinv : OutboxInv p) (ht : p.tasks[i]? = some (.lookup item rest)) :
    Soon home i item.id 3 p := by
  refine .inr ⟨⟨{}, (careful_act ht).mpr trivial⟩, fun env hcareful => ?_⟩
  have hinv' := hinv.step hcareful
  by_cases hdatabase : env.database
  · have hstep : (OutboxTask.lookup item rest).step home env p.world =
        ([OutboxTask.afterLookup home item rest
          (p.world.getHomeRevocationById item.revocationId)], p.world) := by
      simp [OutboxTask.step, hdatabase]
    have hnext := Pool.getElem?_step (m := outboxMachine home) ht (congrArg Prod.fst hstep)
    have hfresh := (@OutboxTask.afterLookup_spec p.world home item rest).2.2.2
    have hworld : (p.step (outboxMachine home) (.act i env)).world = p.world := by
      rw [Pool.step_world ht]
      exact congrArg Prod.snd hstep
    unfold OutboxTask.afterLookup at hnext hfresh
    cases hr : p.world.getHomeRevocationById item.revocationId with
    | none =>
      rw [hr] at hnext
      exact (soon_markAttemptFailed hinv' hnext).succ
    | some revocation =>
      rw [hr] at hnext hfresh
      simp only at hnext hfresh
      split at hnext
      · exact (soon_markAttemptFailed hinv' hnext).succ
      next hhome =>
        rw [if_neg hhome] at hfresh
        split at hnext
        · exact (soon_markAttemptFailed hinv' hnext).succ
        grind [soon_push]
  · have hstep : (OutboxTask.lookup item rest).step home env p.world =
        ([.markAttemptFailed item 60 rest], p.world) := by
      simp [OutboxTask.step, hdatabase]
    exact (soon_markAttemptFailed hinv' (Pool.getElem?_step ht (congrArg Prod.fst hstep))).succ

/-- **A delivery ends.** A flush that delivers the stored content of a row settles it in three steps. -/
theorem soon_of_delivering (hinv : OutboxInv p) (ht : p.tasks[i]? = some t)
    (hdelivering : t.delivering = some id) (hfresh : t.Fresh p.world) : Soon home i id 3 p := by
  cases t with
  | lookup =>
    cases hdelivering
    exact soon_lookup hinv ht
  | push =>
    cases hdelivering
    exact (soon_push hinv ht hfresh).succ
  | markAcknowledged =>
    cases hdelivering
    exact (soon_markAcknowledged hinv ht hfresh).succ.succ
  | markAttemptFailed =>
    cases hdelivering
    exact (soon_markAttemptFailed hinv ht).succ.succ
  | _ => cases hdelivering

theorem OutboxInv.none_lost (hinv : OutboxInv p) : NoneLost home p := by
  intro row hrow
  refine ⟨?_, hinv.acknowledged row hrow⟩
  cases hstatus : row.status with
  | delivering =>
    rcases hinv.delivering row hrow hstatus with hacked | ⟨t, ht, hdelivering, hfresh⟩
    · exact .inl hacked
    · obtain ⟨i, hi⟩ := List.mem_iff_getElem?.mp ht
      exact .inr ⟨i, 3, soon_of_delivering hinv hi hdelivering hfresh⟩
  | acknowledged => exact .inl (hinv.acknowledged row hrow hstatus)
  | pending | failed =>
    refine .inr ⟨0, 0, fun row' hrow' hid => ?_⟩
    rw [eq_of_id_eq hinv.ids hrow' hrow hid]
    exact .inr (dueFrom_of_waits hrow (by simp [OutboxEntry.Waits, hstatus]))

/-- **No delivery is lost.** In every state that a run of careful moves reaches. -/
theorem no_delivery_lost (home : Home) (moves : List OutboxMove)
    (hmoves : nothingRevoked.Obeys (outboxMachine home) (CarefulMove home) moves) :
    NoneLost home (nothingRevoked.run (outboxMachine home) moves) :=
  (outboxInv_run hmoves).none_lost

def someHome : Home := ⟨"home", fun _ now _ => if now = 0 then "first" else "second", fun _ => true⟩

def claimed : List OutboxMove :=
  [.arrive (.revokeDevice "phone" "lost"),
    .act 0 { revocationId := "revocation", targets := [⟨"row", "speaker", "speaker", "http"⟩] },
    .act 0 {}, .act 0 {}, .act 0 {}, .act 0 {}]

def delivered : List OutboxMove := claimed ++ [.act 0 {}, .act 0 {}, .act 0 {}, .act 0 {}]

/-- A revocation is claimed and delivered. -/
theorem delivered_not_lost :
    nothingRevoked.Obeys (outboxMachine someHome) (CarefulMove someHome) delivered ∧
      NoneLost someHome (nothingRevoked.run (outboxMachine someHome) delivered) :=
  have hcareful :
      nothingRevoked.Obeys (outboxMachine someHome) (CarefulMove someHome) delivered := by
    decide +kernel
  ⟨hcareful, no_delivery_lost someHome delivered hcareful⟩

/-! ## A row that is left in `delivering` -/

def OutboxTask.Unassisting : OutboxTask → Prop
  | .revokeDevice _ _ | .retryOutboxDelivery _ => False
  | _ => True

def UnassistedMove : OutboxMove → Prop
  | .arrive c => (OutboxTask.enter c).Unassisting
  | _ => True

/-- The row is in `delivering`, and no call that is under way delivers or resets it. -/
structure Stuck (p : OutboxPool) (id : String) : Prop where
  rows : ∀ row ∈ p.world.outbox, row.id = id → row.status = .delivering
  tasks : ∀ t ∈ p.tasks, t.Unassisting ∧ t.delivering ≠ some id

/-- A row that nobody delivers stays so through a step that does not assist it. -/
theorem stuck_step {env : OutboxEnv}
    (hrows : ∀ row ∈ w.outbox, row.id = id → row.status = .delivering) (hassists : t.Unassisting)
    (hdelivering : t.delivering ≠ some id) :
    (∀ row ∈ (t.step home env w).2.outbox, row.id = id → row.status = .delivering) ∧
      ∀ t' ∈ (t.step home env w).1, t'.Unassisting ∧ t'.delivering ≠ some id := by
  -- an update of the rows of another id
  have hother : ∀ (other : String) (change : OutboxEntry → OutboxEntry), other ≠ id →
      (∀ row, (change row).id = row.id) → ∀ row ∈ (w.update (fun row => row.id == other) change).outbox,
        row.id = id → row.status = .delivering := by
    intro other change hne hid row' hrow' hid'
    obtain ⟨row, hrow, rfl⟩ := List.mem_map.mp hrow'
    grind
  cases t with
  | revokeDevice | retryOutboxDelivery => exact hassists.elim
  | flushRevocationOutbox | listDue =>
    grind [OutboxTask.step, OutboxTask.Unassisting, OutboxTask.delivering]
  | next items =>
    cases items with
    | nil => exact ⟨hrows, fun _ h => by cases h⟩
    | cons item rest =>
      grind [OutboxTask.step, OutboxTask.Unassisting, OutboxTask.delivering]
  | markDelivering item rest =>
    simp only [OutboxTask.step]
    split
    next hclaims =>
      obtain ⟨row, hrow, happlies⟩ := List.any_eq_true.mp hclaims.2
      simp only [Bool.and_eq_true, beq_iff_eq, decide_eq_true_eq] at happlies
      -- the row that is claimed waits, so it is another one
      have hne : item.id ≠ id := fun heq => by grind [OutboxEntry.Waits]
      refine ⟨fun row' hrow' hid' => ?_, by simp [OutboxTask.Unassisting, OutboxTask.delivering, hne]⟩
      obtain ⟨row, hrow, rfl⟩ := List.mem_map.mp hrow'
      grind
    · exact ⟨hrows, by simp [OutboxTask.Unassisting, OutboxTask.delivering]⟩
  | lookup item rest =>
    simp only [OutboxTask.step, OutboxTask.afterLookup]
    refine ⟨by split <;> exact hrows, fun t' ht' => ?_⟩
    have hitem : some item.id ≠ some id := hdelivering
    split at ht'
    · rw [List.mem_singleton.mp ht']
      split
      · exact ⟨trivial, hitem⟩
      · split
        · exact ⟨trivial, hitem⟩
        · split <;> exact ⟨trivial, hitem⟩
    · rw [List.mem_singleton.mp ht']
      exact ⟨trivial, hitem⟩
  | push item dto rest =>
    have hitem : some item.id ≠ some id := hdelivering
    simp only [OutboxTask.step]
    split
    · exact ⟨hrows, List.forall_mem_singleton.mpr ⟨trivial, hitem⟩⟩
    · split <;> exact ⟨hrows, List.forall_mem_singleton.mpr ⟨trivial, hitem⟩⟩
  | markAcknowledged item dto rest =>
    have hitem : item.id ≠ id := fun heq => hdelivering (congrArg some heq)
    refine ⟨?_, List.forall_mem_singleton.mpr ⟨trivial, fun h => by cases h⟩⟩
    simp only [OutboxTask.step]
    split
    · exact hother item.id _ hitem fun _ => rfl
    · exact hrows
  | markAttemptFailed item delay rest =>
    have hitem : item.id ≠ id := fun heq => hdelivering (congrArg some heq)
    refine ⟨?_, List.forall_mem_singleton.mpr ⟨trivial, fun h => by cases h⟩⟩
    simp only [OutboxTask.step]
    split
    · exact hother item.id _ hitem fun _ => rfl
    · exact hrows
  | release item rest =>
    exact ⟨hrows, List.forall_mem_singleton.mpr ⟨trivial, fun h => by cases h⟩⟩

/-- And so through each such move. -/
theorem Stuck.step {move : OutboxMove} (h : Stuck p id) (hmove : UnassistedMove move) :
    Stuck (p.step (outboxMachine home) move) id := by
  cases move with
  | arrive c =>
    refine ⟨h.rows, fun t ht => ?_⟩
    rcases List.mem_append.mp ht with hold | hnew
    · exact h.tasks t hold
    · rw [List.mem_singleton.mp hnew]
      refine ⟨hmove, ?_⟩
      cases c <;> exact fun h => nomatch h
  | act i env =>
    cases ht : p.tasks[i]? with
    | none =>
      grind [outboxMachine, Pool.step]
    | some t =>
      obtain ⟨hassists, hdelivering⟩ := h.tasks t (List.mem_of_getElem? ht)
      obtain ⟨hrows, htasks⟩ := @stuck_step home _ _ id env h.rows hassists hdelivering
      refine ⟨?_, fun u hu => ?_⟩
      · rw [Pool.step_world ht]
        exact hrows
      · rw [Pool.step, ht] at hu
        rcases List.mem_append.mp hu with hu | hright
        · rcases List.mem_append.mp hu with hleft | hnew
          · exact h.tasks u (List.mem_of_mem_take hleft)
          · exact htasks u hnew
        · exact h.tasks u (List.mem_of_mem_drop hright)
  | drop i => exact ⟨h.rows, fun t ht => h.tasks t (List.mem_of_mem_eraseIdx ht)⟩
  | tick t => exact ⟨h.rows, h.tasks⟩

/-- **Left behind.** A row in `delivering` that no call delivers is never due again in a run with
neither a revocation nor a manual retry. -/
theorem Stuck.never_due {moves : List OutboxMove} (h : Stuck p id)
    (hmoves : ∀ move ∈ moves, UnassistedMove move) (now : DateTime) :
    ∀ row ∈ (p.run (outboxMachine home) moves).world.listDue now, row.id ≠ id := by
  have hrun : Stuck (p.run (outboxMachine home) moves) id := by
    induction moves generalizing p with
    | nil => exact h
    | cons move rest ih =>
      obtain ⟨hmove, hrest⟩ := List.forall_mem_cons.mp hmoves
      exact ih (h.step hmove) hrest
  intro row hrow hid
  obtain ⟨hmem, hwaits, _⟩ := mem_listDue.mp hrow
  simp [OutboxEntry.Waits, hrun.rows row hmem hid] at hwaits

def crashed : List OutboxMove := claimed ++ [.drop 0, .tick .restart]

def replaced : List OutboxMove :=
  claimed ++ [.act 0 {}, .arrive (.revokeDevice "phone" "stolen"),
    .act 1 { now := 1, targets := [⟨"row 2", "speaker", "speaker", "http"⟩] }, .act 0 {}, .act 0 {}]

/-- **Both ways.** After the crash the row's target has acknowledged nothing, and the row is never due
again in a run with neither a revocation nor a manual retry. After the repeated revocation the row is
acknowledged, and its target has not acknowledged the content that is stored. -/
theorem deliveries_lost :
    (∃ row ∈ (nothingRevoked.run (outboxMachine someHome) crashed).world.outbox,
      ¬ (nothingRevoked.run (outboxMachine someHome) crashed).world.Acked row ∧
        ∀ moves : List OutboxMove, (∀ move ∈ moves, UnassistedMove move) → ∀ now : DateTime,
          ∀ due ∈ (((nothingRevoked.run (outboxMachine someHome) crashed).run
            (outboxMachine someHome) moves).world.listDue now), due.id ≠ row.id) ∧
      ∃ row ∈ (nothingRevoked.run (outboxMachine someHome) replaced).world.outbox,
        row.status = .acknowledged ∧
          ¬ (nothingRevoked.run (outboxMachine someHome) replaced).world.Acked row := by
  have htasks : (nothingRevoked.run (outboxMachine someHome) crashed).tasks = [] := by
    decide +kernel
  have hstuck : Stuck (nothingRevoked.run (outboxMachine someHome) crashed) "row" :=
    ⟨by decide +kernel, by simp [htasks]⟩
  have hcrashed : ∃ row ∈ (nothingRevoked.run (outboxMachine someHome) crashed).world.outbox,
      row.id = "row" ∧ ¬ (nothingRevoked.run (outboxMachine someHome) crashed).world.Acked row := by
    decide +kernel
  obtain ⟨row, hrow, hid, hacked⟩ := hcrashed
  refine ⟨⟨row, hrow, hacked, fun moves hmoves now due hdue => ?_⟩, by decide +kernel⟩
  rw [hid]
  exact hstuck.never_due hmoves now due hdue

end MichiServer.Outbox
