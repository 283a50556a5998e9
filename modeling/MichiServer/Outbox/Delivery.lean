import Mathlib
import MichiServer.Outbox.Rows
import MichiServer.Interleave.Pool

/-!
# Flushes, revocations and retries

`flush_revocation_outbox` lists what is due, and delivers each row in turn: it takes the id into its
single flight, claims the row, looks the revocation up, pushes it, and marks the row. Each of these is a
step, between which revocations, retries and other flushes run, and at which the process can crash.
-/

namespace MichiServer.Outbox

open Interleave

/-- What the server knows of its home: the id, the signature of a revocation, and whether the content
of a stored one verifies. -/
structure Home where
  homeId : String
  sign : String → DateTime → String → String
  verifies : RevocationDto → Bool

def Home.issueRevocation (home : Home) (deviceMichiId : String) (now : DateTime) (reason : String) :
    RevocationDto where
  version := 1
  homeId := home.homeId
  revokedDeviceMichiId := deviceMichiId
  revokedAt := now
  reason
  signature := home.sign deviceMichiId now reason

inductive OutboxTask where
  | revokeDevice (deviceMichiId reason : String)
  | retryOutboxDelivery (revocationId : Option String)
  | flushRevocationOutbox
  | listDue
  | next (items : List OutboxEntry)
  | markDelivering (item : OutboxEntry) (rest : List OutboxEntry)
  | lookup (item : OutboxEntry) (rest : List OutboxEntry)
  | push (item : OutboxEntry) (dto : RevocationDto) (rest : List OutboxEntry)
  | markAcknowledged (item : OutboxEntry) (dto : RevocationDto) (rest : List OutboxEntry)
  | markAttemptFailed (item : OutboxEntry) (delay : ℤ) (rest : List OutboxEntry)
  | release (item : OutboxEntry) (rest : List OutboxEntry)
deriving DecidableEq

/-- A call that arrives: a revocation, a manual retry, and the flush of the timer. -/
inductive OutboxCall where
  | revokeDevice (deviceMichiId reason : String)
  | retryOutboxDelivery (revocationId : Option String)
  | flushRevocationOutbox

/-- What a step meets: the time, whether the database answers, the id drawn for a revocation and the
targets read from the registry, whether the trust state is ready, whether the registry names another
device at the target, and whether the target takes the push. -/
structure OutboxEnv where
  now : DateTime := 0
  database : Bool := true
  revocationId : String := ""
  targets : List OutboxTarget := []
  ready : Bool := true
  identityMismatch : Bool := false
  pushed : Bool := true

inductive OutboxTick where
  | restart

def backoffSecs (attemptCount : ℕ) : ℤ := min (2 ^ min attemptCount 6 * 5) 300

namespace OutboxTask

def enter : OutboxCall → OutboxTask
  | .revokeDevice deviceMichiId reason => .revokeDevice deviceMichiId reason
  | .retryOutboxDelivery revocationId => .retryOutboxDelivery revocationId
  | .flushRevocationOutbox => .flushRevocationOutbox

def afterLookup (home : Home) (item : OutboxEntry) (rest : List OutboxEntry) :
    Option HomeRevocation → OutboxTask
  | none => .markAttemptFailed item 86400 rest
  | some revocation =>
    if revocation.dto.homeId ≠ item.homeId then .markAttemptFailed item 86400 rest
    else if home.verifies revocation.dto = false then .markAttemptFailed item 86400 rest
    else .push item revocation.dto rest

def step (home : Home) : OutboxTask → OutboxEnv → OutboxWorld → List OutboxTask × OutboxWorld
  | .revokeDevice deviceMichiId reason, env, w =>
    let dto := home.issueRevocation deviceMichiId env.now reason
    let stored := w.persistHomeRevocationTransaction ⟨env.revocationId, dto⟩ env.targets env.now
    match stored with
    | some w' => if env.database then ([.flushRevocationOutbox], w') else ([], w)
    | none => ([], w)
  | .retryOutboxDelivery revocationId, env, w =>
    if env.database then ([.flushRevocationOutbox], w.resetForRetry revocationId env.now)
    else ([], w)
  | .flushRevocationOutbox, env, w => if env.ready then ([.listDue], w) else ([], w)
  | .listDue, env, w => if env.database then ([.next (w.listDue env.now)], w) else ([], w)
  | .next [], _, w => ([], w)
  | .next (item :: rest), _, w =>
    if item.id ∈ w.singleFlight then ([.next rest], w)
    else ([.markDelivering item rest], { w with singleFlight := item.id :: w.singleFlight })
  | .markDelivering item rest, env, w =>
    if env.database ∧ w.claims item.id then ([.lookup item rest], w.markDelivering item.id)
    else ([.release item rest], w)
  | .lookup item rest, env, w =>
    if env.database then
      ([afterLookup home item rest (w.getHomeRevocationById item.revocationId)], w)
    else ([.markAttemptFailed item 60 rest], w)
  | .push item dto rest, env, w =>
    if env.identityMismatch then ([.markAttemptFailed item 300 rest], w)
    else if env.pushed then
      ([.markAcknowledged item dto rest], { w with delivered := (item.id, dto) :: w.delivered })
    else ([.markAttemptFailed item (backoffSecs item.attemptCount) rest], w)
  | .markAcknowledged item _ rest, env, w =>
    ([.release item rest], if env.database then w.markAcknowledged item.id else w)
  | .markAttemptFailed item delay rest, env, w =>
    ([.release item rest],
      if env.database then w.markAttemptFailed item.id (env.now + delay) else w)
  | .release item rest, _, w =>
    ([.next rest], { w with singleFlight := w.singleFlight.erase item.id })

def delivering : OutboxTask → Option String
  | .lookup item _ | .push item _ _ | .markAcknowledged item _ _ | .markAttemptFailed item _ _ =>
    some item.id
  | _ => none

end OutboxTask

def outboxMachine (home : Home) :
    Machine OutboxCall OutboxTask OutboxEnv OutboxTick OutboxWorld where
  enter := OutboxTask.enter
  step := OutboxTask.step home
  tick := fun .restart w => { w with singleFlight := [] }

abbrev OutboxPool := Pool OutboxTask OutboxWorld

abbrev OutboxMove := PoolMove OutboxCall OutboxEnv OutboxTick

def nothingRevoked : OutboxPool := ⟨[], {}⟩

/-!
## No delivery is lost

In a run of careful moves a row whose target has not acknowledged the stored content waits, or a flush
that is under way delivers that content, and a row is acknowledged only for it. The moves that are not
careful are a crash and a failing write under a delivery, a row that is marked for a content that was
replaced meanwhile, and a replaced content whose rows are not all reset.
-/

open OutboxWorld

/-! ## The condition -/

/-- No row of the id is left in `delivering` that its target has not acknowledged. -/
def OutboxWorld.Loose (w : OutboxWorld) (id : String) : Prop :=
  ∀ row ∈ w.outbox, row.id = id → row.status = .delivering → w.Acked row

instance (w : OutboxWorld) (id : String) : Decidable (w.Loose id) := by
  unfold Loose
  infer_instance

/-- A repeated revocation that replaces the content has among its targets the receiver of each row of
it that does not wait; a row is marked acknowledged for the content that is stored; and an attempt that
failed is written, or no unacknowledged row is left in `delivering` by that. -/
def OutboxTask.Careful (home : Home) : OutboxTask → OutboxEnv → OutboxWorld → Prop
  | .revokeDevice deviceMichiId reason, env, w =>
    let dto := home.issueRevocation deviceMichiId env.now reason
    env.database = true → ∀ stored ∈ w.existing dto,
      ¬ (dto.version = stored.dto.version ∧ dto.signature = stored.dto.signature) →
        ∀ row ∈ w.outbox, row.revocationId = stored.id → ¬ row.Waits →
          row.receiverId ∈ env.targets.map OutboxTarget.receiverId
  | .markAcknowledged item dto _, env, w =>
    env.database = true → ∀ r ∈ w.getHomeRevocationById item.revocationId, r.dto = dto
  | .markAttemptFailed item _ _, env, w => env.database = true ∨ w.Loose item.id
  | _, _, _ => True

/-- The step of a run is careful; a crash leaves no unacknowledged row in `delivering`. -/
def CarefulMove (home : Home) (p : OutboxPool) : OutboxMove → Prop
  | .act i env => ∀ t ∈ p.tasks[i]?, t.Careful home env p.world
  | .drop i => ∀ t ∈ p.tasks[i]?, ∀ id ∈ t.delivering, p.world.Loose id
  | _ => True

instance (home : Home) (t : OutboxTask) (env : OutboxEnv) (w : OutboxWorld) :
    Decidable (t.Careful home env w) := by
  cases t <;> unfold OutboxTask.Careful <;> infer_instance

instance (home : Home) (p : OutboxPool) (move : OutboxMove) :
    Decidable (CarefulMove home p move) := by
  cases move <;> unfold CarefulMove <;> infer_instance

/-! ## The invariant -/

def OutboxWorld.Tracked (w : OutboxWorld) (item : OutboxEntry) : Prop :=
  ∃ row ∈ w.outbox, row.id = item.id ∧ row.revocationId = item.revocationId

namespace OutboxTask

def items : OutboxTask → List OutboxEntry
  | .next items => items
  | .markDelivering item rest | .lookup item rest | .push item _ rest
  | .markAcknowledged item _ rest | .markAttemptFailed item _ rest | .release item rest =>
    item :: rest
  | _ => []

def content : OutboxTask → Option (String × RevocationDto)
  | .push item dto _ | .markAcknowledged item dto _ => some (item.revocationId, dto)
  | _ => none

def taken : OutboxTask → Option (String × RevocationDto)
  | .markAcknowledged item dto _ => some (item.id, dto)
  | _ => none

def Fresh (t : OutboxTask) (w : OutboxWorld) : Prop :=
  ∀ x ∈ t.content, ∀ r ∈ w.getHomeRevocationById x.1, r.dto = x.2

structure Good (t : OutboxTask) (w : OutboxWorld) : Prop where
  tracked : ∀ item ∈ t.items, w.Tracked item
  taken : ∀ x ∈ t.taken, x ∈ w.delivered

end OutboxTask

structure OutboxInv (p : OutboxPool) : Prop where
  stored : ∀ row ∈ p.world.outbox, (p.world.getHomeRevocationById row.revocationId).isSome
  ids : (p.world.outbox.map OutboxEntry.id).Nodup
  good : ∀ t ∈ p.tasks, t.Good p.world
  acknowledged : ∀ row ∈ p.world.outbox, row.status = .acknowledged → p.world.Acked row
  delivering : ∀ row ∈ p.world.outbox, row.status = .delivering → p.world.Acked row ∨
    ∃ t ∈ p.tasks, t.delivering = some row.id ∧ t.Fresh p.world

structure Later (w w' : OutboxWorld) : Prop where
  tracked : ∀ item, w.Tracked item → w'.Tracked item
  delivered : ∀ x ∈ w.delivered, x ∈ w'.delivered

variable {home : Home} {p : OutboxPool} {t u : OutboxTask} {w w' : OutboxWorld}

theorem OutboxTask.Good.later (h : t.Good w) (hw : Later w w') : t.Good w' :=
  ⟨fun item hitem => hw.tracked item (h.tracked item hitem), fun x hx => hw.delivered x (h.taken x hx)⟩

theorem eq_of_id_eq (hids : (w.outbox.map OutboxEntry.id).Nodup) {row row' : OutboxEntry}
    (hrow : row ∈ w.outbox) (hrow' : row' ∈ w.outbox) (h : row.id = row'.id) : row = row' :=
  List.inj_on_of_nodup_map hids hrow hrow' h

theorem revocation_eq_of_tracked (hids : (w.outbox.map OutboxEntry.id).Nodup) {row item : OutboxEntry}
    (hrow : row ∈ w.outbox) (hitem : w.Tracked item) (h : item.id = row.id) :
    item.revocationId = row.revocationId := by
  obtain ⟨row', hrow', hid, hrevocation⟩ := hitem
  rw [← hrevocation, eq_of_id_eq hids hrow' hrow (hid.trans h)]

theorem content_of_delivering (hids : (w.outbox.map OutboxEntry.id).Nodup) {row : OutboxEntry}
    (hrow : row ∈ w.outbox) (hgood : u.Good w) (hdelivering : u.delivering = some row.id)
    {x : String × RevocationDto} (hx : x ∈ u.content) : x.1 = row.revocationId := by
  cases u with
  | push item dto rest | markAcknowledged item dto rest =>
    cases hx
    exact revocation_eq_of_tracked hids hrow (hgood.tracked item List.mem_cons_self)
      (Option.some.inj hdelivering)
  | _ => cases hx

theorem fresh_kept (hids : (w.outbox.map OutboxEntry.id).Nodup) {row : OutboxEntry}
    (hrow : row ∈ w.outbox) (hgood : u.Good w) (hdelivering : u.delivering = some row.id)
    (hget : w'.getHomeRevocationById row.revocationId =
      w.getHomeRevocationById row.revocationId) (h : u.Fresh w) : u.Fresh w' := by
  intro x hx
  have hx' := h x hx
  grind [content_of_delivering]

theorem acked_kept {row row' : OutboxEntry} (hw : ∀ x ∈ w.delivered, x ∈ w'.delivered)
    (hid : row'.id = row.id) (hrevocation : row'.revocationId = row.revocationId)
    (hget : w'.getHomeRevocationById row.revocationId =
      w.getHomeRevocationById row.revocationId) (h : w.Acked row) : w'.Acked row' := by
  obtain ⟨r, hr, hdelivered⟩ := h
  refine ⟨r, ?_, ?_⟩
  · rw [hrevocation, hget]
    exact hr
  · rw [hid]
    exact hw _ hdelivered

theorem acked_of_taken {item row : OutboxEntry} {dto : RevocationDto} {rest : List OutboxEntry}
    (hinv : OutboxInv p) (hgood : (OutboxTask.markAcknowledged item dto rest).Good p.world)
    (hfresh : ∀ r ∈ p.world.getHomeRevocationById item.revocationId, r.dto = dto)
    (hrow : row ∈ p.world.outbox) (hid : item.id = row.id) : p.world.Acked row := by
  obtain ⟨r, hr⟩ := Option.isSome_iff_exists.mp (hinv.stored row hrow)
  have hrevocation := revocation_eq_of_tracked hinv.ids hrow
    (hgood.tracked item List.mem_cons_self) hid
  rw [hrevocation] at hfresh
  refine ⟨r, hr, ?_⟩
  rw [← hid, hfresh r hr]
  exact hgood.taken _ rfl

/-! ## One step -/

structure RowOk (p : OutboxPool) (t : OutboxTask) (r : List OutboxTask × OutboxWorld)
    (row : OutboxEntry) : Prop where
  acknowledged : row.status = .acknowledged → r.2.Acked row
  delivering : row.status = .delivering → r.2.Acked row ∨
    (∃ t' ∈ r.1, t'.delivering = some row.id ∧ t'.Fresh r.2) ∨
    ∃ u ∈ p.tasks, u ≠ t ∧ u.delivering = some row.id ∧ u.Fresh r.2

structure Steps (p : OutboxPool) (t : OutboxTask) (r : List OutboxTask × OutboxWorld) : Prop where
  stored : ∀ row ∈ r.2.outbox, (r.2.getHomeRevocationById row.revocationId).isSome
  ids : (r.2.outbox.map OutboxEntry.id).Nodup
  later : Later p.world r.2
  good : ∀ t' ∈ r.1, t'.Good r.2
  rows : ∀ row ∈ r.2.outbox, RowOk p t r row

variable {r : List OutboxTask × OutboxWorld}

theorem RowOk.of_waits {row : OutboxEntry} (h : row.Waits) : RowOk p t r row := by
  constructor <;> intro hstatus <;> simp [OutboxEntry.Waits, hstatus] at h

theorem RowOk.kept (hinv : OutboxInv p) (hlater : Later p.world r.2) {row : OutboxEntry}
    (hrow : row ∈ p.world.outbox)
    (hget : r.2.getHomeRevocationById row.revocationId =
      p.world.getHomeRevocationById row.revocationId)
    (hnext : row.status = .delivering → t.delivering = some row.id → t.Fresh p.world →
      r.2.Acked row ∨ ∃ t' ∈ r.1, t'.delivering = some row.id ∧ t'.Fresh r.2) : RowOk p t r row where
  acknowledged hstatus :=
    acked_kept hlater.delivered rfl rfl hget (hinv.acknowledged row hrow hstatus)
  delivering hstatus := by
    rcases hinv.delivering row hrow hstatus with hacked | ⟨u, hu, hdelivering, hfresh⟩
    · exact .inl (acked_kept hlater.delivered rfl rfl hget hacked)
    · by_cases hut : u = t
      · grind
      · exact .inr (.inr ⟨u, hu, hut, hdelivering,
          fresh_kept hinv.ids hrow (hinv.good u hu) hdelivering hget hfresh⟩)

theorem Steps.quiet (hinv : OutboxInv p) (houtbox : r.2.outbox = p.world.outbox)
    (hrevocations : r.2.homeRevocations = p.world.homeRevocations)
    (hdelivered : ∀ x ∈ p.world.delivered, x ∈ r.2.delivered) (hgood : ∀ t' ∈ r.1, t'.Good r.2)
    (hnext : ∀ row ∈ p.world.outbox, row.status = .delivering → t.delivering = some row.id →
      t.Fresh p.world → r.2.Acked row ∨ ∃ t' ∈ r.1, t'.delivering = some row.id ∧ t'.Fresh r.2) : Steps p t r := by
  have hget : ∀ id, r.2.getHomeRevocationById id = p.world.getHomeRevocationById id := by
    simp [getHomeRevocationById, hrevocations]
  have hlater : Later p.world r.2 := ⟨fun item => by simp [Tracked, houtbox], hdelivered⟩
  refine ⟨?_, ?_, hlater, hgood, ?_⟩ <;> rw [houtbox]
  · simpa only [hget] using hinv.stored
  · exact hinv.ids
  · exact fun row hrow => .kept hinv hlater hrow (hget _) (hnext row hrow)

/-- An update of the rows that keeps who delivers them is a step. -/
theorem Steps.updated {applies : OutboxEntry → Bool} {change : OutboxEntry → OutboxEntry}
    {tasks : List OutboxTask} (hinv : OutboxInv p) (hid : ∀ row, (change row).id = row.id)
    (hrevocation : ∀ row, (change row).revocationId = row.revocationId)
    (hgood : ∀ t' ∈ tasks, t'.Good (p.world.update applies change))
    (hchanged : ∀ row ∈ p.world.outbox, applies row = true →
      RowOk p t (tasks, p.world.update applies change) (change row))
    (hother : ∀ row ∈ p.world.outbox, applies row = false → t.delivering ≠ some row.id) :
    Steps p t (tasks, p.world.update applies change) := by
  have hlater : Later p.world (p.world.update applies change) := by
    refine ⟨fun item ⟨row, hrow, hitem, hitem'⟩ => ⟨_, List.mem_map_of_mem hrow, ?_⟩, fun _ h => h⟩
    grind
  refine ⟨fun row' hrow' => ?_, ?_, hlater, hgood, fun row' hrow' => ?_⟩
  · obtain ⟨row, hrow, rfl⟩ := List.mem_map.mp hrow'
    have hstored := hinv.stored row hrow
    split
    · rw [hrevocation]
      exact hstored
    · exact hstored
  · simp only [OutboxWorld.update, List.map_map]
    convert hinv.ids using 2
    grind
  · obtain ⟨row, hrow, rfl⟩ := List.mem_map.mp hrow'
    split
    next happlies => exact hchanged row hrow happlies
    next happlies =>
      refine .kept hinv hlater hrow rfl fun _ hdelivering _ => ?_
      grind

/-- A revocation that is stored with its rows is a step. -/
theorem Steps.persisted {dto : RevocationDto} {revocationId : String} {receivers : List String}
    {tasks : List OutboxTask} (hinv : OutboxInv p)
    (hstored : RevocationStored p.world w' dto revocationId)
    (hupserted : Upserted revocationId receivers p.world.outbox w'.outbox)
    (hdelivered : w'.delivered = p.world.delivered) (hnone : t.delivering = none)
    (hgood : ∀ t' ∈ tasks, t'.Good w')
    (hreset : ∀ stored ∈ p.world.existing dto,
      ¬ (dto.version = stored.dto.version ∧ dto.signature = stored.dto.signature) →
        ∀ row ∈ p.world.outbox, row.revocationId = stored.id → ¬ row.Waits →
          row.receiverId ∈ receivers) : Steps p t (tasks, w') := by
  have hlater : Later p.world w' := by
    refine ⟨fun item ⟨row, hrow, hid, hrevocation⟩ => ?_, fun x hx => hdelivered ▸ hx⟩
    obtain ⟨row', hrow', hid', hrevocation'⟩ := hupserted.kept row hrow
    exact ⟨row', hrow', hid'.trans hid, hrevocation'.trans hrevocation⟩
  refine ⟨fun row hrow => ?_, hupserted.ids hinv.ids, hlater, hgood, fun row hrow => ?_⟩
  · by_cases heq : row.revocationId = revocationId
    · rw [heq]
      exact hstored.found
    · rcases hupserted.each row hrow with ⟨_, hrevocation⟩ | ⟨hold, _⟩
      · exact absurd hrevocation heq
      · rw [hstored.other _ heq]
        exact hinv.stored row hold
  · rcases hupserted.each row hrow with ⟨hwaits, _⟩ | ⟨hold, hnot⟩
    · exact .of_waits hwaits
    · have hkept : w'.getHomeRevocationById row.revocationId =
          p.world.getHomeRevocationById row.revocationId → RowOk p t (tasks, w') row :=
        fun hget => .kept hinv hlater hold hget fun _ hdelivering => by simp [hnone] at hdelivering
      by_cases heq : row.revocationId = revocationId
      · rcases hstored.content with hnew | hsame | ⟨stored, hexisting, hid, hchanged⟩
        · have hfound := hinv.stored row hold
          rw [heq, hnew] at hfound
          cases hfound
        · exact hkept (heq ▸ hsame)
        · -- the content was replaced, and the row is not among those that were reset
          refine .of_waits (by_contra fun hwaits => hnot ⟨heq, ?_⟩)
          grind [stored]
      · exact hkept (hstored.other _ heq)

namespace OutboxTask

theorem good_of_items (h : ∀ item ∈ t.items, w.Tracked item) (htaken : t.taken = none) : t.Good w :=
  ⟨h, fun x hx => by simp [htaken] at hx⟩

theorem good_of_no_items (hitems : t.items = []) (htaken : t.taken = none) : t.Good w :=
  good_of_items (fun item hitem => by simp [hitems] at hitem) htaken

/-- The item is still to be delivered after the lookup. -/
theorem afterLookup_spec (home : Home) {item : OutboxEntry} (rest : List OutboxEntry) :
    (afterLookup home item rest (w.getHomeRevocationById item.revocationId)).items = item :: rest ∧
      (afterLookup home item rest (w.getHomeRevocationById item.revocationId)).taken = none ∧
      (afterLookup home item rest (w.getHomeRevocationById item.revocationId)).delivering =
        some item.id ∧
      (afterLookup home item rest (w.getHomeRevocationById item.revocationId)).Fresh w := by
  have hfail : ∀ delay, (markAttemptFailed item delay rest).Fresh w := fun _ x hx => nomatch hx
  unfold afterLookup
  cases hr : w.getHomeRevocationById item.revocationId with
  | none => exact ⟨rfl, rfl, rfl, hfail _⟩
  | some revocation =>
    simp only
    split
    · exact ⟨rfl, rfl, rfl, hfail _⟩
    · split
      · exact ⟨rfl, rfl, rfl, hfail _⟩
      · refine ⟨rfl, rfl, rfl, fun x hx r hr' => ?_⟩
        cases hx
        cases hr.symm.trans hr'
        rfl

/-- Each careful step of a task keeps the rows and their tasks in step. -/
theorem steps_of_careful {env : OutboxEnv} (hinv : OutboxInv p) (ht : t ∈ p.tasks)
    (hcareful : t.Careful home env p.world) : Steps p t (t.step home env p.world) := by
  have hgood := hinv.good t ht
  -- a step that leaves the world, of a task that delivers nothing
  have hover : t.delivering = none → Steps p t ([], p.world) := fun hnone =>
    .quiet hinv rfl rfl (fun _ h => h) (fun _ h => nomatch h) fun row _ _ h => by simp [hnone] at h
  have hquiet : ∀ t' : OutboxTask, t.delivering = none → t'.Good p.world →
      Steps p t ([t'], p.world) := fun t' hnone hgood' =>
    .quiet hinv rfl rfl (fun _ h => h) (List.forall_mem_singleton.mpr hgood') fun row _ _ h => by
      simp [hnone] at h
  cases t with
  | revokeDevice deviceMichiId reason =>
    simp only [step]
    split
    next w' hw' =>
      split
      next hdatabase =>
        obtain ⟨revocationId, hstored, hupserted, hdelivered⟩ := persist_spec hw'
        exact .persisted hinv hstored hupserted hdelivered rfl
          (List.forall_mem_singleton.mpr (good_of_no_items rfl rfl)) (hcareful hdatabase)
      · exact hover rfl
    · exact hover rfl
  | retryOutboxDelivery revocationId =>
    simp only [step]
    split
    · exact .updated hinv (fun _ => rfl) (fun _ => rfl)
        (List.forall_mem_singleton.mpr (good_of_no_items rfl rfl))
        (fun row _ _ => .of_waits (.inl rfl)) fun _ _ _ h => nomatch h
    · exact hover rfl
  | flushRevocationOutbox =>
    simp only [step]
    split
    · exact hquiet _ rfl (good_of_no_items rfl rfl)
    · exact hover rfl
  | listDue =>
    simp only [step]
    split
    · refine hquiet _ rfl (good_of_items (fun item hitem => ?_) rfl)
      have hmem := (List.mem_insertionSort _).mp hitem
      exact ⟨item, (List.mem_filter.mp hmem).1, rfl, rfl⟩
    · exact hover rfl
  | next items =>
    cases items with
    | nil => exact hover rfl
    | cons item rest =>
      simp only [step]
      split
      · refine hquiet _ rfl (good_of_items (fun i hi => ?_) rfl)
        exact hgood.tracked i (List.mem_cons_of_mem _ hi)
      · exact .quiet hinv rfl rfl (fun _ h => h)
          (List.forall_mem_singleton.mpr (good_of_items hgood.tracked rfl)) fun _ _ _ h => nomatch h
  | markDelivering item rest =>
    simp only [step]
    split
    · refine .updated hinv (fun _ => rfl) (fun _ => rfl)
        (List.forall_mem_singleton.mpr (good_of_items (fun i hi => ?_) rfl))
        (fun row _ happlies => ⟨fun h => (nomatch h), fun _ => ?_⟩) fun _ _ _ h => nomatch h
      · obtain ⟨row, hrow, hid, hrevocation⟩ := hgood.tracked i hi
        refine ⟨_, List.mem_map_of_mem hrow, ?_⟩
        split <;> exact ⟨hid, hrevocation⟩
      · -- the flush that claims the row delivers it
        simp only [Bool.and_eq_true, beq_iff_eq] at happlies
        exact .inr (.inl ⟨_, List.mem_singleton_self _, congrArg some happlies.1.symm,
          fun x hx => nomatch hx⟩)
    · exact hquiet _ rfl (good_of_items hgood.tracked rfl)
  | lookup item rest =>
    simp only [step]
    split
    · obtain ⟨hitems, htaken, hdelivering, hfresh⟩ := afterLookup_spec (w := p.world) home rest
      refine .quiet hinv rfl rfl (fun _ h => h)
        (List.forall_mem_singleton.mpr (good_of_items ?_ htaken)) fun row _ _ h _ => ?_
      · rw [hitems]
        exact hgood.tracked
      · exact .inr ⟨_, List.mem_singleton_self _, hdelivering.trans h, hfresh⟩
    · exact .quiet hinv rfl rfl (fun _ h => h)
        (List.forall_mem_singleton.mpr (good_of_items hgood.tracked rfl))
        fun row _ _ h _ => .inr ⟨_, List.mem_singleton_self _, h, fun x hx => nomatch hx⟩
  | push item dto rest =>
    have hfailed : ∀ delay, Steps p (push item dto rest)
        ([markAttemptFailed item delay rest], p.world) := fun delay =>
      .quiet hinv rfl rfl (fun _ h => h)
        (List.forall_mem_singleton.mpr (good_of_items hgood.tracked rfl))
        fun row _ _ h _ => .inr ⟨_, List.mem_singleton_self _, h, fun x hx => nomatch hx⟩
    simp only [step]
    split
    · exact hfailed _
    · split
      · refine .quiet hinv rfl rfl (fun _ h => List.mem_cons_of_mem _ h)
          (List.forall_mem_singleton.mpr ⟨hgood.tracked, fun x hx => ?_⟩) fun row _ _ h hfresh => ?_
        · cases hx
          exact List.mem_cons_self
        · exact .inr ⟨_, List.mem_singleton_self _, h, hfresh⟩
      · exact hfailed _
  | markAcknowledged item dto rest =>
    simp only [step]
    split
    next hdatabase =>
      refine .updated hinv (fun _ => rfl) (fun _ => rfl)
        (List.forall_mem_singleton.mpr (good_of_items (fun i hi => ?_) rfl))
        (fun row hrow happlies => ⟨fun _ => ?_, fun h => nomatch h⟩) fun row _ hnot h => ?_
      · obtain ⟨row, hrow, hid, hrevocation⟩ := hgood.tracked i hi
        refine ⟨_, List.mem_map_of_mem hrow, ?_⟩
        split <;> exact ⟨hid, hrevocation⟩
      · have hacked := acked_of_taken hinv hgood (hcareful hdatabase) hrow (eq_of_beq happlies).symm
        exact acked_kept (fun _ h => h) rfl rfl rfl hacked
      · rw [Option.some.inj h] at hnot
        simp at hnot
    · -- the write failed: the row stays, and its target has taken the stored content
      refine .quiet hinv rfl rfl (fun _ h => h)
        (List.forall_mem_singleton.mpr (good_of_items hgood.tracked rfl)) fun row hrow _ h hfresh => ?_
      exact .inl (acked_of_taken hinv hgood (fun r hr => hfresh _ rfl r hr) hrow (Option.some.inj h))
  | markAttemptFailed item delay rest =>
    simp only [step]
    split
    · refine .updated hinv (fun _ => rfl) (fun _ => rfl)
        (List.forall_mem_singleton.mpr (good_of_items (fun i hi => ?_) rfl))
        (fun row _ _ => .of_waits (.inr rfl)) fun row _ hnot h => ?_
      · obtain ⟨row, hrow, hid, hrevocation⟩ := hgood.tracked i hi
        refine ⟨_, List.mem_map_of_mem hrow, ?_⟩
        split <;> exact ⟨hid, hrevocation⟩
      · rw [Option.some.inj h] at hnot
        simp at hnot
    next hdatabase =>
      -- the write failed: no row that is left in `delivering` is unacknowledged
      refine .quiet hinv rfl rfl (fun _ h => h)
        (List.forall_mem_singleton.mpr (good_of_items hgood.tracked rfl)) fun row hrow hstatus h _ => ?_
      exact .inl (hcareful.resolve_left hdatabase row hrow (Option.some.inj h).symm hstatus)
  | release item rest =>
    refine .quiet hinv rfl rfl (fun _ h => h)
      (List.forall_mem_singleton.mpr (good_of_items (fun i hi => ?_) rfl)) fun _ _ _ h => nomatch h
    exact hgood.tracked i (List.mem_cons_of_mem _ hi)

end OutboxTask

/-! ## Every run -/

/-- A careful act keeps the invariant. -/
theorem OutboxInv.act {i : ℕ} {env : OutboxEnv} (hinv : OutboxInv p)
    (hcareful : CarefulMove home p (.act i env)) :
    OutboxInv (p.step (outboxMachine home) (.act i env)) := by
  cases ht : p.tasks[i]? with
  | none =>
    grind [outboxMachine, Pool.step]
  | some t =>
    have hsteps := OutboxTask.steps_of_careful hinv (List.mem_of_getElem? ht) (hcareful t ht)
    have hworld : (p.step (outboxMachine home) (.act i env)).world = (t.step home env p.world).2 :=
      Pool.step_world ht
    have hnext : ∀ t' ∈ (t.step home env p.world).1,
        t' ∈ (p.step (outboxMachine home) (.act i env)).tasks :=
      fun t' ht' => Pool.mem_step_of_next ht ht'
    refine ⟨?_, ?_, fun u hu => ?_, ?_, ?_⟩ <;> rw [hworld]
    · exact hsteps.stored
    · exact hsteps.ids
    · rw [Pool.step, ht] at hu
      rcases List.mem_append.mp hu with hu | hright
      · rcases List.mem_append.mp hu with hleft | hnew
        · exact (hinv.good u (List.mem_of_mem_take hleft)).later hsteps.later
        · exact hsteps.good u hnew
      · exact (hinv.good u (List.mem_of_mem_drop hright)).later hsteps.later
    · exact fun row hrow => (hsteps.rows row hrow).acknowledged
    · intro row hrow hstatus
      rcases (hsteps.rows row hrow).delivering hstatus with
        hacked | ⟨t', ht', hdelivers⟩ | ⟨u, hu, hne, hdelivers⟩
      · exact .inl hacked
      · exact .inr ⟨t', hnext t' ht', hdelivers⟩
      · grind [Pool.mem_step_of_mem]

/-- Each careful move keeps the invariant. -/
theorem OutboxInv.step {move : OutboxMove} (hinv : OutboxInv p) (hcareful : CarefulMove home p move) :
    OutboxInv (p.step (outboxMachine home) move) := by
  cases move with
  | arrive c =>
    refine ⟨hinv.stored, hinv.ids, fun t ht => ?_, hinv.acknowledged, fun row hrow hstatus => ?_⟩
    · rcases List.mem_append.mp ht with hold | hnew
      · exact hinv.good t hold
      · rw [List.mem_singleton.mp hnew]
        cases c <;> exact OutboxTask.good_of_no_items rfl rfl
    · refine (hinv.delivering row hrow hstatus).imp_right fun ⟨t, ht, hdelivers⟩ => ?_
      exact ⟨t, List.mem_append_left _ ht, hdelivers⟩
  | act i env => exact hinv.act hcareful
  | drop i =>
    refine ⟨hinv.stored, hinv.ids, fun t ht => hinv.good t (List.mem_of_mem_eraseIdx ht),
      hinv.acknowledged, fun row hrow hstatus => ?_⟩
    rcases hinv.delivering row hrow hstatus with hacked | ⟨t, ht, hdelivering, hfresh⟩
    · exact .inl hacked
    · rcases Pool.mem_drop i ht with hdropped | hstays
      · exact .inl (hcareful t hdropped row.id hdelivering row hrow rfl hstatus)
      · exact .inr ⟨t, hstays, hdelivering, hfresh⟩
  | tick t =>
    refine ⟨hinv.stored, hinv.ids, fun u hu => ?_, hinv.acknowledged, hinv.delivering⟩
    exact ⟨(hinv.good u hu).tracked, (hinv.good u hu).taken⟩

theorem outboxInv_nothingRevoked : OutboxInv nothingRevoked := by
  constructor <;> simp [nothingRevoked]

theorem outboxInv_run {moves : List OutboxMove}
    (hmoves : nothingRevoked.Obeys (outboxMachine home) (CarefulMove home) moves) :
    OutboxInv (nothingRevoked.run (outboxMachine home) moves) :=
  Logic.Trace.run_invariant (fun _ _ hinv hcareful => hinv.step hcareful) outboxInv_nothingRevoked
    hmoves

end MichiServer.Outbox
