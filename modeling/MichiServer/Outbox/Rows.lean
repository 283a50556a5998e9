import Mathlib.Data.List.Sort
import MichiServer.Basic

/-!
# The outbox of revocations

A revocation is a row of `home_revocations`, one for each revoked device, whose content a repeated
revocation replaces. `revocation_outbox` has one row for each revocation and each receiver it is to be
delivered to. Every statement on the outbox is one function here.
-/

namespace MichiServer.Outbox

structure RevocationDto where
  version : ℕ
  homeId : String
  revokedDeviceMichiId : String
  revokedAt : DateTime
  reason : String
  signature : String
deriving DecidableEq

structure HomeRevocation where
  id : String
  dto : RevocationDto

inductive OutboxStatus where
  | pending
  | delivering
  | failed
  | acknowledged
deriving DecidableEq

structure OutboxEntry where
  id : String
  revocationId : String
  homeId : String
  receiverId : String
  receiverMichiId : String
  targetEndpoint : String
  status : OutboxStatus
  attemptCount : ℕ
  nextAttemptAt : Option DateTime
deriving DecidableEq

/-- A receiver that a revocation is to be delivered to, with the row id drawn for it. -/
structure OutboxTarget where
  outboxId : String
  receiverId : String
  receiverMichiId : String
  targetEndpoint : String

/-- The two tables, the outbox ids that a flush of this process is delivering, and what the targets of
the rows have acknowledged. -/
structure OutboxWorld where
  homeRevocations : List HomeRevocation := []
  outbox : List OutboxEntry := []
  singleFlight : List String := []
  delivered : List (String × RevocationDto) := []

def OutboxEntry.Waits (row : OutboxEntry) : Prop := row.status = .pending ∨ row.status = .failed

instance (row : OutboxEntry) : Decidable row.Waits := inferInstanceAs (Decidable (_ ∨ _))

def OutboxEntry.Due (row : OutboxEntry) (now : DateTime) : Prop :=
  row.Waits ∧ ∀ next ∈ row.nextAttemptAt, next ≤ now

instance (row : OutboxEntry) (now : DateTime) : Decidable (row.Due now) :=
  inferInstanceAs (Decidable (_ ∧ _))

namespace OutboxWorld

variable (w : OutboxWorld)

def update (applies : OutboxEntry → Bool) (change : OutboxEntry → OutboxEntry) : OutboxWorld :=
  { w with outbox := w.outbox.map fun row => if applies row then change row else row }

def listDue (now : DateTime) : List OutboxEntry :=
  (w.outbox.filter fun row => row.Due now).insertionSort fun a b => a.attemptCount ≤ b.attemptCount

def getHomeRevocationById (id : String) : Option HomeRevocation :=
  w.homeRevocations.find? fun r => r.id == id

def markDelivering (id : String) : OutboxWorld :=
  w.update (fun row => row.id == id && decide row.Waits) fun row => { row with status := .delivering }

def claims (id : String) : Bool := w.outbox.any fun row => row.id == id && decide row.Waits

def markAcknowledged (id : String) : OutboxWorld :=
  w.update (fun row => row.id == id) fun row => { row with status := .acknowledged }

def markAttemptFailed (id : String) (nextAttemptAt : DateTime) : OutboxWorld :=
  w.update (fun row => row.id == id) fun row =>
    { row with
      status := .failed
      attemptCount := row.attemptCount + 1
      nextAttemptAt := some nextAttemptAt }

def resetForRetry (revocationId : Option String) (now : DateTime) : OutboxWorld :=
  w.update (fun row => revocationId.all (· == row.revocationId) && row.status != .acknowledged)
    fun row => { row with status := .pending, nextAttemptAt := some now }

end OutboxWorld

/-- The row of the revocation and the receiver is back to `pending`, or a new one is added; a drawn id
that is taken fails. -/
def upsertTarget (revocationId homeId : String) (now : DateTime) (rows : List OutboxEntry)
    (target : OutboxTarget) : Option (List OutboxEntry) :=
  if rows.any fun row => row.revocationId == revocationId && row.receiverId == target.receiverId
  then
    some <| rows.map fun row =>
      if row.revocationId == revocationId && row.receiverId == target.receiverId then
        { row with
          targetEndpoint := target.targetEndpoint
          status := .pending
          nextAttemptAt := some now }
      else row
  else if rows.any fun row => row.id == target.outboxId then none
  else
    some <| rows ++
      [{ id := target.outboxId
         revocationId
         homeId
         receiverId := target.receiverId
         receiverMichiId := target.receiverMichiId
         targetEndpoint := target.targetEndpoint
         status := .pending
         attemptCount := 0
         nextAttemptAt := some now }]

def HomeRevocation.replaceContent (id : String) (dto : RevocationDto) (r : HomeRevocation) :
    HomeRevocation :=
  if r.id == id then
    { r with dto :=
      { r.dto with
        revokedAt := dto.revokedAt
        reason := dto.reason
        version := dto.version
        signature := dto.signature } }
  else r

namespace OutboxWorld

variable (w : OutboxWorld)

/-- The revocation that is stored for the same device of the same home. -/
def existing (dto : RevocationDto) : Option HomeRevocation :=
  w.homeRevocations.find? fun r =>
    r.dto.homeId == dto.homeId && r.dto.revokedDeviceMichiId == dto.revokedDeviceMichiId

/-- The revocations after the one for the device is stored, and the id it is stored under. -/
def storeRevocation (revocation : HomeRevocation) : Option (String × List HomeRevocation) :=
  match w.existing revocation.dto with
  | some stored =>
    if revocation.dto.version < stored.dto.version then none
    else if revocation.dto.version = stored.dto.version ∧
        revocation.dto.signature = stored.dto.signature then
      some (stored.id, w.homeRevocations)
    else
      some (stored.id, w.homeRevocations.map (.replaceContent stored.id revocation.dto))
  | none =>
    if w.homeRevocations.any fun r => r.id == revocation.id then none
    else some (revocation.id, w.homeRevocations ++ [revocation])

def persistHomeRevocationTransaction (revocation : HomeRevocation) (targets : List OutboxTarget)
    (now : DateTime) : Option OutboxWorld := do
  let (revocationId, homeRevocations) ← w.storeRevocation revocation
  let outbox ← targets.foldlM (upsertTarget revocationId revocation.dto.homeId now) w.outbox
  some { w with homeRevocations, outbox }

/-- The target of the row has acknowledged the content that is stored for it. -/
def Acked (row : OutboxEntry) : Prop :=
  ∃ r ∈ w.getHomeRevocationById row.revocationId, (row.id, r.dto) ∈ w.delivered

instance (row : OutboxEntry) : Decidable (w.Acked row) := by
  unfold Acked
  infer_instance

end OutboxWorld

/-! ## What the statements do to the rows -/

theorem OutboxEntry.not_waits_iff {row : OutboxEntry} :
    ¬ row.Waits ↔ row.status = .delivering ∨ row.status = .acknowledged := by
  unfold Waits
  cases row.status <;> simp

/-- Rows after a revocation was stored under the id, with the receivers among its targets. -/
structure Upserted (revocationId : String) (receivers : List String) (rows rows' : List OutboxEntry) :
    Prop where
  each : ∀ row ∈ rows', row.Waits ∧ row.revocationId = revocationId ∨
    row ∈ rows ∧ ¬ (row.revocationId = revocationId ∧ row.receiverId ∈ receivers)
  kept : ∀ row ∈ rows, ∃ row' ∈ rows', row'.id = row.id ∧ row'.revocationId = row.revocationId
  ids : (rows.map OutboxEntry.id).Nodup → (rows'.map OutboxEntry.id).Nodup

theorem Upserted.refl {revocationId : String} {rows : List OutboxEntry} :
    Upserted revocationId [] rows rows where
  each _ hrow := .inr ⟨hrow, fun h => nomatch h.2⟩
  kept _ hrow := ⟨_, hrow, rfl, rfl⟩
  ids h := h

theorem Upserted.trans {revocationId receiverId : String} {receivers : List String}
    {rows rows₁ rows₂ : List OutboxEntry} (h : Upserted revocationId [receiverId] rows rows₁)
    (h' : Upserted revocationId receivers rows₁ rows₂) :
    Upserted revocationId (receiverId :: receivers) rows rows₂ where
  each row hrow := by
    rcases h'.each row hrow with hwaits | ⟨hmem, hnot⟩
    · exact .inl hwaits
    · rcases h.each row hmem with hwaits | ⟨hmem, hnot'⟩
      · exact .inl hwaits
      · grind
  kept row hrow := by
    obtain ⟨row₁, hrow₁, hid, hrevocation⟩ := h.kept row hrow
    obtain ⟨row₂, hrow₂, hid', hrevocation'⟩ := h'.kept row₁ hrow₁
    exact ⟨row₂, hrow₂, hid'.trans hid, hrevocation'.trans hrevocation⟩
  ids hrows := h'.ids (h.ids hrows)

/-- One row is inserted, or the row of that receiver is updated. -/
theorem upsertTarget_spec {revocationId homeId : String} {now : DateTime}
    {rows rows' : List OutboxEntry} {target : OutboxTarget}
    (h : upsertTarget revocationId homeId now rows target = some rows') :
    Upserted revocationId [target.receiverId] rows rows' := by
  unfold upsertTarget at h
  split at h
  · cases h
    refine ⟨fun row hrow => ?_, fun row hrow => ?_, fun hids => ?_⟩
    · obtain ⟨old, hold, rfl⟩ := List.mem_map.mp hrow
      split
      next happlies =>
        simp only [Bool.and_eq_true, beq_iff_eq] at happlies
        exact .inl ⟨.inl rfl, happlies.1⟩
      next happlies => exact .inr ⟨hold, by simpa using happlies⟩
    · refine ⟨_, List.mem_map_of_mem hrow, ?_⟩
      split <;> exact ⟨rfl, rfl⟩
    · grind
  · split at h
    · cases h
    next hnew =>
      cases h
      refine ⟨fun row hrow => ?_, fun row hrow => ?_, fun hids => ?_⟩
      · rcases List.mem_append.mp hrow with hold | hadded
        · refine .inr ⟨hold, ?_⟩
          simp_all
        · rw [List.mem_singleton.mp hadded]
          exact .inl ⟨.inl rfl, rfl⟩
      · exact ⟨row, List.mem_append_left _ hrow, rfl, rfl⟩
      · grind

theorem foldlM_upsert_spec {revocationId homeId : String} {now : DateTime}
    {targets : List OutboxTarget} {rows rows' : List OutboxEntry}
    (h : targets.foldlM (upsertTarget revocationId homeId now) rows = some rows') :
    Upserted revocationId (targets.map OutboxTarget.receiverId) rows rows' := by
  induction targets generalizing rows with
  | nil =>
    cases h
    exact .refl
  | cons target targets ih =>
    rw [List.foldlM_cons] at h
    obtain ⟨rows₁, hfirst, hrest⟩ := Option.bind_eq_some_iff.mp h
    exact (upsertTarget_spec hfirst).trans (ih hrest)

namespace OutboxWorld

variable {w w' : OutboxWorld}

/-- What storing a revocation does to the look-ups by id: the one it is stored under is found, the
others are as they were, and it is new, or as it was, or its content is replaced. -/
structure RevocationStored (w w' : OutboxWorld) (dto : RevocationDto) (revocationId : String) :
    Prop where
  found : (w'.getHomeRevocationById revocationId).isSome
  other : ∀ id, id ≠ revocationId →
    w'.getHomeRevocationById id = w.getHomeRevocationById id
  content : w.getHomeRevocationById revocationId = none ∨
    w'.getHomeRevocationById revocationId = w.getHomeRevocationById revocationId ∨
    ∃ stored ∈ w.existing dto, stored.id = revocationId ∧
      ¬ (dto.version = stored.dto.version ∧ dto.signature = stored.dto.signature)

theorem get_replaceContent (storedId : String) (dto : RevocationDto) (id : String) :
    getHomeRevocationById
        { w with homeRevocations := w.homeRevocations.map (.replaceContent storedId dto) } id =
      (w.getHomeRevocationById id).map (.replaceContent storedId dto) := by
  rw [getHomeRevocationById, List.find?_map]
  congr 2
  grind [HomeRevocation.replaceContent]

/-- The revocation is found in the table under its id. -/
theorem storeRevocation_spec {revocation : HomeRevocation} {revocationId : String}
    {homeRevocations : List HomeRevocation}
    (h : w.storeRevocation revocation = some (revocationId, homeRevocations)) :
    RevocationStored w { w with homeRevocations } revocation.dto revocationId := by
  unfold storeRevocation at h
  split at h
  next stored hstored =>
    have hfound : (w.getHomeRevocationById stored.id).isSome := by
      rw [getHomeRevocationById, List.find?_isSome]
      exact ⟨stored, List.mem_of_find?_eq_some hstored, beq_self_eq_true _⟩
    split at h
    · cases h
    · split at h
      · cases h
        exact ⟨hfound, fun _ _ => rfl, .inr (.inl rfl)⟩
      next hchanged =>
        cases h
        refine ⟨?_, fun id hid => ?_, .inr (.inr ⟨stored, hstored, rfl, hchanged⟩)⟩
        · rw [get_replaceContent, Option.isSome_map]
          exact hfound
        · rw [get_replaceContent]
          cases hr : w.getHomeRevocationById id with
          | none => rfl
          | some r =>
            have hrid : r.id = id := by simpa using List.find?_some hr
            simp [HomeRevocation.replaceContent, hrid, hid]
  · split at h
    · cases h
    next hnew =>
      cases h
      simp only [List.any_eq_true, beq_iff_eq, not_exists, not_and] at hnew
      refine ⟨?_, fun id hid => ?_, .inl ?_⟩
      · simp [getHomeRevocationById]
      · grind [getHomeRevocationById]
      · grind [getHomeRevocationById]

theorem persist_spec {revocation : HomeRevocation} {targets : List OutboxTarget} {now : DateTime}
    (h : w.persistHomeRevocationTransaction revocation targets now = some w') :
    ∃ revocationId, RevocationStored w w' revocation.dto revocationId ∧
      Upserted revocationId (targets.map OutboxTarget.receiverId) w.outbox w'.outbox ∧
      w'.delivered = w.delivered := by
  unfold persistHomeRevocationTransaction at h
  obtain ⟨⟨revocationId, homeRevocations⟩, hstored, h⟩ := Option.bind_eq_some_iff.mp h
  obtain ⟨outbox, houtbox, h⟩ := Option.bind_eq_some_iff.mp h
  cases h
  have hspec := storeRevocation_spec hstored
  exact ⟨revocationId, ⟨hspec.found, hspec.other, hspec.content⟩, foldlM_upsert_spec houtbox, rfl⟩

end OutboxWorld

end MichiServer.Outbox
