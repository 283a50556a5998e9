import Mathlib
import MichiServer.Basic
import MichiServer.Logic.Trace
import MichiServer.Logic.Keyed

/-!
# Pairing codes

A code is redeemed in steps: its row is read while it is not spent, its expiry is looked at, and the
row is then spent by its id. Nothing holds the row in between, and the statement that spends it does
not ask whether it still is unspent, so attempts that overlap all succeed.

The tokens of the older pairing and the pairing sessions are redeemed alike. A session's expiry is not
looked at, and its code need not be its own.
-/

namespace MichiServer.Sync

open MichiServer.Logic

inductive PairingTable where
  | syncPairingTokens
  | pairingSessions

def PairingTable.checksExpiry : PairingTable → Bool
  | syncPairingTokens => true
  | pairingSessions => false

/-- Whether the column `code` is `UNIQUE`. -/
def PairingTable.uniqueCode : PairingTable → Bool
  | syncPairingTokens => true
  | pairingSessions => false

/-- A row. The expiry is `none` where its text is no RFC 3339 time; `spent` is the column `used` of a
token, `confirmed` of a session. -/
structure PairingRow where
  id : Uuid
  code : String
  deviceName : String
  expiresAt : Option DateTime
  spent : Bool
deriving DecidableEq

def PairingRow.expired (row : PairingRow) (now : DateTime) : Bool :=
  row.expiresAt.any fun exp => exp < now

/-- How far an attempt has got: it has read a row, it has found the row in time, it has ended. -/
inductive Redeeming where
  | idle
  | read (row : PairingRow)
  | passed (row : PairingRow)
  | ended (redeemed : Option (Uuid × String))
deriving DecidableEq

structure Pairing where
  rows : List PairingRow
  attempts : ℕ → Redeeming

/-- `SELECT … WHERE code = ? AND used = 0`, and `get_pairing_session_by_code`. -/
def unspent (rows : List PairingRow) (code : String) : Option PairingRow :=
  rows.find? fun row => row.code = code && !row.spent

/-- `UPDATE … SET used = 1 WHERE id = ?`, and `confirm_pairing_session`. -/
def spend (rows : List PairingRow) (id : Uuid) : List PairingRow :=
  rows.map fun row => if row.id = id then { row with spent := true } else row

structure Turn where
  attempt : ℕ
  now : DateTime

variable (table : PairingTable) (codes : ℕ → String)

/-- The next step of an attempt: `consume_pairing_token`, and the redeeming of a session. -/
def redeem (s : Pairing) (turn : Turn) : Pairing :=
  match s.attempts turn.attempt with
  | .idle =>
    { s with
      attempts := Function.update s.attempts turn.attempt
        (match unspent s.rows (codes turn.attempt) with
          | some row => .read row
          | none => .ended none) }
  | .read row =>
    { s with
      attempts := Function.update s.attempts turn.attempt
        (if table.checksExpiry && row.expired turn.now then .ended none else .passed row) }
  | .passed row =>
    { rows := spend s.rows row.id
      attempts := Function.update s.attempts turn.attempt (.ended (some (row.id, row.deviceName))) }
  | .ended _ => s

/-- The row that the turn redeems, where it is the last of an attempt on the code. -/
def redeems (code : String) (s : Pairing) (turn : Turn) : Option PairingRow :=
  match s.attempts turn.attempt with
  | .passed row => if codes turn.attempt = code then some row else none
  | _ => none

def successes (code : String) : Pairing → List Turn → ℕ
  | _, [] => 0
  | s, turn :: rest =>
    (redeems codes code s turn).isSome.toNat + successes code (redeem table codes s turn) rest

def Open (code : String) (s : Pairing) : Prop := ∀ row ∈ s.rows, row.code = code → row.spent = false

structure PairingRows (table : PairingTable) where
  rows : List PairingRow
  keyed : (rows.map PairingRow.id).Nodup
  unique : table.uniqueCode = true → (rows.map PairingRow.code).Nodup

variable {table} in
def PairingRows.untouched (stored : PairingRows table) : Pairing := ⟨stored.rows, fun _ => .idle⟩

abbrev after (stored : PairingRows table) (turns : List Turn) : Pairing :=
  Trace.run (redeem table codes) stored.untouched turns

/-- A code is redeemed once at most, and never after its expiry or after it has been redeemed. -/
structure SingleUse (stored : PairingRows table) (code : String) (turns : List Turn) : Prop where
  once : successes table codes code stored.untouched turns ≤ 1
  unconfirmed : ∀ before turn, before ++ [turn] <+: turns →
    (redeems codes code (after table codes stored before) turn).isSome →
      Open code (after table codes stored before)
  in_time : ∀ before turn, before ++ [turn] <+: turns →
    ∀ row ∈ redeems codes code (after table codes stored before) turn, row.expired turn.now = false

/-- The attempts that succeed are by themselves: none other succeeds between the reading of the row and
its end, and where codes are not unique, no row of the code is spent when the attempt begins. And the
expiry of a row does not come between the check of it, or the reading where nothing is checked, and the
statement that spends the row. -/
structure Alone (stored : PairingRows table) (code : String) (turns : List Turn) : Prop where
  fresh : table.uniqueCode = false → ∀ before first between last,
    before ++ first :: (between ++ [last]) <+: turns →
    first.attempt = last.attempt → (after table codes stored before).attempts first.attempt = .idle →
    (redeems codes code (after table codes stored (before ++ first :: between)) last).isSome →
      Open code (after table codes stored before)
  undisturbed : ∀ before first between last, before ++ first :: (between ++ [last]) <+: turns →
    first.attempt = last.attempt → (after table codes stored before).attempts first.attempt = .idle →
    (redeems codes code (after table codes stored (before ++ first :: between)) last).isSome →
      successes table codes code (after table codes stored (before ++ [first])) between = 0
  prompt : ∀ before check between last, before ++ check :: (between ++ [last]) <+: turns →
    check.attempt = last.attempt → (∀ t ∈ between, t.attempt ≠ last.attempt) →
    codes last.attempt = code → ∀ row,
      (after table codes stored before).attempts check.attempt = .read row →
      (table.checksExpiry = true → row.expired check.now = false) → row.expired last.now = false

/-! ## One turn -/

/-- The rows have different ids, and an attempt holds a row of its code. -/
structure Sound (s : Pairing) : Prop where
  keyed : (s.rows.map PairingRow.id).Nodup
  holds : ∀ attempt row, (s.attempts attempt = .read row ∨ s.attempts attempt = .passed row) →
    ∃ r ∈ s.rows, r.id = row.id ∧ r.code = codes attempt

section Turns

variable {table codes} {code : String} {s : Pairing} {turn : Turn}

theorem spend_ids (rows : List PairingRow) (id : Uuid) :
    (spend rows id).map PairingRow.id = rows.map PairingRow.id := by
  rw [spend, List.map_map]
  refine List.map_congr_left fun row _ => ?_
  simp only [Function.comp_apply]
  split_ifs <;> rfl

theorem exists_spend {rows : List PairingRow} {row : PairingRow} (h : row ∈ rows) (id : Uuid) :
    ∃ r ∈ spend rows id, r.id = row.id ∧ r.code = row.code ∧ (row.spent → r.spent) := by
  refine ⟨_, List.mem_map_of_mem h, ?_⟩
  grind

theorem redeem_rows : (redeem table codes s turn).rows =
    match s.attempts turn.attempt with
    | .passed row => spend s.rows row.id
    | _ => s.rows := by
  unfold redeem
  split <;> simp_all

theorem redeem_attempts_of_ne {attempt : ℕ} (h : attempt ≠ turn.attempt) :
    (redeem table codes s turn).attempts attempt = s.attempts attempt := by
  unfold redeem
  split
  all_goals first | rfl | exact Function.update_of_ne h _ _

theorem ended_redeem {attempt : ℕ} {redeemed : Option (Uuid × String)}
    (h : s.attempts attempt = .ended redeemed) :
    (redeem table codes s turn).attempts attempt = .ended redeemed := by
  by_cases hturn : attempt = turn.attempt
  · subst hturn
    simp only [redeem, h]
  · rw [redeem_attempts_of_ne hturn, h]

/-- What is passed has been read, and found in time where the expiry is checked. -/
theorem read_of_passed {row : PairingRow}
    (h : (redeem table codes s turn).attempts turn.attempt = .passed row) :
    s.attempts turn.attempt = .read row ∧
      (table.checksExpiry = true → row.expired turn.now = false) := by
  cases hattempt : s.attempts turn.attempt with
  | idle =>
    simp only [redeem, hattempt, Function.update_self] at h
    split at h <;> cases h
  | read found =>
    simp only [redeem, hattempt, Function.update_self] at h
    split at h
    · cases h
    next hpassed =>
      cases h
      exact ⟨rfl, fun hchecks => by simpa [hchecks] using hpassed⟩
  | passed found => simp [redeem, hattempt] at h
  | ended redeemed =>
    rw [ended_redeem hattempt] at h
    cases h

theorem passed_of_read {row : PairingRow} (h : s.attempts turn.attempt = .read row)
    (hchecks : table.checksExpiry = true → row.expired turn.now = false) :
    (redeem table codes s turn).attempts turn.attempt = .passed row := by
  have hpassed : (table.checksExpiry && row.expired turn.now) = false := by
    cases hchecked : table.checksExpiry with
    | true => exact hchecks hchecked
    | false => rfl
  simp [redeem, h, hpassed]

theorem redeems_eq_some {row : PairingRow} (h : redeems codes code s turn = some row) :
    s.attempts turn.attempt = .passed row ∧ codes turn.attempt = code := by
  grind [redeems]

theorem Sound.untouched (stored : PairingRows table) : Sound codes stored.untouched where
  keyed := stored.keyed
  holds := by
    rintro attempt row (hread | hpassed)
    · exact nomatch hread
    · exact nomatch hpassed

theorem held_after {attempt : ℕ} {row : PairingRow}
    (h : (redeem table codes s turn).attempts attempt = .read row ∨
      (redeem table codes s turn).attempts attempt = .passed row) :
    (s.attempts attempt = .read row ∨ s.attempts attempt = .passed row) ∨
      s.attempts attempt = .idle ∧ unspent s.rows (codes attempt) = some row := by
  by_cases hturn : attempt = turn.attempt
  · subst hturn
    unfold redeem at h
    split at h
    · grind [Redeeming.read.injEq]
    · grind [Redeeming.passed.injEq]
    · simp only [Function.update_self] at h
      simp at h
    · exact .inl h
  · rw [redeem_attempts_of_ne hturn] at h
    exact .inl h

theorem exists_redeem (table : PairingTable) (codes : ℕ → String) (turn : Turn) {row : PairingRow}
    (h : row ∈ s.rows) :
    ∃ r ∈ (redeem table codes s turn).rows,
      r.id = row.id ∧ r.code = row.code ∧ (row.spent → r.spent) := by
  rw [redeem_rows]
  split
  · exact exists_spend h _
  · exact ⟨row, h, rfl, rfl, fun hspent => hspent⟩

theorem redeem_codes :
    (redeem table codes s turn).rows.map PairingRow.code = s.rows.map PairingRow.code := by
  rw [redeem_rows]
  split
  · rw [spend, List.map_map]
    refine List.map_congr_left fun row _ => ?_
    simp only [Function.comp_apply]
    split_ifs <;> rfl
  · rfl

theorem sound_redeem (h : Sound codes s) : Sound codes (redeem table codes s turn) where
  keyed := by
    rw [redeem_rows]
    split
    · rw [spend_ids]
      exact h.keyed
    · exact h.keyed
  holds := by
    intro attempt row hheld
    have hbefore : ∃ r ∈ s.rows, r.id = row.id ∧ r.code = codes attempt := by
      rcases held_after hheld with hheld | ⟨-, hread⟩
      · exact h.holds attempt row hheld
      · have hcode := List.find?_some hread
        simp only [Bool.and_eq_true, decide_eq_true_eq] at hcode
        exact ⟨row, List.mem_of_find?_eq_some hread, rfl, hcode.1⟩
    obtain ⟨r, hr, hid, hcode⟩ := hbefore
    obtain ⟨r', hr', hid', hcode', -⟩ := exists_redeem table codes turn hr
    exact ⟨r', hr', hid'.trans hid, hcode'.trans hcode⟩

theorem not_open_redeem (h : ¬ Open code s) : ¬ Open code (redeem table codes s turn) := by
  intro hopen
  refine h fun row hrow hcode => ?_
  obtain ⟨r, hr, -, hcode', hspent⟩ := exists_redeem table codes turn hrow
  by_contra hrowSpent
  have hrSpent := hspent (by simpa using hrowSpent)
  rw [hopen r hr (hcode'.trans hcode)] at hrSpent
  exact absurd hrSpent Bool.false_ne_true

theorem not_open_of_redeems (h : Sound codes s) (hredeems : (redeems codes code s turn).isSome) :
    ¬ Open code (redeem table codes s turn) := by
  obtain ⟨row, hrow⟩ := Option.isSome_iff_exists.mp hredeems
  obtain ⟨hpassed, rfl⟩ := redeems_eq_some hrow
  obtain ⟨r, hr, hid, hcode⟩ := h.holds _ row (.inr hpassed)
  intro hopen
  rw [Open, redeem_rows, hpassed] at hopen
  have hspent := hopen { r with spent := true }
    (List.mem_map.mpr ⟨r, hr, by rw [if_pos hid]⟩) hcode
  exact nomatch hspent

theorem open_redeem (h : Sound codes s) (hopen : Open code s)
    (hnone : redeems codes code s turn = none) : Open code (redeem table codes s turn) := by
  intro row hrow hcode
  rw [redeem_rows] at hrow
  split at hrow
  · rename_i held hpassed
    obtain ⟨old, hold, rfl⟩ := List.mem_map.mp hrow
    split_ifs at hcode ⊢ with hid
    · -- the row that is spent is of the code of its attempt, which is another
      obtain ⟨r, hr, hrId, hrCode⟩ := h.holds _ held (.inr hpassed)
      obtain rfl := Keyed.eq_of_key h.keyed hr hold (hrId.trans hid.symm)
      grind [redeems]
    · exact hopen old hold hcode
  · exact hopen row hrow hcode

end Turns

/-! ## Every run -/

section Runs

variable {table codes} {code : String} {s : Pairing} {turns : List Turn} {attempt : ℕ}

theorem sound_run (h : Sound codes s) : Sound codes (Trace.run (redeem table codes) s turns) :=
  Trace.run_kept (fun _ _ => sound_redeem) h turns

theorem unique_after {stored : PairingRows table} (hunique : table.uniqueCode = true)
    (before : List Turn) : ((after table codes stored before).rows.map PairingRow.code).Nodup :=
  Trace.run_kept (I := fun s : Pairing => (s.rows.map PairingRow.code).Nodup)
    (fun _ _ h => by rwa [redeem_codes]) (stored.unique hunique) before

theorem not_open_run (h : ¬ Open code s) : ¬ Open code (Trace.run (redeem table codes) s turns) :=
  Trace.run_kept (I := fun s => ¬ Open code s) (fun _ _ => not_open_redeem) h turns

theorem open_run (h : Sound codes s) (hopen : Open code s)
    (hnone : successes table codes code s turns = 0) :
    Open code (Trace.run (redeem table codes) s turns) := by
  induction turns generalizing s with
  | nil => exact hopen
  | cons turn rest ih =>
    rw [successes, Nat.add_eq_zero_iff] at hnone
    have hturn : redeems codes code s turn = none := by
      grind [redeems]
    exact ih (sound_redeem h) (open_redeem h hopen hturn) hnone.2

theorem not_open_of_successes (h : Sound codes s) (hsome : successes table codes code s turns ≠ 0) :
    ¬ Open code (Trace.run (redeem table codes) s turns) := by
  induction turns generalizing s with
  | nil => exact absurd rfl hsome
  | cons turn rest ih =>
    by_cases hredeems : (redeems codes code s turn).isSome
    · exact not_open_run (s := redeem table codes s turn) (not_open_of_redeems h hredeems)
    · rw [successes, Bool.eq_false_iff.mpr hredeems] at hsome
      exact ih (sound_redeem h) (by simpa using hsome)

/-- While only open codes are redeemed, the first success closes the code, and none follows. -/
theorem successes_le_one (h : Sound codes s)
    (hopen : Trace.Obeys (redeem table codes)
      (fun s turn => (redeems codes code s turn).isSome → Open code s) s turns) :
    successes table codes code s turns ≤ 1 ∧
      (¬ Open code s → successes table codes code s turns = 0) := by
  induction turns generalizing s with
  | nil => exact ⟨Nat.zero_le _, fun _ => rfl⟩
  | cons turn rest ih =>
    obtain ⟨hturn, hrest⟩ := hopen
    obtain ⟨hle, hzero⟩ := ih (sound_redeem h) hrest
    cases hredeems : (redeems codes code s turn).isSome with
    | true =>
      have hrestZero := hzero (not_open_of_redeems h hredeems)
      simp only [successes, hredeems, hrestZero]
      exact ⟨Nat.le_refl _, fun hclosed => absurd (hturn hredeems) hclosed⟩
    | false =>
      simp only [successes, hredeems, Bool.toNat_false, Nat.zero_add]
      exact ⟨hle, fun hclosed => hzero (not_open_redeem hclosed)⟩

theorem run_attempts_of_ne (h : ∀ t ∈ turns, t.attempt ≠ attempt) :
    (Trace.run (redeem table codes) s turns).attempts attempt = s.attempts attempt := by
  induction turns generalizing s with
  | nil => rfl
  | cons turn rest ih =>
    have hturn : attempt ≠ turn.attempt := (h turn List.mem_cons_self).symm
    exact (ih fun t ht => h t (List.mem_cons_of_mem _ ht)).trans (redeem_attempts_of_ne hturn)

/-- An attempt that has passed came to its check with the row read, and has had no turn since. -/
theorem exists_check {row : PairingRow} (hidle : s.attempts attempt = .idle)
    (hpassed : (Trace.run (redeem table codes) s turns).attempts attempt = .passed row) :
    ∃ before check between, turns = before ++ check :: between ∧ check.attempt = attempt ∧
      (∀ t ∈ between, t.attempt ≠ attempt) ∧
      (Trace.run (redeem table codes) s before).attempts attempt = .read row ∧
      (table.checksExpiry = true → row.expired check.now = false) := by
  induction turns using List.reverseRecOn with
  | nil => cases hidle.symm.trans hpassed
  | append_singleton rest turn ih =>
    rw [Trace.run_append] at hpassed
    by_cases hturn : turn.attempt = attempt
    · subst hturn
      obtain ⟨hread, hchecks⟩ := read_of_passed hpassed
      exact ⟨rest, turn, [], rfl, rfl, fun t ht => (by cases ht), hread, hchecks⟩
    · have hbefore := (redeem_attempts_of_ne (Ne.symm hturn)).symm.trans hpassed
      obtain ⟨before, check, between, rfl, hcheck, hbetween, hread, hchecks⟩ := ih hbefore
      refine ⟨before, check, between ++ [turn], by simp, hcheck, fun t ht => ?_, hread, hchecks⟩
      rcases List.mem_append.mp ht with ht | ht
      · exact hbetween t ht
      · rw [List.mem_singleton.mp ht]
        exact hturn

/-- A unique code of which a row was read was open. -/
theorem open_of_unique {first : Turn} {between : List Turn} {row : PairingRow}
    (hunique : (s.rows.map PairingRow.code).Nodup) (hidle : s.attempts first.attempt = .idle)
    (hpassed : (Trace.run (redeem table codes) (redeem table codes s first) between).attempts
      first.attempt = .passed row) : Open (codes first.attempt) s := by
  cases hread : unspent s.rows (codes first.attempt) with
  | none =>
    have hended : (redeem table codes s first).attempts first.attempt = .ended none := by
      simp [redeem, hidle, hread]
    have hstays : (Trace.run (redeem table codes) (redeem table codes s first) between).attempts
        first.attempt = .ended none :=
      Trace.run_kept (I := fun s : Pairing => s.attempts first.attempt = .ended none)
        (fun _ _ h => ended_redeem h) hended between
    cases hstays.symm.trans hpassed
  | some found =>
    have hfound := List.find?_some hread
    simp only [Bool.and_eq_true, decide_eq_true_eq, Bool.not_eq_true'] at hfound
    intro r hr hcode
    obtain rfl := Keyed.eq_of_key hunique hr (List.mem_of_find?_eq_some hread)
      (hcode.trans hfound.1.symm)
    exact hfound.2

theorem exists_begin (hidle : s.attempts attempt = .idle)
    (hbegun : (Trace.run (redeem table codes) s turns).attempts attempt ≠ .idle) :
    ∃ before first between, turns = before ++ first :: between ∧ first.attempt = attempt ∧
      (Trace.run (redeem table codes) s before).attempts attempt = .idle := by
  induction turns generalizing s with
  | nil => exact absurd hidle hbegun
  | cons turn rest ih =>
    by_cases hturn : (redeem table codes s turn).attempts attempt = .idle
    · obtain ⟨before, first, between, rfl, hfirst, hbefore⟩ := ih hturn hbegun
      exact ⟨turn :: before, first, between, rfl, hfirst, hbefore⟩
    · refine ⟨[], turn, rest, rfl, ?_, hidle⟩
      grind [redeem_attempts_of_ne]

/-- A code is single use exactly in the runs in which the attempts that succeed are by themselves, and
the expiry of a row does not come between its check and the spending of it. -/
theorem single_use_iff (table : PairingTable) (codes : ℕ → String) (stored : PairingRows table)
    (code : String) (turns : List Turn) :
    SingleUse table codes stored code turns ↔ Alone table codes stored code turns := by
  have hsound : ∀ before, Sound codes (after table codes stored before) :=
    fun _ => sound_run (Sound.untouched stored)
  constructor
  · intro h
    constructor
    case fresh =>
      intro _ before first between last hprefix _ _ hredeems
      have hsplit : (before ++ first :: between) ++ [last] <+: turns := by simpa using hprefix
      have hopen := h.unconfirmed _ _ hsplit hredeems
      by_contra hclosed
      rw [after, Trace.run_append] at hopen
      exact not_open_run hclosed hopen
    case undisturbed =>
      intro before first between last hprefix _ _ hredeems
      have hsplit : (before ++ first :: between) ++ [last] <+: turns := by simpa using hprefix
      have hopen := h.unconfirmed _ _ hsplit hredeems
      rw [after, List.append_cons, Trace.run_append] at hopen
      by_contra hsome
      exact not_open_of_successes (hsound _) hsome hopen
    case prompt =>
      intro before check between last hprefix hcheck hbetween hcode row hread hchecks
      have hsplit : (before ++ check :: between) ++ [last] <+: turns := by simpa using hprefix
      have hpassed : (after table codes stored (before ++ check :: between)).attempts last.attempt =
          .passed row := by
        rw [after, Trace.run_append]
        refine (run_attempts_of_ne hbetween).trans ?_
        rw [← hcheck]
        exact passed_of_read hread hchecks
      exact h.in_time _ _ hsplit row (by rw [redeems, hpassed]; exact if_pos hcode)
  · intro h
    have hunconfirmed : ∀ before turn, before ++ [turn] <+: turns →
        (redeems codes code (after table codes stored before) turn).isSome →
          Open code (after table codes stored before) := by
      intro before turn hprefix hredeems
      obtain ⟨row, hrow⟩ := Option.isSome_iff_exists.mp hredeems
      have hpassed := (redeems_eq_some hrow).1
      -- the attempt began when the code was open, and none has succeeded since
      obtain ⟨earlier, first, between, rfl, hfirst, hidle⟩ :=
        exists_begin (show stored.untouched.attempts turn.attempt = .idle from rfl)
          (by rw [hpassed]; exact nofun)
      have hsplit : earlier ++ first :: (between ++ [turn]) <+: turns := by simpa using hprefix
      have hidle' : (after table codes stored earlier).attempts first.attempt = .idle := by
        rw [hfirst]
        exact hidle
      have hopen : Open code (after table codes stored earlier) := by
        cases hunique : table.uniqueCode with
        | false => exact h.fresh hunique earlier first between turn hsplit hfirst hidle' hredeems
        | true =>
          rw [← (redeems_eq_some hrow).2, ← hfirst]
          rw [← hfirst, after, Trace.run_append] at hpassed
          exact open_of_unique (unique_after hunique earlier) hidle' hpassed
      have hnone := h.undisturbed earlier first between turn hsplit hfirst hidle' hredeems
      have hfirstNone : redeems codes code (after table codes stored earlier) first = none := by
        rw [redeems, hidle']
      have hopen' : Open code (after table codes stored (earlier ++ [first])) := by
        rw [after, Trace.run_append]
        exact open_redeem (hsound earlier) hopen hfirstNone
      rw [after, List.append_cons, Trace.run_append]
      exact open_run (hsound _) hopen' hnone
    constructor
    case once =>
      exact (successes_le_one (Sound.untouched stored)
        (Trace.obeys_iff_forall_prefix.mpr hunconfirmed)).1
    case unconfirmed => exact hunconfirmed
    case in_time =>
      intro before turn hprefix row hrow
      obtain ⟨hpassed, hcode⟩ := redeems_eq_some hrow
      obtain ⟨earlier, check, between, rfl, hcheck, hbetween, hread, hchecks⟩ :=
        exists_check (show stored.untouched.attempts turn.attempt = .idle from rfl) hpassed
      exact h.prompt earlier check between turn (by simpa using hprefix) hcheck hbetween hcode row
        (hcheck ▸ hread) hchecks

def oneToken : PairingRows .syncPairingTokens where
  rows := [⟨1, "4f2a9c01", "phone", some 300, false⟩]
  keyed := List.nodup_singleton _
  unique _ := List.nodup_singleton _

def overlapping : List Turn := [⟨0, 10⟩, ⟨1, 10⟩, ⟨0, 11⟩, ⟨1, 11⟩, ⟨0, 12⟩, ⟨1, 12⟩]

/-- Two attempts check the code before either of them uses it. -/
theorem overlapping_attempts_succeed : ¬ ∀ codes stored code turns,
    SingleUse .syncPairingTokens codes stored code turns := by
  intro h
  have honce := (h (fun _ => "4f2a9c01") oneToken "4f2a9c01" overlapping).once
  revert honce
  decide

end Runs

end MichiServer.Sync
