import Mathlib
import MichiServer.Logic.Keyed
import MichiServer.Logic.Trace

/-!
# The idempotency store

The responses to requests that carry an `Idempotency-Key`, each kept for an hour. An entry that has
expired stays in the map until a `get` or a `clean_expired` removes it; `exists` and `check_reuse` read
the map as it stands.

Beside the store as it is stands the *settled* one, from which the expired entries were removed before
every operation. The two answer a run of operations alike exactly when no question of the run meets an
expired entry that it would answer from (`answers_eq_settled_iff`).
-/

namespace MichiServer.Link

structure IdempotencyEntry (Response : Type) where
  response : Response
  method : String
  path : String
  createdAt : ℕ

def idempotencyTtl : ℕ := 3600 * 10 ^ 9

/-- The map behind the mutex: its entries, in any order, no two under one key. -/
@[ext] structure IdempotencyStore (Response : Type) where
  store : List (String × IdempotencyEntry Response)
  keyed : (store.map Prod.fst).Nodup

variable {Response : Type}

/-- `entry.created_at.elapsed() < IDEMPOTENCY_TTL`: an instant that lies ahead has elapsed by zero. -/
def IdempotencyEntry.isFresh (now : ℕ) (entry : IdempotencyEntry Response) : Bool :=
  now - entry.createdAt < idempotencyTtl

namespace IdempotencyStore

variable (s : IdempotencyStore Response)

def new : IdempotencyStore Response := ⟨[], List.nodup_nil⟩

def lookup (key : String) : Option (IdempotencyEntry Response) :=
  (s.store.find? fun e => e.1 = key).map Prod.snd

def insert (key : String) (entry : IdempotencyEntry Response) : IdempotencyStore Response where
  store := s.store.filter (fun e => e.1 ≠ key) ++ [(key, entry)]
  keyed := by
    rw [List.map_append, List.nodup_append]
    refine ⟨s.keyed.sublist (List.Sublist.map _ List.filter_sublist), by simp, ?_⟩
    simp

def retain (kept : IdempotencyEntry Response → Bool) : IdempotencyStore Response where
  store := s.store.filter fun e => kept e.2
  keyed := s.keyed.sublist (List.Sublist.map _ List.filter_sublist)

def settle (now : ℕ) : IdempotencyStore Response := s.retain (·.isFresh now)

def get (now : ℕ) (key : String) : Option Response × IdempotencyStore Response :=
  let store := s.settle now
  ((store.lookup key).map (·.response), store)

def «exists» (key : String) : Bool := (s.lookup key).isSome

def set (now : ℕ) (key : String) (response : Response) (method path : String) :
    IdempotencyStore Response :=
  s.insert key ⟨response, method, path, now⟩

def checkReuse (key method path : String) : Option (String × String) :=
  (s.lookup key).bind fun entry =>
    if entry.method ≠ method ∨ entry.path ≠ path then some (entry.method, entry.path) else none

def cleanExpired (now : ℕ) : ℕ × IdempotencyStore Response :=
  let store := s.settle now
  (s.store.length - store.store.length, store)

@[simp] theorem lookup_retain (kept : IdempotencyEntry Response → Bool) (key : String) :
    (s.retain kept).lookup key = (s.lookup key).filter kept := by
  ext entry
  simp only [lookup, Option.map_eq_some_iff, Option.filter_eq_some_iff]
  have hkept : ∀ e, (s.retain kept).store.find? (fun e => e.1 = key) = some e ↔
      s.store.find? (fun e => e.1 = key) = some e ∧ kept e.2 = true := by
    intro e
    rw [Logic.Keyed.find_eq_some_iff (s.retain kept).keyed, Logic.Keyed.find_eq_some_iff s.keyed]
    simp only [retain, List.mem_filter]
    tauto
  grind

theorem isFresh_of_le {now later : ℕ} (hle : now ≤ later) {entry : IdempotencyEntry Response}
    (h : entry.isFresh later = true) : entry.isFresh now = true := by
  simp only [IdempotencyEntry.isFresh, decide_eq_true_eq] at h ⊢
  omega

theorem settle_settle {now later : ℕ} (hle : now ≤ later) :
    (s.settle now).settle later = s.settle later := by
  ext1
  simp only [settle, retain, List.filter_filter]
  grind [isFresh_of_le]

theorem settle_insert_settle (now : ℕ) (key : String) (entry : IdempotencyEntry Response) :
    ((s.settle now).insert key entry).settle now = (s.insert key entry).settle now := by
  ext1
  simp only [settle, retain, insert, List.filter_append, List.filter_filter]
  grind

end IdempotencyStore

/-- An operation on the store, or time that passes: `elapsed` nanoseconds. -/
inductive IdempotencyOp (Response : Type) where
  | advance (elapsed : ℕ)
  | get (key : String)
  | «exists» (key : String)
  | set (key : String) (response : Response) (method path : String)
  | checkReuse (key method path : String)
  | cleanExpired

inductive IdempotencyAnswer (Response : Type) where
  | response (found : Option Response)
  | present (found : Bool)
  | conflict (found : Option (String × String))
deriving DecidableEq

@[ext] structure IdempotencyWorld (Response : Type) where
  now : ℕ
  security : IdempotencyStore Response

namespace IdempotencyWorld

variable (w : IdempotencyWorld Response)

def step : IdempotencyOp Response → IdempotencyWorld Response
  | .advance elapsed => { w with now := w.now + elapsed }
  | .get key => { w with security := (w.security.get w.now key).2 }
  | .exists _ => w
  | .set key response method path =>
    { w with security := w.security.set w.now key response method path }
  | .checkReuse _ _ _ => w
  | .cleanExpired => { w with security := (w.security.cleanExpired w.now).2 }

def answer : IdempotencyOp Response → Option (IdempotencyAnswer Response)
  | .get key => some (.response (w.security.get w.now key).1)
  | .exists key => some (.present (w.security.exists key))
  | .checkReuse key method path => some (.conflict (w.security.checkReuse key method path))
  | .advance _ | .set _ _ _ _ | .cleanExpired => none

def settled : IdempotencyWorld Response := { w with security := w.security.settle w.now }

/-- The answers of a run, the store `prepared` before each of its operations. -/
def answers (prepared : IdempotencyWorld Response → IdempotencyWorld Response) :
    IdempotencyWorld Response → List (IdempotencyOp Response) →
      List (Option (IdempotencyAnswer Response))
  | _, [] => []
  | w, op :: ops => (prepared w).answer op :: answers prepared ((prepared w).step op) ops

/-- The question is answered from an entry that has expired: any entry of the key for `exists`, one
of another request for `check_reuse`. -/
def MeetsExpired : IdempotencyOp Response → Prop
  | .exists key => ∃ entry ∈ w.security.lookup key, entry.isFresh w.now = false
  | .checkReuse key method path => ∃ entry ∈ w.security.lookup key,
      entry.isFresh w.now = false ∧ (entry.method ≠ method ∨ entry.path ≠ path)
  | .advance _ | .get _ | .set _ _ _ _ | .cleanExpired => False

instance : DecidablePred w.MeetsExpired
  | .exists key => inferInstanceAs (Decidable (∃ entry ∈ w.security.lookup key, _))
  | .checkReuse key _ _ => inferInstanceAs (Decidable (∃ entry ∈ w.security.lookup key, _))
  | .advance _ | .get _ | .set _ _ _ _ | .cleanExpired => inferInstanceAs (Decidable False)

theorem settled_step_settled (op : IdempotencyOp Response) :
    (w.settled.step op).settled = (w.step op).settled := by
  cases op with
  | advance elapsed =>
    ext1
    · rfl
    · exact w.security.settle_settle (Nat.le_add_right _ _)
  | get key | cleanExpired =>
    ext1
    · rfl
    · exact congrArg (·.settle w.now) (w.security.settle_settle (Nat.le_refl w.now))
  | «exists» key | checkReuse key method path =>
    ext1
    · rfl
    · exact w.security.settle_settle (Nat.le_refl _)
  | set key response method path =>
    ext1
    · rfl
    · exact w.security.settle_insert_settle _ _ _

/-- An operation answers as the settled table does exactly where it meets nothing expired. -/
theorem answer_eq_settled_iff (op : IdempotencyOp Response) :
    w.answer op = w.settled.answer op ↔ ¬ w.MeetsExpired op := by
  cases op with
  | advance | set | cleanExpired => simp [answer, MeetsExpired]
  | get key =>
    have hsame : w.settled.answer (.get key) = w.answer (.get key) := by
      simp only [answer, settled, IdempotencyStore.get, w.security.settle_settle (Nat.le_refl _)]
    simp [hsame, MeetsExpired]
  | «exists» key =>
    simp only [answer, settled, IdempotencyStore.exists, IdempotencyStore.settle,
      IdempotencyStore.lookup_retain, MeetsExpired]
    cases w.security.lookup key with
    | none => simp
    | some entry => cases hfresh : entry.isFresh w.now <;> simp [Option.filter, hfresh]
  | checkReuse key method path =>
    simp only [answer, settled, IdempotencyStore.checkReuse, IdempotencyStore.settle,
      IdempotencyStore.lookup_retain, MeetsExpired]
    cases w.security.lookup key with
    | none => simp
    | some entry => cases hfresh : entry.isFresh w.now <;> simp [Option.filter, hfresh]

theorem answers_settled_congr {w w' : IdempotencyWorld Response} (h : w.settled = w'.settled)
    (ops : List (IdempotencyOp Response)) : answers settled w ops = answers settled w' ops := by
  cases ops with
  | nil => rfl
  | cons op ops => simp only [answers, h]

/-- **When expiry is uniform.** For every sequence of operations, with time passing between them as it
may, every answer is the one of the store from which the expired entries were removed, exactly when no
`exists` and no `check_reuse` of the sequence meets an expired entry. -/
theorem answers_eq_settled_iff (w : IdempotencyWorld Response) (ops : List (IdempotencyOp Response)) :
    answers id w ops = answers settled w ops ↔
      Logic.Trace.Obeys step (fun w op => ¬ w.MeetsExpired op) w ops := by
  induction ops generalizing w with
  | nil => exact iff_of_true rfl trivial
  | cons op ops ih =>
    have hrest : answers settled (w.settled.step op) ops = answers settled (w.step op) ops :=
      answers_settled_congr (w.settled_step_settled op) ops
    simp only [answers, id_eq, hrest, List.cons.injEq, Logic.Trace.Obeys]
    exact and_congr (w.answer_eq_settled_iff op) (ih (w.step op))

/-- A response that was stored an hour ago, and never asked for since, still exists. -/
theorem expired_entry_exists :
    let ops : List (IdempotencyOp Unit) :=
      [.set "key" () "POST" "/api/v1/upload", .advance idempotencyTtl, .exists "key"]
    answers id ⟨0, .new⟩ ops ≠ answers settled ⟨0, .new⟩ ops := by
  decide

end IdempotencyWorld

end MichiServer.Link
