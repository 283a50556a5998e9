import Mathlib
import MichiServer.Text.Search

/-!
# What a failed heartbeat means

The errors a receiver's client reports, and the classification of `session_supervisor.rs`: which of
them are retried, and which lose the session.
-/

namespace MichiServer.Receivers

inductive ReceiverClientError where
  | unauthorized
  | sessionNotFound
  | sessionConflict
  | authorityRevoked
  | timeout
  | offline (text : String)
  | protocol (text : String)
  | http (status : ℕ) (body : String)

inductive SessionLossReason where
  | authorityRevoked
  | unauthorized
  | sessionNotFound
  | sessionConflict
  | consecutiveTimeouts (n : ℕ)
  | leaseExpired
  | other (text : String)
deriving DecidableEq

inductive HeartbeatDisposition where
  | «continue»
  | retryTransient (n : ℕ)
  | sessionLost (reason : SessionLossReason)
deriving DecidableEq

def classifyHeartbeatErrorTyped (err : ReceiverClientError)
    (consecutiveFailures timeSinceLastSuccess leaseDuration : ℕ) : HeartbeatDisposition :=
  match err with
  | .unauthorized => .sessionLost .unauthorized
  | .authorityRevoked => .sessionLost .authorityRevoked
  | .sessionNotFound => .sessionLost .sessionNotFound
  | .sessionConflict => .sessionLost .sessionConflict
  | .timeout | .offline _ | .http _ _ =>
    if timeSinceLastSuccess ≥ leaseDuration then .sessionLost .leaseExpired
    else if consecutiveFailures ≥ 3 then
      .sessionLost (.consecutiveTimeouts consecutiveFailures)
    else .retryTransient consecutiveFailures
  | .protocol msg => .sessionLost (.other msg)

/-!
## How a failed heartbeat is classified

A heartbeat fails in transport, with a status that is no success, or with an answer that cannot be
read. `from_response_parts` makes an error of a status and a body: it looks for the status or for words
in the lower-cased body, in a fixed order, and the first match decides. The classification then loses
the session at once, or retries until the lease or the third failure.

The classes are stated as a table of statuses and words (`lossRows`): the first row that applies loses
the session, and where none does the failure is transient, whatever the status.
-/

open Text

/-- What a letter becomes under `to_lowercase`, as far as a search for ASCII words can see. Of the
letters outside ASCII only the Kelvin sign has one of ASCII for its lower case, and the capital I with
a dot becomes an i with a combining dot. -/
def lowercaseLetter (c : Char) : List Char :=
  if c = '\u212A' then ['k'] else if c = '\u0130' then ['i', '\u0307'] else [c.toLower]

def lowercaseBody (body : String) : String := String.ofList (body.toList.flatMap lowercaseLetter)

def fromResponseParts (status : ℕ) (body : String) : ReceiverClientError :=
  let lower := lowercaseBody body
  if status = 401 ∨ contains lower "unauthorized" then .unauthorized
  else if status = 404 ∨ contains lower "sessionnotfound" ∨ contains lower "not found" then
    .sessionNotFound
  else if status = 409 ∨ contains lower "conflict" ∨ contains lower "sessionconflict" then
    .sessionConflict
  else if status = 403 ∨ contains lower "authority_revoked" ∨ contains lower "revoked" ∨
      contains lower "forbidden" then
    .authorityRevoked
  else if status = 408 ∨ contains lower "timeout" ∨ contains lower "timed out" then .timeout
  else .http status body

inductive HeartbeatFailure where
  | timedOut
  | unreachable (text : String)
  | refused (status : ℕ) (body : String)
  | unreadable (text : String)

def HeartbeatFailure.error : HeartbeatFailure → ReceiverClientError
  | .timedOut => .timeout
  | .unreachable text => .offline text
  | .refused status body => fromResponseParts status body
  | .unreadable text => .protocol s!"heartbeat parse failed: {text}"

/-- A class of failures that lose the session at once: a status, and words of the body. -/
structure LossRow where
  status : ℕ
  words : List String
  reason : SessionLossReason

def lossRows : List LossRow :=
  [⟨401, ["unauthorized"], .unauthorized⟩,
    ⟨404, ["sessionnotfound", "not found"], .sessionNotFound⟩,
    ⟨409, ["conflict"], .sessionConflict⟩,
    ⟨403, ["revoked", "forbidden"], .authorityRevoked⟩]

def LossRow.Mentioned (row : LossRow) (body : String) : Prop :=
  ∃ word ∈ row.words, contains (lowercaseBody body) word = true

instance (row : LossRow) (body : String) : Decidable (row.Mentioned body) :=
  inferInstanceAs (Decidable (∃ word ∈ row.words, _))

def LossRow.Applies (row : LossRow) (status : ℕ) (body : String) : Prop :=
  row.status = status ∨ row.Mentioned body

instance (row : LossRow) (status : ℕ) (body : String) : Decidable (row.Applies status body) :=
  inferInstanceAs (Decidable (_ ∨ _))

/-- A failure that is retried, until the lease ends or for the third time. -/
def transient (consecutiveFailures timeSinceLastSuccess leaseDuration : ℕ) :
    HeartbeatDisposition :=
  if timeSinceLastSuccess ≥ leaseDuration then .sessionLost .leaseExpired
  else if consecutiveFailures ≥ 3 then .sessionLost (.consecutiveTimeouts consecutiveFailures)
  else .retryTransient consecutiveFailures

theorem contains_conflict {lower : String} (h : contains lower "sessionconflict" = true) :
    contains lower "conflict" = true := contains_of_part (by decide) h

theorem contains_revoked {lower : String} (h : contains lower "authority_revoked" = true) :
    contains lower "revoked" = true := contains_of_part (by decide) h

variable (status : ℕ) (body : String) (consecutiveFailures timeSinceLastSuccess leaseDuration : ℕ)

theorem response_class :
    classifyHeartbeatErrorTyped (fromResponseParts status body) consecutiveFailures
        timeSinceLastSuccess leaseDuration =
      match lossRows.find? fun row => row.Applies status body with
      | some row => .sessionLost row.reason
      | none => transient consecutiveFailures timeSinceLastSuccess leaseDuration := by
  have hconflict := @contains_conflict (lowercaseBody body)
  have hrevoked := @contains_revoked (lowercaseBody body)
  simp only [fromResponseParts, lossRows, List.find?_cons, List.find?_nil, LossRow.Applies,
    LossRow.Mentioned, List.mem_cons, List.not_mem_nil, or_false, exists_eq_or_imp, exists_eq_left,
    eq_comm (b := status)]
  generalize contains (lowercaseBody body) "unauthorized" = unauthorized
  generalize contains (lowercaseBody body) "sessionnotfound" = sessionnotfound
  generalize contains (lowercaseBody body) "not found" = notFound
  generalize contains (lowercaseBody body) "conflict" = conflict at hconflict ⊢
  generalize contains (lowercaseBody body) "sessionconflict" = sessionconflict at hconflict ⊢
  grind [contains, lowercaseBody, classifyHeartbeatErrorTyped, transient]

def statusClass : HeartbeatDisposition :=
  match status with
  | 401 => .sessionLost .unauthorized
  | 403 => .sessionLost .authorityRevoked
  | 404 => .sessionLost .sessionNotFound
  | 409 => .sessionLost .sessionConflict
  | _ => transient consecutiveFailures timeSinceLastSuccess leaseDuration

theorem find_row_of_silent (h : ∀ row ∈ lossRows, ¬ row.Mentioned body) :
    lossRows.find? (fun row => row.Applies status body) =
      lossRows.find? fun row => row.status = status := by
  have hsame : ∀ row ∈ lossRows, decide (row.Applies status body) = decide (row.status = status) := by
    intro row hrow
    simp [LossRow.Applies, h row hrow]
  rw [← List.head?_filter, ← List.head?_filter, List.filter_congr hsame]

theorem statusClass_eq :
    statusClass status consecutiveFailures timeSinceLastSuccess leaseDuration =
      match lossRows.find? fun row => row.status = status with
      | some row => .sessionLost row.reason
      | none => transient consecutiveFailures timeSinceLastSuccess leaseDuration := by
  grind [lossRows, statusClass]

/-- **How a failed heartbeat is classified.** A response has the class of the first row whose status it
has or whose words its body holds, and is transient where no row applies; so a body without the words
leaves the class to the status, by which everything but 401, 403, 404 and 409 is transient. What fails
in transport is transient. -/
theorem heartbeat_failure_class (failure : HeartbeatFailure)
    (consecutiveFailures timeSinceLastSuccess leaseDuration : ℕ) :
    let disposition := classifyHeartbeatErrorTyped failure.error consecutiveFailures
      timeSinceLastSuccess leaseDuration
    let retried := transient consecutiveFailures timeSinceLastSuccess leaseDuration
    match failure with
    | .refused status body =>
      (disposition = match lossRows.find? fun row => row.Applies status body with
        | some row => .sessionLost row.reason
        | none => retried) ∧
      ((∀ row ∈ lossRows, ¬ row.Mentioned body) → disposition =
        statusClass status consecutiveFailures timeSinceLastSuccess leaseDuration)
    | .timedOut | .unreachable _ => disposition = retried
    | .unreadable text => disposition = .sessionLost (.other s!"heartbeat parse failed: {text}") := by
  cases failure with
  | refused status body =>
    have hclass := response_class status body consecutiveFailures timeSinceLastSuccess
      leaseDuration
    refine ⟨hclass, fun hsilent => ?_⟩
    rw [statusClass_eq, ← find_row_of_silent status body hsilent]
    exact hclass
  | timedOut | unreachable text | unreadable text => rfl

/-- The text of an answer with status 500 loses the session at the first failure, within the lease, and
410 is transient. -/
theorem text_loses_session :
    classifyHeartbeatErrorTyped (fromResponseParts 500 "upstream not found") 1 0 (30 * 10 ^ 9) =
        .sessionLost .sessionNotFound ∧
      classifyHeartbeatErrorTyped (fromResponseParts 410 "") 1 0 (30 * 10 ^ 9) =
        .retryTransient 1 := by
  decide

end MichiServer.Receivers
