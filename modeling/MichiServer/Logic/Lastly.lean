import Mathlib.Data.List.Basic

/-!
# What a queue says last

A queue of messages, read in order, where a message may say something of a subject or not. What the
queue says last is what a reader is left with when it has read it all.
-/

set_option autoImplicit false

namespace MichiServer.Logic

variable {α β : Type}

/-- What the last message says that says anything. -/
def lastly (f : α → Option β) (queue : List α) : Option β :=
  queue.foldl (fun said a => (f a).or said) none

variable {f : α → Option β} {a : α} {queue rest : List α}

theorem foldl_or (f : α → Option β) (queue : List α) (said : Option β) :
    queue.foldl (fun said a => (f a).or said) said = (lastly f queue).or said := by
  induction queue generalizing said with
  | nil => rfl
  | cons a queue ih =>
    grind [lastly]

@[simp] theorem lastly_nil (f : α → Option β) : lastly f [] = none := rfl

theorem lastly_append (f : α → Option β) (queue rest : List α) :
    lastly f (queue ++ rest) = (lastly f rest).or (lastly f queue) := by
  rw [lastly, List.foldl_append, foldl_or]
  rfl

theorem lastly_cons (f : α → Option β) (a : α) (queue : List α) :
    lastly f (a :: queue) = (lastly f queue).or (f a) := by
  rw [lastly, List.foldl_cons, foldl_or, Option.or_none]

theorem lastly_eq_none_iff : lastly f queue = none ↔ ∀ a ∈ queue, f a = none := by
  induction queue with
  | nil => simp
  | cons a queue ih => grind [lastly_cons]

/-- What is said last is said by a message. -/
theorem exists_of_lastly {b : β} (h : lastly f queue = some b) : ∃ a ∈ queue, f a = some b := by
  induction queue with
  | nil => cases h
  | cons a queue ih =>
    rw [lastly_cons] at h
    obtain hrest | ⟨-, ha⟩ := Option.or_eq_some_iff.mp h
    · grind
    · exact ⟨a, List.mem_cons_self, ha⟩

/-- The one message that says anything is what the queue says. -/
theorem lastly_of_mem (ha : a ∈ queue) (hothers : ∀ b ∈ queue, f b = f a ∨ f b = none) :
    lastly f queue = f a := by
  cases hlast : lastly f queue with
  | none => exact (lastly_eq_none_iff.mp hlast a ha).symm
  | some b =>
    obtain ⟨a', ha', htells⟩ := exists_of_lastly hlast
    grind

/-- A queue that has lost its first messages says last what it said, or nothing. -/
theorem lastly_of_tail {b : β} (h : lastly f queue.tail = some b) : lastly f queue = some b := by
  cases queue with
  | nil => exact h
  | cons a queue => rw [lastly_cons, show lastly f queue = some b from h, Option.some_or]

end MichiServer.Logic
