import Mathlib.Algebra.Order.Monoid.Unbundled.Basic
import Mathlib.Data.List.Infix

/-!
# Counting in fixed windows

A counter that starts anew at the first event it sees after its window has ended. The times it counts
fall into windows: each is opened by an event, holds no more than the limit, and the next one opens
when it is over. What that says of an interval that is not a window is less than twice the limit.
-/

set_option autoImplicit false

namespace MichiServer.Logic

variable {Time : Type} [LinearOrder Time]

/-- A window: an opening, and the later times that are counted with it. -/
structure Window (Time : Type) where
  opening : Time
  later : List Time

namespace Window

/-- The times that fall in it. -/
def times (w : Window Time) : List Time := w.opening :: w.later

/-- How many of the times lie in an interval. -/
def within (first last : Time) (times : List Time) : ℕ :=
  times.countP fun t => first ≤ t ∧ t ≤ last

section Within

variable {first last : Time} {times : List Time}

theorem within_append (times' : List Time) :
    within first last (times ++ times') = within first last times + within first last times' :=
  List.countP_append

theorem within_le_length : within first last times ≤ times.length := List.countP_le_length

end Within

variable [Add Time]

/-- Each of its times is less than the span after its opening, and there are no more than the limit. -/
structure Fits (span : Time) (limit : ℕ) (w : Window Time) : Prop where
  after : ∀ t ∈ w.later, w.opening ≤ t
  before : ∀ t ∈ w.later, t < w.opening + span
  count : w.times.length ≤ limit

end Window

open Window

variable [Add Time]

/-- The times fall into windows, one after the other, of the span and within the limit. -/
structure Windowed (span : Time) (limit : ℕ) (windows : List (Window Time)) (times : List Time) :
    Prop where
  fits : ∀ w ∈ windows, w.Fits span limit
  apart : windows.Pairwise fun w w' => w.opening + span ≤ w'.opening
  times_eq : times = windows.flatMap Window.times

namespace Windowed

variable {span first last : Time} {limit : ℕ} {windows : List (Window Time)} {times : List Time}

theorem nil : Windowed span limit [] ([] : List Time) where
  fits := by simp
  apart := List.Pairwise.nil
  times_eq := rfl

/-- A time after all the windows opens the next one. -/
theorem opens (h : Windowed span limit windows times) {t : Time} (hlimit : 1 ≤ limit)
    (hafter : ∀ w ∈ windows, w.opening + span ≤ t) :
    Windowed span limit (windows ++ [⟨t, []⟩]) (times ++ [t]) where
  fits := by
    intro w hw
    rcases List.mem_append.mp hw with hw | hw
    · exact h.fits w hw
    · obtain rfl := List.mem_singleton.mp hw
      exact ⟨by simp, by simp, hlimit⟩
  apart := List.pairwise_append.mpr ⟨h.apart, List.pairwise_singleton _ _, by simpa using hafter⟩
  times_eq := by simp [h.times_eq, Window.times]

/-- A time within the last window is counted with it, while it is not full. -/
theorem counts {w : Window Time} (h : Windowed span limit (windows ++ [w]) times) {t : Time}
    (hafter : w.opening ≤ t) (hbefore : t < w.opening + span) (hcount : w.times.length < limit) :
    Windowed span limit (windows ++ [⟨w.opening, w.later ++ [t]⟩]) (times ++ [t]) where
  fits := by
    have hw := h.fits w (by simp)
    intro v hv
    rcases List.mem_append.mp hv with hv | hv
    · exact h.fits v (by simp [hv])
    · obtain rfl := List.mem_singleton.mp hv
      refine ⟨?_, ?_, ?_⟩
      · intro x hx
        rcases List.mem_append.mp hx with hx | hx
        · exact hw.after x hx
        · rwa [List.mem_singleton.mp hx]
      · intro x hx
        rcases List.mem_append.mp hx with hx | hx
        · exact hw.before x hx
        · rwa [List.mem_singleton.mp hx]
      · grind [Window.times]
  apart := by
    obtain ⟨hwindows, -, hlast⟩ := List.pairwise_append.mp h.apart
    grind
  times_eq := by simp [h.times_eq, Window.times]

/-- Windows that open after an interval have none of their times in it. -/
theorem within_eq_zero (hfits : ∀ w ∈ windows, w.Fits span limit)
    (hlate : ∀ w ∈ windows, last < w.opening) :
    within first last (windows.flatMap Window.times) = 0 := by
  rw [within, List.countP_eq_zero]
  intro t ht
  obtain ⟨w, hw, ht⟩ := List.mem_flatMap.mp ht
  have hopening : w.opening ≤ t := by
    rcases List.mem_cons.mp ht with rfl | ht
    · exact le_rfl
    · exact (hfits w hw).after t ht
  grind

variable [AddRightMono Time]

/-- Where the first of the windows opens within the interval, the next one opens after it. -/
theorem within_le_limit (h : Windowed span limit windows times) (hshort : last < first + span)
    (hfirst : ∀ w ∈ windows.head?, first ≤ w.opening) : within first last times ≤ limit := by
  rw [h.times_eq]
  cases windows with
  | nil => exact Nat.zero_le _
  | cons w rest =>
    have hw : first ≤ w.opening := hfirst w rfl
    have hapart := (List.pairwise_cons.mp h.apart).1
    have hrest : within first last (rest.flatMap Window.times) = 0 := by
      refine within_eq_zero (fun v hv => h.fits v (by simp [hv])) fun v hv => ?_
      calc last < first + span := hshort
        _ ≤ w.opening + span := add_le_add_left hw span
        _ ≤ v.opening := hapart v hv
    calc within first last ((w :: rest).flatMap Window.times)
        = within first last w.times := by rw [List.flatMap_cons, within_append, hrest, Nat.add_zero]
      _ ≤ w.times.length := within_le_length
      _ ≤ limit := (h.fits w (by simp)).count

/-- An interval that is shorter than the span holds less than twice the limit: no more than the limit
of the window it begins in, but for the opening, and no more than the limit of the next. -/
theorem within_lt_two_mul (h : Windowed span limit windows times) (hlimit : 1 ≤ limit)
    (hshort : last < first + span) : within first last times < 2 * limit := by
  induction windows generalizing times with
  | nil =>
    rw [h.times_eq]
    exact Nat.mul_pos Nat.two_pos hlimit
  | cons w rest ih =>
    by_cases hw : first ≤ w.opening
    · have hle := h.within_le_limit hshort (by simpa using hw)
      omega
    · have hfit := h.fits w (by simp)
      have hrest : Windowed span limit rest (rest.flatMap Window.times) :=
        ⟨fun v hv => h.fits v (by simp [hv]), (List.pairwise_cons.mp h.apart).2, rfl⟩
      have hsplit : within first last times =
          within first last w.later + within first last (rest.flatMap Window.times) := by
        rw [h.times_eq, List.flatMap_cons, within_append, Window.times]
        simp [within, hw]
      have hcount : w.later.length + 1 ≤ limit := hfit.count
      have hlater : within first last w.later ≤ w.later.length := within_le_length
      by_cases hnone : within first last w.later = 0
      · have hih := ih hrest
        omega
      · obtain ⟨t, ht, hin⟩ := List.countP_pos_iff.mp (Nat.pos_of_ne_zero hnone)
        have hnext : ∀ v ∈ rest.head?, first ≤ v.opening := by
          intro v hv
          have hin' : first ≤ t ∧ t ≤ last := by simpa using hin
          calc first ≤ t := hin'.1
            _ ≤ w.opening + span := (hfit.before t ht).le
            _ ≤ v.opening := (List.pairwise_cons.mp h.apart).1 v (List.mem_of_mem_head? hv)
        have hle := hrest.within_le_limit hshort hnext
        omega

end Windowed

end MichiServer.Logic
