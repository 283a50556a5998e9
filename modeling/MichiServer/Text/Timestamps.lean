import Mathlib.Data.String.Basic
import Mathlib.Tactic.IntervalCases

/-!
# Timestamps as texts

An instant is written by its date and its time of day, each part with so many digits: with a `T` between
them in RFC 3339, with a space by SQLite's `datetime`. Texts are compared character by character. Two
dates are in the order of their days, and so are two timestamps of one form; of a timestamp of each form,
the one of RFC 3339 is the greater one whenever the days are the same.

An instant is the nanoseconds since the first day of the year 0, before the year 10000: what both forms
write with four digits.
-/

namespace MichiServer.Text

def fixed : ℕ → ℕ → List Char
  | 0, _ => []
  | width + 1, n => fixed width (n / 10) ++ [(n % 10).digitChar]

@[simp] theorem length_fixed (width n : ℕ) : (fixed width n).length = width := by
  induction width generalizing n with
  | zero => rfl
  | succ width ih => rw [fixed, List.length_append, ih, List.length_singleton]

theorem append_lt_append {a b : List Char} (h : a < b) (hlength : a.length = b.length)
    (c d : List Char) : a ++ c < b ++ d := by
  induction a generalizing b with
  | nil =>
    grind
  | cons x a ih =>
    cases b with
    | nil => exact nomatch hlength
    | cons y b =>
      rw [List.cons_append, List.cons_append, List.cons_lt_cons_iff]
      rcases List.cons_lt_cons_iff.mp h with hlt | ⟨rfl, hlt⟩
      · exact .inl hlt
      · exact .inr ⟨rfl, ih hlt (Nat.succ.inj hlength)⟩

theorem digitChar_lt {m n : ℕ} (h : m < n) (hn : n < 10) : m.digitChar < n.digitChar := by
  interval_cases n <;> interval_cases m <;> decide

theorem fixed_lt {width m n : ℕ} (h : m < n) (hn : n < 10 ^ width) : fixed width m < fixed width n := by
  induction width generalizing m n with
  | zero => omega
  | succ width ih =>
    rw [fixed, fixed]
    rcases lt_or_eq_of_le (Nat.div_le_div_right (c := 10) h.le) with hlt | heq
    · exact append_lt_append (ih hlt (by omega)) (by simp) _ _
    · rw [heq]
      refine List.append_left_lt ?_
      exact List.cons_lt_cons_iff.mpr (.inl (digitChar_lt (by omega) (by omega)))

def yearStart (y : ℕ) : ℕ := 365 * y + (y + 3) / 4 + (y + 399) / 400 - (y + 99) / 100

def isLeap (y : ℕ) : Bool := y % 4 = 0 && (y % 100 ≠ 0 || y % 400 = 0)

def monthLengths (y : ℕ) : List ℕ :=
  [31, if isLeap y then 29 else 28, 31, 30, 31, 30, 31, 31, 30, 31, 30, 31]

/-- The year of a day: that of the mean length of years, or one beside it. -/
def yearOf (d : ℕ) : ℕ :=
  let y := 400 * d / 146097
  if d < yearStart y then y - 1 else if d < yearStart (y + 1) then y else y + 1

/-- The month of a day of the year, and its day of the month, both counted from zero. -/
def monthDay : List ℕ → ℕ → ℕ × ℕ
  | [], r => (0, r)
  | n :: lengths, r =>
    if r < n then (0, r) else ((monthDay lengths (r - n)).1 + 1, (monthDay lengths (r - n)).2)

theorem yearStart_succ (y : ℕ) : yearStart (y + 1) = yearStart y + (monthLengths y).sum := by
  have hfour : (y + 1 + 3) / 4 = (y + 3) / 4 + if y % 4 = 0 then 1 else 0 := by
    split <;> omega
  have hhundred : (y + 1 + 99) / 100 = (y + 99) / 100 + if y % 100 = 0 then 1 else 0 := by
    split <;> omega
  have hcycle : (y + 1 + 399) / 400 = (y + 399) / 400 + if y % 400 = 0 then 1 else 0 := by
    split <;> omega
  have hle : (y + 99) / 100 ≤ y := by omega
  have hcentury : y % 100 = 0 → y % 4 = 0 := by omega
  have hleap : y % 400 = 0 → y % 100 = 0 := by omega
  simp only [yearStart, monthLengths, isLeap, Bool.and_eq_true, Bool.or_eq_true, decide_eq_true_eq,
    List.sum_cons, List.sum_nil, hfour, hhundred, hcycle]
  generalize (y + 3) / 4 = a, (y + 99) / 100 = b, (y + 399) / 400 = c at *
  clear hfour hhundred hcycle
  generalize y % 4 = u, y % 100 = v, y % 400 = w at *
  split_ifs <;> omega

theorem yearStart_mono {y z : ℕ} (h : y ≤ z) : yearStart y ≤ yearStart z :=
  monotone_nat_of_le_succ (fun y => by rw [yearStart_succ]; exact Nat.le_add_right _ _) h

theorem yearStart_near (y : ℕ) :
    146097 * y ≤ 400 * yearStart y + 396 ∧ 400 * yearStart y ≤ 146097 * y + 699 := by
  rw [yearStart]
  omega

theorem yearOf_spec (d : ℕ) : yearStart (yearOf d) ≤ d ∧ d < yearStart (yearOf d + 1) := by
  have hmean := Nat.div_add_mod (400 * d) 146097
  have hmod := Nat.mod_lt (400 * d) (by decide : 146097 > 0)
  simp only [yearOf]
  generalize 400 * d / 146097 = y at *
  split
  · rename_i hlt
    cases y with
    | zero => exact absurd hlt (Nat.not_lt_zero d)
    | succ y =>
      have hnear := (yearStart_near y).2
      exact ⟨by rw [Nat.add_sub_cancel]; omega, hlt⟩
  · rename_i hle
    split
    · rename_i hlt
      exact ⟨not_lt.mp hle, hlt⟩
    · rename_i hge
      have hnear := (yearStart_near (y + 1 + 1)).1
      exact ⟨not_lt.mp hge, by omega⟩

theorem yearOf_mono {d e : ℕ} (h : d ≤ e) : yearOf d ≤ yearOf e := by
  by_contra hlt
  have hle : yearStart (yearOf e + 1) ≤ yearStart (yearOf d) := yearStart_mono (not_le.mp hlt)
  have hd := (yearOf_spec d).1
  have he := (yearOf_spec e).2
  omega

theorem monthDay_lt (lengths : List ℕ) {r s : ℕ} (h : r < s) :
    (monthDay lengths r).1 < (monthDay lengths s).1 ∨
      (monthDay lengths r).1 = (monthDay lengths s).1 ∧
        (monthDay lengths r).2 < (monthDay lengths s).2 := by
  induction lengths generalizing r s with
  | nil => exact .inr ⟨rfl, h⟩
  | cons n lengths ih =>
    simp only [monthDay]
    by_cases hs : s < n
    · rw [if_pos hs, if_pos (h.trans hs)]
      exact .inr ⟨rfl, h⟩
    · rw [if_neg hs]
      by_cases hr : r < n
      · rw [if_pos hr]
        exact .inl (Nat.succ_pos _)
      · rw [if_neg hr]
        have hrest := @ih (r - n) (s - n) (by omega)
        omega

theorem monthDay_bounds {lengths : List ℕ} (hlengths : ∀ n ∈ lengths, n ≤ 31) {r : ℕ}
    (h : r < lengths.sum) :
    (monthDay lengths r).1 < lengths.length ∧ (monthDay lengths r).2 < 31 := by
  induction lengths generalizing r with
  | nil => exact absurd h (Nat.not_lt_zero r)
  | cons n lengths ih =>
    have hn := hlengths n List.mem_cons_self
    grind [monthDay]

def monthOf (d : ℕ) : ℕ × ℕ := monthDay (monthLengths (yearOf d)) (d - yearStart (yearOf d))

theorem monthOf_bounds (d : ℕ) : (monthOf d).1 < 12 ∧ (monthOf d).2 < 31 := by
  have hspec := yearOf_spec d
  rw [yearStart_succ] at hspec
  refine monthDay_bounds (fun n hn => ?_) (by omega)
  simp only [monthLengths, List.mem_cons, List.not_mem_nil, or_false] at hn
  rcases hn with rfl | rfl | rfl | rfl | rfl | rfl | rfl | rfl | rfl | rfl | rfl | rfl <;>
    first | (split <;> decide) | decide

def dateText (d : ℕ) : List Char :=
  fixed 4 (yearOf d) ++ '-' :: (fixed 2 ((monthOf d).1 + 1) ++ '-' :: fixed 2 ((monthOf d).2 + 1))

@[simp] theorem length_dateText (d : ℕ) : (dateText d).length = 10 := by simp [dateText]

/-- The texts of dates are in the order of the dates. -/
theorem dateText_lt {d e : ℕ} (h : d < e) (he : e < yearStart 10000) : dateText d < dateText e := by
  have hyear : yearOf e < 10000 := by
    by_contra hge
    have hle := yearStart_mono (not_lt.mp hge)
    have hspec := (yearOf_spec e).1
    omega
  have hbounds := monthOf_bounds e
  rw [dateText, dateText]
  rcases lt_or_eq_of_le (yearOf_mono h.le) with hlt | heq
  · exact append_lt_append (fixed_lt hlt hyear) (by simp) _ _
  · have hle : yearStart (yearOf d) ≤ d := (yearOf_spec d).1
    have hmonth : (monthOf d).1 < (monthOf e).1 ∨
        (monthOf d).1 = (monthOf e).1 ∧ (monthOf d).2 < (monthOf e).2 := by
      rw [monthOf, monthOf, ← heq]
      exact monthDay_lt _ (by omega)
    rw [heq]
    refine List.append_left_lt (List.cons_lt_cons_iff.mpr (.inr ⟨rfl, ?_⟩))
    rcases hmonth with hlt | ⟨hsame, hday⟩
    · exact append_lt_append (fixed_lt (by omega) (by omega)) (by simp) _ _
    · rw [hsame]
      refine List.append_left_lt (List.cons_lt_cons_iff.mpr (.inr ⟨rfl, ?_⟩))
      exact fixed_lt (by omega) (by omega)

def oneSecond : ℕ := 1000000000

def oneDay : ℕ := 86400 * oneSecond

def timeText (t : ℕ) : List Char :=
  let s := t % oneDay / oneSecond
  fixed 2 (s / 3600) ++ ':' :: (fixed 2 (s / 60 % 60) ++ ':' :: fixed 2 (s % 60))

/-- The fraction of a second, in as many groups of three digits as it needs. -/
def fractionText (t : ℕ) : List Char :=
  let n := t % oneSecond
  if n = 0 then []
  else if n % 1000000 = 0 then '.' :: fixed 3 (n / 1000000)
  else if n % 1000 = 0 then '.' :: fixed 6 (n / 1000)
  else '.' :: fixed 9 n

def toRfc3339 (t : ℕ) : String :=
  String.ofList (dateText (t / oneDay) ++ 'T' :: (timeText t ++ fractionText t ++ "+00:00".toList))

def datetime (t : ℕ) : String := String.ofList (dateText (t / oneDay) ++ ' ' :: timeText t)

theorem toRfc3339_lt_datetime_iff {t u : ℕ} (ht : t / oneDay < yearStart 10000)
    (hu : u / oneDay < yearStart 10000) : toRfc3339 t < datetime u ↔ t / oneDay < u / oneDay := by
  simp only [String.lt_iff_toList_lt, toRfc3339, datetime, String.toList_ofList]
  generalize t / oneDay = d at *
  generalize u / oneDay = e at *
  rcases lt_trichotomy d e with hlt | heq | hgt
  · exact iff_of_true (append_lt_append (dateText_lt hlt hu) (by simp) _ _) hlt
  · rw [heq]
    refine iff_of_false (lt_asymm (List.append_left_lt ?_)) (lt_irrefl _)
    exact List.cons_lt_cons_iff.mpr (.inl (by decide))
  · refine iff_of_false (lt_asymm ?_) (lt_asymm hgt)
    exact append_lt_append (dateText_lt hgt ht) (by simp) _ _

end MichiServer.Text
