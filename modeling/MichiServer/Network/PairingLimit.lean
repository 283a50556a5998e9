import MichiServer.Ingest.Fetch
import MichiServer.Logic.Windows
import Mathlib.Tactic.Linarith

/-!
# The rate limit on pairing

The middleware before the pairing routes counts the attempts of each address in a map, beside the
instant the count began. More than sixty whole seconds after that instant the next attempt begins a
new count; within them an attempt is refused once the count is at the limit. Pruning forgets the
counts that began more than five minutes ago.

The counts are of fixed windows, which open at an attempt. A window holds no more than the limit, and
an interval of sixty seconds, which may begin in one window and end in the next, less than twice the
limit.
-/

namespace MichiServer.Network

open MichiServer.Ingest MichiServer.Logic

variable {Limiter : Type}

def oneSecond : ℕ := 1000000000

def secsSince (now earlier : ℕ) : ℕ := (now - earlier) / oneSecond

def ipLimiterIdleTtlSecs : ℕ := 120

/-- `SecurityState`, with the one field of its configuration that the pairing limit reads. -/
structure SecurityState (Limiter : Type) where
  pairingRateLimitPerMinute : ℕ
  ipRateLimiter : String → Option (Limiter × ℕ)
  pairingAttempts : String → Option (ℕ × ℕ)

namespace SecurityState

def new (pairingRateLimitPerMinute : ℕ) : SecurityState Limiter where
  pairingRateLimitPerMinute := pairingRateLimitPerMinute
  ipRateLimiter := fun _ => none
  pairingAttempts := fun _ => none

variable (s : SecurityState Limiter)

def pruneStaleLimiters (now : ℕ) : SecurityState Limiter :=
  { s with
    ipRateLimiter := fun ip =>
      (s.ipRateLimiter ip).filter fun entry => secsSince now entry.2 ≤ ipLimiterIdleTtlSecs
    pairingAttempts := fun ip =>
      (s.pairingAttempts ip).filter fun entry => secsSince now entry.2 ≤ 300 }

def maxAttempts : ℕ := max s.pairingRateLimitPerMinute 1

def countAttempt (ip : String) (entry : ℕ × ℕ) : SecurityState Limiter :=
  { s with pairingAttempts := Function.update s.pairingAttempts ip (some entry) }

/-- Whether the middleware lets an address through, and the state after. -/
def attempt (ip : String) (now : ℕ) : Except (ℕ × String) Unit × SecurityState Limiter :=
  let entry := (s.pairingAttempts ip).getD (0, now)
  if 60 < secsSince now entry.2 then (.ok (), s.countAttempt ip (1, now))
  else if s.maxAttempts ≤ entry.1 then (.error (429, "60"), s.countAttempt ip entry)
  else (.ok (), s.countAttempt ip (entry.1 + 1, entry.2))

end SecurityState

def peerIp (connectInfo : Option SocketAddr) : String :=
  (connectInfo.map fun ci => ci.ip.display).getD "127.0.0.1"

def pairingRateLimitMiddleware (s : SecurityState Limiter) (connectInfo : Option SocketAddr)
    (now : ℕ) : Except (ℕ × String) Unit × SecurityState Limiter :=
  s.attempt (peerIp connectInfo) now

/-! ## Runs -/

inductive Limited where
  | attempt (connectInfo : Option SocketAddr) (now : ℕ)
  | prune (now : ℕ)

namespace Limited

def now : Limited → ℕ
  | attempt _ now => now
  | prune now => now

def step (s : SecurityState Limiter) : Limited → SecurityState Limiter
  | attempt connectInfo now => (pairingRateLimitMiddleware s connectInfo now).2
  | prune now => s.pruneStaleLimiters now

def passed (ip : String) (s : SecurityState Limiter) : Limited → List ℕ
  | attempt connectInfo now =>
    match (pairingRateLimitMiddleware s connectInfo now).1 with
    | .ok () => if peerIp connectInfo = ip then [now] else []
    | .error _ => []
  | prune _ => []

end Limited

def admitted (ip : String) : SecurityState Limiter → List Limited → List ℕ
  | _, [] => []
  | s, event :: rest => event.passed ip s ++ admitted ip (event.step s) rest

/-- How long a window lasts: an attempt sixty seconds and a part of one after its opening is in it. -/
def window : ℕ := 61 * oneSecond

/-- The entry of an address is what its last window says; where there is none, the windows are over. -/
def Entry (now : ℕ) (windows : List (Window ℕ)) : Option (ℕ × ℕ) → Prop
  | none => ∀ w ∈ windows, w.opening + window ≤ now
  | some entry =>
    ∃ earlier w, windows = earlier ++ [w] ∧ entry = (w.times.length, w.opening) ∧ w.opening ≤ now

/-- The state counts the windows that the admitted times of an address fall into. -/
structure Tracks (ip : String) (now : ℕ) (s : SecurityState Limiter) (windows : List (Window ℕ))
    (times : List ℕ) : Prop where
  windowed : Windowed window s.maxAttempts windows times
  entry : Entry now windows (s.pairingAttempts ip)

namespace Entry

variable {now later : ℕ} {windows : List (Window ℕ)}

theorem mono {entry : Option (ℕ × ℕ)} (h : Entry now windows entry) (hle : now ≤ later) :
    Entry later windows entry := by
  cases entry with
  | none => exact fun w hw => (h w hw).trans hle
  | some entry =>
    obtain ⟨earlier, w, hwindows, hentry, hopening⟩ := h
    exact ⟨earlier, w, hwindows, hentry, hopening.trans hle⟩

end Entry

theorem secsSince_gt_iff {now earlier : ℕ} : 60 < secsSince now earlier ↔ earlier + window ≤ now := by
  simp only [secsSince, window, oneSecond]
  omega

section Steps

variable {ip : String} {now later limit : ℕ} {s : SecurityState Limiter} {windows : List (Window ℕ)}
  {times : List ℕ}

theorem maxAttempts_pos (s : SecurityState Limiter) : 1 ≤ s.maxAttempts := le_max_right _ _

@[simp] theorem maxAttempts_count (ip : String) (entry : ℕ × ℕ) :
    (s.countAttempt ip entry).maxAttempts = s.maxAttempts := rfl

@[simp] theorem pairingAttempts_count (entry : ℕ × ℕ) :
    (s.countAttempt ip entry).pairingAttempts ip = some entry := by
  simp [SecurityState.countAttempt]

theorem pairingAttempts_count_of_ne {other : String} (hne : ip ≠ other) (entry : ℕ × ℕ) :
    (s.countAttempt other entry).pairingAttempts ip = s.pairingAttempts ip := by
  simp [SecurityState.countAttempt, hne]

theorem Tracks.new (ip : String) (now limit : ℕ) :
    Tracks ip now (SecurityState.new limit : SecurityState Limiter) [] [] where
  windowed := Windowed.nil
  entry := by simp [Entry, SecurityState.new]

theorem Tracks.over {earlier : List (Window ℕ)} {w : Window ℕ}
    (h : Tracks ip now s (earlier ++ [w]) times) (hover : w.opening + window ≤ later) :
    ∀ v ∈ earlier ++ [w], v.opening + window ≤ later := by
  intro v hv
  rcases List.mem_append.mp hv with hv | hv
  · have hapart := (List.pairwise_append.mp h.windowed.apart).2.2 v hv w (by simp)
    omega
  · rwa [List.mem_singleton.mp hv]

theorem Tracks.opens (h : Windowed window s.maxAttempts windows times)
    (hover : ∀ w ∈ windows, w.opening + window ≤ now) :
    Tracks ip now (s.countAttempt ip (1, now)) (windows ++ [⟨now, []⟩]) (times ++ [now]) where
  windowed := h.opens (maxAttempts_pos s) hover
  entry := by
    rw [pairingAttempts_count]
    exact ⟨windows, ⟨now, []⟩, rfl, rfl, le_rfl⟩

/-- The windows of an address after one attempt more. -/
theorem Tracks.attempt (h : Tracks ip now s windows times) (hle : now ≤ later) :
    ∃ windows', Tracks ip later (s.attempt ip later).2 windows'
      (times ++ match (s.attempt ip later).1 with | .ok () => [later] | .error _ => []) := by
  have hentry := h.entry
  cases hs : s.pairingAttempts ip with
  | none =>
    have hfirst : s.attempt ip later = (.ok (), s.countAttempt ip (1, later)) := by
      grind [maxAttempts_pos, secsSince, SecurityState.attempt]
    rw [hs] at hentry
    rw [hfirst]
    exact ⟨_, Tracks.opens h.windowed fun w hw => (hentry w hw).trans hle⟩
  | some entry =>
    rw [hs] at hentry
    obtain ⟨earlier, w, rfl, rfl, hopening⟩ := hentry
    by_cases hover : 60 < secsSince later w.opening
    · have hreset : s.attempt ip later = (.ok (), s.countAttempt ip (1, later)) := by
        simp [SecurityState.attempt, hs, hover]
      rw [hreset]
      exact ⟨_, Tracks.opens h.windowed (h.over (secsSince_gt_iff.mp hover))⟩
    · by_cases hfull : s.maxAttempts ≤ w.times.length
      · have hrefused : s.attempt ip later =
            (.error (429, "60"), s.countAttempt ip (w.times.length, w.opening)) := by
          simp [SecurityState.attempt, hs, hover, hfull]
        rw [hrefused, List.append_nil]
        refine ⟨earlier ++ [w], h.windowed, ?_⟩
        rw [pairingAttempts_count]
        exact ⟨earlier, w, rfl, rfl, hopening.trans hle⟩
      · have hcounted : s.attempt ip later =
            (.ok (), s.countAttempt ip (w.times.length + 1, w.opening)) := by
          simp [SecurityState.attempt, hs, hover, hfull]
        have hbefore : later < w.opening + window := not_le.mp (mt secsSince_gt_iff.mpr hover)
        rw [hcounted]
        refine ⟨_, h.windowed.counts (hopening.trans hle) hbefore (not_le.mp hfull), ?_⟩
        rw [pairingAttempts_count]
        exact ⟨earlier, _, rfl, by simp [Window.times], hopening.trans hle⟩

theorem Tracks.attempt_of_ne {other : String} (h : Tracks ip now s windows times) (hle : now ≤ later)
    (hne : ip ≠ other) : Tracks ip later (s.attempt other later).2 windows times := by
  have hcounts : ∃ entry, (s.attempt other later).2 = s.countAttempt other entry := by
    simp only [SecurityState.attempt]
    split_ifs
    all_goals exact ⟨_, rfl⟩
  obtain ⟨entry, hcounts⟩ := hcounts
  rw [hcounts]
  refine ⟨h.windowed, ?_⟩
  rw [pairingAttempts_count_of_ne hne]
  exact h.entry.mono hle

theorem Tracks.prune (h : Tracks ip now s windows times) (hle : now ≤ later) :
    Tracks ip later (s.pruneStaleLimiters later) windows times where
  windowed := h.windowed
  entry := by
    have hentry := h.entry.mono hle
    simp only [SecurityState.pruneStaleLimiters]
    cases hs : s.pairingAttempts ip with
    | none => rwa [hs] at hentry
    | some entry =>
      rw [hs] at hentry
      by_cases hkept : secsSince later entry.2 ≤ 300
      · grind
      · obtain ⟨earlier, w, rfl, rfl, hopening⟩ := hentry
        have hlong : 300 < secsSince later w.opening := not_le.mp hkept
        have hover : w.opening + window ≤ later := secsSince_gt_iff.mp (by omega)
        rw [Option.filter_some, if_neg (by simpa using hkept)]
        exact h.over hover

/-- The windows of an address after one event more, of whichever address. -/
theorem Tracks.step (h : Tracks ip now s windows times) (event : Limited) (hle : now ≤ event.now) :
    ∃ windows', Tracks ip event.now (event.step s) windows' (times ++ event.passed ip s) := by
  cases event with
  | attempt connectInfo later =>
    by_cases hip : peerIp connectInfo = ip
    · have hpassed : (Limited.attempt connectInfo later).passed ip s =
          match (s.attempt ip later).1 with | .ok () => [later] | .error _ => [] := by
        simp [Limited.passed, pairingRateLimitMiddleware, hip]
      have hstep : (Limited.attempt connectInfo later).step s = (s.attempt ip later).2 := by
        rw [Limited.step, pairingRateLimitMiddleware, hip]
      rw [hpassed, hstep]
      exact h.attempt hle
    · refine ⟨windows, ?_⟩
      have hnone : (Limited.attempt connectInfo later).passed ip s = [] := by
        simp only [Limited.passed, if_neg hip]
        split <;> rfl
      rw [hnone, List.append_nil]
      exact h.attempt_of_ne hle (Ne.symm hip)
  | prune later =>
    refine ⟨windows, ?_⟩
    rw [Limited.passed, List.append_nil]
    exact h.prune hle

theorem maxAttempts_step (event : Limited) : (event.step s).maxAttempts = s.maxAttempts := by
  cases event with
  | attempt connectInfo later =>
    simp only [Limited.step, pairingRateLimitMiddleware, SecurityState.attempt]
    split_ifs <;> rfl
  | prune later => rfl

theorem Tracks.run {events : List Limited} (h : Tracks ip now s windows times)
    (hle : ∀ event ∈ events, now ≤ event.now)
    (hsorted : (events.map Limited.now).Pairwise (· ≤ ·)) :
    ∃ windows', Windowed window s.maxAttempts windows' (times ++ admitted ip s events) := by
  induction events generalizing now s windows times with
  | nil => exact ⟨windows, by simpa [admitted] using h.windowed⟩
  | cons event rest ih =>
    rw [List.map_cons, List.pairwise_cons] at hsorted
    obtain ⟨windows', hstep⟩ := h.step event (hle event List.mem_cons_self)
    grind [admitted, maxAttempts_step]

end Steps

/-- The attempts of an address that are let through fall into windows, each opened by one of them, no
fuller than the limit, and over before the next opens; any sixty seconds hold less than twice the
limit. -/
theorem pairing_attempts_windowed (limit : ℕ) (events : List Limited)
    (hsorted : (events.map Limited.now).Pairwise (· ≤ ·)) (ip : String) :
    (∃ windows, Windowed window (max limit 1) windows
      (admitted ip (SecurityState.new limit : SecurityState Limiter) events)) ∧
    ∀ start, Window.within start (start + 60 * oneSecond)
      (admitted ip (SecurityState.new limit : SecurityState Limiter) events) < 2 * max limit 1 := by
  obtain ⟨windows, hwindows⟩ := (Tracks.new ip 0 limit :
    Tracks ip 0 (SecurityState.new limit : SecurityState Limiter) [] []).run
      (fun _ _ => Nat.zero_le _) hsorted
  refine ⟨⟨windows, hwindows⟩, fun start => ?_⟩
  refine hwindows.within_lt_two_mul (le_max_right _ _) ?_
  simp only [window, oneSecond]
  omega

/-! ## Two windows in one minute -/

section Burst

variable {ip : String} {s : SecurityState Limiter}

theorem admitted_replicate (s : SecurityState Limiter) (opening now : ℕ)
    (hnow : now < opening + window) (hself : peerIp none = ip) (rest : List Limited) (n : ℕ) {count : ℕ}
    (hroom : count + n ≤ s.maxAttempts)
    (hentry : s.pairingAttempts ip = some (count, opening)) :
    ∃ s' : SecurityState Limiter, s'.maxAttempts = s.maxAttempts ∧
      s'.pairingAttempts ip = some (count + n, opening) ∧
      admitted ip s (List.replicate n (.attempt none now) ++ rest) =
        List.replicate n now ++ admitted ip s' rest := by
  induction n generalizing s count with
  | zero => exact ⟨s, rfl, hentry, rfl⟩
  | succ n ih =>
    have hwindow : ¬ 60 < secsSince now opening := mt secsSince_gt_iff.mp (by omega)
    have hcounted : s.attempt ip now = (.ok (), s.countAttempt ip (count + 1, opening)) := by
      grind [SecurityState.attempt]
    obtain ⟨s', hmax, hs', heq⟩ := ih (s.countAttempt ip (count + 1, opening))
      (by rw [maxAttempts_count]; omega) (pairingAttempts_count _)
    refine ⟨s', hmax, by rw [hs']; congr 2; omega, ?_⟩
    grind [admitted, Limited.passed, Limited.step, pairingRateLimitMiddleware]

def burst (limit : ℕ) : List Limited :=
  .attempt none 0 :: (List.replicate (limit - 1) (.attempt none (60 * oneSecond)) ++
    .attempt none (61 * oneSecond) :: List.replicate (limit - 1) (.attempt none (61 * oneSecond)))

/-- The times at which the burst is let through. -/
theorem admitted_burst (limit : ℕ) :
    admitted (peerIp none) (SecurityState.new limit : SecurityState Limiter) (burst limit) =
      0 :: (List.replicate (limit - 1) (60 * oneSecond) ++
        61 * oneSecond :: List.replicate (limit - 1) (61 * oneSecond)) := by
  have hmax : ∀ n, 1 + (n - 1) = max n 1 := by omega
  have hfirst : (SecurityState.new limit : SecurityState Limiter).attempt (peerIp none) 0 =
      (.ok (), (SecurityState.new limit).countAttempt (peerIp none) (1, 0)) := by
    simp [SecurityState.attempt, SecurityState.new, SecurityState.maxAttempts, secsSince]
  obtain ⟨s, hs, hentry, hadmitted⟩ := admitted_replicate
    ((SecurityState.new limit : SecurityState Limiter).countAttempt (peerIp none) (1, 0)) 0
    (60 * oneSecond) (by decide) rfl
    (.attempt none (61 * oneSecond) :: List.replicate (limit - 1) (.attempt none (61 * oneSecond)))
    (limit - 1) (hmax limit).le (pairingAttempts_count _)
  have hreset : s.attempt (peerIp none) (61 * oneSecond) =
      (.ok (), s.countAttempt (peerIp none) (1, 61 * oneSecond)) := by
    grind [secsSince, oneSecond, SecurityState.attempt]
  obtain ⟨s', -, -, hadmitted'⟩ := admitted_replicate
    (s.countAttempt (peerIp none) (1, 61 * oneSecond)) (61 * oneSecond)
    (61 * oneSecond) (by decide) rfl [] (limit - 1)
    (by rw [maxAttempts_count, hs]; exact (hmax limit).le) (pairingAttempts_count _)
  rw [burst, admitted, Limited.passed, Limited.step, pairingRateLimitMiddleware, hfirst, hadmitted]
  grind [Limited.passed, Limited.step, pairingRateLimitMiddleware, admitted]

theorem burst_sorted (limit : ℕ) : ((burst limit).map Limited.now).Pairwise (· ≤ ·) := by
  simp [burst, Limited.now, List.pairwise_append, List.pairwise_replicate, oneSecond]

/-- The attempts of a burst at the border of two windows. -/
theorem pairing_attempts_windowed_burst :
    ((burst 5).map Limited.now).Pairwise (· ≤ ·) ∧
    ∀ start, Window.within start (start + 60 * oneSecond)
      (admitted (peerIp none) (SecurityState.new 5 : SecurityState Unit) (burst 5)) < 2 * max 5 1 :=
  ⟨burst_sorted 5, (pairing_attempts_windowed 5 (burst 5) (burst_sorted 5) (peerIp none)).2⟩

theorem within_burst (limit : ℕ) :
    Window.within (60 * oneSecond) (60 * oneSecond + 60 * oneSecond)
      (admitted (peerIp none) (SecurityState.new limit : SecurityState Limiter) (burst limit)) =
        2 * max limit 1 - 1 := by
  rw [admitted_burst]
  simp [Window.within, oneSecond, List.countP_replicate]
  omega

/-- The windows may let twice the limit, less one, through in sixty seconds. -/
theorem minute_exceeds_limit :
    ¬ ∀ (limit : ℕ) (events : List Limited), (events.map Limited.now).Pairwise (· ≤ ·) →
      ∀ ip start, Window.within start (start + 60 * oneSecond)
        (admitted ip (SecurityState.new limit : SecurityState Unit) events) ≤ limit := by
  intro h
  have hwithin := h 5 (burst 5) (burst_sorted 5) (peerIp none) (60 * oneSecond)
  rw [within_burst] at hwithin
  omega

end Burst

end MichiServer.Network
