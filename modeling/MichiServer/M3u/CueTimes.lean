import MichiServer.Text.Lines
import MichiServer.Text.Search
import Mathlib.Data.List.Chain

/-!
# CUE sheets

`parse_cue` reads a sheet line by line. What a line says (`readLine`) changes what is known of the
current track; a `TRACK` line closes the one before it, and the end of the sheet the last. At last every
track but the last ends a millisecond before the next begins.

The arithmetic is of 64 bits and unsigned. A result that does not fit is no result here: it stops a
program that checks its arithmetic, and wraps in one that does not.
-/

namespace MichiServer.M3u

open Text

structure CueTrack where
  index : ℕ
  title : String
  performer : Option String
  file : String
  startMs : ℕ
  endMs : Option ℕ
deriving DecidableEq

/-! ## Arithmetic -/

def checked (n : ℕ) : Option ℕ := if n < 2 ^ 64 then some n else none

def checkedSub (m n : ℕ) : Option ℕ := if n ≤ m then some (m - n) else none

structure CueTime where
  mins : ℕ
  secs : ℕ
  frames : ℕ
deriving DecidableEq

def CueTime.startMs (t : CueTime) : Option ℕ := do
  let minsInSecs ← checked (t.mins * 60)
  let secs ← checked (minsInSecs + t.secs)
  let ms ← checked (secs * 1000)
  let frames ← checked (t.frames * 1000)
  checked (ms + frames / 75)

/-! ## Lines -/

inductive CueLine where
  | skipped
  | file (path : Option String)
  | performer (name : Option String)
  | track (index : ℕ)
  | title (title : String)
  | index01 (time : Option CueTime)
deriving DecidableEq

def quoted (s : String) : Option String := (s.toList.splitOn '"')[1]?.map String.ofList

def splitWhitespace (s : String) : List (List Char) :=
  (s.toList.splitOnP isWhitespace).filter fun word => !word.isEmpty

/-- The time behind `INDEX 01`: three parts between colons, zero for what is no number. -/
def readTime (time : String) : Option CueTime :=
  match time.toList.splitOn ':' with
  | [mins, secs, frames] =>
    let number := fun part => (parseUint 64 part).getD 0
    some ⟨number mins, number secs, number frames⟩
  | _ => none

def readLine (line : String) : CueLine :=
  let line := trim line
  if line = "" ∨ startsWith line "#" ∨ startsWith line "REM" then .skipped
  else
    match stripPrefix line "FILE " with
    | some file => .file (quoted file)
    | none =>
      if startsWith line "PERFORMER " then .performer (quoted line)
      else if startsWith line "TRACK " then
        .track (((splitWhitespace line)[1]?.bind (parseUint 32)).getD 0)
      else if startsWith line "TITLE " then .title ((quoted line).getD "")
      else
        match stripPrefix line "INDEX 01 " with
        | some time => .index01 (readTime time)
        | none => .skipped

/-! ## The loop -/

structure CueState where
  tracks : List CueTrack := []
  currentFile : String := ""
  currentPerformer : Option String := none
  currentTitle : String := ""
  currentIndex : ℕ := 0
  currentStart : ℕ := 0
  inTrack : Bool := false
deriving DecidableEq

namespace CueState

variable (s : CueState)

def track : CueTrack where
  index := s.currentIndex
  title := s.currentTitle
  performer := s.currentPerformer
  file := s.currentFile
  startMs := s.currentStart
  endMs := none

/-- The tracks with the current one, if there is one and it has a title. -/
def pushed : List CueTrack :=
  if s.inTrack ∧ s.currentTitle ≠ "" then s.tracks ++ [s.track] else s.tracks

def step : CueLine → Option CueState
  | .skipped | .file none | .index01 none => some s
  | .file (some path) => some { s with currentFile := path }
  | .performer name => some { s with currentPerformer := name }
  | .track index =>
    some { s with tracks := s.pushed, inTrack := true, currentIndex := index, currentTitle := "" }
  | .title title => some { s with currentTitle := title }
  | .index01 (some time) => time.startMs.map fun start => { s with currentStart := start }

end CueState

def closeTracks : List CueTrack → Option (List CueTrack)
  | first :: second :: rest => do
    let endMs ← checkedSub second.startMs 1
    let closed ← closeTracks (second :: rest)
    some ({ first with endMs := some endMs } :: closed)
  | tracks => some tracks

def parseCue (content : String) : Option (List CueTrack) := do
  let s ← ((lines content).map readLine).foldlM CueState.step {}
  closeTracks s.pushed

example : parseCue "FILE \"a.flac\"\nTRACK 01\nTITLE \"A\"\nINDEX 01 00:00:00\nTRACK 02\nTITLE \"B\"\nINDEX 01 03:20:15" =
    some [⟨1, "A", none, "a.flac", 0, some 200199⟩, ⟨2, "B", none, "a.flac", 200200, none⟩] := by
  decide

/-!
## The times of a CUE sheet

A track begins at the last `INDEX 01` time above its end, which may stand in an earlier track, and is
kept if it has a title. Its end is a millisecond before the next track begins. So the tracks that come
out are in turn exactly when every time fits, and each kept track begins later than those before it.
-/

/-! ## Times -/

def CueTime.ms (t : CueTime) : ℕ := (t.mins * 60 + t.secs) * 1000 + t.frames * 1000 / 75

def CueTime.Fits (t : CueTime) : Prop := t.ms < 2 ^ 64 ∧ t.frames * 1000 < 2 ^ 64

instance (t : CueTime) : Decidable t.Fits := inferInstanceAs (Decidable (_ ∧ _))

theorem parts_fit {mins secs frames : ℕ}
    (h : (mins * 60 + secs) * 1000 + frames * 1000 / 75 < 2 ^ 64) :
    mins * 60 < 2 ^ 64 ∧ mins * 60 + secs < 2 ^ 64 ∧ (mins * 60 + secs) * 1000 < 2 ^ 64 := by
  omega

theorem CueTime.startMs_eq (t : CueTime) : t.startMs = if t.Fits then some t.ms else none := by
  obtain ⟨mins, secs, frames⟩ := t
  have hms : CueTime.ms ⟨mins, secs, frames⟩ = (mins * 60 + secs) * 1000 + frames * 1000 / 75 := rfl
  by_cases hfits : CueTime.Fits ⟨mins, secs, frames⟩
  · rw [if_pos hfits]
    obtain ⟨htime, hframes⟩ := hfits
    rw [hms] at htime
    obtain ⟨h₁, h₂, h₃⟩ := parts_fit htime
    have hframes : frames * 1000 < 2 ^ 64 := hframes
    simp only [startMs, checked, if_pos h₁, if_pos h₂, if_pos h₃, if_pos hframes, if_pos htime,
      Option.bind_eq_bind, Option.bind_some, hms]
  · rw [if_neg hfits]
    simp only [Fits, hms, not_and_or, Nat.not_lt] at hfits
    simp only [startMs, checked, Option.bind_eq_bind, Option.bind_eq_none_iff]
    grind

/-! ## Lines that were seen -/

namespace CueLine

def isTrack : CueLine → Bool
  | .track _ => true
  | _ => false

def titled : CueLine → Option String
  | .title t => some t
  | _ => none

def time : CueLine → Option CueTime
  | .index01 t => t
  | _ => none

end CueLine

/-- The start of the current track: the last time above, zero if there is none. -/
def startAt (seen : List CueLine) : ℕ := ((seen.filterMap CueLine.time).getLast?.map CueTime.ms).getD 0

/-- The title of the current track: the last one since its `TRACK` line. -/
def titleAt (seen : List CueLine) : String :=
  ((seen.rtakeWhile fun line => !line.isTrack).filterMap CueLine.titled).getLast?.getD ""

def Kept (seen : List CueLine) : Prop := seen.any CueLine.isTrack = true ∧ titleAt seen ≠ ""

instance (seen : List CueLine) : Decidable (Kept seen) := inferInstanceAs (Decidable (_ ∧ _))

section

variable {seen : List CueLine} {line : CueLine}

theorem startAt_append (h : line.time = none) : startAt (seen ++ [line]) = startAt seen := by
  simp [startAt, h]

theorem startAt_index (t : CueTime) : startAt (seen ++ [.index01 (some t)]) = t.ms := by
  simp [startAt, CueLine.time]

theorem titleAt_append (htrack : line.isTrack = false) (htitle : line.titled = none) :
    titleAt (seen ++ [line]) = titleAt seen := by
  rw [titleAt, List.rtakeWhile_concat_pos _ _ _ (by simp [htrack])]
  simp [titleAt, htitle]

theorem titleAt_title (title : String) : titleAt (seen ++ [.title title]) = title := by
  rw [titleAt, List.rtakeWhile_concat_pos _ _ _ (by rfl)]
  simp [CueLine.titled]

theorem titleAt_track (index : ℕ) : titleAt (seen ++ [.track index]) = "" := by
  simp [titleAt, CueLine.isTrack]

end

/-! ## The loop -/

structure Follows (s : CueState) (seen : List CueLine) : Prop where
  start : s.currentStart = startAt seen
  inTrack : s.inTrack = seen.any CueLine.isTrack
  title : s.currentTitle = titleAt seen

section

variable {s s' : CueState} {seen rest : List CueLine} {line : CueLine}

/-- A line is taken in, and a track is pushed where the line begins one. -/
theorem step_spec (hs : Follows s seen) (h : s.step line = some s') :
    Follows s' (seen ++ [line]) ∧ s'.tracks = if line.isTrack then s.pushed else s.tracks := by
  cases line with
  | skipped =>
    cases h
    exact ⟨⟨hs.start.trans (startAt_append rfl).symm, by simp [hs.inTrack, CueLine.isTrack],
      hs.title.trans (titleAt_append rfl rfl).symm⟩, rfl⟩
  | file path =>
    have hsame : s'.currentStart = s.currentStart ∧ s'.inTrack = s.inTrack ∧
        s'.currentTitle = s.currentTitle ∧ s'.tracks = s.tracks := by
      cases path <;> cases h <;> exact ⟨rfl, rfl, rfl, rfl⟩
    obtain ⟨hstart, hin, htitle, htracks⟩ := hsame
    exact ⟨⟨hstart.trans (hs.start.trans (startAt_append rfl).symm),
      by simp [hin, hs.inTrack, CueLine.isTrack],
      htitle.trans (hs.title.trans (titleAt_append rfl rfl).symm)⟩, htracks⟩
  | performer name =>
    cases h
    exact ⟨⟨hs.start.trans (startAt_append rfl).symm, by simp [hs.inTrack, CueLine.isTrack],
      hs.title.trans (titleAt_append rfl rfl).symm⟩, rfl⟩
  | track index =>
    cases h
    exact ⟨⟨hs.start.trans (startAt_append rfl).symm, by simp [CueLine.isTrack],
      (titleAt_track index).symm⟩, rfl⟩
  | title title =>
    cases h
    exact ⟨⟨hs.start.trans (startAt_append rfl).symm, by simp [hs.inTrack, CueLine.isTrack],
      (titleAt_title title).symm⟩, rfl⟩
  | index01 time =>
    cases time with
    | none =>
      cases h
      exact ⟨⟨hs.start.trans (startAt_append rfl).symm, by simp [hs.inTrack, CueLine.isTrack],
        hs.title.trans (titleAt_append rfl rfl).symm⟩, rfl⟩
    | some time =>
      simp only [CueState.step, CueTime.startMs_eq, Option.map_eq_some_iff,
        Option.ite_none_right_eq_some, Option.some.injEq] at h
      obtain ⟨start, ⟨-, rfl⟩, rfl⟩ := h
      exact ⟨⟨(startAt_index time).symm, by simp [hs.inTrack, CueLine.isTrack],
        hs.title.trans (titleAt_append rfl rfl).symm⟩, rfl⟩

theorem step_isSome_iff : (∃ s', s.step line = some s') ↔ ∀ t ∈ line.time, t.Fits := by
  cases line with
  | index01 time =>
    cases time with
    | none => simp [CueState.step, CueLine.time]
    | some time => simp [CueState.step, CueLine.time, CueTime.startMs_eq]
  | file path => cases path <;> simp [CueState.step, CueLine.time]
  | skipped | performer | track | title => simp [CueState.step, CueLine.time]

theorem run_isSome_iff :
    (∃ s', rest.foldlM CueState.step s = some s') ↔ ∀ line ∈ rest, ∀ t ∈ line.time, t.Fits := by
  induction rest generalizing s with
  | nil => simp
  | cons line rest ih =>
    simp only [List.foldlM_cons, Option.bind_eq_bind, Option.bind_eq_some_iff, List.forall_mem_cons]
    rw [← step_isSome_iff (s := s)]
    constructor
    · rintro ⟨s', s₁, hstep, hrun⟩
      exact ⟨⟨s₁, hstep⟩, ih.mp ⟨s', hrun⟩⟩
    · rintro ⟨⟨s₁, hstep⟩, hrest⟩
      obtain ⟨s', hrun⟩ := ih.mpr hrest
      exact ⟨s', s₁, hstep, hrun⟩

/-- The starts of the tracks that are pushed behind the lines that were seen. -/
def starts (seen : List CueLine) : List CueLine → List ℕ
  | [] => if Kept seen then [startAt seen] else []
  | line :: rest =>
    (if line.isTrack ∧ Kept seen then [startAt seen] else []) ++ starts (seen ++ [line]) rest

theorem pushed_starts (hs : Follows s seen) : s.pushed.map CueTrack.startMs =
    s.tracks.map CueTrack.startMs ++ if Kept seen then [startAt seen] else [] := by
  have hkept : (s.inTrack ∧ s.currentTitle ≠ "") ↔ Kept seen := by
    rw [Kept, hs.inTrack, hs.title]
  rw [CueState.pushed]
  split
  · rename_i h
    rw [if_pos (hkept.mp h), ← hs.start]
    simp [CueState.track]
  · grind

theorem run_starts (hs : Follows s seen) (h : rest.foldlM CueState.step s = some s') :
    s'.pushed.map CueTrack.startMs = s.tracks.map CueTrack.startMs ++ starts seen rest := by
  induction rest generalizing s seen with
  | nil =>
    cases h
    exact pushed_starts hs
  | cons line rest ih =>
    simp only [List.foldlM_cons, Option.bind_eq_bind, Option.bind_eq_some_iff] at h
    obtain ⟨s₁, hstep, hrun⟩ := h
    obtain ⟨hs₁, htracks⟩ := step_spec hs hstep
    grind [starts, pushed_starts]

end

/-! ## The starts, by their places in the sheet -/

/-- Behind the lines that were seen, the track that is current after `lines` ends there and is kept:
the sheet ends, or the next track begins. -/
def Closes (seen rest lines : List CueLine) : Prop :=
  ∃ later, rest = lines ++ later ∧ (∀ line ∈ later.head?, line.isTrack = true) ∧ Kept (seen ++ lines)

theorem closes_nil {seen lines : List CueLine} :
    Closes seen [] lines ↔ lines = [] ∧ Kept seen := by
  constructor
  · rintro ⟨later, heq, -, hkept⟩
    obtain ⟨rfl, rfl⟩ := List.append_eq_nil_iff.mp heq.symm
    exact ⟨rfl, by simpa using hkept⟩
  · rintro ⟨rfl, hkept⟩
    exact ⟨[], rfl, by simp, by simpa using hkept⟩

theorem closes_cons {seen rest lines : List CueLine} {line : CueLine} :
    Closes seen (line :: rest) lines ↔ (lines = [] ∧ line.isTrack = true ∧ Kept seen) ∨
      ∃ lines', lines = line :: lines' ∧ Closes (seen ++ [line]) rest lines' := by
  constructor
  · rintro ⟨later, heq, hnext, hkept⟩
    cases lines with
    | nil =>
      grind
    | cons first lines' =>
      obtain ⟨rfl, rfl⟩ := List.cons.inj heq
      exact .inr ⟨lines', rfl, later, rfl, hnext, by simpa using hkept⟩
  · rintro (⟨rfl, htrack, hkept⟩ | ⟨lines', rfl, later, rfl, hnext, hkept⟩)
    · exact ⟨line :: rest, rfl, by simpa using htrack, by simpa using hkept⟩
    · exact ⟨later, rfl, hnext, by simpa using hkept⟩

theorem mem_starts_iff {seen rest : List CueLine} {start : ℕ} :
    start ∈ starts seen rest ↔ ∃ lines, Closes seen rest lines ∧ startAt (seen ++ lines) = start := by
  induction rest generalizing seen with
  | nil =>
    simp only [starts, closes_nil]
    grind
  | cons line rest ih =>
    simp only [starts, closes_cons, List.mem_append, ih]
    constructor
    · grind
    · grind

/-- The starts of the tracks rise exactly where those of their lines do. -/
theorem pairwise_starts_iff {seen rest : List CueLine} :
    (starts seen rest).Pairwise (· < ·) ↔ ∀ above lines, Closes seen rest above → Closes seen rest lines →
      above.length < lines.length → startAt (seen ++ above) < startAt (seen ++ lines) := by
  induction rest generalizing seen with
  | nil =>
    grind [starts, closes_nil]
  | cons line rest ih =>
    rw [starts, List.pairwise_append, ih]
    constructor
    · rintro ⟨-, hlater, hfirst⟩ above lines habove hlines hlength
      rw [closes_cons] at habove hlines
      rcases hlines with ⟨rfl, -⟩ | ⟨lines', rfl, hlines'⟩
      · simp at hlength
      have hstart : startAt (seen ++ line :: lines') = startAt (seen ++ [line] ++ lines') := by simp
      rw [hstart]
      rcases habove with ⟨rfl, hkept⟩ | ⟨above', rfl, habove'⟩
      · rw [List.append_nil]
        exact hfirst _ (by simp [hkept]) _ (mem_starts_iff.mpr ⟨lines', hlines', rfl⟩)
      · grind [startAt]
    · intro h
      refine ⟨by split <;> simp, ?_, ?_⟩
      · intro above lines habove hlines hlength
        have horder := h (line :: above) (line :: lines) (closes_cons.mpr (.inr ⟨above, rfl, habove⟩))
          (closes_cons.mpr (.inr ⟨lines, rfl, hlines⟩)) (by simpa using hlength)
        simpa using horder
      · intro start hstart later hlater
        split at hstart
        · rename_i hkept
          obtain ⟨lines, hlines, rfl⟩ := mem_starts_iff.mp hlater
          obtain rfl := List.mem_singleton.mp hstart
          have horder := h [] (line :: lines) (closes_cons.mpr (.inl ⟨rfl, hkept⟩))
            (closes_cons.mpr (.inr ⟨lines, rfl, hlines⟩)) (by simp)
          simpa using horder
        · cases hstart

/-! ## The ends -/

/-- A track has an end, at or after its start, and the next one begins later. -/
def InTurn (track next : CueTrack) : Prop :=
  ∃ endMs, track.endMs = some endMs ∧ track.startMs ≤ endMs ∧ endMs < next.startMs

theorem closeTracks_starts {tracks closed : List CueTrack} (h : closeTracks tracks = some closed) :
    closed.map CueTrack.startMs = tracks.map CueTrack.startMs := by
  induction tracks generalizing closed with
  | nil =>
    cases h
    rfl
  | cons first rest ih =>
    cases rest with
    | nil =>
      cases h
      rfl
    | cons second rest =>
      simp only [closeTracks, Option.bind_eq_bind, Option.bind_eq_some_iff, Option.some.injEq] at h
      grind

/-- The tracks can be closed in turn exactly where their starts rise. -/
theorem closeTracks_iff {tracks : List CueTrack} :
    (∃ closed, closeTracks tracks = some closed ∧ closed.IsChain InTurn) ↔
      (tracks.map CueTrack.startMs).IsChain (· < ·) := by
  induction tracks with
  | nil => simp [closeTracks]
  | cons first rest ih =>
    cases rest with
    | nil => simp [closeTracks]
    | cons second rest =>
      rw [List.map_cons, List.map_cons, List.isChain_cons_cons, ← List.map_cons, ← ih]
      simp only [closeTracks, Option.bind_eq_bind, Option.bind_eq_some_iff, Option.some.injEq,
        checkedSub, Option.ite_none_right_eq_some]
      constructor
      · rintro ⟨_, ⟨endMs, ⟨hpos, rfl⟩, closed, hclosed, rfl⟩, hchain⟩
        cases closed with
        | nil => simpa using closeTracks_starts hclosed
        | cons next closed =>
          obtain ⟨⟨_, hend, hstart, hnext⟩, htail⟩ := List.isChain_cons_cons.mp hchain
          grind [closeTracks_starts]
      · rintro ⟨horder, closed, hclosed, htail⟩
        refine ⟨_, ⟨second.startMs - 1, ⟨by omega, rfl⟩, closed, hclosed, rfl⟩, ?_⟩
        cases closed with
        | nil => exact List.isChain_singleton _
        | cons next closed =>
          have hsame := (List.cons.inj (closeTracks_starts hclosed)).1
          refine List.isChain_cons_cons.mpr ⟨⟨_, rfl, ?_, ?_⟩, htail⟩
          · dsimp only
            omega
          · omega

/-- **When a sheet has its tracks in turn.** For every text, `parse_cue` returns without an overflow,
and with every track but the last ending between its start and the next start, exactly when all its
times fit and every kept track begins later than those that end above it. -/
theorem parse_cue_in_turn_iff (content : String) :
    let sheet := (Text.lines content).map readLine
    (∃ tracks, parseCue content = some tracks ∧ tracks.IsChain InTurn) ↔
      (∀ line ∈ sheet, ∀ t ∈ line.time, t.Fits) ∧
      ∀ above lines, Closes [] sheet above → Closes [] sheet lines → above.length < lines.length →
        startAt above < startAt lines := by
  intro sheet
  have hnew : Follows {} [] := ⟨rfl, rfl, rfl⟩
  have horder := @pairwise_starts_iff [] sheet
  simp only [List.nil_append] at horder
  rw [← horder, ← run_isSome_iff (s := {})]
  simp only [parseCue, Option.bind_eq_bind, Option.bind_eq_some_iff]
  constructor
  · rintro ⟨tracks, ⟨s, hrun, hclosed⟩, hchain⟩
    have hstarts := closeTracks_iff.mp ⟨tracks, hclosed, hchain⟩
    rw [run_starts hnew hrun] at hstarts
    exact ⟨⟨s, hrun⟩, List.isChain_iff_pairwise.mp hstarts⟩
  · rintro ⟨⟨s, hrun⟩, hpairwise⟩
    have hstarts : (s.pushed.map CueTrack.startMs).IsChain (· < ·) := by
      rw [run_starts hnew hrun]
      exact List.isChain_iff_pairwise.mpr hpairwise
    obtain ⟨closed, hclosed, hchain⟩ := closeTracks_iff.mpr hstarts
    exact ⟨closed, ⟨s, hrun, hclosed⟩, hchain⟩

/-- Two tracks at zero: the first would end a millisecond before zero. -/
theorem equal_starts_underflow :
    parseCue "TRACK 01\nTITLE \"A\"\nTRACK 02\nTITLE \"B\"" = none := by
  decide

end MichiServer.M3u
