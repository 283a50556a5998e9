import MichiServer.Text.Lines
import MichiServer.Text.Search

/-!
# M3U playlists

`parse_m3u` reads a playlist line by line: an `#EXTINF` line is kept until the next path, other comments
and blank lines are passed over. `serialize_m3u` writes one back, with an `#EXTINF` line for an entry
that has a duration or a title.
-/

namespace MichiServer.M3u

open Text

section

structure M3uEntry where
  duration : Option ℕ
  title : Option String
  path : String
deriving DecidableEq

inductive M3uError where
  | invalidEntry (text : String)
deriving DecidableEq

def splitOnce (s : String) (c : Char) : Option (String × String) :=
  (splitAtFirst [c] s.toList).map fun r => (String.ofList r.1, String.ofList r.2)

abbrev ExtInf := Option ℕ × Option String

def readExtinf (info : String) : ExtInf :=
  let (durStr, title) := (splitOnce info ',').getD (info, "")
  let duration := parseUint 64 (trim durStr).toList
  (duration, if title = "" then none else some title)

def parseLines : Option ExtInf → List String → List M3uEntry
  | _, [] => []
  | extinf, line :: rest =>
    let trimmed := trim line
    if trimmed = "" then parseLines extinf rest
    else if startsWith trimmed "#" then
      match stripPrefix trimmed "#EXTINF:" with
      | some info => parseLines (some (readExtinf info)) rest
      | none => parseLines extinf rest
    else
      { duration := extinf.bind fun info => info.1
        title := extinf.bind fun info => info.2
        path := trimmed } :: parseLines none rest

def parseM3u (content : String) : Except M3uError (List M3uEntry) :=
  .ok (parseLines none (lines content))

def entryText (entry : M3uEntry) : String :=
  let extinf :=
    if entry.duration.isSome ∨ entry.title.isSome then
      let dur := entry.duration.getD 0
      let title := entry.title.getD ""
      s!"#EXTINF:{dur},{title}\n"
    else ""
  extinf ++ entry.path ++ "\n"

def entriesText : List M3uEntry → String
  | [] => ""
  | entry :: rest => entryText entry ++ entriesText rest

def serializeM3u (entries : List M3uEntry) : String := "#EXTM3U\n" ++ entriesText entries

/-! ## Kinds of lines -/

def Passed (line : String) : Prop :=
  trim line = "" ∨ startsWith (trim line) "#" = true ∧ stripPrefix (trim line) "#EXTINF:" = none

def IsPath (line : String) : Prop := trim line ≠ "" ∧ startsWith (trim line) "#" = false

instance (line : String) : Decidable (Passed line) := inferInstanceAs (Decidable (_ ∨ _))

instance (line : String) : Decidable (IsPath line) := inferInstanceAs (Decidable (_ ∧ _))

variable {extinf : Option ExtInf} {line info : String} {rest : List String}

theorem parseLines_passed (h : Passed line) :
    parseLines extinf (line :: rest) = parseLines extinf rest := by
  rw [parseLines]
  rcases h with hblank | ⟨hcomment, hnone⟩
  · rw [if_pos hblank]
  · simp only [hcomment, hnone, if_true, ite_self]

theorem parseLines_path (h : IsPath line) :
    parseLines extinf (line :: rest) =
      { duration := extinf.bind fun info => info.1
        title := extinf.bind fun info => info.2
        path := trim line } :: parseLines none rest := by
  rw [parseLines]
  simp only [h.1, h.2, if_false, Bool.false_eq_true]

theorem comment_of_extinf (h : stripPrefix (trim line) "#EXTINF:" = some info) :
    trim line ≠ "" ∧ startsWith (trim line) "#" = true := by
  rw [stripPrefix_eq_some_iff] at h
  constructor
  · intro hblank
    simp [hblank] at h
  · simp [startsWith, h]

theorem parseLines_extinf (h : stripPrefix (trim line) "#EXTINF:" = some info) :
    parseLines extinf (line :: rest) = parseLines (some (readExtinf info)) rest := by
  grind [comment_of_extinf, parseLines]

theorem line_cases (line : String) :
    Passed line ∨ IsPath line ∨ ∃ info, stripPrefix (trim line) "#EXTINF:" = some info := by
  by_cases hblank : trim line = ""
  · exact .inl (.inl hblank)
  · cases hcomment : startsWith (trim line) "#" with
    | false => exact .inr (.inl ⟨hblank, hcomment⟩)
    | true =>
      cases hinfo : stripPrefix (trim line) "#EXTINF:" with
      | none => exact .inl (.inr ⟨hcomment, hinfo⟩)
      | some info => exact .inr (.inr ⟨info, rfl⟩)

end

/-!
## Playlists, written and read back

An entry that `parse_m3u` returns is written so that it is read back, but for one thing: an entry with a
title and no duration is written with the duration zero. So a content survives the round trip exactly
when none of its paths gets its title from an `#EXTINF` line without a number.
-/

/-! ## The entries that are read -/

structure ReadExtInf (x : ExtInf) : Prop where
  duration : ∀ d ∈ x.1, d < 2 ^ 64
  title : ∀ t ∈ x.2, t ≠ "" ∧ '\n' ∉ t.toList ∧ ∀ c ∈ t.toList.getLast?, isWhitespace c = false

structure ReadEntry (entry : M3uEntry) : Prop where
  extinf : ReadExtInf (entry.duration, entry.title)
  path : trimChars entry.path.toList = entry.path.toList
  path_line : '\n' ∉ entry.path.toList
  path_kind : IsPath entry.path

theorem trim_trim (s : String) : trim (trim s) = trim s := by
  rw [trim_eq, toList_trim, trimChars_trimChars, ← trim_eq]

theorem newline_notMem_trim {line : String} (h : '\n' ∉ line.toList) : '\n' ∉ (trim line).toList := by
  obtain ⟨front, back, -, -, hline⟩ := exists_trimChars line.toList
  grind [toList_trim]

theorem readExtinf_eq (info : String) :
    (∃ dur title : List Char, info.toList = dur ++ ',' :: title ∧ ',' ∉ dur ∧
      readExtinf info = (parseUint 64 (trimChars dur),
        if title = [] then none else some (String.ofList title))) ∨
    (',' ∉ info.toList ∧ readExtinf info = (parseUint 64 (trimChars info.toList), none)) := by
  rw [readExtinf, splitOnce]
  cases hcut : splitAtFirst [','] info.toList with
  | none =>
    refine .inr ⟨?_, by simp [toList_trim]⟩
    rw [splitAtFirst_eq_none_iff] at hcut
    intro hmem
    obtain ⟨a, b, hab⟩ := List.append_of_mem hmem
    exact hcut ⟨a, b, by simp [hab]⟩
  | some r =>
    obtain ⟨dur, title⟩ := r
    obtain ⟨hinfo, hcomma⟩ := splitAtFirst_singleton_iff.mp hcut
    exact .inl ⟨dur, title, hinfo, hcomma, by simp [toList_trim]⟩

/-- What is read of an information line can be written so that it is read again. -/
theorem readExtinf_read {line info : String} (h : stripPrefix (trim line) "#EXTINF:" = some info)
    (hline : '\n' ∉ line.toList) : ReadExtInf (readExtinf info) := by
  have htext := stripPrefix_eq_some_iff.mp h
  have hlast := (trimChars_eq_self_iff.mp (trimChars_trimChars line.toList)).2
  have hnewline := newline_notMem_trim hline
  rw [← toList_trim, htext] at hlast
  rw [htext] at hnewline
  rcases readExtinf_eq info with ⟨dur, title, hinfo, -, hread⟩ | ⟨-, hread⟩
  · rw [hread]
    refine ⟨fun d hd => parseUint_lt hd, fun t ht => ?_⟩
    split at ht
    · cases ht
    · rename_i htitle
      obtain rfl := Option.some.inj ht
      rw [String.toList_ofList]
      refine ⟨by simpa using htitle, ?_, ?_⟩
      · rw [hinfo] at hnewline
        simp_all
      · intro c hc
        refine hlast c ?_
        rw [hinfo, ← List.append_assoc, List.getLast?_append, List.getLast?_cons]
        cases title with
        | nil => exact absurd rfl htitle
        | cons d title =>
          rw [Option.mem_def.mp hc]
          rfl
  · rw [hread]
    exact ⟨fun d hd => parseUint_lt hd, by simp⟩

/-- So can each entry of a text. -/
theorem read_of_mem_parseLines {extinf : Option ExtInf} {l : List String}
    (hextinf : ∀ x ∈ extinf, ReadExtInf x) (hl : ∀ line ∈ l, '\n' ∉ line.toList) {entry : M3uEntry}
    (h : entry ∈ parseLines extinf l) : ReadEntry entry := by
  induction l generalizing extinf with
  | nil => simp [parseLines] at h
  | cons line rest ih =>
    obtain ⟨hline, hrest⟩ := List.forall_mem_cons.mp hl
    rcases line_cases line with hpassed | hpath | ⟨info, hinfo⟩
    · rw [parseLines_passed hpassed] at h
      exact ih hextinf hrest h
    · rw [parseLines_path hpath] at h
      rcases List.mem_cons.mp h with rfl | hlater
      · refine ⟨?_, by simp [toList_trim, trimChars_trimChars], newline_notMem_trim hline, ?_⟩
        · cases extinf with
          | none => exact ⟨by simp, by simp⟩
          | some x => exact hextinf x rfl
        · rw [IsPath, trim_trim]
          exact hpath
      · exact ih (by simp) hrest hlater
    · rw [parseLines_extinf hinfo] at h
      exact ih (by simpa using readExtinf_read hinfo hline) hrest h

/-! ## The entries that are written -/

/-- What comes back for an entry: zero for the duration that a title was written with. -/
def rewritten (entry : M3uEntry) : M3uEntry :=
  if entry.duration = none ∧ entry.title ≠ none then { entry with duration := some 0 } else entry

def extinfLine (dur : ℕ) (title : String) : String := "#EXTINF:" ++ toString dur ++ "," ++ title

theorem toList_extinfLine (dur : ℕ) (title : String) : (extinfLine dur title).toList =
    "#EXTINF:".toList ++ ((toString dur).toList ++ ',' :: title.toList) := by
  simp [extinfLine]

theorem entryText_eq (entry : M3uEntry) : entryText entry =
    (if entry.duration.isSome ∨ entry.title.isSome then
      extinfLine (entry.duration.getD 0) (entry.title.getD "") ++ "\n" else "") ++
      entry.path ++ "\n" := by
  rw [entryText]
  split
  · simp only [extinfLine, String.append_assoc]
    rfl
  · rfl

theorem lines_solid {l : String} (h : '\n' ∉ l.toList)
    (hlast : ∀ c ∈ l.toList.getLast?, isWhitespace c = false) (rest : String) :
    lines (l ++ "\n" ++ rest) = l :: lines rest := by
  refine lines_append_newline h (fun hreturn => ?_) rest
  have hsolid := hlast '\r' hreturn
  revert hsolid
  decide

theorem comma_notMem_toString (n : ℕ) : ',' ∉ (toString n).toList := by
  intro hmem
  have hdigit := isDigit_of_mem_toString hmem
  revert hdigit
  decide

theorem newline_notMem_toString (n : ℕ) : '\n' ∉ (toString n).toList := by
  intro hmem
  have hdigit := isDigit_of_mem_toString hmem
  revert hdigit
  decide

section

variable {dur : ℕ} {title : String} {extinf : Option ExtInf}

theorem readExtinf_written (hdur : dur < 2 ^ 64) :
    readExtinf (toString dur ++ "," ++ title) = (some dur, if title = "" then none else some title) := by
  have hcut : splitAtFirst [','] (toString dur ++ "," ++ title).toList =
      some ((toString dur).toList, title.toList) :=
    splitAtFirst_singleton_iff.mpr ⟨by simp, comma_notMem_toString dur⟩
  have hnumber := decimal_toString dur
  simp only [readExtinf, splitOnce, hcut, Option.map_some, Option.getD_some, toList_trim,
    hnumber.trimChars, hnumber.parseUint hdur, String.ofList_toList]

theorem getLast_extinfLine (htitle : ∀ c ∈ title.toList.getLast?, isWhitespace c = false) :
    ∀ c ∈ (extinfLine dur title).toList.getLast?, isWhitespace c = false := by
  intro c hc
  rw [toList_extinfLine, ← List.append_assoc, List.getLast?_append, List.getLast?_cons] at hc
  cases hlast : title.toList.getLast? with
  | none =>
    obtain rfl : ',' = c := by simpa [hlast] using hc
    decide
  | some d =>
    grind

theorem parseLines_extinfLine (hdur : dur < 2 ^ 64)
    (htitle : ∀ c ∈ title.toList.getLast?, isWhitespace c = false) (rest : List String) :
    parseLines extinf (extinfLine dur title :: rest) =
      parseLines (some (some dur, if title = "" then none else some title)) rest := by
  have htrim : trimChars (extinfLine dur title).toList = (extinfLine dur title).toList := by
    refine trimChars_eq_self_iff.mpr ⟨fun c hc => ?_, getLast_extinfLine htitle⟩
    obtain rfl : '#' = c := by simpa [toList_extinfLine] using hc
    decide
  have hinfo : stripPrefix (trim (extinfLine dur title)) "#EXTINF:" =
      some (toString dur ++ "," ++ title) := by
    rw [stripPrefix_eq_some_iff, toList_trim, htrim, toList_extinfLine]
    simp
  rw [parseLines_extinf hinfo, readExtinf_written hdur]

end

/-- The text of an entry is read as that entry, rewritten. -/
theorem parseLines_entryText {entry : M3uEntry} (h : ReadEntry entry) (rest : String) :
    parseLines none (lines (entryText entry ++ rest)) =
      rewritten entry :: parseLines none (lines rest) := by
  have hpath : lines (entry.path ++ "\n" ++ rest) = entry.path :: lines rest :=
    lines_solid h.path_line (trimChars_eq_self_iff.mp h.path).2 rest
  have htrim : trim entry.path = entry.path := by rw [trim_eq, h.path, String.ofList_toList]
  rw [entryText_eq]
  obtain ⟨duration, title, path⟩ := entry
  split
  · rename_i hsome
    have hdur : duration.getD 0 < 2 ^ 64 := by
      cases duration with
      | none => decide
      | some d => exact h.extinf.duration d rfl
    have htitle : '\n' ∉ (title.getD "").toList ∧
        ∀ c ∈ (title.getD "").toList.getLast?, isWhitespace c = false := by
      cases title with
      | none => simp
      | some t => exact (h.extinf.title t rfl).2
    have hline : '\n' ∉ (extinfLine (duration.getD 0) (title.getD "")).toList := by
      rw [toList_extinfLine, List.mem_append, List.mem_append, List.mem_cons]
      rintro (hword | hnumber | hcomma | htext)
      · revert hword
        decide
      · exact newline_notMem_toString _ hnumber
      · cases hcomma
      · exact htitle.1 htext
    have htext : ∀ l : String, l ++ "\n" ++ path ++ "\n" ++ rest = l ++ "\n" ++ (path ++ "\n" ++ rest) :=
      fun l => by simp only [String.append_assoc]
    rw [htext, lines_solid hline (getLast_extinfLine htitle.2), hpath, parseLines_extinfLine hdur htitle.2,
      parseLines_path h.path_kind, htrim, rewritten]
    cases title with
    | none =>
      cases duration with
      | none => simp at hsome
      | some d => rfl
    | some t =>
      have hne := (h.extinf.title t rfl).1
      cases duration <;> simp [hne]
  · rename_i hnone
    obtain ⟨rfl, rfl⟩ : duration = none ∧ title = none := by simpa using hnone
    rw [String.empty_append, hpath, parseLines_path h.path_kind, htrim]
    rfl

theorem parse_serialize {entries : List M3uEntry} (h : ∀ entry ∈ entries, ReadEntry entry) :
    parseM3u (serializeM3u entries) = .ok (entries.map rewritten) := by
  have hentries : parseLines none (lines (entriesText entries)) = entries.map rewritten := by
    induction entries with
    | nil => rfl
    | cons entry rest ih =>
      grind [entriesText, parseLines_entryText]
  have hlast : "#EXTM3U".toList.getLast? = some 'U' := by decide
  have hsolid : ∀ c ∈ "#EXTM3U".toList.getLast?, isWhitespace c = false := by
    intro c hc
    cases hlast.symm.trans hc
    decide
  have hheader : lines ("#EXTM3U" ++ "\n" ++ entriesText entries) =
      "#EXTM3U" :: lines (entriesText entries) := lines_solid (by decide) hsolid _
  have htext : serializeM3u entries = "#EXTM3U" ++ "\n" ++ entriesText entries := rfl
  rw [parseM3u, htext, hheader, parseLines_passed (.inr ⟨by decide, by decide⟩), hentries]

/-! ## The contents that survive -/

/-- An `#EXTINF` line with a title behind its first comma, and no number in front of it. -/
def TitleOnly (line : String) : Prop :=
  ∃ dur title : List Char, (trim line).toList = "#EXTINF:".toList ++ (dur ++ ',' :: title) ∧
    ',' ∉ dur ∧ title ≠ [] ∧ parseUint 64 (trimChars dur) = none

def ReachesPath (l : List String) : Prop :=
  ∃ between path after, l = between ++ path :: after ∧ (∀ line ∈ between, Passed line) ∧ IsPath path

def LosesDuration (l : List String) : Prop :=
  ∃ before line after, l = before ++ line :: after ∧ TitleOnly line ∧ ReachesPath after

def Untimed (x : ExtInf) : Prop := x.1 = none ∧ x.2 ≠ none

theorem titleOnly_iff {line info : String} (h : stripPrefix (trim line) "#EXTINF:" = some info) :
    TitleOnly line ↔ Untimed (readExtinf info) := by
  rw [stripPrefix_eq_some_iff] at h
  simp only [TitleOnly, h, List.append_cancel_left_eq]
  rcases readExtinf_eq info with ⟨dur, title, hinfo, hcomma, hread⟩ | ⟨hcomma, hread⟩
  · rw [hread, Untimed]
    constructor
    · rintro ⟨dur', title', hinfo', hcomma', htitle, hnone⟩
      have hcut := splitAtFirst_singleton_iff.mpr ⟨hinfo, hcomma⟩
      rw [splitAtFirst_singleton_iff.mpr ⟨hinfo', hcomma'⟩] at hcut
      cases hcut
      exact ⟨hnone, by simp [htitle]⟩
    · grind
  · grind [Untimed]

theorem extinf_of_titleOnly {line : String} (h : TitleOnly line) :
    ∃ info, stripPrefix (trim line) "#EXTINF:" = some info := by
  obtain ⟨dur, title, htext, -⟩ := h
  refine ⟨String.ofList (dur ++ ',' :: title), ?_⟩
  rw [stripPrefix_eq_some_iff, htext, String.toList_ofList, String.toList_ofList]

section

variable {line info : String} {rest : List String}

theorem not_extinf_of_passed (h : Passed line) : stripPrefix (trim line) "#EXTINF:" = none := by
  rcases h with hblank | ⟨-, hnone⟩
  · rw [hblank]
    decide
  · exact hnone

theorem not_extinf_of_isPath (h : IsPath line) : stripPrefix (trim line) "#EXTINF:" = none := by
  cases hinfo : stripPrefix (trim line) "#EXTINF:" with
  | none => rfl
  | some info => exact absurd (comment_of_extinf hinfo).2 (by simp [h.2])

theorem not_passed_of_isPath (h : IsPath line) : ¬ Passed line := by
  rintro (hblank | ⟨hcomment, -⟩)
  · exact h.1 hblank
  · simp [h.2] at hcomment

theorem reachesPath_cons :
    ReachesPath (line :: rest) ↔ IsPath line ∨ Passed line ∧ ReachesPath rest := by
  constructor
  · rintro ⟨between, path, after, heq, hbetween, hpath⟩
    cases between with
    | nil =>
      obtain ⟨rfl, rfl⟩ := List.cons.inj heq
      exact .inl hpath
    | cons first between =>
      obtain ⟨rfl, rfl⟩ := List.cons.inj heq
      obtain ⟨hfirst, hothers⟩ := List.forall_mem_cons.mp hbetween
      exact .inr ⟨hfirst, between, path, after, rfl, hothers, hpath⟩
  · rintro (hpath | ⟨hpassed, between, path, after, rfl, hbetween, hpath⟩)
    · exact ⟨[], line, rest, rfl, by simp, hpath⟩
    · exact ⟨line :: between, path, after, rfl, List.forall_mem_cons.mpr ⟨hpassed, hbetween⟩, hpath⟩

theorem losesDuration_cons :
    LosesDuration (line :: rest) ↔ TitleOnly line ∧ ReachesPath rest ∨ LosesDuration rest := by
  constructor
  · rintro ⟨before, line', after, heq, htitle, hreaches⟩
    cases before with
    | nil =>
      grind
    | cons first before =>
      obtain ⟨rfl, rfl⟩ := List.cons.inj heq
      exact .inr ⟨before, line', after, rfl, htitle, hreaches⟩
  · rintro (⟨htitle, hreaches⟩ | ⟨before, line', after, rfl, htitle, hreaches⟩)
    · exact ⟨[], line, rest, rfl, htitle, hreaches⟩
    · exact ⟨line :: before, line', after, rfl, htitle, hreaches⟩

/-- An entry loses its duration exactly where a line without one reaches a path. -/
theorem exists_untimed_iff {extinf : Option ExtInf} {l : List String} :
    (∃ entry ∈ parseLines extinf l, Untimed (entry.duration, entry.title)) ↔
      (∃ x ∈ extinf, Untimed x) ∧ ReachesPath l ∨ LosesDuration l := by
  induction l generalizing extinf with
  | nil => simp [parseLines, ReachesPath, LosesDuration]
  | cons line rest ih =>
    have hnot : stripPrefix (trim line) "#EXTINF:" = none → ¬ TitleOnly line := by
      grind [extinf_of_titleOnly]
    rw [reachesPath_cons, losesDuration_cons]
    rcases line_cases line with hpassed | hpath | ⟨info, hinfo⟩
    · have hnone := hnot (not_extinf_of_passed hpassed)
      have hkind : ¬ IsPath line := fun hpath => not_passed_of_isPath hpath hpassed
      rw [parseLines_passed hpassed, ih]
      simp [hnone, hkind, hpassed]
    · have hnone := hnot (not_extinf_of_isPath hpath)
      rw [parseLines_path hpath]
      simp only [List.mem_cons, or_and_right, exists_or, exists_eq_left, ih]
      cases extinf <;> simp [hnone, hpath, Untimed]
    · have hkind : ¬ IsPath line := fun hpath => by simp [not_extinf_of_isPath hpath] at hinfo
      have hpassed : ¬ Passed line := fun hpassed => by simp [not_extinf_of_passed hpassed] at hinfo
      rw [parseLines_extinf hinfo, ih]
      simp [hkind, hpassed, titleOnly_iff hinfo]

end

theorem rewritten_eq_self_iff (entry : M3uEntry) :
    rewritten entry = entry ↔ ¬ Untimed (entry.duration, entry.title) := by
  rw [rewritten, Untimed]
  split
  · rename_i huntimed
    refine iff_of_false (fun heq => ?_) (not_not.mpr huntimed)
    have hduration := congrArg M3uEntry.duration heq
    simp [huntimed.1] at hduration
  · rename_i htimed
    exact iff_of_true rfl htimed

/-- **When a playlist survives the round trip.** For every content, parsing what is written for the
parsed playlist gives the same playlist exactly when no path gets its title from an `#EXTINF` line
without a number. -/
theorem round_trip_iff (content : String) :
    (∀ entries, parseM3u content = .ok entries → parseM3u (serializeM3u entries) = .ok entries) ↔
      ¬ LosesDuration (lines content) := by
  have hread : ∀ entry ∈ parseLines none (lines content), ReadEntry entry := fun entry hentry =>
    read_of_mem_parseLines (by simp) (fun line hline => newline_notMem_of_mem_lines hline) hentry
  have hlost := @exists_untimed_iff none (lines content)
  simp only [Option.mem_def, reduceCtorEq, false_and, exists_false, false_or] at hlost
  simp only [parseM3u, Except.ok.injEq, forall_eq']
  have hserialized := parse_serialize hread
  rw [parseM3u, Except.ok.injEq] at hserialized
  have hkept := List.map_inj_left (f := rewritten) (g := id) (l := parseLines none (lines content))
  rw [List.map_id] at hkept
  rw [hserialized, hkept, ← hlost]
  simp only [id_eq, rewritten_eq_self_iff, not_exists, not_and]

/-- A title after a length of minus one comes back with the length zero. -/
theorem stream_title_not_kept :
    parseM3u "#EXTINF:-1,Title\npath" = .ok [⟨none, some "Title", "path"⟩] ∧
      parseM3u (serializeM3u [⟨none, some "Title", "path"⟩]) = .ok [⟨some 0, some "Title", "path"⟩] := by
  decide

end MichiServer.M3u
