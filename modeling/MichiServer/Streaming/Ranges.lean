import MichiServer.Streaming.Serve
import MichiServer.Text.Lines
import MichiServer.Text.Search

/-!
# Which ranges are served

`parse_range` against a grammar. A request for a range is two numbers, a first one, or the length of a
suffix (`RangeRequest`); a header writes it down (`Writes`) after `bytes=`, with white space where the
parser trims it: around the header, after `bytes=`, and around the two numbers. It is satisfiable when
its clipping to the file is a range (`clip`).

A plus sign in front of a number is read as `str::parse` reads it; what a header with one asks for is
not said here.
-/

namespace MichiServer.Streaming

open MichiServer.Files MichiServer.Text

inductive RangeRequest where
  | firstLast (first last : ℕ)
  | firstOnly (first : ℕ)
  | suffix (length : ℕ)

namespace RangeRequest

def Sides (before after : List Char) : RangeRequest → Prop
  | .firstLast first last =>
    Decimal before first ∧ first < 2 ^ 64 ∧ Decimal after last ∧ last < 2 ^ 64
  | .firstOnly first => Decimal before first ∧ first < 2 ^ 64 ∧ after = []
  | .suffix length => before = [] ∧ Decimal after length ∧ length < 2 ^ 64

/-- The header is this request: `bytes=`, the two sides and a dash between them, and white space. -/
def Writes (header : String) (request : RangeRequest) : Prop :=
  ∃ w₁ w₂ before w₃ w₄ after w₅, Blank w₁ ∧ Blank w₂ ∧ Blank w₃ ∧ Blank w₄ ∧ Blank w₅ ∧
    header.toList =
      w₁ ++ "bytes=".toList ++ (w₂ ++ before ++ w₃) ++ '-' :: (w₄ ++ after ++ w₅) ∧
    request.Sides before after

/-- The first and the last byte of a request in a file, where it can be satisfied. -/
def clip (total : ℕ) : RangeRequest → Option (ℕ × ℕ)
  | .firstLast first last =>
    if first ≤ last ∧ first < total then some (first, min last (total - 1)) else none
  | .firstOnly first => if first < total then some (first, total - 1) else none
  | .suffix length =>
    if 0 < length ∧ 0 < total then some (total - length, total - 1) else none

end RangeRequest

/-! ## The two sides of the dash -/

def rangeBetween (startStr endStr : String) (fileSize : ℕ) : Except StreamError ByteRange :=
  if startStr = "" ∧ endStr = "" then .error (.invalidRange "empty range")
  else if fileSize = 0 then .error (.invalidRange "range not satisfiable for empty file")
  else if startStr = "" then
    match parseU64 endStr with
    | none => .error (.invalidRange "invalid suffix range")
    | some suffix =>
      if suffix = 0 then .error (.invalidRange "suffix range of zero")
      else rangeOf (fileSize - suffix) (fileSize - 1) fileSize "suffix range out of bounds"
  else
    match parseU64 startStr with
    | none => .error (.invalidRange "invalid start offset")
    | some start =>
      if start ≥ fileSize then .error (.invalidRange "start beyond file size")
      else if endStr = "" then rangeOf start (fileSize - 1) fileSize "start after end"
      else
        match parseU64 endStr with
        | none => .error (.invalidRange "invalid end offset")
        | some e => rangeOf start (min e (fileSize - 1)) fileSize "start after end"

def Cut (header : String) (startStr endStr : String) : Prop :=
  ∃ rest before after, stripPrefix (trim header) "bytes=" = some rest ∧
    splitAtFirst ['-'] (trim rest).toList = some (before, after) ∧
    trim (String.ofList before) = startStr ∧ trim (String.ofList after) = endStr

theorem parseRange_eq_ok_iff {header : String} {fileSize : ℕ} {r : ByteRange} :
    parseRange header fileSize = .ok r ↔ ∃ startStr endStr,
      Cut header startStr endStr ∧ rangeBetween startStr endStr fileSize = .ok r := by
  rw [parseRange]
  cases hrest : stripPrefix (trim header) "bytes=" with
  | none => simp [Cut, hrest]
  | some rest =>
    cases hsides : splitAtFirst ['-'] (trim rest).toList with
    | none => simp [Cut, hrest, hsides]
    | some sides =>
      obtain ⟨before, after⟩ := sides
      simp only [Cut, hrest, hsides, Option.some.injEq, exists_and_left, exists_eq_left', Prod.mk.injEq,
        and_assoc]
      generalize trim (String.ofList before) = startStr
      generalize trim (String.ofList after) = endStr
      unfold rangeBetween
      cases parseU64 startStr <;> cases parseU64 endStr <;> exact Iff.rfl

theorem dash_notMem_of_blank {w : List Char} (h : Blank w) : '-' ∉ w := by
  intro hmem
  have hdash := h '-' hmem
  revert hdash
  decide

/-- How a header is cut in two at its dash. -/
theorem cut_iff {header startStr endStr : String} :
    Cut header startStr endStr ↔ ∃ w x y, Blank w ∧
      header.toList = w ++ "bytes=".toList ++ x ++ '-' :: y ∧ '-' ∉ x ∧
      trimChars x = startStr.toList ∧ trimChars y = endStr.toList := by
  simp only [Cut, stripPrefix_eq_some_iff, splitAtFirst_singleton_iff, toList_trim,
    ← String.toList_inj, String.toList_ofList]
  constructor
  · rintro ⟨rest, before, after, hheader, ⟨hrest, hdash⟩, hstart, hend⟩
    obtain ⟨w, w', hw, hw', htrim⟩ := exists_trimChars header.toList
    obtain ⟨u, u', hu, hu', hinner⟩ := exists_trimChars rest.toList
    refine ⟨w, u ++ before, after ++ u' ++ w', hw, ?_, ?_, ?_, ?_⟩
    · grind
    · simpa [hdash] using dash_notMem_of_blank hu
    · rw [trimChars_of_blank_left hu, hstart]
    · grind [trimChars_of_blank_right]
  · rintro ⟨w, x, y, hw, hheader, hdash, hstart, hend⟩
    have hsign : isWhitespace '=' = false := by decide
    have hcut : isWhitespace '-' = false := by decide
    have hword : trimStart (w ++ "bytes".toList) = "bytes".toList := by
      rw [trimStart_of_blank hw]
      decide
    have hfront : trimChars header.toList = "bytes=".toList ++ trimEnd (x ++ '-' :: y) := by
      have hsplit : header.toList = (w ++ "bytes".toList) ++ '=' :: (x ++ '-' :: y) := by
        rw [hheader]
        simp
      rw [hsplit, trimChars_append_cons hsign, hword]
      rfl
    refine ⟨String.ofList (trimEnd (x ++ '-' :: y)), trimStart x, trimEnd y, ?_, ⟨?_, ?_⟩, ?_, ?_⟩
    · rw [hfront, String.toList_ofList, String.toList_ofList]
    · rw [String.toList_ofList, trimChars_trimEnd, trimChars_append_cons hcut]
    · exact fun hmem => hdash (List.dropWhile_subset _ hmem)
    · rw [trimChars_trimStart, hstart]
    · rw [trimChars_trimEnd, hend]

/-! ## The numbers -/

theorem parseU64_eq_some_iff {s : String} {n : ℕ} (hsign : '+' ∉ s.toList) :
    parseU64 s = some n ↔ Decimal s.toList n ∧ n < 2 ^ 64 := parseUint_eq_some_iff hsign

theorem rangeOf_eq_ok_iff {start last total : ℕ} {message : String} {r : ByteRange} :
    rangeOf start last total message = .ok r ↔ r.start = start ∧ r.end = last ∧ r.total = total := by
  rw [rangeOf]
  split
  · rename_i h
    constructor
    · grind
    · rintro ⟨rfl, rfl, rfl⟩
      rfl
  · rename_i h
    refine iff_of_false (by simp) ?_
    rintro ⟨rfl, rfl, rfl⟩
    exact h ⟨r.start_le, r.end_lt⟩

/-- The two sides of a range: two numbers, or one of them. -/
theorem exists_sides_iff {before after : List Char} {P : RangeRequest → Prop} :
    (∃ request : RangeRequest, request.Sides before after ∧ P request) ↔
      (∃ first last, Decimal before first ∧ first < 2 ^ 64 ∧ Decimal after last ∧ last < 2 ^ 64 ∧
        P (.firstLast first last)) ∨
      (∃ first, Decimal before first ∧ first < 2 ^ 64 ∧ after = [] ∧ P (.firstOnly first)) ∨
      ∃ length, before = [] ∧ Decimal after length ∧ length < 2 ^ 64 ∧ P (.suffix length) := by
  constructor
  · rintro ⟨request, hsides, hp⟩
    cases request with
    | firstLast first last =>
      obtain ⟨h₁, h₂, h₃, h₄⟩ := hsides
      exact .inl ⟨first, last, h₁, h₂, h₃, h₄, hp⟩
    | firstOnly first =>
      obtain ⟨h₁, h₂, h₃⟩ := hsides
      exact .inr (.inl ⟨first, h₁, h₂, h₃, hp⟩)
    | suffix length =>
      obtain ⟨h₁, h₂, h₃⟩ := hsides
      exact .inr (.inr ⟨length, h₁, h₂, h₃, hp⟩)
  · rintro (⟨first, last, h₁, h₂, h₃, h₄, hp⟩ | ⟨first, h₁, h₂, h₃, hp⟩ | ⟨length, h₁, h₂, h₃, hp⟩)
    · exact ⟨.firstLast first last, ⟨h₁, h₂, h₃, h₄⟩, hp⟩
    · exact ⟨.firstOnly first, ⟨h₁, h₂, h₃⟩, hp⟩
    · exact ⟨.suffix length, ⟨h₁, h₂, h₃⟩, hp⟩

theorem not_decimal_nil {n : ℕ} : ¬ Decimal [] n := fun h => h.nonempty rfl

theorem parseU64_match {s : String} (hsign : '+' ∉ s.toList) {P : ℕ → Prop} :
    (∃ n, parseU64 s = some n ∧ P n) ↔ ∃ n, Decimal s.toList n ∧ n < 2 ^ 64 ∧ P n := by
  simp only [parseU64_eq_some_iff hsign, and_assoc]

section

variable {startStr endStr : String} {fileSize : ℕ} {r : ByteRange}

theorem suffix_eq_ok_iff (hpos : fileSize ≠ 0) (hsign : '+' ∉ endStr.toList)
    (hend : endStr ≠ "") :
    rangeBetween "" endStr fileSize = .ok r ↔ ∃ length, Decimal endStr.toList length ∧
      length < 2 ^ 64 ∧ (RangeRequest.suffix length).clip fileSize = some (r.start, r.end) ∧
      r.total = fileSize := by
  rw [← parseU64_match hsign (P := fun length =>
    (RangeRequest.suffix length).clip fileSize = some (r.start, r.end) ∧ r.total = fileSize)]
  grind [rangeBetween, parseU64, RangeRequest.clip, rangeOf_eq_ok_iff]

theorem firstOnly_eq_ok_iff (hpos : fileSize ≠ 0) (hsign : '+' ∉ startStr.toList)
    (hstart : startStr ≠ "") :
    rangeBetween startStr "" fileSize = .ok r ↔ ∃ first, Decimal startStr.toList first ∧
      first < 2 ^ 64 ∧ (RangeRequest.firstOnly first).clip fileSize = some (r.start, r.end) ∧
      r.total = fileSize := by
  rw [← parseU64_match hsign (P := fun first =>
    (RangeRequest.firstOnly first).clip fileSize = some (r.start, r.end) ∧ r.total = fileSize)]
  grind [rangeBetween, parseU64, RangeRequest.clip, rangeOf_eq_ok_iff]

/-- A range of two numbers is one that begins in the file. -/
theorem firstLast_eq_ok_iff (hpos : fileSize ≠ 0) (hsign : '+' ∉ startStr.toList)
    (hsign' : '+' ∉ endStr.toList) (hstart : startStr ≠ "") (hend : endStr ≠ "") :
    rangeBetween startStr endStr fileSize = .ok r ↔ ∃ first, Decimal startStr.toList first ∧
      first < 2 ^ 64 ∧ ∃ last, Decimal endStr.toList last ∧ last < 2 ^ 64 ∧
      (RangeRequest.firstLast first last).clip fileSize = some (r.start, r.end) ∧
      r.total = fileSize := by
  simp only [← parseU64_match hsign', ← parseU64_match hsign]
  have hnot : ¬ (startStr = "" ∧ endStr = "") := fun h => hstart h.1
  rw [rangeBetween, if_neg hnot, if_neg hpos, if_neg hstart]
  cases parseU64 startStr with
  | none => simp
  | some first =>
    simp only [Option.some.injEq, exists_eq_left', RangeRequest.clip, Option.ite_none_right_eq_some,
      Prod.mk.injEq]
    split
    · rename_i hbeyond
      simp [Nat.not_lt.mpr hbeyond]
    · cases parseU64 endStr with
      | none => simp
      | some last =>
        have horder := r.start_le
        grind [rangeOf_eq_ok_iff]

/-- A range is read exactly where one is written. -/
theorem rangeBetween_eq_ok_iff (hsign : '+' ∉ startStr.toList) (hsign' : '+' ∉ endStr.toList) :
    rangeBetween startStr endStr fileSize = .ok r ↔
      ∃ request : RangeRequest, request.Sides startStr.toList endStr.toList ∧
        request.clip fileSize = some (r.start, r.end) ∧ r.total = fileSize := by
  by_cases hpos : fileSize = 0
  · grind [RangeRequest, RangeRequest.clip, rangeBetween]
  rw [exists_sides_iff]
  by_cases hstart : startStr = ""
  · subst hstart
    by_cases hend : endStr = ""
    · subst hend
      simp [rangeBetween, not_decimal_nil]
    · rw [suffix_eq_ok_iff hpos hsign' hend]
      simp [not_decimal_nil]
  · have hbefore : startStr.toList ≠ [] := by simpa using hstart
    by_cases hend : endStr = ""
    · subst hend
      rw [firstOnly_eq_ok_iff hpos hsign hstart]
      simp [not_decimal_nil, hstart]
    · rw [firstLast_eq_ok_iff hpos hsign hsign' hstart hend]
      simp [hstart, hend]

end

/-! ## The header -/

theorem trimChars_eq_iff {x t : List Char} :
    (∃ w w', Blank w ∧ Blank w' ∧ x = w ++ t ++ w') ∧ trimChars t = t ↔ trimChars x = t := by
  constructor
  · grind [trimChars_of_blank_right, trimChars_of_blank_left]
  · rintro rfl
    exact ⟨exists_trimChars x |>.imp fun w h => h.imp fun w' h => ⟨h.1, h.2.1, h.2.2⟩,
      trimChars_trimChars x⟩

theorem RangeRequest.Sides.trimmed {before after : List Char} {request : RangeRequest}
    (h : request.Sides before after) :
    trimChars before = before ∧ trimChars after = after ∧ '-' ∉ before := by
  have hdash : ∀ {l : List Char} {n : ℕ}, Decimal l n → '-' ∉ l := by
    intro l n hl hmem
    have hdigit := hl.all_digits '-' hmem
    revert hdigit
    decide
  cases request with
  | firstLast first last => exact ⟨h.1.trimChars, h.2.2.1.trimChars, hdash h.1⟩
  | firstOnly first =>
    obtain ⟨hfirst, -, rfl⟩ := h
    exact ⟨hfirst.trimChars, rfl, hdash hfirst⟩
  | suffix length =>
    obtain ⟨rfl, hlength, -⟩ := h
    exact ⟨rfl, hlength.trimChars, List.not_mem_nil⟩

theorem writes_iff {header : String} {request : RangeRequest} :
    request.Writes header ↔ ∃ startStr endStr, Cut header startStr endStr ∧
      request.Sides startStr.toList endStr.toList := by
  simp only [cut_iff]
  constructor
  · rintro ⟨w₁, w₂, before, w₃, w₄, after, w₅, h₁, h₂, h₃, h₄, h₅, hheader, hsides⟩
    obtain ⟨hbefore, hafter, hdash⟩ := hsides.trimmed
    refine ⟨String.ofList before, String.ofList after, ⟨w₁, w₂ ++ before ++ w₃, w₄ ++ after ++ w₅,
      h₁, hheader, ?_, ?_, ?_⟩, ?_⟩
    · simp [hdash, dash_notMem_of_blank h₂, dash_notMem_of_blank h₃]
    · rw [String.toList_ofList]
      exact trimChars_eq_iff.mp ⟨⟨w₂, w₃, h₂, h₃, rfl⟩, hbefore⟩
    · rw [String.toList_ofList]
      exact trimChars_eq_iff.mp ⟨⟨w₄, w₅, h₄, h₅, rfl⟩, hafter⟩
    · rwa [String.toList_ofList, String.toList_ofList]
  · rintro ⟨startStr, endStr, ⟨w, x, y, hw, hheader, -, hstart, hend⟩, hsides⟩
    obtain ⟨⟨w₂, w₃, h₂, h₃, rfl⟩, -⟩ := trimChars_eq_iff.mpr hstart
    obtain ⟨⟨w₄, w₅, h₄, h₅, rfl⟩, -⟩ := trimChars_eq_iff.mpr hend
    exact ⟨w, w₂, _, w₃, w₄, _, w₅, hw, h₂, h₃, h₄, h₅, hheader, hsides⟩

theorem Cut.no_sign {header startStr endStr : String} (h : Cut header startStr endStr)
    (hsign : '+' ∉ header.toList) : '+' ∉ startStr.toList ∧ '+' ∉ endStr.toList := by
  obtain ⟨w, x, y, -, hheader, -, hstart, hend⟩ := cut_iff.mp h
  have hpart : ∀ l : List Char, trimChars l ⊆ l := fun l c hc =>
    List.dropWhile_subset _ ((List.rdropWhile_prefix _ _).subset hc)
  rw [hheader] at hsign
  constructor
  · grind
  · grind

theorem parseRange_eq_ok_iff_writes {header : String} {fileSize : ℕ} {r : ByteRange}
    (hsign : '+' ∉ header.toList) :
    parseRange header fileSize = .ok r ↔ ∃ request : RangeRequest, request.Writes header ∧
      request.clip fileSize = some (r.start, r.end) ∧ r.total = fileSize := by
  rw [parseRange_eq_ok_iff]
  constructor
  · rintro ⟨startStr, endStr, hcut, hr⟩
    obtain ⟨hstart, hend⟩ := hcut.no_sign hsign
    obtain ⟨request, hsides, hclip⟩ := (rangeBetween_eq_ok_iff hstart hend).mp hr
    exact ⟨request, writes_iff.mpr ⟨_, _, hcut, hsides⟩, hclip⟩
  · rintro ⟨request, hwrites, hclip⟩
    obtain ⟨startStr, endStr, hcut, hsides⟩ := writes_iff.mp hwrites
    obtain ⟨hstart, hend⟩ := hcut.no_sign hsign
    grind [rangeBetween_eq_ok_iff]

theorem RangeRequest.clip_in_file {request : RangeRequest} {total first last : ℕ}
    (h : request.clip total = some (first, last)) : first ≤ last ∧ last < total := by
  cases request <;>
    simp only [RangeRequest.clip, Option.ite_none_right_eq_some, Option.some.injEq, Prod.mk.injEq] at h <;>
    omega

theorem served_length {content : List UInt8} {r : ByteRange} (h : r.total = content.length) :
    ((content.drop r.start).take r.contentLength).length = r.contentLength := by
  have hstart := r.start_le
  have hend := r.end_lt
  grind [ByteRange.contentLength]

theorem read_of_open_track_file {disk : MediaDisk} {musicPaths : List Path} {filePath : String}
    {canonical : Path} {content : List UInt8}
    (h : openTrackFileAsync disk musicPaths filePath = .ok (canonical, content)) :
    readFile disk canonical = .ok content := by
  unfold openTrackFileAsync at h
  split at h
  · cases h
  · split at h
    next hread =>
      cases h
      exact hread
    · cases h

/-- What is served is the part of the file that is asked for. -/
theorem serveDirect_range {server : MediaServer} {disk : MediaDisk} {filePath header : String}
    {served : Served} (hsign : '+' ∉ header.toList)
    (h : serveDirect server disk filePath (some (some header)) = .ok served) :
    ∃ (content : List UInt8) (r : ByteRange), readFile disk served.read = .ok content ∧
      parseRange header content.length = .ok r ∧
      served.body = (content.drop r.start).take r.contentLength ∧
      served.body.length = r.contentLength := by
  simp only [serveDirect] at h
  split at h
  · rename_i e _
    cases e <;> simp [pathError, errResponse] at h
  next canonical content hopen =>
    have hread := read_of_open_track_file hopen
    split at h
    next range hrange =>
      cases h
      have htotal : range.total = content.length := by
        obtain ⟨request, -, -, htotal⟩ := (parseRange_eq_ok_iff_writes hsign).mp hrange
        exact htotal
      exact ⟨content, range, hread, hrange, rfl, served_length htotal⟩
    all_goals cases h

/-- **Which ranges are served.** A header without a plus sign is read as a range exactly when it writes
a request down that can be satisfied, and the range is the request, clipped to the file: in order and
in the file. What is then sent is that part of what is in the file that was read, of the length that is
announced. -/
theorem range_header_exact (header : String) (hsign : '+' ∉ header.toList) :
    (∀ (total : ℕ) (r : ByteRange), parseRange header total = .ok r ↔
      ∃ request : RangeRequest, request.Writes header ∧
        request.clip total = some (r.start, r.end) ∧ r.total = total) ∧
    (∀ (total first last : ℕ) (request : RangeRequest), request.Writes header →
      request.clip total = some (first, last) → first ≤ last ∧ last < total ∧
        ∃ r, parseRange header total = .ok r ∧ r.start = first ∧ r.end = last) ∧
    ∀ (server : MediaServer) (disk : MediaDisk) (filePath : String) (served : Served),
      serveDirect server disk filePath (some (some header)) = .ok served →
      ∃ (content : List UInt8) (r : ByteRange), readFile disk served.read = .ok content ∧
        parseRange header content.length = .ok r ∧
        served.body = (content.drop r.start).take r.contentLength ∧
        served.body.length = r.contentLength := by
  refine ⟨fun total r => parseRange_eq_ok_iff_writes hsign, ?_, ?_⟩
  · intro total first last request hwrites hclip
    obtain ⟨horder, hin⟩ := request.clip_in_file hclip
    let r : ByteRange := ⟨first, last, total, horder, hin⟩
    exact ⟨horder, hin, r, (parseRange_eq_ok_iff_writes hsign).mpr ⟨request, hwrites, hclip, rfl⟩,
      rfl, rfl⟩
  · exact fun server disk filePath served h => serveDirect_range hsign h

/-- A range past the end of the file is cut off there. -/
theorem range_header_exact_clipped :
    ∃ r, parseRange "bytes=10-99" 50 = .ok r ∧ r.start = 10 ∧ r.end = 49 := by
  have hfirst : Decimal "10".toList 10 := decimal_toString 10
  have hlast : Decimal "99".toList 99 := decimal_toString 99
  have hwrites : (RangeRequest.firstLast 10 99).Writes "bytes=10-99" :=
    ⟨[], [], "10".toList, [], [], "99".toList, [], blank_nil, blank_nil, blank_nil, blank_nil, blank_nil,
      by decide, hfirst, by decide, hlast, by decide⟩
  exact ((range_header_exact "bytes=10-99" (by decide)).2.1 50 10 49 _ hwrites (by decide)).2.2

def RangeRequest.WritesPlainly (header : String) (request : RangeRequest) : Prop :=
  ∃ before after, header.toList = "bytes=".toList ++ before ++ '-' :: after ∧
    request.Sides before after

/-- A header with a blank in it is read as a range, and is of none of the digits-only forms. -/
theorem blank_is_read :
    (∃ r, parseRange "bytes= 0-0" 1 = .ok r ∧ r.start = 0 ∧ r.end = 0) ∧
      ∀ request : RangeRequest, ¬ request.WritesPlainly "bytes= 0-0" := by
  constructor
  · exact ⟨⟨0, 0, 1, by decide, by decide⟩, by rfl, rfl, rfl⟩
  · rintro request ⟨before, after, hheader, hsides⟩
    have htail : ' ' :: "0-0".toList = before ++ '-' :: after :=
      @List.append_cancel_left _ "bytes=".toList _ _ (by simpa using hheader)
    have hdecimal : before = [] ∨ ∃ n, Decimal before n := by
      cases request with
      | firstLast first last => exact .inr ⟨first, hsides.1⟩
      | firstOnly first => exact .inr ⟨first, hsides.1⟩
      | suffix length => exact .inl hsides.1
    rcases hdecimal with rfl | ⟨n, hn⟩
    · cases htail
    · cases before with
      | nil => exact not_decimal_nil hn
      | cons c before =>
        obtain rfl : ' ' = c := (List.cons.inj htail).1
        have hdigit := hn.all_digits ' ' List.mem_cons_self
        revert hdigit
        decide

end MichiServer.Streaming
