import MichiServer.Catalog.Tracks
import MichiServer.M3u.RoundTrip

/-!
# Exported playlists

`export_playlist_m3u_handler` writes an `#EXTINF` line and a path for each track, as the database has
them. What `parse_m3u` finds in it is each line that is a path, trimmed: so the paths come back when each
is such a line, and when no title or artist begins one behind a line break.
-/

namespace MichiServer.M3u

open Text Catalog

def artistTitle (track : Track) : String :=
  track.artist.getD "Unknown" ++ " - " ++ track.title.getD "Unknown"

def trackText (track : Track) : String :=
  s!"#EXTINF:{track.durationMs.getD 0 / 1000},{artistTitle track}\n{track.filePath}\n"

def tracksText : List (PlaylistTrack × Track) → String
  | [] => ""
  | (_, track) :: rest => trackText track ++ tracksText rest

/-- The text that `export_playlist_m3u_handler` makes of what `get_playlist_tracks` gives. -/
def exportedM3u (tracks : List (PlaylistTrack × Track)) : String := "#EXTM3U\n" ++ tracksText tracks

section

variable {c : Char} {a b : List Char}

theorem splitInclusive_ne_nil (hb : b ≠ []) : splitInclusive c (a ++ b) ≠ [] := by
  cases h : a ++ b with
  | nil => exact absurd (List.append_eq_nil_iff.mp h).2 hb
  | cons d rest =>
    grind [splitInclusive]

theorem splitInclusive_join (a b : List Char) :
    splitInclusive c (a ++ c :: b) = splitInclusive c (a ++ [c]) ++ splitInclusive c b := by
  induction a with
  | nil => simp [splitInclusive]
  | cons d a ih =>
    grind [splitInclusive, splitInclusive_ne_nil]

theorem splitInclusive_front (ha : c ∉ a) (hb : b ≠ []) :
    ∃ first, splitInclusive c (a ++ b) = (a ++ first) :: (splitInclusive c b).tail := by
  induction a with
  | nil =>
    cases h : splitInclusive c b with
    | nil => exact absurd h (splitInclusive_ne_nil (a := []) hb)
    | cons first rest => exact ⟨first, h⟩
  | cons d a ih =>
    obtain ⟨hd, ha⟩ := List.ne_and_not_mem_of_not_mem_cons ha
    obtain ⟨first, hfirst⟩ := ih ha
    exact ⟨first, by grind [splitInclusive]⟩

end

theorem lines_join (a b : String) : lines (a ++ "\n" ++ b) = lines (a ++ "\n") ++ lines b := by
  have hpieces : (a ++ "\n" ++ b).toList = a.toList ++ '\n' :: b.toList := by simp
  rw [lines, hpieces, splitInclusive_join, List.map_append]
  simp [lines]

def paths (l : List String) : List String := (l.filter fun line => IsPath line).map trim

variable {l rest : List String} {extinf : Option ExtInf} {track : Track}
  {tracks : List (PlaylistTrack × Track)}

theorem paths_append (l rest : List String) : paths (l ++ rest) = paths l ++ paths rest := by
  simp [paths]

theorem parseLines_paths : (parseLines extinf l).map M3uEntry.path = paths l := by
  induction l generalizing extinf with
  | nil => rfl
  | cons line rest ih =>
    rcases line_cases line with hpassed | hpath | ⟨info, hinfo⟩
    · grind [IsPath, not_passed_of_isPath, parseLines_passed, paths]
    · grind [parseLines_path, paths]
    · have hkind : ¬ IsPath line := fun hpath => by simp [not_extinf_of_isPath hpath] at hinfo
      rw [parseLines_extinf hinfo, ih]
      simp [paths, hkind]

structure Readable (path : String) : Prop where
  trimmed : trim path = path
  is_path : IsPath path
  one_line : '\n' ∉ path.toList

theorem readable_of_mem_paths {path text : String} (h : path ∈ paths (lines text)) : Readable path := by
  obtain ⟨line, hline, rfl⟩ := List.mem_map.mp h
  obtain ⟨hmem, hpath⟩ := List.mem_filter.mp hline
  refine ⟨trim_trim line, ?_, newline_notMem_trim (newline_notMem_of_mem_lines hmem)⟩
  rw [IsPath, trim_trim]
  exact of_decide_eq_true hpath

theorem Readable.paths_line {path : String} (h : Readable path) :
    paths (lines (path ++ "\n")) = [path] := by
  have htrim : trimChars path.toList = path.toList := by rw [← toList_trim, h.trimmed]
  have hline := lines_solid h.one_line (trimChars_eq_self_iff.mp htrim).2 ""
  rw [String.append_empty] at hline
  rw [hline]
  simp [paths, lines, splitInclusive, h.is_path, h.trimmed]

/-- The lines that a title or an artist begins: behind the first line of the two. -/
def begun (track : Track) : List String := (lines (artistTitle track ++ "\n")).tail

theorem head?_dropLast {d e : Char} {l : List Char} (hhead : l.head? = some d)
    (hlast : l.getLast? = some e) (hne : d ≠ e) : l.dropLast.head? = some d := by
  cases l with
  | nil => cases hhead
  | cons x l =>
    cases l with
    | nil =>
      grind
    | cons y l => exact hhead

/-- A line that begins with `#` is no path. -/
theorem comment_of_head {piece : List Char} (h : piece.head? = some '#') :
    ¬ IsPath (String.ofList (stripLineEnd piece)) := by
  have hhead : (stripLineEnd piece).head? = some '#' := by
    rw [stripLineEnd]
    split
    · rename_i hnewline
      have hcut := head?_dropLast h hnewline (by decide)
      dsimp only
      split
      · rename_i hreturn
        exact head?_dropLast hcut hreturn (by decide)
      · exact hcut
    · exact h
  cases hline : stripLineEnd piece with
  | nil => simp [hline] at hhead
  | cons d rest =>
    obtain rfl : d = '#' := by simpa [hline] using hhead
    have htrim := trimChars_append_cons (a := []) (b := rest) (c := '#') (by decide)
    rw [List.nil_append] at htrim
    rintro ⟨-, hcomment⟩
    simp [startsWith, toList_trim, htrim, trimStart] at hcomment

theorem paths_extinf (dur : ℕ) (text : String) :
    paths (lines (extinfLine dur text ++ "\n")) = paths (lines (text ++ "\n")).tail := by
  have hfront : '\n' ∉ "#EXTINF:".toList ++ ((toString dur).toList ++ [',']) := by
    rw [List.mem_append, List.mem_append, not_or, not_or]
    exact ⟨by decide, newline_notMem_toString dur, by decide⟩
  obtain ⟨first, hfirst⟩ := splitInclusive_front hfront (b := (text ++ "\n").toList) (by simp)
  have htext : (extinfLine dur text ++ "\n").toList =
      "#EXTINF:".toList ++ ((toString dur).toList ++ [',']) ++ (text ++ "\n").toList := by
    rw [String.toList_append, toList_extinfLine]
    simp
  have hcomment : ¬ IsPath (String.ofList (stripLineEnd
      ("#EXTINF:".toList ++ ((toString dur).toList ++ [',']) ++ first))) := comment_of_head rfl
  rw [lines, htext, hfirst, List.map_cons, paths, List.filter_cons_of_neg (by simpa using hcomment),
    lines, ← List.map_tail, paths]

structure Carried (track : Track) : Prop where
  path : Readable track.filePath
  begun : ∀ line ∈ begun track, ¬ IsPath line

theorem carried_iff : Carried track ↔
    Readable track.filePath ∧ paths (begun track) = [] := by
  rw [paths, List.map_eq_nil_iff, List.filter_eq_nil_iff]
  exact ⟨fun h => ⟨h.path, by simpa using h.begun⟩, fun h => ⟨h.1, by simpa using h.2⟩⟩

theorem paths_trackText (track : Track) (rest : String) : paths (lines (trackText track ++ rest)) =
    paths (begun track) ++ paths (lines (track.filePath ++ "\n")) ++ paths (lines rest) := by
  have htext : trackText track ++ rest =
      extinfLine (track.durationMs.getD 0 / 1000) (artistTitle track) ++ "\n" ++
        (track.filePath ++ "\n" ++ rest) := by
    simp only [trackText, extinfLine, String.append_assoc]
    rfl
  rw [htext, lines_join, lines_join track.filePath, paths_append, paths_append, paths_extinf, begun,
    List.append_assoc]

theorem paths_exported (tracks : List (PlaylistTrack × Track)) :
    paths (lines (exportedM3u tracks)) = tracks.flatMap fun row =>
      paths (begun row.2) ++ paths (lines (row.2.filePath ++ "\n")) := by
  have hheader : exportedM3u tracks = "#EXTM3U" ++ "\n" ++ tracksText tracks := rfl
  have hnone : paths (lines ("#EXTM3U" ++ "\n")) = [] := by decide
  rw [hheader, lines_join, paths_append, hnone, List.nil_append]
  clear hheader
  induction tracks with
  | nil => rfl
  | cons row rest ih => rw [tracksText, paths_trackText, ih, List.flatMap_cons]

theorem map_eq_flatMap_iff {α β : Type} {f : α → β} {g : α → List β} {l : List α} :
    l.map f = l.flatMap (fun a => g a ++ [f a]) ↔ ∀ a ∈ l, g a = [] := by
  have hle (l : List α) : l.length ≤ (l.flatMap fun a => g a ++ [f a]).length := by
    induction l with
    | nil => exact le_rfl
    | cons a l ih => grind
  induction l with
  | nil => simp
  | cons a l ih =>
    simp only [List.forall_mem_cons, ← ih, List.map_cons, List.flatMap_cons]
    constructor
    · intro h
      have hlength := congrArg List.length h
      have hrest := hle l
      simp only [List.length_cons, List.length_map, List.length_append, List.length_nil] at hlength
      have hnil : g a = [] := List.length_eq_zero_iff.mp (by omega)
      simpa [hnil] using h
    · rintro ⟨hnil, hrest⟩
      simp [hnil, ← hrest]

/-- **What an export gives back.** For every playlist, `parse_m3u` reads from the exported text the file
paths of its tracks, in order, exactly when each track is carried. -/
theorem export_read_back_iff (tracks : List (PlaylistTrack × Track)) :
    (parseM3u (exportedM3u tracks)).map (List.map M3uEntry.path) =
        .ok (tracks.map fun row => row.2.filePath) ↔ ∀ row ∈ tracks, Carried row.2 := by
  rw [parseM3u, Except.map, Except.ok.injEq, parseLines_paths]
  have hexported := paths_exported tracks
  have hown (hpath : ∀ row ∈ tracks, Readable row.2.filePath) : tracks.flatMap (fun row =>
      paths (begun row.2) ++ paths (lines (row.2.filePath ++ "\n"))) =
        tracks.flatMap fun row => paths (begun row.2) ++ [row.2.filePath] :=
    List.flatMap_congr fun row hrow => by rw [(hpath row hrow).paths_line]
  constructor
  · intro h
    have hpath : ∀ row ∈ tracks, Readable row.2.filePath := fun row hrow =>
      readable_of_mem_paths (h ▸ List.mem_map_of_mem hrow)
    have hnone := map_eq_flatMap_iff.mp (h.symm.trans (hexported.trans (hown hpath)))
    exact fun row hrow => carried_iff.mpr ⟨hpath row hrow, hnone row hrow⟩
  · intro h
    exact hexported.trans ((hown fun row hrow => (h row hrow).path).trans
      (map_eq_flatMap_iff.mpr fun row hrow => (carried_iff.mp (h row hrow)).2).symm)

/-- A title of two lines is read as a second entry. -/
theorem second_line_is_entry :
    ¬ ∀ tracks : List (PlaylistTrack × Track),
      (parseM3u (exportedM3u tracks)).map (List.map M3uEntry.path) =
        .ok (tracks.map fun row => row.2.filePath) := by
  intro h
  have hsplit := h [(⟨1, 1, 0⟩, {
    id := 1
    title := some "One\n/two"
    filePath := "/one"
    format := .mp3
    createdAt := 0
    updatedAt := 0 })]
  revert hsplit
  decide

end MichiServer.M3u
