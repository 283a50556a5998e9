import MichiServer.Files.Tree
import MichiServer.Text.Lossy
import Mathlib.Data.List.TakeWhile

/-!
# Names of audio files

The extension of a file name, as `Path::extension` takes it, and the audio formats by extension.
-/

namespace MichiServer.Files

open MichiServer.Text

/-- What follows the last dot of a name, unless the name begins with it. -/
def nameExtension (name : List UInt8) : Option (List UInt8) :=
  if name = [dot, dot] then none
  else
    let back := name.reverse
    let after := (back.takeWhile (· != dot)).reverse
    let before := (back.dropWhile (· != dot)).drop 1
    if before.isEmpty then none else some after

def fileName (path : Path) : Option (List UInt8) :=
  match ((components path).filter fun c => c ≠ [] ∧ c ≠ [dot]).getLast? with
  | some c => if c = [dot, dot] then none else some c
  | none => none

def extension (path : Path) : Option (List UInt8) := (fileName path).bind nameExtension

inductive AudioFormat where
  | mp3
  | flac
  | ogg
  | opus
  | aac
  | m4a
  | wav
  | unknown
deriving DecidableEq

/-- `to_lowercase`, for a comparison with letters none of which is the lower case of any letter but
its own capital. -/
def toLowercase (s : String) : String := String.ofList (s.toList.map Char.toLower)

namespace AudioFormat

def fromExtension (ext : String) : AudioFormat :=
  match toLowercase ext with
  | "mp3" => mp3
  | "flac" => flac
  | "ogg" => ogg
  | "opus" => opus
  | "aac" => aac
  | "m4a" => m4a
  | "wav" => wav
  | _ => unknown

def mimeType : AudioFormat → String
  | mp3 => "audio/mpeg"
  | flac => "audio/flac"
  | ogg => "audio/ogg"
  | opus => "audio/ogg"
  | aac => "audio/aac"
  | m4a => "audio/mp4"
  | wav => "audio/wav"
  | unknown => "application/octet-stream"

def asStr : AudioFormat → String
  | mp3 => "mp3"
  | flac => "flac"
  | ogg => "ogg"
  | opus => "opus"
  | aac => "aac"
  | m4a => "m4a"
  | wav => "wav"
  | unknown => "unknown"

end AudioFormat

/-!
## Names that are text

What `Path` makes of a path that is a text: its components are texts, the extension of a name is what
follows its last dot, and a name that is joined to a directory is the one component more.
-/

/-! ## The last dot -/

section LastDot

variable {stem ext : List UInt8}

theorem back_of_append (h : dot ∉ ext) :
    (stem ++ dot :: ext).reverse.takeWhile (· != dot) = ext.reverse ∧
      (stem ++ dot :: ext).reverse.dropWhile (· != dot) = dot :: stem.reverse := by
  have hall : ∀ b ∈ ext.reverse, (b != dot) = true := fun b hb =>
    bne_iff_ne.mpr fun heq => h (heq ▸ List.mem_reverse.mp hb)
  have hback : (stem ++ dot :: ext).reverse = ext.reverse ++ dot :: stem.reverse := by simp
  rw [hback, List.takeWhile_append_of_pos hall, List.dropWhile_append_of_pos hall]
  simp

theorem append_ne_parent (hstem : stem ≠ []) (hext : ext ≠ []) :
    stem ++ dot :: ext ≠ [dot, dot] := by
  intro heq
  have hlength := congrArg List.length heq
  have hs := List.length_pos_of_ne_nil hstem
  have he := List.length_pos_of_ne_nil hext
  grind

theorem nameExtension_append (h : dot ∉ ext) (hstem : stem ≠ []) (hext : ext ≠ []) :
    nameExtension (stem ++ dot :: ext) = some ext := by
  grind [back_of_append, nameExtension, append_ne_parent]

theorem eq_append_of_nameExtension {name : List UInt8} (h : nameExtension name = some ext) :
    ∃ stem, name = stem ++ dot :: ext ∧ stem ≠ [] ∧ dot ∉ ext := by
  unfold nameExtension at h
  split at h
  · cases h
  by_cases hdot : dot ∈ name
  · obtain ⟨back, front, heq, hnot⟩ := List.eq_append_cons_of_mem (List.mem_reverse.mpr hdot)
    grind [dot, back_of_append]
  · have hall : ∀ b ∈ name.reverse, (b != dot) = true := fun b hb =>
      bne_iff_ne.mpr fun heq => hdot (heq ▸ List.mem_reverse.mp hb)
    simp only [List.dropWhile_eq_nil_iff.mpr hall, List.drop_nil, List.isEmpty_nil] at h
    cases h

theorem eq_of_last_dot {stem' ext' : List UInt8} (h : dot ∉ ext) (h' : dot ∉ ext')
    (heq : stem ++ dot :: ext = stem' ++ dot :: ext') : stem = stem' ∧ ext = ext' := by
  obtain ⟨htake, hdrop⟩ := @back_of_append stem ext h
  grind [back_of_append]

end LastDot

/-- A name that is text is text on both sides of its last dot. -/
theorem text_of_last_dot {name : String} {stem ext : List UInt8}
    (h : asBytes name = stem ++ dot :: ext) (hdot : dot ∉ ext) :
    ∃ s e : String, name = s ++ "." ++ e ∧ asBytes s = stem ∧ asBytes e = ext := by
  have hmem : dot ∈ asBytes name := by
    rw [h]
    exact List.mem_append_right _ List.mem_cons_self
  have hchar : '.' ∈ name.toList.reverse := List.mem_reverse.mpr
    (ofNat_mem_of_mem_asBytes (by decide) hmem)
  obtain ⟨back, front, heq, hnot⟩ := List.eq_append_cons_of_mem hchar
  have hname : name = String.ofList front.reverse ++ "." ++ String.ofList back.reverse := by
    rw [← String.toList_inj, ← List.reverse_reverse name.toList, heq]
    simp
  have hbytes : asBytes name =
      asBytes (String.ofList front.reverse) ++ dot :: asBytes (String.ofList back.reverse) := by
    rw [hname, asBytes_append, asBytes_append, List.append_assoc]
    rfl
  have hnot' : dot ∉ asBytes (String.ofList back.reverse) := fun hmem' => hnot (by
    have hin := ofNat_mem_of_mem_asBytes (b := dot) (by decide) hmem'
    rw [String.toList_ofList, List.mem_reverse] at hin
    exact hin)
  grind [eq_of_last_dot]

/-! ## Components -/

theorem slash_not_mem {s : String} (h : '/' ∉ s.toList) : slash ∉ asBytes s := fun hmem =>
  h (ofNat_mem_of_mem_asBytes (by decide) hmem)

theorem components_append_slash (front back : Path) :
    components (front ++ slash :: back) = components front ++ components back :=
  List.splitOn_append_cons_self front back

/-- A component of a text is text, and has no slash. -/
theorem text_of_component {front chars : List Char} (hfront : '/' ∉ front) {c : List UInt8}
    (hc : c ∈ components (asBytes (String.ofList (front ++ chars)))) :
    ∃ t : String, c = asBytes t ∧ '/' ∉ t.toList := by
  have hplain : '/' ∉ (String.ofList front).toList := by rwa [String.toList_ofList]
  have hsingle : components (asBytes (String.ofList front)) = [asBytes (String.ofList front)] :=
    List.splitOn_eq_singleton (slash_not_mem hplain)
  induction chars generalizing front with
  | nil =>
    grind
  | cons x rest ih =>
    by_cases hx : x = '/'
    · have hsplit : asBytes (String.ofList (front ++ x :: rest)) =
          asBytes (String.ofList front) ++ slash :: asBytes (String.ofList rest) := by
        rw [hx, asBytes_eq_flatMap, asBytes_eq_flatMap, asBytes_eq_flatMap]
        simp only [String.toList_ofList, List.flatMap_append, List.flatMap_cons]
        rfl
      rw [hsplit, components_append_slash, hsingle, List.cons_append, List.nil_append,
        List.mem_cons] at hc
      rcases hc with hc | hc
      · exact ⟨_, hc, hplain⟩
      · exact ih (show '/' ∉ ([] : List Char) from List.not_mem_nil) hc List.not_mem_nil rfl
    · have hfront' : '/' ∉ front ++ [x] := by simp [hfront, Ne.symm hx]
      have hplain' : '/' ∉ (String.ofList (front ++ [x])).toList := by rwa [String.toList_ofList]
      exact ih hfront' (by simpa using hc) hplain' (List.splitOn_eq_singleton (slash_not_mem hplain'))

theorem text_of_fileName {path : String} {name : List UInt8}
    (h : fileName (asBytes path) = some name) : ∃ t : String, name = asBytes t ∧ '/' ∉ t.toList := by
  unfold fileName at h
  split at h
  next c hlast =>
    split at h
    · cases h
    · cases h
      rw [← String.ofList_toList (s := path), ← List.nil_append path.toList] at hlast
      grind [text_of_component]
  · cases h

theorem text_of_extension {path : String} {ext : List UInt8}
    (h : extension (asBytes path) = some ext) :
    ∃ s e : String, fileName (asBytes path) = some (asBytes (s ++ "." ++ e)) ∧ asBytes e = ext ∧
      s ≠ "" ∧ '/' ∉ s.toList := by
  obtain ⟨name, hname, hext⟩ := Option.bind_eq_some_iff.mp h
  obtain ⟨t, rfl, hslash⟩ := text_of_fileName hname
  obtain ⟨stem, hbytes, hstem, hdot⟩ := eq_append_of_nameExtension hext
  obtain ⟨s, e, rfl, rfl, rfl⟩ := text_of_last_dot hbytes hdot
  refine ⟨s, e, hname, rfl, ?_, ?_⟩
  · rintro rfl
    exact hstem rfl
  · intro hmem
    simp [hmem] at hslash

/-! ## Names in a directory -/

section Join

variable {name : List UInt8}

theorem join_cases (base : Path) (hname : IsName name) :
    base = [] ∧ join base name = name ∨ ∃ front, join base name = front ++ slash :: name ∧
      (base = front ∨ base = front ++ [slash]) := by
  rw [join, isAbsolute_of_not_mem hname.no_slash, if_neg Bool.false_ne_true]
  rcases List.eq_nil_or_concat base with rfl | ⟨front, last, rfl⟩
  · exact .inl ⟨rfl, rfl⟩
  · grind [slash]

theorem components_join (base : Path) (hname : IsName name) :
    (components (join base name)).filter (· ≠ []) = (components base).filter (· ≠ []) ++ [name] := by
  have hsingle : (components name).filter (· ≠ []) = [name] := by
    rw [components_of_name hname]
    simp [hname.nonempty]
  rcases join_cases base hname with ⟨rfl, hjoin⟩ | ⟨front, hjoin, rfl | rfl⟩ <;> rw [hjoin]
  · exact hsingle
  · rw [components_append_slash, List.filter_append, hsingle]
  · rw [components_append_slash, components_append_slash, List.filter_append, List.filter_append,
      hsingle]
    simp [components]

theorem fileName_join (base : Path) (hname : IsName name) : fileName (join base name) = some name := by
  have hfilter : (components (join base name)).filter (fun c => c ≠ [] ∧ c ≠ [dot]) =
      ((components (join base name)).filter (· ≠ [])).filter (· ≠ [dot]) := by
    rw [List.filter_filter]
    grind
  have hlast : ((components (join base name)).filter fun c => c ≠ [] ∧ c ≠ [dot]).getLast? =
      some name := by
    rw [hfilter, components_join base hname, List.filter_append]
    simp [hname.not_current]
  simp only [fileName, hlast, if_neg hname.not_parent]

theorem extension_join (base : Path) (hname : IsName name) :
    extension (join base name) = nameExtension name := by
  rw [extension, fileName_join base hname, Option.bind_some]

end Join

end MichiServer.Files
