import MichiServer.Import.Handlers
import MichiServer.Text.Hex
import Mathlib.Data.List.Perm.Subperm

/-!
# The names an upload is given

Whatever a file is called, the name it is reserved under is that of an audio file and one component of a
path: sanitizing leaves the extension as it is, and where the name is taken another is made of its
stem, the hash and the extension. Of the names with a counter one is free, for they are all different
and no more than the files of the session can be taken.
-/

namespace MichiServer.Import

open MichiServer.Files MichiServer.Text

/-- What the documentation of the other crates says: Unicode agrees with ASCII on letters and digits,
and a hash is the hexadecimal text of a digest. -/
structure Externals.Documented (x : Externals) : Prop where
  isAlphanumeric : ∀ c : Char, c.toNat < 128 → x.isAlphanumeric c = c.isAlphanum
  computeSha256 : ∀ data, ∃ digest : List UInt8, x.computeSha256 data = Hex.encode digest

/-! ## Names of audio files -/

/-- The name is this stem, which can stand in a name, and an extension that is allowed. -/
structure AudioName (name stem ext : String) : Prop where
  parts : name = stem ++ "." ++ ext
  nonempty : stem ≠ ""
  no_slash : '/' ∉ stem.toList
  no_nul : '\x00' ∉ stem.toList
  allowed : toLowercase ext ∈ allowedAudioExts

section Allowed

variable {ext : String}

theorem isAlphanum_of_toLower {c : Char} (h : c.toLower.isAlphanum = true) : c.isAlphanum = true := by
  by_cases hupper : c.isUpper = true
  · simp [Char.isAlphanum, Char.isAlpha, hupper]
  · have hsame : c.toLower = c := by
      simp_all [Char.isUpper, Char.toLower, UInt32.le_iff_toNat_le]
    rwa [hsame] at h

theorem isAlphanum_of_allowed (h : toLowercase ext ∈ allowedAudioExts) {c : Char}
    (hc : c ∈ ext.toList) : c.isAlphanum = true := by
  have hall : allowedAudioExts.all (fun e => e.toList.all Char.isAlphanum) = true := by decide
  refine isAlphanum_of_toLower (List.all_eq_true.mp (List.all_eq_true.mp hall _ h) _ ?_)
  rw [toLowercase, String.toList_ofList]
  exact List.mem_map_of_mem hc

theorem lt_of_isAlphanum {c : Char} (h : c.isAlphanum = true) : c.toNat < 128 := by
  have hval : c.toNat = c.val.toNat := rfl
  simp [Char.isAlphanum, Char.isAlpha, Char.isUpper, Char.isLower, Char.isDigit,
    UInt32.le_iff_toNat_le] at h
  omega

theorem allowed_ne_empty (h : toLowercase ext ∈ allowedAudioExts) : ext ≠ "" := by
  rintro rfl
  exact absurd h (by decide)

theorem toLowercase_allowed (h : toLowercase ext ∈ allowedAudioExts) :
    toLowercase (toLowercase ext) ∈ allowedAudioExts := by
  have hall : ∀ e ∈ allowedAudioExts, toLowercase e = e := by decide
  rwa [hall _ h]

end Allowed

namespace AudioName

variable {name stem ext : String}

theorem asBytes (h : AudioName name stem ext) :
    asBytes name = Text.asBytes stem ++ dot :: Text.asBytes ext := by
  rw [h.parts, asBytes_append, asBytes_append, List.append_assoc]
  rfl

theorem dot_not_mem (h : AudioName name stem ext) : dot ∉ Text.asBytes ext := fun hmem =>
  absurd (isAlphanum_of_allowed h.allowed (ofNat_mem_of_mem_asBytes (by decide) hmem)) (by decide)

theorem mem_toList (h : AudioName name stem ext) {c : Char} (hc : c ∈ name.toList) :
    c ∈ stem.toList ∨ c = '.' ∨ c.isAlphanum := by
  rw [h.parts] at hc
  simp only [String.toList_append, List.mem_append] at hc
  rcases hc with (hc | hc) | hc
  · exact .inl hc
  · exact .inr (.inl (List.mem_singleton.mp hc))
  · exact .inr (.inr (isAlphanum_of_allowed h.allowed hc))

theorem asBytes_stem_ne (h : AudioName name stem ext) : Text.asBytes stem ≠ [] := fun heq =>
  h.nonempty (asBytes_inj (heq.trans rfl))

theorem asBytes_ext_ne (h : AudioName name stem ext) : Text.asBytes ext ≠ [] := fun heq =>
  allowed_ne_empty h.allowed (asBytes_inj (heq.trans rfl))

theorem is_name (h : AudioName name stem ext) : IsName (Text.asBytes name) where
  nonempty := by rw [h.asBytes]; simp
  not_current heq := by
    have hlength := congrArg List.length (h.asBytes.symm.trans heq)
    have hext := List.length_pos_of_ne_nil h.asBytes_ext_ne
    grind
  not_parent := by
    rw [h.asBytes]
    exact append_ne_parent h.asBytes_stem_ne h.asBytes_ext_ne
  no_slash hmem := by
    rcases h.mem_toList (ofNat_mem_of_mem_asBytes (by decide) hmem) with hc | hc | hc
    · exact h.no_slash hc
    · exact absurd hc (by decide)
    · exact absurd hc (by decide)
  no_nul hmem := by
    rcases h.mem_toList (ofNat_mem_of_mem_asBytes (by decide) hmem) with hc | hc | hc
    · exact h.no_nul hc
    · exact absurd hc (by decide)
    · exact absurd hc (by decide)

theorem nameExtension (h : AudioName name stem ext) :
    nameExtension (Text.asBytes name) = some (Text.asBytes ext) := by
  rw [h.asBytes]
  exact nameExtension_append h.dot_not_mem h.asBytes_stem_ne h.asBytes_ext_ne

theorem isAudioFile (h : AudioName name stem ext) (dir : Path) :
    Scanner.isAudioFile (join dir (Text.asBytes name)) = true := by
  rw [Scanner.isAudioFile, extension_join dir h.is_name, h.nameExtension, Option.bind_some,
    fromUtf8_asBytes]
  exact List.contains_iff_mem.mpr h.allowed

theorem fileStemText (h : AudioName name stem ext) : fileStemText name = some stem := by
  have hname : fileName (Text.asBytes name) = some (Text.asBytes name) := by
    have hjoin := fileName_join [] h.is_name
    grind [join, isAbsolute_of_not_mem]
  have hdrop := (@back_of_append (Text.asBytes stem) _ h.dot_not_mem).2
  have hstem : nameStem (Text.asBytes name) = Text.asBytes stem := by
    rw [h.asBytes, nameStem, if_neg (append_ne_parent h.asBytes_stem_ne h.asBytes_ext_ne), hdrop]
    simp [h.asBytes_stem_ne]
  grind [Import.fileStemText, fromUtf8_asBytes]

end AudioName

/-! ## Sanitizing -/

theorem allowed_extension {filename : String} (h : isAllowedExtension filename = true) :
    ∃ e, extensionText filename = some e ∧ toLowercase e ∈ allowedAudioExts := by
  cases htext : extensionText filename with
  | none =>
    rw [isAllowedExtension, htext] at h
    cases h
  | some e =>
    grind [isAllowedExtension]

/-- The sanitized name of an allowed file is a name with the extension of an audio file. -/
theorem audio_name_sanitize {s : Setting} (hs : s.Documented) {filename : String}
    (h : isAllowedExtension filename = true) :
    ∃ stem ext, AudioName (s.sanitizeFilename filename) stem ext := by
  obtain ⟨ext, htext, hallowed⟩ := allowed_extension h
  obtain ⟨bytes, hbytes, hread⟩ := Option.bind_eq_some_iff.mp htext
  obtain ⟨stem, e, hname, he, hstem, hslash⟩ := text_of_extension hbytes
  cases asBytes_inj (he.trans (eq_asBytes_of_fromUtf8 hread))
  let f : Char → Char := fun c =>
    if s.isAlphanumeric c || c = '.' || c = '-' || c = '_' then c else '_'
  have hkeep : ext.toList.map f = ext.toList := by
    refine (List.map_congr_left fun c hc => ?_).trans (List.map_id _)
    have halnum := isAlphanum_of_allowed hallowed hc
    simp [f, hs.isAlphanumeric c (lt_of_isAlphanum halnum), halnum]
  have hsanitized : s.sanitizeFilename filename =
      String.ofList (stem.toList.map f) ++ "." ++ ext := by
    have hdot : ".".toList.map f = ".".toList := by simp [f]
    rw [Setting.sanitizeFilename, hname, Option.bind_some, fromUtf8_asBytes, Option.getD_some]
    change String.ofList ((stem ++ "." ++ ext).toList.map f) = _
    rw [← String.toList_inj, String.toList_ofList]
    simp only [String.toList_append, List.map_append, hdot, hkeep, String.toList_ofList]
  refine ⟨_, _, hsanitized, ?_, ?_, ?_, hallowed⟩
  · intro hempty
    refine hstem (String.toList_inj.mp ?_)
    simpa using congrArg String.toList hempty
  · rw [String.toList_ofList]
    intro hmem
    obtain ⟨c, hc, heq⟩ := List.mem_map.mp hmem
    by_cases hslash' : c = '/'
    · exact hslash (hslash' ▸ hc)
    · simp only [f] at heq
      split at heq
      · exact hslash' heq
      · cases heq
  · rw [String.toList_ofList]
    intro hmem
    obtain ⟨c, hc, heq⟩ := List.mem_map.mp hmem
    simp only [f] at heq
    split at heq
    next hcond =>
      subst heq
      simp [hs.isAlphanumeric '\x00' (by decide)] at hcond
    · cases heq

/-! ## Resolving -/

theorem countedName_cases (taken : String → Bool) (name : ℕ → String) (fuel counter : ℕ) :
    ∃ k ≤ fuel, countedName taken name fuel counter = name (counter + k) ∧
      (taken (name (counter + k)) = true → ∀ i ≤ fuel, taken (name (counter + i)) = true) := by
  induction fuel generalizing counter with
  | zero =>
    refine ⟨0, Nat.le_refl _, rfl, fun htaken i hi => ?_⟩
    rwa [Nat.le_zero.mp hi]
  | succ fuel ih =>
    rw [countedName]
    by_cases hfirst : taken (name counter) = true
    · obtain ⟨k, hk, heq, hall⟩ := ih (counter + 1)
      rw [Nat.add_assoc, Nat.add_comm 1 k] at heq hall
      refine ⟨k + 1, by omega, by rw [if_pos hfirst, heq], fun htaken i hi => ?_⟩
      cases i with
      | zero => exact hfirst
      | succ i =>
        grind
    · exact ⟨0, Nat.zero_le _, if_neg hfirst, fun htaken => absurd htaken hfirst⟩

theorem not_all_taken {files : List ImportFile} {dataHash : String} {name : ℕ → String}
    (hname : Function.Injective name) :
    ¬ ∀ i ≤ files.length, nameTaken files dataHash (name (1 + i)) = true := by
  intro hall
  have hsubset : (List.range (files.length + 1)).map (fun i => name (1 + i)) ⊆
      files.map ImportFile.safeName := by
    intro n hn
    obtain ⟨i, hi, rfl⟩ := List.mem_map.mp hn
    have htaken := hall i (Nat.lt_succ_iff.mp (List.mem_range.mp hi))
    obtain ⟨file, hfile, heq⟩ := List.any_eq_true.mp htaken
    grind
  have hnodup : ((List.range (files.length + 1)).map fun i => name (1 + i)).Nodup :=
    List.nodup_range.map fun i j hij => Nat.add_left_cancel (hname hij)
  have hlength := (List.subperm_of_subset hnodup hsubset).length_le
  simp only [List.length_map, List.length_range] at hlength
  omega

theorem plain_hash {s : Setting} (hs : s.Documented) {data : List UInt8} {c : Char}
    (hc : c ∈ (s.computeSha256 data).toList) : c ≠ '/' ∧ c ≠ '\x00' := by
  obtain ⟨digest, hdigest⟩ := hs.computeSha256 data
  have hall : ∀ n < 16, n.digitChar ≠ '/' ∧ n.digitChar ≠ '\x00' := by decide
  rw [hdigest, Hex.encode, String.toList_ofList] at hc
  obtain ⟨b, -, hb⟩ := List.mem_flatMap.mp hc
  have hlt : b.toNat < 256 := b.toNat_lt
  rcases List.mem_pair.mp hb with rfl | rfl
  · exact hall _ (by omega)
  · exact hall _ (by omega)

theorem AudioName.longer {name stem ext : String} (h : AudioName name stem ext) {more ext' : String}
    (hmore : ∀ c ∈ more.toList, c ≠ '/' ∧ c ≠ '\x00')
    (hallowed : toLowercase ext' ∈ allowedAudioExts) :
    AudioName (stem ++ more ++ "." ++ ext') (stem ++ more) ext' where
  parts := rfl
  nonempty hempty := h.nonempty (String.append_eq_empty_iff.mp hempty).1
  no_slash hmem := by
    rcases List.mem_append.mp (String.toList_append ▸ hmem) with hc | hc
    · exact h.no_slash hc
    · exact (hmore _ hc).1 rfl
  no_nul hmem := by
    rcases List.mem_append.mp (String.toList_append ▸ hmem) with hc | hc
    · exact h.no_nul hc
    · exact (hmore _ hc).2 rfl
  allowed := hallowed

section Resolve

variable {s : Setting} {files : List ImportFile} {data : List UInt8}

theorem not_mem_of_not_taken {dataHash name : String}
    (hnew : ∀ file ∈ files, file.checksum ≠ dataHash)
    (h : nameTaken files dataHash name = false) : name ∉ files.map ImportFile.safeName := by
  intro hmem
  obtain ⟨file, hfile, rfl⟩ := List.mem_map.mp hmem
  have hnot := List.any_eq_false.mp h file hfile
  simp [hnew file hfile] at hnot

theorem plain_suffix (hs : s.Documented) {c : Char}
    (hc : c ∈ ("_" ++ String.ofList ((s.computeSha256 data).toList.take 8)).toList) :
    c ≠ '/' ∧ c ≠ '\x00' := by
  rw [String.toList_append] at hc
  rcases List.mem_append.mp hc with hc | hc
  · rw [List.mem_singleton.mp hc]
    decide
  · rw [String.toList_ofList] at hc
    exact plain_hash hs (List.mem_of_mem_take hc)

theorem plain_counter {k : ℕ} {c : Char} (hc : c ∈ ("_" ++ toString k).toList) :
    c ≠ '/' ∧ c ≠ '\x00' := by
  rw [String.toList_append] at hc
  rcases List.mem_append.mp hc with hc | hc
  · rw [List.mem_singleton.mp hc]
    decide
  · have hdigit := isDigit_of_mem_toString hc
    constructor <;> rintro rfl <;> exact absurd hdigit (by decide)

/-- The name is that of an audio file, and none of these files has it. -/
structure FreshName (files : List ImportFile) (name : String) : Prop where
  audio : ∃ stem ext, AudioName name stem ext
  fresh : name ∉ files.map ImportFile.safeName

/-- The name that is resolved is none of the session's. -/
theorem fresh_resolveSafeName (hs : s.Documented) {filename ext : String}
    (hfilename : isAllowedExtension filename = true) (hext : toLowercase ext ∈ allowedAudioExts)
    (hnew : ∀ file ∈ files, file.checksum ≠ s.computeSha256 data) :
    FreshName files
      (resolveSafeName files (s.sanitizeFilename filename) (s.computeSha256 data) ext) := by
  obtain ⟨stem, e, haudio⟩ := audio_name_sanitize hs hfilename
  unfold resolveSafeName
  by_cases hsanitized :
      nameTaken files (s.computeSha256 data) (s.sanitizeFilename filename) = true
  · rw [if_pos hsanitized, haudio.fileStemText, Option.getD_some]
    simp only [@String.append_assoc stem "_"]
    have hfirst := haudio.longer (fun _ (hc : _ ∈ String.toList ("_" ++
      String.ofList ((s.computeSha256 data).toList.take 8))) => plain_suffix hs hc) hext
    generalize hshort : stem ++ ("_" ++ String.ofList ((s.computeSha256 data).toList.take 8)) =
      short at hfirst ⊢
    by_cases htaken : nameTaken files (s.computeSha256 data) (short ++ "." ++ ext) = true
    · rw [if_pos htaken]
      let counted : ℕ → String := fun k => short ++ "_" ++ toString k ++ "." ++ ext
      have hinjective : Function.Injective counted := by
        intro j k hjk
        have hlist := congrArg String.toList hjk
        simp only [counted, String.toList_append, List.append_cancel_right_eq,
          List.append_cancel_left_eq] at hlist
        exact toString_inj.mp hlist
      obtain ⟨k, -, heq, hall⟩ :=
        countedName_cases (nameTaken files (s.computeSha256 data)) counted files.length 1
      have hcounted := hfirst.longer (fun _ hc => plain_counter (k := 1 + k) hc) hext
      rw [← @String.append_assoc short] at hcounted
      have hfree : nameTaken files (s.computeSha256 data) (counted (1 + k)) = false :=
        Bool.eq_false_iff.mpr fun htaken => not_all_taken hinjective (hall htaken)
      grind [FreshName, countedName, not_mem_of_not_taken]
    · rw [if_neg htaken]
      exact ⟨⟨_, _, hfirst⟩, not_mem_of_not_taken hnew (Bool.eq_false_iff.mpr htaken)⟩
  · rw [if_neg hsanitized]
    exact ⟨⟨stem, e, haudio⟩, not_mem_of_not_taken hnew (Bool.eq_false_iff.mpr hsanitized)⟩

end Resolve

end MichiServer.Import
