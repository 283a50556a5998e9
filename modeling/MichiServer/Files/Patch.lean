import Mathlib.Data.List.Basic

/-!
# Positioned writes

A file's content as a list, and a write at an offset: what lies before and after stays, a gap between
the old end and the offset is filled. `patch_getElem?` says what every position reads afterwards, and
the laws of slices follow from it: a write is read back where it was made, and leaves alone every slice
it does not overlap.
-/

namespace MichiServer.Files

variable {α : Type} (fill : α)

def patch (content : List α) (offset : ℕ) (data : List α) : List α :=
  content.take offset ++ List.replicate (offset - content.length) fill ++ data ++
    content.drop (offset + data.length)

/-- The `len` entries from `offset` on, or as many of them as there are. -/
def slice (content : List α) (offset len : ℕ) : List α := (content.drop offset).take len

theorem slice_getElem? (content : List α) (offset len i : ℕ) :
    (slice content offset len)[i]? = if i < len then content[offset + i]? else none := by
  rw [slice, List.getElem?_take, List.getElem?_drop]

theorem length_slice (content : List α) {offset len : ℕ} (h : offset + len ≤ content.length) :
    (slice content offset len).length = len := by
  rw [slice, List.length_take, List.length_drop]
  omega

theorem length_patch {content data : List α} {offset : ℕ} :
    (patch fill content offset data).length = max content.length (offset + data.length) := by
  grind [patch]

/-- What a write leaves at each place: the data where it was written, and else the content or the
filling. -/
theorem patch_getElem? (content data : List α) (offset i : ℕ) :
    (patch fill content offset data)[i]? =
      if i < offset then if i < content.length then content[i]? else some fill
      else if i < offset + data.length then data[i - offset]? else content[i]? := by
  have hhead : (content.take offset ++ List.replicate (offset - content.length) fill).length
      = offset := by
    grind
  rw [patch, List.append_assoc]
  by_cases hi : i < offset
  · rw [List.getElem?_append_left (by omega), if_pos hi]
    by_cases hc : i < content.length
    · rw [if_pos hc, List.getElem?_append_left (by rw [List.length_take]; omega),
        List.getElem?_take, if_pos hi]
    · grind
  · rw [List.getElem?_append_right (by omega), hhead, if_neg hi]
    by_cases hd : i < offset + data.length
    · rw [if_pos hd, List.getElem?_append_left (by omega)]
    · rw [if_neg hd, List.getElem?_append_right (by omega), List.getElem?_drop]
      congr 1
      omega

theorem slice_patch_self (content data : List α) (offset : ℕ) :
    slice (patch fill content offset data) offset data.length = data := by
  apply List.ext_getElem?
  intro i
  have hstart : ¬ offset + i < offset := by omega
  rw [slice_getElem?, patch_getElem?, if_neg hstart, Nat.add_sub_cancel_left]
  grind

theorem slice_patch_disjoint {content data : List α} {offset from_ len : ℕ}
    (hin : from_ + len ≤ content.length)
    (hdisjoint : from_ + len ≤ offset ∨ offset + data.length ≤ from_) :
    slice (patch fill content offset data) from_ len = slice content from_ len := by
  apply List.ext_getElem?
  intro i
  rw [slice_getElem?, slice_getElem?]
  by_cases hi : i < len
  · rw [if_pos hi, if_pos hi, patch_getElem?]
    grind
  · rw [if_neg hi, if_neg hi]

end MichiServer.Files
