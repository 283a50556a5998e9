import Mathlib.Data.List.Basic

/-!
# Fields joined by a separator

A text that joins its fields by a separator can be read in more ways than one, as soon as a field can
hold the separator. Here a text has six fields. The third is fixed, the fifth is of a kind that holds
no separator (a number, say), the last is of a kind of its own, and the others are free. `unique_iff`
says which of these texts have one reading.
-/

namespace MichiServer.Text

variable {α : Type} {c : α} {a a' b b' : List α}

theorem append_sep_cases (h : a ++ c :: b = a' ++ c :: b') :
    (a = a' ∧ b = b') ∨ (∃ x, a' = a ++ c :: x ∧ b = x ++ c :: b') ∨
      ∃ x, a = a' ++ c :: x ∧ b' = x ++ c :: b := by
  rcases List.append_eq_append_iff.mp h with ⟨x, ha', hb⟩ | ⟨x, ha, hb'⟩
  · cases x with
    | nil =>
      grind
    | cons d x =>
      grind
  · cases x with
    | nil =>
      grind
    | cons d x =>
      grind

theorem append_sep_cases_of_notMem (h : a ++ c :: b = a' ++ c :: b') (ha : c ∉ a) :
    (a = a' ∧ b = b') ∨ ∃ x, a' = a ++ c :: x ∧ b = x ++ c :: b' := by
  rcases append_sep_cases h with hsame | hlater | ⟨x, rfl, -⟩
  · exact .inl hsame
  · exact .inr hlater
  · exact absurd (List.mem_append_right _ (List.mem_cons_self ..)) ha

@[ext] structure Fields (α : Type) where
  first : List α
  second : List α
  fourth : List α
  fifth : List α
  last : List α

namespace Fields

variable (c) (third : List α) (IsNumber IsLast : List α → Prop)

def text (f : Fields α) : List α :=
  f.first ++ c :: (f.second ++ c :: (third ++ c :: (f.fourth ++ c :: (f.fifth ++ c :: f.last))))

structure Valid (f : Fields α) : Prop where
  fifth : IsNumber f.fifth
  last : IsLast f.last

/-- No field hides the end of another. The first two hold no separator; the third does not come again
after itself; and no part of the fourth or of the last one is a number that could be the fifth field,
with what follows it as the last. -/
structure Plain (f : Fields α) : Prop where
  first : c ∉ f.first
  second : c ∉ f.second
  third : ∀ x y, third ++ c :: f.fourth ≠ x ++ c :: (third ++ c :: y)
  fourth : ∀ x k, f.fourth = x ++ c :: k → IsNumber k → ¬ IsLast (f.fifth ++ c :: f.last)
  fourth_inner : ∀ x k y, f.fourth = x ++ c :: (k ++ c :: y) → IsNumber k →
    ¬ IsLast (y ++ c :: (f.fifth ++ c :: f.last))
  last : ∀ k y, f.last = k ++ c :: y → IsNumber k → ¬ IsLast y
  last_inner : ∀ x k y, f.last = x ++ c :: (k ++ c :: y) → IsNumber k → ¬ IsLast y

variable {c third IsNumber IsLast} {f f' : Fields α}

theorem not_later (hnumber : ∀ k, IsNumber k → c ∉ k) (hf : f.Plain c third IsNumber IsLast)
    (hvalid : f.Valid IsNumber IsLast) (hvalid' : f'.Valid IsNumber IsLast) {x : List α} :
    f.fifth ++ c :: f.last ≠ x ++ c :: (f'.fifth ++ c :: f'.last) := by
  intro h
  rcases append_sep_cases_of_notMem h (hnumber _ hvalid.fifth) with ⟨-, hlast⟩ | ⟨y, -, hlast⟩
  · exact hf.last _ _ hlast hvalid'.fifth hvalid'.last
  · exact hf.last_inner _ _ _ hlast hvalid'.fifth hvalid'.last

theorem third_not_later (hnumber : ∀ k, IsNumber k → c ∉ k) (hf : f.Plain c third IsNumber IsLast)
    (hvalid : f.Valid IsNumber IsLast) (hvalid' : f'.Valid IsNumber IsLast) {x : List α} :
    third ++ c :: (f.fourth ++ c :: (f.fifth ++ c :: f.last)) ≠
      x ++ c :: (third ++ c :: (f'.fourth ++ c :: (f'.fifth ++ c :: f'.last))) := by
  intro h
  have hcut : (third ++ c :: f.fourth) ++ c :: (f.fifth ++ c :: f.last) =
      (x ++ c :: (third ++ c :: f'.fourth)) ++ c :: (f'.fifth ++ c :: f'.last) := by
    simpa using h
  rcases append_sep_cases hcut with ⟨hsame, -⟩ | ⟨y, -, hlater⟩ | ⟨y, hagain, -⟩
  · exact hf.third _ _ hsame
  · exact not_later hnumber hf hvalid hvalid' hlater
  · exact hf.third x (f'.fourth ++ c :: y) (by simpa using hagain)

/-- A plain text is cut in one way. -/
theorem tail_unique (hnumber : ∀ k, IsNumber k → c ∉ k) (hf : f.Plain c third IsNumber IsLast)
    (hvalid : f.Valid IsNumber IsLast) (hvalid' : f'.Valid IsNumber IsLast)
    (h : f.fourth ++ c :: (f.fifth ++ c :: f.last) =
      f'.fourth ++ c :: (f'.fifth ++ c :: f'.last)) :
    f.fourth = f'.fourth ∧ f.fifth = f'.fifth ∧ f.last = f'.last := by
  rcases append_sep_cases h with ⟨hfourth, htail⟩ | ⟨x, -, hlater⟩ | ⟨x, hfourth, hearlier⟩
  · refine ⟨hfourth, ?_⟩
    rcases append_sep_cases_of_notMem htail (hnumber _ hvalid.fifth) with hsame | ⟨x, hfifth, -⟩
    · exact hsame
    · have hmem : c ∈ f'.fifth := by
        grind
      exact absurd hmem (hnumber _ hvalid'.fifth)
  · exact absurd hlater (not_later hnumber hf hvalid hvalid')
  · exfalso
    rcases append_sep_cases_of_notMem hearlier (hnumber _ hvalid'.fifth) with
      ⟨hfifth, hlast⟩ | ⟨y, hx, hlast⟩
    · refine hf.fourth f'.fourth x hfourth (hfifth ▸ hvalid'.fifth) ?_
      exact hlast ▸ hvalid'.last
    · refine hf.fourth_inner f'.fourth f'.fifth y (hx ▸ hfourth) hvalid'.fifth ?_
      exact hlast ▸ hvalid'.last

theorem unique_of_plain (hnumber : ∀ k, IsNumber k → c ∉ k) (hf : f.Plain c third IsNumber IsLast)
    (hvalid : f.Valid IsNumber IsLast) (hvalid' : f'.Valid IsNumber IsLast)
    (h : f'.text c third = f.text c third) : f' = f := by
  rcases append_sep_cases_of_notMem h.symm hf.first with ⟨hfirst, h⟩ | ⟨x, -, h⟩
  · rcases append_sep_cases_of_notMem h hf.second with ⟨hsecond, h⟩ | ⟨y, -, h⟩
    · obtain ⟨hfourth, hfifth, hlast⟩ := tail_unique hnumber hf hvalid hvalid'
        (List.cons.inj (List.append_cancel_left h)).2
      grind [Fields.ext]
    · exact absurd h (third_not_later hnumber hf hvalid hvalid')
  · have hcut : f.second ++ c :: (third ++ c :: (f.fourth ++ c :: (f.fifth ++ c :: f.last))) =
        (x ++ c :: f'.second) ++ c :: (third ++ c :: (f'.fourth ++ c :: (f'.fifth ++ c :: f'.last))) := by
      simpa using h
    rcases append_sep_cases_of_notMem hcut hf.second with ⟨hsecond, -⟩ | ⟨y, -, h⟩
    · have hmem : c ∈ f.second := by
        grind
      exact absurd hmem hf.second
    · exact absurd h (third_not_later hnumber hf hvalid hvalid')

/-- A text that is not plain is that of other fields, too. -/
theorem exists_other_of_not_plain (hvalid : f.Valid IsNumber IsLast)
    (hf : ¬ f.Plain c third IsNumber IsLast) :
    ∃ f' : Fields α, f'.Valid IsNumber IsLast ∧ f'.text c third = f.text c third ∧ f' ≠ f := by
  by_contra hnone
  have hunique : ∀ f' : Fields α, f'.Valid IsNumber IsLast → f'.text c third = f.text c third →
      f' = f := fun f' hvalid' htext => by_contra fun hne => hnone ⟨f', hvalid', htext, hne⟩
  refine hf ⟨fun hmem => ?_, fun hmem => ?_, fun x y heq => ?_, fun x k heq hk hlast => ?_,
    fun x k y heq hk hlast => ?_, fun k y heq hk hlast => ?_, fun x k y heq hk hlast => ?_⟩
  · obtain ⟨x, y, hxy⟩ := List.append_of_mem hmem
    have hsame := hunique { f with first := x, second := y ++ c :: f.second } ⟨hvalid.1, hvalid.2⟩
      (by simp [text, hxy])
    have hlength := congrArg (fun g : Fields α => g.second.length) hsame
    simp at hlength
    omega
  · obtain ⟨x, y, hxy⟩ := List.append_of_mem hmem
    have hsame := hunique { f with first := f.first ++ c :: x, second := y } ⟨hvalid.1, hvalid.2⟩
      (by simp [text, hxy])
    have hlength := congrArg (fun g : Fields α => g.first.length) hsame
    simp at hlength
  · have hsame := hunique { f with second := f.second ++ c :: x, fourth := y } ⟨hvalid.1, hvalid.2⟩ (by
      grind [text])
    have hlength := congrArg (fun g : Fields α => g.second.length) hsame
    simp at hlength
  · have hsame := hunique { f with fourth := x, fifth := k, last := f.fifth ++ c :: f.last } ⟨hk, hlast⟩
      (by simp [text, heq])
    have hlength := congrArg (fun g : Fields α => g.last.length) hsame
    simp at hlength
    omega
  · have hsame := hunique
      { f with fourth := x, fifth := k, last := y ++ c :: (f.fifth ++ c :: f.last) } ⟨hk, hlast⟩
      (by simp [text, heq])
    have hlength := congrArg (fun g : Fields α => g.last.length) hsame
    simp at hlength
    omega
  · have hsame := hunique { f with fourth := f.fourth ++ c :: f.fifth, fifth := k, last := y } ⟨hk, hlast⟩
      (by simp [text, heq])
    have hlength := congrArg (fun g : Fields α => g.fourth.length) hsame
    simp at hlength
  · have hsame := hunique
      { f with fourth := f.fourth ++ c :: (f.fifth ++ c :: x), fifth := k, last := y } ⟨hk, hlast⟩
      (by simp [text, heq])
    have hlength := congrArg (fun g : Fields α => g.fourth.length) hsame
    simp at hlength

theorem unique_iff (hnumber : ∀ k, IsNumber k → c ∉ k) (hvalid : f.Valid IsNumber IsLast) :
    (∀ f' : Fields α, f'.Valid IsNumber IsLast → f'.text c third = f.text c third → f' = f) ↔
      f.Plain c third IsNumber IsLast := by
  constructor
  · intro hunique
    by_contra hf
    obtain ⟨f', hvalid', htext, hne⟩ := exists_other_of_not_plain hvalid hf
    exact hne (hunique f' hvalid' htext)
  · grind [unique_of_plain]

theorem plain_of_notMem (hfirst : c ∉ f.first) (hsecond : c ∉ f.second) (hfourth : c ∉ f.fourth)
    (hlast : c ∉ f.last) : f.Plain c third IsNumber IsLast := by
  have hmem {x y : List α} : c ∈ x ++ c :: y := List.mem_append_right _ (List.mem_cons_self ..)
  refine ⟨hfirst, hsecond, fun x y heq => ?_, fun x k heq => absurd (heq ▸ hmem) hfourth,
    fun x k y heq => absurd (heq ▸ hmem) hfourth, fun k y heq => absurd (heq ▸ hmem) hlast,
    fun x k y heq => absurd (heq ▸ hmem) hlast⟩
  have hcut : third ++ c :: f.fourth = (x ++ c :: third) ++ c :: y := by simpa using heq
  rcases append_sep_cases hcut with ⟨hthird, -⟩ | ⟨z, -, hfourth'⟩ | ⟨z, hthird, -⟩
  · have hlength := congrArg List.length hthird
    simp at hlength
    omega
  · exact hfourth (hfourth' ▸ hmem)
  · have hlength := congrArg List.length hthird
    simp at hlength
    omega

end Fields

end MichiServer.Text
