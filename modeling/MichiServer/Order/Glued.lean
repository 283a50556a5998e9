import Mathlib.Data.Set.Insert
import Mathlib.Order.Basic
import Mathlib.Order.Defs.LinearOrder

/-!
# Orders glued from two keys

Some relations rank the members of one family by one key and everything else by another: a
replica's own history by its counters, the histories of different replicas by a shared clock. Each
key alone is a linear order, so the glued relation is irreflexive and asymmetric for free
(`Glue.irrefl`, `Glue.asymm`). Transitivity is the part that is not free: two members of one family
can stand one way by their own key and the other way by the shared one, and an outsider can stand
between them. `Glue.Straddled` names that arrangement, and `Glue.strictTotalOn_iff` says it is the
only obstacle, on any set.
-/

set_option autoImplicit false

namespace MichiServer.Order

variable {α κ μ : Type*}

/-- A relation is a strict total order on a set: irreflexive, asymmetric and transitive there, and
any two members that `apart` tells from each other are comparable. -/
structure StrictTotalOn (r apart : α → α → Prop) (S : Set α) : Prop where
  irrefl : ∀ x ∈ S, ¬ r x x
  asymm : ∀ x ∈ S, ∀ y ∈ S, r x y → ¬ r y x
  trans : ∀ x ∈ S, ∀ y ∈ S, ∀ z ∈ S, r x y → r y z → r x z
  comparable : ∀ x ∈ S, ∀ y ∈ S, apart x y → r x y ∨ r y x

/-- The data of a glued relation: who belongs to one family, the key inside a family, and the key
across families. An outsider never shares a cross key with a member of a family. -/
structure Glue (α κ μ : Type*) [LinearOrder κ] [LinearOrder μ] where
  same : α → α → Prop
  own : α → κ
  cross : α → μ
  same_symm : ∀ {x y}, same x y → same y x
  same_trans : ∀ {x y z}, same x y → same y z → same x z
  cross_ne : ∀ {x z}, same x x → ¬ same x z → cross x ≠ cross z

namespace Glue

variable [LinearOrder κ] [LinearOrder μ] (G : Glue α κ μ)

/-- `a` stands above `b`: by the family's own key when both are of one family, by the cross key
otherwise. -/
def Above (a b : α) : Prop :=
  (G.same a b ∧ G.own b < G.own a) ∨ (¬ G.same a b ∧ G.cross b < G.cross a)

/-- Two members of different families, each of a family. -/
def Apart (a b : α) : Prop := G.same a a ∧ G.same b b ∧ ¬ G.same a b

/-- `z` stands between two members of one family that their own key orders the other way. -/
def Straddled (x z y : α) : Prop :=
  G.same x y ∧ ¬ G.same x z ∧ G.cross y < G.cross z ∧ G.cross z < G.cross x ∧ G.own x ≤ G.own y

variable {G} {a b c x y z : α} {S : Set α}

theorem same_left (h : G.same x y) : G.same x x := G.same_trans h (G.same_symm h)

theorem same_right (h : G.same x y) : G.same y y := G.same_trans (G.same_symm h) h

theorem above_of_same (h : G.same a b) : G.Above a b ↔ G.own b < G.own a := by
  grind [Above]

theorem above_of_not_same (h : ¬ G.same a b) : G.Above a b ↔ G.cross b < G.cross a := by
  grind [Above]

/-- Nothing stands above itself, whichever key compares it. -/
theorem irrefl : ¬ G.Above a a := by
  rintro (⟨_, h⟩ | ⟨_, h⟩) <;> exact lt_irrefl _ h

/-- Both directions of one pair are compared by one key, so they exclude each other. -/
theorem asymm (h : G.Above a b) : ¬ G.Above b a := by
  by_cases hs : G.same a b
  · rw [above_of_same hs] at h
    rw [above_of_same (G.same_symm hs)]
    exact lt_asymm h
  · rw [above_of_not_same hs] at h
    rw [above_of_not_same fun h' => hs (G.same_symm h')]
    exact lt_asymm h

theorem comparable (h : G.Apart a b) : G.Above a b ∨ G.Above b a := by
  obtain ⟨ha, _, hab⟩ := h
  rw [above_of_not_same hab, above_of_not_same fun h' => hab (G.same_symm h')]
  exact (lt_or_gt_of_ne (G.cross_ne ha hab)).symm

/-- The one way transitivity fails: a step inside a family and a step out of it, or two steps out
and back, that straddle an outsider. -/
theorem trans_or_straddled (hab : G.Above a b) (hbc : G.Above b c) :
    G.Above a c ∨ G.Straddled b c a ∨ G.Straddled c a b ∨ G.Straddled a b c := by
  by_cases sab : G.same a b
  · rw [above_of_same sab] at hab
    by_cases sbc : G.same b c
    · rw [above_of_same sbc] at hbc
      exact .inl ((above_of_same (G.same_trans sab sbc)).mpr (lt_trans hbc hab))
    · rw [above_of_not_same sbc] at hbc
      have sac : ¬ G.same a c := fun h => sbc (G.same_trans (G.same_symm sab) h)
      rcases lt_or_gt_of_ne (G.cross_ne (same_left sab) sac) with h | h
      · exact .inr (.inl ⟨G.same_symm sab, sbc, h, hbc, hab.le⟩)
      · exact .inl ((above_of_not_same sac).mpr h)
  · rw [above_of_not_same sab] at hab
    by_cases sbc : G.same b c
    · rw [above_of_same sbc] at hbc
      have sca : ¬ G.same c a := fun h => sab (G.same_symm (G.same_trans sbc h))
      rcases lt_or_gt_of_ne (G.cross_ne (same_right sbc) sca) with h | h
      · exact .inl ((above_of_not_same fun h' => sca (G.same_symm h')).mpr h)
      · exact .inr (.inr (.inl ⟨G.same_symm sbc, sca, hab, h, hbc.le⟩))
    · rw [above_of_not_same sbc] at hbc
      by_cases sac : G.same a c
      · rcases lt_or_ge (G.own c) (G.own a) with h | h
        · exact .inl ((above_of_same sac).mpr h)
        · exact .inr (.inr (.inr ⟨sac, sab, hbc, hab, h⟩))
      · exact .inl ((above_of_not_same sac).mpr (lt_trans hbc hab))

/-- The one way a third member can stand neither below the upper nor above the lower of two: it and
they are straddled. -/
theorem above_or_above_or_straddled (h : G.Above x y) (z : α) :
    G.Above x z ∨ G.Above z y ∨ G.Straddled y z x ∨ G.Straddled x y z ∨ G.Straddled z x y := by
  by_cases sxy : G.same x y
  · rw [above_of_same sxy] at h
    by_cases sxz : G.same x z
    · have szy : G.same z y := G.same_trans (G.same_symm sxz) sxy
      grind [above_of_same]
    · have syz : ¬ G.same y z := fun hyz => sxz (G.same_trans sxy hyz)
      rw [above_of_not_same sxz, above_of_not_same fun hzy => syz (G.same_symm hzy)]
      rcases lt_or_gt_of_ne (G.cross_ne (same_left sxy) sxz) with hxz | hzx
      · rcases lt_or_gt_of_ne (G.cross_ne (same_right sxy) syz) with hyz | hzy
        · exact .inr (.inl hyz)
        · exact .inr (.inr (.inl ⟨G.same_symm sxy, syz, hxz, hzy, h.le⟩))
      · exact .inl hzx
  · rw [above_of_not_same sxy] at h
    by_cases sxz : G.same x z
    · have szy : ¬ G.same z y := fun hzy => sxy (G.same_trans sxz hzy)
      rw [above_of_same sxz, above_of_not_same szy]
      rcases lt_or_ge (G.own z) (G.own x) with hzx | hxz
      · exact .inl hzx
      · rcases lt_or_gt_of_ne (G.cross_ne (same_right sxz) szy) with hlt | hgt
        · exact .inr (.inr (.inr (.inl ⟨sxz, sxy, hlt, h, hxz⟩)))
        · exact .inr (.inl hgt)
    · rw [above_of_not_same sxz]
      by_cases szy : G.same z y
      · have szx : ¬ G.same z x := fun hzx => sxz (G.same_symm hzx)
        rw [above_of_same szy]
        rcases lt_or_ge (G.own y) (G.own z) with hyz | hzy
        · exact .inr (.inl hyz)
        · rcases lt_or_gt_of_ne (G.cross_ne (same_left szy) szx) with hlt | hgt
          · exact .inl hlt
          · exact .inr (.inr (.inr (.inr ⟨szy, szx, h, hgt, hzy⟩)))
      · grind [above_of_not_same]

/-- A straddled triple breaks transitivity: the outsider links two members that are not linked. -/
theorem Straddled.not_trans (h : G.Straddled x z y) :
    G.Above x z ∧ G.Above z y ∧ ¬ G.Above x y := by
  obtain ⟨sxy, sxz, hyz, hzx, hown⟩ := h
  have szy : ¬ G.same z y := fun h => sxz (G.same_trans sxy (G.same_symm h))
  grind [above_of_not_same, above_of_same]

/-- **A glued relation is a strict total order exactly where nothing is straddled.** -/
theorem strictTotalOn_iff :
    StrictTotalOn G.Above G.Apart S ↔ ∀ x ∈ S, ∀ z ∈ S, ∀ y ∈ S, ¬ G.Straddled x z y := by
  constructor
  · intro h x hx z hz y hy hs
    obtain ⟨hxz, hzy, hxy⟩ := hs.not_trans
    exact hxy (h.trans x hx z hz y hy hxz hzy)
  · intro h
    refine ⟨fun _ _ => irrefl, fun _ _ _ _ => asymm, ?_, fun _ _ _ _ => comparable⟩
    grind [trans_or_straddled]

end Glue

end MichiServer.Order
