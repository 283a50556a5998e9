import MichiServer.Interleave.System

/-!
# One program in a changing world

A program that is alone but in a world that does not hold still: each action is answered by the world
as it is at that moment, and leaves the world that the next action meets. Whatever happens in between
is part of what an action leaves.

`Along P p w` says that every action the program does has `P` in the world it is done in. `Meets`
assumes something of the actions and promises something of them and of the end; its rules follow the
way a program is written.
-/

set_option autoImplicit false

namespace MichiServer.Interleave

variable {Act : Type} {Resp : Act → Type} {World α β ε : Type}

namespace Prog

variable (exec : (a : Act) → World → Resp a × World)

/-- The result of a program and the world it leaves. -/
def play : Prog Resp α → World → α × World
  | .ret a, w => (a, w)
  | .act a k, w => (k (exec a w).1).play (exec a w).2

/-- Every action that is done has the property, in the world it is done in. -/
def Along (P : Act → World → Prop) : Prog Resp α → World → Prop
  | .ret _, _ => True
  | .act a k, w => P a w ∧ (k (exec a w).1).Along P (exec a w).2

/-- As long as the actions are allowed they are as promised, and the program ends in `Post`. -/
def Meets (Allowed Promised : Act → World → Prop) (Post : α → World → Prop) :
    Prog Resp α → World → Prop
  | .ret a, w => Post a w
  | .act a k, w => Allowed a w →
      Promised a w ∧ (k (exec a w).1).Meets Allowed Promised Post (exec a w).2

instance (P : Act → World → Prop) [∀ a w, Decidable (P a w)] :
    (p : Prog Resp α) → (w : World) → Decidable (p.Along exec P w)
  | .ret _, _ => inferInstanceAs (Decidable True)
  | .act a k, w =>
    have : Decidable ((k (exec a w).1).Along exec P (exec a w).2) := instDecidableAlong P _ _
    inferInstanceAs (Decidable (P a w ∧ (k (exec a w).1).Along exec P (exec a w).2))

variable {exec}

theorem Along.mono {P Q : Act → World → Prop} (hPQ : ∀ a w, P a w → Q a w) {p : Prog Resp α}
    {w : World} (h : p.Along exec P w) : p.Along exec Q w := by
  induction p generalizing w with
  | ret a => trivial
  | act a k ih => exact ⟨hPQ a w h.1, ih _ h.2⟩

section

variable {Allowed Promised : Act → World → Prop} {Post : α → World → Prop} {Q : β → World → Prop}
  {w : World}

variable {p : Prog Resp α}

theorem Meets.mono {Post' : α → World → Prop}
    (h : p.Meets exec Allowed Promised Post w) (hPost : ∀ a w', Post a w' → Post' a w') :
    p.Meets exec Allowed Promised Post' w := by
  induction p generalizing w with
  | ret a => exact hPost a w h
  | act a k ih =>
    intro ha
    obtain ⟨hpromised, hrest⟩ := h ha
    exact ⟨hpromised, ih _ hrest⟩

/-- Nothing is asked. -/
theorem Meets.top (p : Prog Resp α) :
    p.Meets exec Allowed (fun _ _ => True) (fun _ _ => True) w := by
  induction p generalizing w with
  | ret a => exact trivial
  | act a k ih => exact fun _ => ⟨trivial, ih _⟩

theorem Meets.and {Post' : α → World → Prop}
    (h : p.Meets exec Allowed Promised Post w) (h' : p.Meets exec Allowed Promised Post' w) :
    p.Meets exec Allowed Promised (fun a w' => Post a w' ∧ Post' a w') w := by
  induction p generalizing w with
  | ret a => exact ⟨h, h'⟩
  | act a k ih =>
    intro ha
    obtain ⟨hpromised, hrest⟩ := h ha
    exact ⟨hpromised, ih _ hrest (h' ha).2⟩

/-- What a program meets when more is allowed it meets when less is. -/
theorem Meets.allow {Allowed' : Act → World → Prop}
    (h : p.Meets exec Allowed Promised Post w) (hallow : ∀ a w, Allowed' a w → Allowed a w) :
    p.Meets exec Allowed' Promised Post w := by
  induction p generalizing w with
  | ret a => exact h
  | act a k ih =>
    intro ha
    obtain ⟨hpromised, hrest⟩ := h (hallow a w ha)
    exact ⟨hpromised, ih _ hrest⟩

/-- A sequence: the rest must do well from whatever the first part leaves. -/
theorem Meets.bind {f : α → Prog Resp β}
    (h : p.Meets exec Allowed Promised (fun a w' => (f a).Meets exec Allowed Promised Q w') w) :
    (p >>= f).Meets exec Allowed Promised Q w := by
  induction p generalizing w with
  | ret a => exact h
  | act a k ih =>
    intro ha
    obtain ⟨hpromised, hrest⟩ := h ha
    exact ⟨hpromised, ih _ hrest⟩

/-- One action and the rest. -/
theorem Meets.step {a : Act} {f : Resp a → Prog Resp β}
    (h : Allowed a w →
      Promised a w ∧ (f (exec a w).1).Meets exec Allowed Promised Q (exec a w).2) :
    (Prog.perform a >>= f).Meets exec Allowed Promised Q w := h

theorem Meets.ite {c : Prop} [Decidable c] {p q : Prog Resp α}
    (hp : c → p.Meets exec Allowed Promised Post w)
    (hq : ¬ c → q.Meets exec Allowed Promised Post w) :
    (if c then p else q).Meets exec Allowed Promised Post w := by
  grind

/-- Where every action was allowed, every action was as promised and the end is reached. -/
theorem Meets.along (h : p.Meets exec Allowed Promised Post w) (hallowed : p.Along exec Allowed w) :
    p.Along exec Promised w ∧ Post (p.play exec w).1 (p.play exec w).2 := by
  induction p generalizing w with
  | ret a => exact ⟨trivial, h⟩
  | act a k ih =>
    obtain ⟨ha, hrest⟩ := hallowed
    obtain ⟨hpromised, hmeets⟩ := h ha
    obtain ⟨halong, hend⟩ := ih _ hmeets hrest
    exact ⟨⟨hpromised, halong⟩, hend⟩

end

end Prog

end MichiServer.Interleave
