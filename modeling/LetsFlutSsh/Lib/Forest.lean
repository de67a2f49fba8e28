import Mathlib.Order.WellFounded

/-!
# Forests given by parent pointers

A partial function `parent : α → Option α` on arbitrary nodes.

* `Up parent a b` : `b` is the parent of `a`;
* `Under parent a b` : following parents from `a` meets `b`, after no step at least;
* `Acyclic parent` : no node is its own proper ancestor;
* `Rooted parent` : the walk up from every node ends (`Rooted.sub`, `rooted_update_iff`).
-/

namespace Lib.Forest
open Function

variable {α : Type} {parent : α → Option α}

/-- `b` is the parent of `a`. -/
def Up (parent : α → Option α) (a b : α) : Prop := parent a = some b

/-- Following parents from `a` meets `b`. -/
def Under (parent : α → Option α) : α → α → Prop := Relation.ReflTransGen (Up parent)

def Acyclic (parent : α → Option α) : Prop := ∀ a, ¬ Relation.TransGen (Up parent) a a

def Rooted (parent : α → Option α) : Prop := WellFounded fun b a => Up parent a b

theorem Rooted.acyclic (h : Rooted parent) : Acyclic parent := by
  intro a
  induction a using h.induction with
  | h a ih =>
    intro hcycle
    obtain ⟨b, hup, hback⟩ := Relation.TransGen.head'_iff.mp hcycle
    exact ih b hup (Relation.TransGen.tail' hback hup)

theorem Rooted.sub {parent' : α → Option α} (h : Rooted parent)
    (hsub : ∀ a b, parent' a = some b → parent a = some b) : Rooted parent' :=
  Subrelation.wf (fun {b a} hup => hsub a b hup) h

theorem under_of_up {a b c : α} (hab : parent a = some b) (hbc : Under parent b c) : Under parent a c :=
  Relation.ReflTransGen.head hab hbc

theorem Under.cases {a c : α} (h : Under parent a c) : a = c ∨ ∃ b, parent a = some b ∧ Under parent b c := by
  rcases Relation.ReflTransGen.cases_head h with rfl | ⟨b, hup, hrest⟩
  · exact .inl rfl
  · exact .inr ⟨b, hup, hrest⟩

section Update

variable [DecidableEq α] {x : α}

theorem acc_update_of_not_under (h : Rooted parent) (p : Option α) {a : α} (ha : ¬ Under parent a x) :
    Acc (fun b a => Up (update parent x p) a b) a := by
  induction a using h.induction with
  | h a ih =>
    have hne : a ≠ x := by
      rintro rfl
      exact ha .refl
    refine Acc.intro a fun b hup => ?_
    rw [Up, update_of_ne hne] at hup
    exact ih b hup fun hb => ha (under_of_up hup hb)

theorem Rooted.update (h : Rooted parent) {p : Option α} (hp : ∀ y, p = some y → ¬ Under parent y x) :
    Rooted (update parent x p) := by
  refine ⟨fun a => ?_⟩
  induction a using h.induction with
  | h a ih =>
    refine Acc.intro a fun b hup => ?_
    by_cases hax : a = x
    · subst hax
      rw [Up, update_self] at hup
      exact acc_update_of_not_under h p (hp b hup)
    · rw [Up, update_of_ne hax] at hup
      exact ih b hup

theorem Under.update {a : α} (h : Under parent a x) (p : Option α) : Under (update parent x p) a x := by
  induction h using Relation.ReflTransGen.head_induction_on with
  | refl => exact .refl
  | @head a b hup _ ih =>
    by_cases hax : a = x
    · rw [hax]
      exact .refl
    · refine under_of_up ?_ ih
      rw [update_of_ne hax]
      exact hup

theorem rooted_update_iff (h : Rooted parent) (p : Option α) :
    Rooted (update parent x p) ↔ ∀ y, p = some y → ¬ Under parent y x := by
  refine ⟨fun hroot y hy hunder => ?_, h.update⟩
  have hup : Up (update parent x p) x y := by rw [Up, update_self, hy]
  exact hroot.acyclic x (Relation.TransGen.head' hup (hunder.update p))

theorem Acyclic.update (h : Acyclic parent) {p : Option α}
    (hp : ∀ y, p = some y → ¬Under parent y x) : Acyclic (update parent x p) := by
  -- A way of the new pointers is one of the old, or goes to `x` and on from its new parent.
  have hway : ∀ {a b}, Relation.TransGen (Up (Function.update parent x p)) a b →
      Relation.TransGen (Up parent) a b ∨ Under parent a x ∧ ∃ y, p = some y ∧ Under parent y b := by
    intro a b hab
    induction hab using Relation.TransGen.head_induction_on with
    | @single a hup =>
      by_cases hax : a = x
      · subst hax
        rw [Up, update_self] at hup
        exact .inr ⟨.refl, b, hup, .refl⟩
      · rw [Up, update_of_ne hax] at hup
        exact .inl (.single hup)
    | @head a c hup _ ih =>
      by_cases hax : a = x
      · subst hax
        rw [Up, update_self] at hup
        rcases ih with hcb | ⟨-, hlast⟩
        · exact .inr ⟨.refl, c, hup, hcb.to_reflTransGen⟩
        · exact .inr ⟨.refl, hlast⟩
      · rw [Up, update_of_ne hax] at hup
        rcases ih with hcb | ⟨hcx, hlast⟩
        · exact .inl (.head hup hcb)
        · exact .inr ⟨under_of_up hup hcx, hlast⟩
  intro a hcycle
  rcases hway hcycle with hcycle | ⟨hax, y, hy, hya⟩
  · exact h a hcycle
  · exact hp y hy (hya.trans hax)

end Update

end Lib.Forest
