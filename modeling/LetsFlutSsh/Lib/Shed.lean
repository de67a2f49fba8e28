import Mathlib.Algebra.Order.Ring.Nat
import Mathlib.Algebra.BigOperators.Group.List.Basic
import Mathlib.Data.List.Infix

/-!
# Shedding down to a budget

A store over its budget drops items in a fixed order until it is within it.

* `shed size cap used l` : the items dropped, a prefix of `l` (`shed_prefix`);
* `prefix_shed_iff` : an item is dropped exactly when those before it do not suffice.
-/

namespace Lib
open List

variable {α : Type} (size : α → Nat) (cap : Nat)

/-- The items of `l` that are dropped from a store of `used`, in order. -/
def shed : Nat → List α → List α
  | _, [] => []
  | used, x :: l => if used ≤ cap then [] else x :: shed (used - size x) l

def weight (l : List α) : Nat := (l.map size).sum

variable {size cap}

@[simp] theorem weight_nil : weight size [] = 0 := rfl
@[simp] theorem weight_cons (x : α) (l : List α) : weight size (x :: l) = size x + weight size l := rfl

@[simp] theorem weight_append (l m : List α) : weight size (l ++ m) = weight size l + weight size m := by
  simp [weight]

theorem weight_perm (size : α → Nat) {l m : List α} (h : l.Perm m) : weight size l = weight size m := (h.map size).sum_eq

theorem shed_of_le {used : Nat} (h : used ≤ cap) (l : List α) : shed size cap used l = [] := by
  cases l with
  | nil => rfl
  | cons x l => exact if_pos h

variable (used : Nat)

theorem shed_prefix (l : List α) : shed size cap used l <+: l := by
  induction l generalizing used with
  | nil => exact nil_prefix
  | cons x l ih =>
    rw [shed]
    split_ifs
    · exact nil_prefix
    · exact cons_prefix_cons.mpr ⟨rfl, ih _⟩

variable (size cap)

theorem shed_enough (l : List α) :
    used - weight size (shed size cap used l) ≤ cap ∨ shed size cap used l = l := by
  induction l generalizing used with
  | nil => exact .inr rfl
  | cons x l ih =>
    rw [shed]
    split_ifs with hcap
    · exact .inl hcap
    · rcases ih (used - size x) with h | h
      · left
        rwa [weight_cons, ← Nat.sub_sub]
      · right
        rw [h]

theorem prefix_shed_iff (pre : List α) (x : α) (post : List α) :
    pre ++ [x] <+: shed size cap used (pre ++ x :: post) ↔ cap + weight size pre < used := by
  induction pre generalizing used with
  | nil =>
    rw [nil_append, nil_append, shed]
    split_ifs with hcap
    · refine iff_of_false (fun h => ?_) (by rw [weight_nil]; omega)
      exact absurd (prefix_nil.mp h) (cons_ne_nil _ _)
    · exact iff_of_true (cons_prefix_cons.mpr ⟨rfl, nil_prefix⟩) (by rw [weight_nil]; omega)
  | cons y pre ih =>
    rw [cons_append, cons_append, shed, weight_cons]
    split_ifs with hcap
    · refine iff_of_false (fun h => ?_) (by omega)
      exact absurd (prefix_nil.mp h) (cons_ne_nil _ _)
    · rw [cons_prefix_cons, and_iff_right rfl, ih]
      omega

theorem shed_overshoot {bound : Nat} {l : List α} (h : ∀ x ∈ l, size x < bound) :
    shed size cap used l = [] ∨ weight size (shed size cap used l) < used + bound := by
  induction l generalizing used with
  | nil => exact .inl rfl
  | cons x l ih =>
    obtain ⟨hx, hl⟩ := forall_mem_cons.mp h
    rw [shed]
    split_ifs with hcap
    · exact .inl rfl
    right
    rw [weight_cons]
    rcases ih (used - size x) hl with hnil | hlt
    · rw [hnil, weight_nil]
      omega
    · by_cases hfull : size x ≤ used
      · omega
      · have hzero : used - size x = 0 := by omega
        rw [hzero] at hlt ⊢
        rw [shed_of_le (Nat.zero_le _), weight_nil]
        omega

end Lib
