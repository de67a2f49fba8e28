import Mathlib.Algebra.Order.Ring.Nat

/-!
# Answers that come in pages

A page holds items and, unless it is the last one, the token that asks for the next.

* `walkPages` : the loop that folds the items of one page after the other;
* `Serves` : the pages that stand behind a token (`walkPages_of_serves`);
* `foldl_satAdd` : a total that stops at a bound.
-/

namespace Lib
open List

variable {α β τ ε : Type*}

structure Page (β τ : Type*) where
  items : List β
  next : Option τ

/-- The loop; nothing when the fuel does not reach the last page. -/
def walkPages (fetch : Option τ → Except ε (Page β τ)) (step : α → β → α) : Nat → Option τ → α → Option (Except ε α)
  | 0, _, _ => none
  | fuel + 1, token, acc =>
    match fetch token with
    | .error e => some (.error e)
    | .ok page =>
      match page.next with
      | some t => walkPages fetch step fuel (some t) (page.items.foldl step acc)
      | none => some (.ok (page.items.foldl step acc))

/-- Behind the token stand these pages, and no more. -/
inductive Serves (fetch : Option τ → Except ε (Page β τ)) : Option τ → List (List β) → Prop
  | last {token : Option τ} {items : List β} (h : fetch token = .ok ⟨items, none⟩) : Serves fetch token [items]
  | more {token : Option τ} {items : List β} {t : τ} {rest : List (List β)} (h : fetch token = .ok ⟨items, some t⟩)
      (hrest : Serves fetch (some t) rest) : Serves fetch token (items :: rest)

variable {fetch : Option τ → Except ε (Page β τ)} {step : α → β → α}

theorem walkPages_of_serves {token : Option τ} {pages : List (List β)} (h : Serves fetch token pages) {fuel : Nat}
    (hfuel : pages.length ≤ fuel) (acc : α) : walkPages fetch step fuel token acc = some (.ok (pages.flatten.foldl step acc)) := by
  induction h generalizing fuel acc with
  | last h =>
    obtain ⟨fuel, rfl⟩ := Nat.exists_eq_succ_of_ne_zero (Nat.one_le_iff_ne_zero.1 hfuel)
    rw [walkPages, h, flatten_singleton]
  | more h hrest ih =>
    rw [length_cons] at hfuel
    obtain ⟨fuel, rfl⟩ := Nat.exists_eq_add_one_of_ne_zero (Nat.ne_zero_of_lt hfuel)
    rw [walkPages, h, flatten_cons, foldl_append]
    exact ih (Nat.le_of_succ_le_succ hfuel) _

theorem serves_of_walkPages {fuel : Nat} {token : Option τ} {acc out : α}
    (h : walkPages fetch step fuel token acc = some (.ok out)) :
    ∃ pages, Serves fetch token pages ∧ out = pages.flatten.foldl step acc := by
  induction fuel generalizing token acc with
  | zero => cases h
  | succ fuel ih =>
    rw [walkPages] at h
    rcases hfetch : fetch token with e | ⟨items, _ | t⟩
    · rw [hfetch] at h
      cases h
    · rw [hfetch] at h
      cases h
      exact ⟨[items], .last hfetch, by rw [flatten_singleton]⟩
    · rw [hfetch] at h
      obtain ⟨rest, hrest, hout⟩ := ih h
      exact ⟨items :: rest, .more hfetch hrest, by rw [hout, flatten_cons, foldl_append]⟩

def maxU64 : Nat := 2 ^ 64 - 1

def satAdd (bound a b : Nat) : Nat := min (a + b) bound

theorem foldl_satAdd {bound : Nat} {step : Nat → β → Nat} {size : β → Nat}
    (hstep : ∀ total ≤ bound, ∀ item, step total item = satAdd bound total (size item)) (items : List β) {total : Nat}
    (htotal : total ≤ bound) : items.foldl step total = min (total + (items.map size).sum) bound := by
  induction items generalizing total with
  | nil => exact (Nat.min_eq_left htotal).symm
  | cons item items ih =>
    have hnext : satAdd bound total (size item) ≤ bound := Nat.min_le_right _ _
    rw [foldl_cons, hstep total htotal, ih hnext, map_cons, sum_cons]
    unfold satAdd
    omega

end Lib
