import Mathlib.Data.Finset.Image
import Mathlib.Tactic.Ring

/-!
# Page locks

The system locks whole pages, and a lock does not count: one unlock undoes any number of locks.

* `Extent` : a range of addresses; `Extent.pages` : the pages that hold one of its bytes;
* `Apart` : two ranges share no page;
* `Covered` : every page of a range is locked;
* `Tight` : every locked page is one of some live range.
-/

namespace Lib

structure Extent where
  addr : Nat
  len : Nat

variable {size : Nat} {x y : Extent} {locked : Finset Nat}

def Extent.pages (size : Nat) (x : Extent) : Finset Nat := (Finset.range x.len).image fun i => (x.addr + i) / size

theorem Extent.pages_nil (h : x.len = 0) : x.pages size = ∅ := by
  rw [Extent.pages, h, Finset.range_zero, Finset.image_empty]

def Apart (size : Nat) (x y : Extent) : Prop := Disjoint (x.pages size) (y.pages size)

instance : Decidable (Apart size x y) := inferInstanceAs (Decidable (Disjoint _ _))

def Covered (size : Nat) (locked : Finset Nat) (x : Extent) : Prop := x.pages size ⊆ locked

instance : Decidable (Covered size locked x) := inferInstanceAs (Decidable (x.pages size ⊆ locked))

theorem Covered.lock (h : Covered size locked x) (y : Extent) : Covered size (locked ∪ y.pages size) x :=
  h.trans Finset.subset_union_left

theorem covered_lock_self (locked : Finset Nat) (x : Extent) : Covered size (locked ∪ x.pages size) x :=
  Finset.subset_union_right

theorem covered_unlock_iff (h : Covered size locked x) : Covered size (locked \ y.pages size) x ↔ Apart size y x := by
  rw [Covered, Finset.subset_sdiff]
  exact ⟨fun hboth => hboth.2.symm, fun hapart => ⟨h, hapart.symm⟩⟩

def Tight (size : Nat) (locked : Finset Nat) (live : Extent → Prop) : Prop :=
  ∀ p ∈ locked, ∃ x, live x ∧ p ∈ x.pages size

section Tight

variable {live live' : Extent → Prop}

theorem tight_empty : Tight size ∅ live := by
  intro p hp
  simp at hp

section

variable (h : Tight size locked live)
include h

theorem Tight.lock (hlive : ∀ x, live x → live' x) (hy : live' y) : Tight size (locked ∪ y.pages size) live' := by
  intro p hp
  rcases Finset.mem_union.1 hp with hp | hp
  · obtain ⟨x, hx, hpx⟩ := h p hp
    exact ⟨x, hlive x hx, hpx⟩
  · exact ⟨y, hy, hp⟩

theorem Tight.unlock (hlive : ∀ x, live x → x = y ∨ live' x) : Tight size (locked \ y.pages size) live' := by
  intro p hp
  obtain ⟨hlocked, hy⟩ := Finset.mem_sdiff.1 hp
  obtain ⟨x, hx, hpx⟩ := h p hlocked
  rcases hlive x hx with rfl | hx'
  · exact absurd hpx hy
  · exact ⟨x, hx', hpx⟩

theorem Tight.mono (hlive : ∀ x, live x → live' x) : Tight size locked live' := by
  intro p hp
  obtain ⟨x, hx, hpx⟩ := h p hp
  exact ⟨x, hlive x hx, hpx⟩

theorem Tight.eq_empty (hnone : ∀ x, ¬ live x) : locked = ∅ := by
  rw [Finset.eq_empty_iff_forall_notMem]
  intro p hp
  obtain ⟨x, hx, -⟩ := h p hp
  exact hnone x hx

end

end Tight

end Lib
