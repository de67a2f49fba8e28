import Mathlib.Data.Set.Card
import LetsFlutSsh.Lib.RowMerge

/-!
# Counting the changes of a loop

A loop whose passes each touch one key of a view of the state, and count themselves by a test.

* `counted` : the passes that count, each tested in the state it meets;
* `differing` : the number of keys whose value differs between two views;
* `Tells` : the passes have keys of their own and each makes a new value of the one at the start (`differing_eq_iff`).
-/

namespace Lib
open List

variable {σ ι κ β γ : Type}

def counted (f : σ → ι → σ) (hits : σ → ι → Bool) : List ι → σ → List ι
  | [], _ => []
  | a :: l, s => if hits s a then a :: counted f hits l (f s a) else counted f hits l (f s a)

variable {f : σ → ι → σ} {hits : σ → ι → Bool} {a : ι} {s : σ}

theorem counted_cons_of_hit (h : hits s a = true) (l : List ι) :
    counted f hits (a :: l) s = a :: counted f hits l (f s a) := by
  rw [counted, if_pos h]

theorem counted_cons_of_miss (h : hits s a = false) (l : List ι) :
    counted f hits (a :: l) s = counted f hits l (f s a) := by
  rw [counted, h, if_neg Bool.false_ne_true]

variable {l : List ι}

theorem mem_counted (h : a ∈ counted f hits l s) : ∃ t, hits t a = true := by
  induction l generalizing s with
  | nil => cases h
  | cons b l ih =>
    rcases hhit : hits s b with _ | _
    · rw [counted_cons_of_miss hhit] at h
      exact ih h
    · rw [counted_cons_of_hit hhit] at h
      rcases mem_cons.1 h with rfl | h
      · exact ⟨s, hhit⟩
      · exact ih h

theorem counted_eq_filter (test : ι → Bool) (h : ∀ s a, hits s a = test a) (l : List ι) (s : σ) :
    counted f hits l s = l.filter test := by
  induction l generalizing s with
  | nil => rfl
  | cons a l ih =>
    rw [counted, h, ih, filter_cons]

theorem foldl_counts (c : σ → γ) (add : Nat → γ → γ) (hzero : ∀ x, add 0 x = x)
    (hadd : ∀ m n x, add n (add m x) = add (m + n) x) (h : ∀ s a, c (f s a) = add (hits s a).toNat (c s))
    (l : List ι) (s : σ) : c (l.foldl f s) = add (counted f hits l s).length (c s) := by
  induction l generalizing s with
  | nil => exact (hzero _).symm
  | cons a l ih =>
    rw [foldl_cons, ih, h]
    rcases hhit : hits s a with _ | _
    · rw [counted_cons_of_miss hhit, Bool.toNat_false, hzero]
    · rw [counted_cons_of_hit hhit, length_cons, Bool.toNat_true, hadd]
      congr 1
      omega

/-- The number of keys whose value differs. -/
noncomputable def differing (v v' : κ → β) : Nat := {k | v k ≠ v' k}.ncard

theorem differing_self (v : κ → β) : differing v v = 0 := by simp [differing]

/-- Passes with keys of their own, each of which makes a new value of the one that was there. -/
structure Tells (key : ι → κ) (write : ι → β → β) (v : κ → β) (l : List ι) : Prop where
  apart : (l.map key).Nodup
  changes : ∀ a ∈ l, write a (v (key a)) ≠ v (key a)

variable {key : ι → κ}

section Loop

variable {v : σ → κ → β} {write : ι → β → β}

/-- A pass that counts writes the value of its key, and no pass touches another key. -/
structure WritesKeys (f : σ → ι → σ) (hits : σ → ι → Bool) (v : σ → κ → β) (key : ι → κ) (write : ι → β → β) : Prop where
  hit : ∀ s a, hits s a = true → v (f s a) (key a) = write a (v s (key a))
  other : ∀ s a k, k ≠ key a → v (f s a) k = v s k

/-- The passes that do not count leave their key alone, in the states where the loop meets them. -/
def Quiet (f : σ → ι → σ) (hits : σ → ι → Bool) (v : σ → κ → β) (key : ι → κ) (l : List ι) (s : σ) : Prop :=
  ∀ pre a post, l = pre ++ a :: post → hits (pre.foldl f s) a = false →
    v (f (pre.foldl f s) a) (key a) = v (pre.foldl f s) (key a)

theorem quiet_of_forall (h : ∀ s a, hits s a = false → v (f s a) (key a) = v s (key a)) (l : List ι) (s : σ) :
    Quiet f hits v key l s := fun _ _ _ _ => h _ _

theorem Quiet.tail (h : Quiet f hits v key (a :: l) s) : Quiet f hits v key l (f s a) := by
  intro pre b post hsplit
  exact h (a :: pre) b post (by rw [hsplit]; rfl)

section

variable (hw : WritesKeys f hits v key write) {s : σ} (hq : Quiet f hits v key l s)
include hw hq

theorem foldl_of_not_counted {k : κ} (hk : k ∉ (counted f hits l s).map key) : v (l.foldl f s) k = v s k := by
  induction l generalizing s with
  | nil => rfl
  | cons a l ih =>
    rw [foldl_cons]
    rcases hhit : hits s a with _ | _
    · rw [counted_cons_of_miss hhit] at hk
      rw [ih hq.tail hk]
      by_cases hka : k = key a
      · subst hka
        exact hq [] a l rfl hhit
      · exact hw.other s a k hka
    · rw [counted_cons_of_hit hhit, map_cons, mem_cons, not_or] at hk
      rw [ih hq.tail hk.2]
      exact hw.other s a k hk.1

theorem foldl_of_counted (hkeys : ((counted f hits l s).map key).Nodup) (ha : a ∈ counted f hits l s) :
    v (l.foldl f s) (key a) = write a (v s (key a)) := by
  induction l generalizing s with
  | nil => cases ha
  | cons b l ih =>
    rw [foldl_cons]
    rcases hhit : hits s b with _ | _
    · rw [counted_cons_of_miss hhit] at hkeys ha
      rw [ih hq.tail hkeys ha]
      congr 1
      by_cases hab : key a = key b
      · rw [hab]
        exact hq [] b l rfl hhit
      · exact hw.other s b _ hab
    · rw [counted_cons_of_hit hhit] at hkeys ha
      rw [map_cons, nodup_cons] at hkeys
      rcases mem_cons.1 ha with rfl | ha
      · rw [foldl_of_not_counted hw hq.tail hkeys.1]
        exact hw.hit s a hhit
      · have hab : key a ≠ key b := fun h => hkeys.1 (h ▸ mem_map_of_mem ha)
        rw [ih hq.tail hkeys.2 ha, hw.other s b _ hab]

theorem differing_eq_iff :
    (counted f hits l s).length = differing (v s) (v (l.foldl f s)) ↔ Tells key write (v s) (counted f hits l s) := by
  classical
  unfold differing
  have hsub : {k | v s k ≠ v (l.foldl f s) k} ⊆ (((counted f hits l s).map key).toFinset : Set κ) := by
    intro k hk
    by_contra hnot
    rw [coe_toFinset] at hnot
    exact hk (foldl_of_not_counted hw hq hnot).symm
  have hle := Set.ncard_le_ncard hsub
  rw [Set.ncard_coe_finset] at hle
  have hcard := toFinset_card_le ((counted f hits l s).map key)
  rw [length_map] at hcard
  constructor
  · intro hlen
    have hnodup : ((counted f hits l s).map key).Nodup := by
      refine Multiset.coe_nodup.1 (Multiset.toFinset_card_eq_card_iff_nodup.1 ?_)
      rw [Multiset.coe_card, length_map]
      exact hcard.antisymm (by omega)
    have hall : {k | v s k ≠ v (l.foldl f s) k} = (((counted f hits l s).map key).toFinset : Set κ) := by
      apply Set.eq_of_subset_of_ncard_le hsub
      rw [Set.ncard_coe_finset]
      omega
    refine ⟨hnodup, fun a ha heq => ?_⟩
    have hmem : key a ∈ {k | v s k ≠ v (l.foldl f s) k} := by
      rw [hall, coe_toFinset]
      exact mem_map_of_mem ha
    exact hmem (heq.symm.trans (foldl_of_counted hw hq hnodup ha).symm)
  · intro htells
    have hall : {k | v s k ≠ v (l.foldl f s) k} = (((counted f hits l s).map key).toFinset : Set κ) := by
      refine hsub.antisymm fun k hk => ?_
      rw [coe_toFinset] at hk
      obtain ⟨a, ha, rfl⟩ := mem_map.1 hk
      show v s (key a) ≠ v (l.foldl f s) (key a)
      rw [foldl_of_counted hw hq htells.apart ha]
      exact (htells.changes a ha).symm
    rw [hall, Set.ncard_coe_finset, toFinset_card_of_nodup htells.apart, length_map]

end

end Loop

theorem Table.mergeAll_differing_iff {α : Type} [DecidableEq κ] {w : ι → Option α → Option α}
    {test : ι → Bool} (hquiet : ∀ a old, test a = false → w a old = none) (l : List ι) (t : Table κ α) :
    (l.filter test).length = differing t.get (mergeAll key w l t).get ↔
      Tells key (fun a old => (w a old).or old) t.get (l.filter test) := by
  have hw : WritesKeys (fun t a => mergeRow t (key a) (w a)) (fun _ a => test a) Table.get key
      (fun a old => (w a old).or old) :=
    ⟨fun t a _ => get_mergeRow_self t (key a) (w a), fun t a k hk => get_mergeRow_ne t (w a) hk⟩
  have hq : Quiet (fun t a => mergeRow t (key a) (w a)) (fun _ a => test a) Table.get key l t := by
    refine quiet_of_forall (fun t a ha => ?_) l t
    rw [get_mergeRow_self, hquiet a _ ha, Option.none_or]
  have hiff := differing_eq_iff hw hq
  rw [counted_eq_filter test fun _ _ => rfl] at hiff
  exact hiff

end Lib
