import Mathlib.Data.List.Count
import Mathlib.Data.List.Induction
import Mathlib.Data.List.Perm.Basic

/-!
# Grouping items by their first key

An item is a list of keys with something that may stand at its end.

* `slots` : what stands at the first level, in the order of the items: a branch for every first key, a leaf for every item
  without keys;
* `under` : the items of a branch, without their first key (`slots_perm`, `flatMap_slots_perm`).
-/

namespace Lib
open List

abbrev Item (κ σ : Type) := List κ × Option σ

inductive Slot (κ σ : Type) where
  | branch (k : κ)
  | leaf (s : σ)
deriving DecidableEq

variable {κ σ : Type}

def slotOf : Item κ σ → Option (Slot κ σ)
  | (k :: _, _) => some (.branch k)
  | ([], some s) => some (.leaf s)
  | ([], none) => none

section Strip

variable [DecidableEq κ] {k k' : κ} {items items' : List (Item κ σ)}

def strip (k : κ) : Item κ σ → Option (Item κ σ)
  | (k' :: rest, s) => if k' = k then some (rest, s) else none
  | ([], _) => none

def under (k : κ) (items : List (Item κ σ)) : List (Item κ σ) := items.filterMap (strip k)

theorem under_concat (k : κ) (items : List (Item κ σ)) (item : Item κ σ) :
    under k (items ++ [item]) = under k items ++ (strip k item).toList := by
  unfold under
  rw [filterMap_append]
  congr 1

theorem under_cons (k : κ) (item : Item κ σ) (items : List (Item κ σ)) :
    under k (item :: items) = (strip k item).toList ++ under k items := by
  unfold under
  rw [filterMap_cons]
  cases strip k item <;> rfl

theorem under_append (k : κ) (items items' : List (Item κ σ)) : under k (items ++ items') = under k items ++ under k items' :=
  filterMap_append

theorem strip_self (k : κ) (rest : List κ) (o : Option σ) : strip k (k :: rest, o) = some (rest, o) := if_pos rfl
theorem strip_ne (h : k' ≠ k) (rest : List κ) (o : Option σ) : strip k (k' :: rest, o) = none := if_neg h

theorem under_perm (k : κ) (h : items.Perm items') : (under k items).Perm (under k items') := h.filterMap _

end Strip

variable [DecidableEq κ] [DecidableEq σ]

def addSlot (slots : List (Slot κ σ)) (item : Item κ σ) : List (Slot κ σ) :=
  match slotOf item with
  | none => slots
  | some (.leaf s) => slots ++ [.leaf s]
  | some (.branch k) => if .branch k ∈ slots then slots else slots ++ [.branch k]

def slots (items : List (Item κ σ)) : List (Slot κ σ) := items.foldl addSlot []

variable {items items' : List (Item κ σ)} {k : κ}

theorem slots_concat (items : List (Item κ σ)) (item : Item κ σ) : slots (items ++ [item]) = addSlot (slots items) item := by
  unfold slots
  rw [foldl_append]
  rfl

theorem branch_mem_slots : .branch k ∈ slots items ↔ ∃ rest o, (k :: rest, o) ∈ items := by
  induction items using List.reverseRecOn with
  | nil => exact ⟨fun h => absurd h not_mem_nil, fun ⟨_, _, h⟩ => absurd h not_mem_nil⟩
  | append_singleton items item ih =>
    rw [slots_concat]
    obtain ⟨_ | ⟨k', rest⟩, o⟩ := item
    · have hkeep : (.branch k ∈ addSlot (slots items) (([], o) : Item κ σ)) ↔ .branch k ∈ slots items := by
        cases o with
        | none => exact Iff.rfl
        | some s => simp [addSlot, slotOf]
      rw [hkeep, ih]
      simp
    · have hadd : (.branch k ∈ addSlot (slots items) (k' :: rest, o)) ↔ .branch k ∈ slots items ∨ k = k' := by
        show ((Slot.branch k : Slot κ σ) ∈ if _ then _ else _) ↔ _
        split_ifs with hmem
        · exact ⟨.inl, fun h => h.elim id fun heq => heq ▸ hmem⟩
        · simp
      rw [hadd, ih]
      constructor
      · rintro (⟨rest', o', h⟩ | rfl)
        · exact ⟨rest', o', mem_append_left _ h⟩
        · exact ⟨rest, o, mem_append_right _ mem_cons_self⟩
      · rintro ⟨rest', o', h⟩
        rcases mem_append.1 h with h | h
        · exact .inl ⟨rest', o', h⟩
        · cases mem_singleton.1 h
          exact .inr rfl

theorem under_eq_nil (h : .branch k ∉ slots items) : under k items = [] := by
  unfold under
  rw [filterMap_eq_nil_iff]
  rintro ⟨_ | ⟨k', rest⟩, o⟩ hitem
  · rfl
  · refine strip_ne ?_ rest o
    rintro rfl
    exact h (branch_mem_slots.2 ⟨rest, o, hitem⟩)

theorem count_branch_le (k : κ) (items : List (Item κ σ)) : (slots items).count (.branch k) ≤ 1 := by
  induction items using List.reverseRecOn with
  | nil => exact Nat.zero_le 1
  | append_singleton items item ih =>
    rw [slots_concat]
    unfold addSlot
    split
    · exact ih
    · rw [count_append]
      simpa using ih
    · next k' _ =>
      split_ifs with hmem
      · exact ih
      · rw [count_append]
        rcases Decidable.em (k' = k) with rfl | hne
        · rw [count_eq_zero.2 hmem]
          simp
        · simpa [hne] using ih

theorem exists_split (h : .branch k ∈ slots items) :
    ∃ front back, slots items = front ++ .branch k :: back ∧ .branch k ∉ front ∧ .branch k ∉ back := by
  obtain ⟨front, back, hsplit⟩ := append_of_mem h
  have hcount := count_branch_le k items
  rw [hsplit, count_append, count_cons_self] at hcount
  exact ⟨front, back, hsplit, count_eq_zero.1 (by omega), count_eq_zero.1 (by omega)⟩

theorem slots_pairwise (items : List (Item κ σ)) : (slots items).Pairwise fun x y => ∀ k, x = .branch k → y ≠ .branch k := by
  have hall : ∀ l : List (Slot κ σ), (∀ k, l.count (.branch k) ≤ 1) →
      l.Pairwise fun x y => ∀ k, x = .branch k → y ≠ .branch k := by
    intro l
    induction l with
    | nil => exact fun _ => .nil
    | cons x l ih =>
      intro hle
      refine pairwise_cons.2 ⟨fun y hy k hx hyk => ?_, ih fun k => Nat.le_trans count_le_count_cons (hle k)⟩
      have hpos : 0 < l.count (.branch k) := count_pos_iff.2 (hyk ▸ hy)
      have htwo := hle k
      rw [hx, count_cons_self] at htwo
      omega
  exact hall _ fun k => count_branch_le k items

theorem count_leaf (s : σ) (items : List (Item κ σ)) : (slots items).count (.leaf s) = items.count ([], some s) := by
  induction items using List.reverseRecOn with
  | nil => rfl
  | append_singleton items item ih =>
    rw [slots_concat, count_append, ← ih]
    obtain ⟨_ | ⟨k', rest⟩, _ | s'⟩ := item
    · simp [addSlot, slotOf]
    · simp [addSlot, slotOf, count_append, count_singleton]
    · show (if _ then _ else _ : List (Slot κ σ)).count _ = _
      split_ifs <;> simp
    · show (if _ then _ else _ : List (Slot κ σ)).count _ = _
      split_ifs <;> simp

theorem slots_perm (h : items.Perm items') : (slots items).Perm (slots items') := by
  rw [perm_iff_count]
  rintro (k | s)
  · have hle := count_branch_le k items
    have hle' := count_branch_le k items'
    have hiff : 0 < (slots items).count (.branch k) ↔ 0 < (slots items').count (.branch k) := by
      rw [count_pos_iff, count_pos_iff, branch_mem_slots, branch_mem_slots]
      simp only [h.mem_iff]
    omega
  · rw [count_leaf, count_leaf, h.count_eq]

def gather {β : Type} (f : Item κ σ → List β) (items : List (Item κ σ)) : Slot κ σ → List β
  | .leaf s => f ([], some s)
  | .branch k => (under k items).flatMap fun i => f (k :: i.1, i.2)

theorem flatMap_slots_perm {β : Type} (f : Item κ σ → List β) (hnone : f ([], none) = []) (items : List (Item κ σ)) :
    ((slots items).flatMap (gather f items)).Perm (items.flatMap f) := by
  induction items using List.reverseRecOn with
  | nil => exact .nil
  | append_singleton items item ih =>
    rw [slots_concat, flatMap_append, flatMap_singleton]
    obtain ⟨_ | ⟨k, rest⟩, o⟩ := item
    · have hsame : gather f (items ++ [([], o)]) = gather f items := by
        funext slot
        cases slot with
        | leaf s => rfl
        | branch k =>
          have hunder : under k (items ++ [([], o)]) = under k items := (under_concat k items _).trans (append_nil _)
          unfold gather
          dsimp only
          rw [hunder]
      rw [hsame]
      cases o with
      | none =>
        rw [hnone, append_nil]
        exact ih
      | some s =>
        show (List.flatMap _ (slots items ++ [.leaf s])).Perm _
        rw [flatMap_append, flatMap_singleton]
        exact ih.append_right _
    · have hself : gather f (items ++ [(k :: rest, o)]) (.branch k) = gather f items (.branch k) ++ f (k :: rest, o) := by
        unfold gather
        dsimp only
        rw [under_concat, strip_self, flatMap_append]
        exact congrArg _ (flatMap_singleton _ _)
      have hothers : ∀ l : List (Slot κ σ), .branch k ∉ l →
          l.flatMap (gather f (items ++ [(k :: rest, o)])) = l.flatMap (gather f items) := by
        intro l hl
        refine flatMap_congr fun slot hslot => ?_
        rcases slot with k' | s
        · have hne : k ≠ k' := by
            rintro rfl
            exact hl hslot
          unfold gather
          dsimp only
          rw [under_concat, strip_ne hne]
          exact congrArg _ (append_nil _)
        · rfl
      show (List.flatMap _ (if _ then _ else _)).Perm _
      split_ifs with hmem
      · obtain ⟨front, back, hsplit, hfront, hback⟩ := exists_split hmem
        rw [hsplit] at ih ⊢
        rw [flatMap_append, flatMap_cons, hothers front hfront, hothers back hback, hself]
        rw [flatMap_append, flatMap_cons] at ih
        refine Perm.trans ?_ (ih.append_right _)
        rw [append_assoc, append_assoc, append_assoc]
        exact ((perm_append_comm).append_left _).append_left _
      · have hempty : gather f items (.branch k) = [] := by
          unfold gather
          dsimp only
          rw [under_eq_nil hmem]
          rfl
        rw [flatMap_append, flatMap_singleton, hothers _ hmem, hself, hempty]
        exact ih.append_right _

end Lib
