import Mathlib.Data.List.Nodup

/-!
# Keyed tables

A table with a primary key: rows in insertion order, no key twice.

* `Table`: the rows with the proof that their keys are distinct;
* `get`, `set`, `erase`: what `SELECT … WHERE key = ?`, `INSERT … ON CONFLICT DO UPDATE` and
  `DELETE … WHERE key = ?` do;
* `dropKeys`, `map`: what a `DELETE` of many rows and an `UPDATE` of every row do.
-/

namespace Lib
open List

/-- Replace the row of key `k`, or append it. -/
def setRow {κ α : Type} [DecidableEq κ] (k : κ) (a : α) : List (κ × α) → List (κ × α)
  | [] => [(k, a)]
  | (k', a') :: rows => if k' = k then (k, a) :: rows else (k', a') :: setRow k a rows

theorem mem_keys_setRow {κ α : Type} [DecidableEq κ] (k k' : κ) (a : α) (rows : List (κ × α)) :
    k' ∈ (setRow k a rows).map Prod.fst ↔ k' = k ∨ k' ∈ rows.map Prod.fst := by
  induction rows with
  | nil => simp [setRow]
  | cons e rows ih =>
    obtain ⟨k₀, a₀⟩ := e
    unfold setRow
    by_cases h : k₀ = k
    · subst h
      simp
    · rw [if_neg h, map_cons, mem_cons, ih, map_cons, mem_cons]
      exact or_left_comm

theorem nodup_setRow {κ α : Type} [DecidableEq κ] (k : κ) (a : α) (rows : List (κ × α))
    (h : (rows.map Prod.fst).Nodup) : ((setRow k a rows).map Prod.fst).Nodup := by
  induction rows with
  | nil => simp [setRow]
  | cons e rows ih =>
    obtain ⟨k₀, a₀⟩ := e
    rw [map_cons, nodup_cons] at h
    unfold setRow
    by_cases hk : k₀ = k
    · subst hk
      simpa using h
    · rw [if_neg hk, map_cons, nodup_cons]
      refine ⟨?_, ih h.2⟩
      rw [mem_keys_setRow]
      rintro (hkk | hmem)
      · exact hk hkk
      · exact h.1 hmem

structure Table (κ α : Type) where
  rows : List (κ × α)
  nodup : (rows.map Prod.fst).Nodup

namespace Table

variable {κ α : Type} [DecidableEq κ]

def empty : Table κ α := ⟨[], List.nodup_nil⟩

/-- The row of key `k`. -/
def get (t : Table κ α) (k : κ) : Option α := t.rows.lookup k

/-- Write the row of key `k`, whether or not there was one. -/
def set (t : Table κ α) (k : κ) (a : α) : Table κ α := ⟨setRow k a t.rows, nodup_setRow k a t.rows t.nodup⟩

/-- Drop the row of key `k`. -/
def erase (t : Table κ α) (k : κ) : Table κ α :=
  ⟨t.rows.filter fun e => e.1 ≠ k, t.nodup.sublist (List.filter_sublist.map _)⟩

def dropKeys (t : Table κ α) (gone : κ → Bool) : Table κ α :=
  ⟨t.rows.filter fun e => !gone e.1, t.nodup.sublist (List.filter_sublist.map _)⟩

def map {β : Type} (t : Table κ α) (f : α → β) : Table κ β :=
  ⟨t.rows.map fun e => (e.1, f e.2), by rw [List.map_map]; exact t.nodup⟩

def keys (t : Table κ α) : List κ := t.rows.map Prod.fst

@[simp] theorem get_empty (k : κ) : (empty : Table κ α).get k = none := rfl

theorem lookup_cons_ite (k k' : κ) (a : α) (rows : List (κ × α)) :
    ((k, a) :: rows).lookup k' = if k' = k then some a else rows.lookup k' := by
  by_cases h : k' = k
  · simp [h]
  · simp [lookup_cons, beq_false_of_ne h, h]

theorem lookup_setRow (k k' : κ) (a : α) (rows : List (κ × α)) :
    (setRow k a rows).lookup k' = if k' = k then some a else rows.lookup k' := by
  induction rows with
  | nil => exact lookup_cons_ite k k' a []
  | cons e rows ih =>
    obtain ⟨k₀, a₀⟩ := e
    unfold setRow
    by_cases h₀ : k₀ = k
    · subst h₀
      rw [if_pos rfl, lookup_cons_ite, lookup_cons_ite]
      split_ifs <;> rfl
    rw [if_neg h₀, lookup_cons_ite, ih, lookup_cons_ite]
    by_cases h : k' = k₀
    · have hk : k' ≠ k := by
        rintro rfl
        exact h₀ h.symm
      rw [if_pos h, if_neg hk, if_pos h]
    · rw [if_neg h, if_neg h]

@[simp] theorem get_set (t : Table κ α) (k k' : κ) (a : α) : (t.set k a).get k' = if k' = k then some a else t.get k' :=
  lookup_setRow k k' a t.rows

theorem lookup_filter (keep : κ → Bool) (k : κ) (rows : List (κ × α)) :
    (rows.filter fun e => keep e.1).lookup k = if keep k then rows.lookup k else none := by
  induction rows with
  | nil => simp
  | cons e rows ih =>
    obtain ⟨k₀, a₀⟩ := e
    by_cases h₀ : keep k₀ = true
    · rw [filter_cons_of_pos (by simpa using h₀), lookup_cons_ite, ih, lookup_cons_ite]
      by_cases h : k = k₀
      · rw [if_pos h, if_pos h, h, if_pos h₀]
      · rw [if_neg h, if_neg h]
    · rw [filter_cons_of_neg (by simp [h₀]), ih, lookup_cons_ite]
      by_cases h : k = k₀
      · rw [h, if_neg h₀, if_neg h₀]
      · rw [if_neg h]

@[simp] theorem get_erase (t : Table κ α) (k k' : κ) : (t.erase k).get k' = if k' = k then none else t.get k' := by
  refine (lookup_filter (fun k' => k' ≠ k) k' t.rows).trans ?_
  by_cases h : k' = k
  · simp [h]
  · simp [h, get]

@[simp] theorem get_dropKeys (t : Table κ α) (gone : κ → Bool) (k : κ) :
    (t.dropKeys gone).get k = if gone k then none else t.get k := by
  refine (lookup_filter (fun k => !gone k) k t.rows).trans ?_
  rcases gone k <;> rfl

@[simp] theorem get_map {β : Type} (t : Table κ α) (f : α → β) (k : κ) : (t.map f).get k = (t.get k).map f := by
  obtain ⟨rows, hnodup⟩ := t
  show (rows.map fun e => (e.1, f e.2)).lookup k = (rows.lookup k).map f
  clear hnodup
  induction rows with
  | nil => rfl
  | cons e rows ih =>
    obtain ⟨k₀, a₀⟩ := e
    rw [map_cons, lookup_cons_ite, lookup_cons_ite, ih]
    split_ifs <;> rfl

theorem mem_rows_iff (t : Table κ α) (k : κ) (a : α) : (k, a) ∈ t.rows ↔ t.get k = some a := by
  obtain ⟨rows, hnodup⟩ := t
  show (k, a) ∈ rows ↔ rows.lookup k = some a
  induction rows with
  | nil => simp
  | cons e rows ih =>
    obtain ⟨k₀, a₀⟩ := e
    rw [map_cons, nodup_cons] at hnodup
    rw [mem_cons, ih hnodup.2, lookup_cons_ite, Prod.mk.injEq]
    by_cases h : k = k₀
    · subst h
      have hnone : rows.lookup k ≠ some a := by
        intro hlook
        exact hnodup.1 (mem_map.2 ⟨(k, a), (ih hnodup.2).2 hlook, rfl⟩)
      simp [hnone, eq_comm]
    · simp [h]

theorem mem_keys_iff (t : Table κ α) (k : κ) : k ∈ t.keys ↔ (t.get k).isSome := by
  unfold keys
  rw [mem_map, Option.isSome_iff_exists]
  constructor
  · rintro ⟨⟨k', a⟩, hmem, rfl⟩
    exact ⟨a, (t.mem_rows_iff k' a).1 hmem⟩
  · rintro ⟨a, ha⟩
    exact ⟨(k, a), (t.mem_rows_iff k a).2 ha, rfl⟩

theorem setRow_of_lookup {k : κ} {a : α} {rows : List (κ × α)} (h : rows.lookup k = some a) : setRow k a rows = rows := by
  induction rows with
  | nil => cases h
  | cons e rows ih =>
    obtain ⟨k₀, a₀⟩ := e
    rw [lookup_cons_ite] at h
    by_cases hk : k = k₀
    · rw [if_pos hk] at h
      cases h
      rw [setRow, if_pos hk.symm, hk]
    · rw [if_neg hk] at h
      rw [setRow, if_neg (Ne.symm hk), ih h]

theorem set_of_get {t : Table κ α} {k : κ} {a : α} (h : t.get k = some a) : t.set k a = t := by
  obtain ⟨rows, hnodup⟩ := t
  unfold set
  congr 1
  exact setRow_of_lookup h

theorem rows_set_of_none {t : Table κ α} {k : κ} (a : α) (h : t.get k = none) : (t.set k a).rows = t.rows ++ [(k, a)] := by
  obtain ⟨rows, hnodup⟩ := t
  show setRow k a rows = rows ++ [(k, a)]
  change rows.lookup k = none at h
  clear hnodup
  induction rows with
  | nil => rfl
  | cons e rows ih =>
    obtain ⟨k₀, a₀⟩ := e
    rw [lookup_cons_ite] at h
    by_cases hk : k = k₀
    · rw [if_pos hk] at h
      cases h
    · rw [if_neg hk] at h
      rw [setRow, if_neg (Ne.symm hk), ih h, cons_append]

end Table

section Listing

variable {α : Type} {le : α → α → Bool}

theorem split_unique {a : α} {l₁ l₂ m₁ m₂ : List α} (h : l₁ ++ l₂ = m₁ ++ m₂) (hl₁ : ∀ b ∈ l₁, le a b = false)
    (hl₂ : ∀ b ∈ l₂, le a b = true) (hm₁ : ∀ b ∈ m₁, le a b = false) (hm₂ : ∀ b ∈ m₂, le a b = true) :
    l₁ = m₁ ∧ l₂ = m₂ := by
  have hfilter : ∀ {xs ys : List α}, (∀ b ∈ xs, le a b = false) → (∀ b ∈ ys, le a b = true) →
      (xs ++ ys).filter (fun b => le a b) = ys := by
    intro xs ys hxs hys
    rw [filter_append, filter_eq_nil_iff.mpr (fun b hb => by simp [hxs b hb]), filter_eq_self.mpr hys, nil_append]
  have hright : l₂ = m₂ := by
    rw [← hfilter hl₁ hl₂, h, hfilter hm₁ hm₂]
  subst hright
  exact ⟨append_cancel_right h, rfl⟩

theorem filter_mergeSort (htrans : ∀ a b c : α, le a b → le b c → le a c) (htotal : ∀ a b : α, le a b || le b a)
    (p : α → Bool) (l : List α) : (l.mergeSort le).filter p = (l.filter p).mergeSort le := by
  induction l with
  | nil => simp
  | cons a l ih =>
    obtain ⟨l₁, l₂, hsort, hrest, hbefore⟩ := mergeSort_cons htrans htotal a l
    have hpair := pairwise_mergeSort htrans htotal (a :: l)
    rw [hsort, pairwise_append] at hpair
    have hafter : ∀ b ∈ l₂, le a b = true := fun b => rel_of_pairwise_cons hpair.2.1
    rw [hrest, filter_append] at ih
    by_cases hp : p a = true
    · obtain ⟨m₁, m₂, hsort', hrest', hbefore'⟩ := mergeSort_cons htrans htotal a (l.filter p)
      have hpair' := pairwise_mergeSort htrans htotal (a :: l.filter p)
      rw [hsort', pairwise_append] at hpair'
      have hafter' : ∀ b ∈ m₂, le a b = true := fun b => rel_of_pairwise_cons hpair'.2.1
      obtain ⟨h₁, h₂⟩ := split_unique (ih.trans hrest') (fun b hb => by simpa using hbefore b (mem_of_mem_filter hb))
        (fun b hb => hafter b (mem_of_mem_filter hb)) (fun b hb => by simpa using hbefore' b hb) hafter'
      rw [hsort, filter_append, filter_cons_of_pos hp, filter_cons_of_pos hp, hsort', h₁, h₂]
    · rw [hsort, filter_append, filter_cons_of_neg hp, filter_cons_of_neg hp, ih]

end Listing

end Lib
