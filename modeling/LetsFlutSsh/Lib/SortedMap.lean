import Mathlib.Order.Lattice

/-!
# Maps in the order of their keys

* `SortedMap` : entries with increasing keys; `insert` puts a value at its place (`insertAll_entries`).
-/

namespace Lib
open List

variable {K V : Type} [LinearOrder K]

def insertEntry (k : K) (v : V) : List (K × V) → List (K × V)
  | [] => [(k, v)]
  | e :: es =>
    if k < e.1 then (k, v) :: e :: es
    else if k = e.1 then (k, v) :: es
    else e :: insertEntry k v es

variable {es : List (K × V)} {k : K}

theorem mem_insertEntry {v : V} {e : K × V} (h : e ∈ insertEntry k v es) :
    e = (k, v) ∨ e ∈ es := by
  induction es with
  | nil => exact .inl (mem_singleton.1 h)
  | cons d es ih =>
    unfold insertEntry at h
    split_ifs at h with hlt heq
    · exact mem_cons.1 h
    · rcases mem_cons.1 h with hnew | hold
      · exact .inl hnew
      · exact .inr (mem_cons_of_mem d hold)
    · rcases mem_cons.1 h with hhead | htail
      · exact .inr (hhead ▸ mem_cons_self)
      · exact (ih htail).imp_right (mem_cons_of_mem d)

theorem pairwise_insertEntry (k : K) (v : V) (h : es.Pairwise fun d e => d.1 < e.1) :
    (insertEntry k v es).Pairwise fun d e => d.1 < e.1 := by
  induction es with
  | nil => exact pairwise_singleton _ _
  | cons d es ih =>
    obtain ⟨hhead, htail⟩ := pairwise_cons.1 h
    unfold insertEntry
    split_ifs with hlt heq
    · refine pairwise_cons.2 ⟨fun e he => ?_, h⟩
      rcases mem_cons.1 he with rfl | he
      · exact hlt
      · exact hlt.trans (hhead e he)
    · exact pairwise_cons.2 ⟨fun e he => heq ▸ hhead e he, htail⟩
    · refine pairwise_cons.2 ⟨fun e he => ?_, ih htail⟩
      rcases mem_insertEntry he with rfl | he
      · exact lt_of_le_of_ne (not_lt.1 hlt) (Ne.symm heq)
      · exact hhead e he

theorem insertEntry_last (v : V) (h : ∀ e ∈ es, e.1 < k) : insertEntry k v es = es ++ [(k, v)] := by
  induction es with
  | nil => rfl
  | cons d es ih =>
    obtain ⟨hd, hes⟩ := forall_mem_cons.1 h
    unfold insertEntry
    rw [if_neg (not_lt.2 hd.le), if_neg hd.ne', ih hes, cons_append]

@[ext] structure SortedMap (K V : Type) [LinearOrder K] where
  entries : List (K × V)
  sorted : entries.Pairwise fun d e => d.1 < e.1

namespace SortedMap

instance [DecidableEq V] : DecidableEq (SortedMap K V) := fun m m' => decidable_of_iff (m.entries = m'.entries) SortedMap.ext_iff.symm

def empty : SortedMap K V := ⟨[], .nil⟩

def insert (m : SortedMap K V) (k : K) (v : V) : SortedMap K V := ⟨insertEntry k v m.entries, pairwise_insertEntry k v m.sorted⟩

variable {m : SortedMap K V} {v : V} {e : K × V}

theorem mem_insert (h : e ∈ (m.insert k v).entries) : e = (k, v) ∨ e ∈ m.entries := mem_insertEntry h

theorem insertAll_entries (m : SortedMap K V) : m.entries.foldl (fun acc e => acc.insert e.1 e.2) empty = m := by
  have hall : ∀ (es : List (K × V)) (acc : SortedMap K V), (acc.entries ++ es).Pairwise (fun d e => d.1 < e.1) →
      (es.foldl (fun acc e => acc.insert e.1 e.2) acc).entries = acc.entries ++ es := by
    intro es
    induction es with
    | nil => exact fun acc _ => (append_nil _).symm
    | cons e es ih =>
      intro acc hsorted
      have hlast : (acc.insert e.1 e.2).entries = acc.entries ++ [e] :=
        insertEntry_last e.2 fun d hd => (pairwise_append.1 hsorted).2.2 d hd e mem_cons_self
      have hsplit : (acc.insert e.1 e.2).entries ++ es = acc.entries ++ e :: es := by
        rw [hlast, append_assoc, singleton_append]
      rw [foldl_cons, ih _ (hsplit ▸ hsorted), hsplit]
  exact SortedMap.ext (hall m.entries empty m.sorted)

end SortedMap

end Lib
