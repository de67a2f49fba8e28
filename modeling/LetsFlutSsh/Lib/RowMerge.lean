import LetsFlutSsh.Lib.Run
import LetsFlutSsh.Lib.Table

/-!
# Merging rows by key

A merge that looks at one row of a table, and writes that row or leaves it alone.

* `Table.mergeRow t k w`: the row of key `k` as `w` makes it, where `w` sees the row that is there;
* `Table.mergeAll`: one such merge for every entry of a list (`get_mergeAll`, `mergeAll_again`);
* `lwwWrite`: the write of a last-writer-wins entry;
* `addLinks`: links added to a list that holds each once.
-/

namespace Lib
open List Option

namespace Table

variable {κ α σ ι : Type} [DecidableEq κ]

/-- Write the row of key `k` as `w` makes it; `none` leaves it alone. -/
def mergeRow (t : Table κ α) (k : κ) (w : Option α → Option α) : Table κ α := (w (t.get k)).elim t (t.set k)

theorem get_mergeRow_self (t : Table κ α) (k : κ) (w : Option α → Option α) :
    (t.mergeRow k w).get k = (w (t.get k)).or (t.get k) := by
  unfold mergeRow
  rcases w (t.get k) with _ | a
  · rfl
  · simp

theorem get_mergeRow_ne (t : Table κ α) (w : Option α → Option α) {k k' : κ} (h : k' ≠ k) :
    (t.mergeRow k w).get k' = t.get k' := by
  unfold mergeRow
  rcases w (t.get k) with _ | a
  · rfl
  · simp [h]

theorem mergeRow_of_same {t : Table κ α} {k : κ} {w : Option α → Option α} (h : ∀ a, w (t.get k) = some a → t.get k = some a) :
    t.mergeRow k w = t := by
  unfold mergeRow
  rcases hw : w (t.get k) with _ | a
  · rfl
  · exact set_of_get (h a hw)

def mergeAll (key : ι → κ) (w : ι → Option α → Option α) (items : List ι) (t : Table κ α) : Table κ α :=
  items.foldl (fun t a => t.mergeRow (key a) (w a)) t

theorem foldl_mergeRow {f : σ → ι → σ} {g : σ → Table κ α} {key : ι → κ} {w : ι → Option α → Option α}
    (h : ∀ s a, g (f s a) = (g s).mergeRow (key a) (w a)) (items : List ι) (s : σ) :
    g (items.foldl f s) = mergeAll key w items (g s) := by
  unfold mergeAll
  induction items generalizing s with
  | nil => rfl
  | cons a items ih => rw [foldl_cons, foldl_cons, ih, h]

variable {key : ι → κ} {w w' : ι → Option α → Option α} {items : List ι}

theorem get_mergeAll (hkeys : (items.map key).Nodup) {a : ι} (ha : a ∈ items) (t : Table κ α) :
    (mergeAll key w items t).get (key a) = (w a (t.get (key a))).or (t.get (key a)) := by
  obtain ⟨pre, post, hsplit⟩ := append_of_mem ha
  obtain ⟨hpre, hall⟩ := foldl_at_split (f := fun t a => mergeRow t (key a) (w a)) (v := Table.get)
    (fun t b _ k hk => get_mergeRow_ne t (w b) hk) hkeys hsplit t
  rw [← hpre]
  exact hall.trans (get_mergeRow_self _ _ _)

theorem mergeAll_again (hkeys : (items.map key).Nodup) {t : Table κ α}
    (h : ∀ a ∈ items, ∀ b, w' a ((w a (t.get (key a))).or (t.get (key a))) = some b →
      (w a (t.get (key a))).or (t.get (key a)) = some b) :
    mergeAll key w' items (mergeAll key w items t) = mergeAll key w items t := by
  refine foldl_invariant (I := fun t' => t' = mergeAll key w items t) (fun t' a ha ht' => ?_) rfl
  subst ht'
  refine mergeRow_of_same fun b hb => ?_
  rw [get_mergeAll hkeys ha] at hb ⊢
  exact h a ha b hb

theorem mergeAll_stamped_again {β : Type} {w w' : ι → β → Option α → Option α} {stamp : Option α → β}
    (hkeys : (items.map key).Nodup)
    (h : ∀ a ∈ items, ∀ x y, (w a (stamp x) x).or x = y → ∀ b, w' a (stamp y) y = some b → y = some b)
    {t t' : Table κ α} (ht' : mergeAll key (fun a => w a (stamp (t.get (key a)))) items t = t') :
    mergeAll key (fun a => w' a (stamp (t'.get (key a)))) items t' = t' := by
  subst ht'
  refine mergeAll_again hkeys fun a ha b hb => ?_
  rw [get_mergeAll hkeys ha] at hb
  exact h a ha _ _ rfl b hb

end Table

section LastWriter

variable {α : Type}

/-- The write of an entry: a deletion marks a row that it beats, a live entry writes `row` unless it lost
to the row that is there. -/
def lwwWrite (gone : Bool) (marks : α → Bool) (delete : α → α) (lost : Bool) (row : Option α → Option α)
    (old : Option α) : Option α :=
  if gone then (old.filter marks).map delete else if lost then none else row old

/-- **Last writer wins, again.** An entry writes nothing new over its own result when a marked row is not
marked again and a written row is kept or written the same. -/
theorem lwwWrite_again (lost : Option α → Bool) {gone : Bool} {marks : α → Bool} {delete : α → α}
    {row row' : Option α → Option α} {x y : Option α} (hdelete : ∀ s, marks (delete s) = false)
    (hskip : gone = false → lost x = false → row x = none → row' x = none)
    (hrow : ∀ b, row x = some b → lost (some b) = false → ∀ c, row' (some b) = some c → b = c)
    (hy : (lwwWrite gone marks delete (lost x) row x).or x = y) {b : α}
    (hb : lwwWrite gone marks delete (lost y) row' y = some b) : y = some b := by
  unfold lwwWrite at hy hb
  rcases gone with _ | _
  · rw [if_neg Bool.false_ne_true] at hy hb
    split_ifs at hb with hlost'
    by_cases hlost : lost x = true
    · rw [if_pos hlost, none_or] at hy
      subst hy
      exact absurd hlost hlost'
    rw [if_neg hlost] at hy
    rcases hw : row x with _ | r
    · rw [hw, none_or] at hy
      subst hy
      rw [hskip rfl (Bool.not_eq_true _ ▸ hlost) hw] at hb
      cases hb
    · rw [hw, some_or] at hy
      subst hy
      rw [hrow r hw (Bool.not_eq_true _ ▸ hlost') b hb]
  · rw [if_pos rfl] at hy hb
    rcases x with _ | s
    · subst hy
      cases hb
    by_cases hmarks : marks s = true
    · rw [filter_some, if_pos hmarks] at hy
      subst hy
      simp [filter_some, hdelete] at hb
    · rw [filter_some, if_neg hmarks] at hy
      subst hy
      simp [filter_some, hmarks] at hb

end LastWriter

section Links

variable {α : Type} [DecidableEq α]

def addLink (found : α → Bool) (links : List α) (l : α) : List α :=
  if found l then if l ∈ links then links else links ++ [l] else links

def addLinks (found : α → Bool) (links ls : List α) : List α := ls.foldl (addLink found) links

theorem mem_addLink (found : α → Bool) (links : List α) (l l' : α) :
    l' ∈ addLink found links l ↔ l' ∈ links ∨ (found l = true ∧ l = l') := by
  unfold addLink
  by_cases hfound : found l = true
  · rw [if_pos hfound]
    by_cases hmem : l ∈ links
    · rw [if_pos hmem]
      refine ⟨.inl, ?_⟩
      rintro (h | ⟨-, rfl⟩)
      · exact h
      · exact hmem
    · rw [if_neg hmem, mem_append, mem_singleton]
      simp [hfound, eq_comm]
  · rw [if_neg hfound]
    simp [hfound]

theorem mem_addLinks (found : α → Bool) (links ls : List α) (l : α) :
    l ∈ addLinks found links ls ↔ l ∈ links ∨ ∃ l' ∈ ls, found l' = true ∧ l' = l :=
  foldl_or_iff (I := fun _ => True) (P := fun links => l ∈ links) (fun _ _ _ _ => trivial)
    (fun links l' _ _ => mem_addLink found links l' l) trivial

theorem addLinks_eq (found : α → Bool) (links ls : List α) :
    ∃ more, addLinks found links ls = links ++ more ∧ ∀ l ∈ more, l ∈ ls ∧ found l = true ∧ l ∉ links := by
  refine foldl_invariant (l := ls) (I := fun r => ∃ more, r = links ++ more ∧
    ∀ l ∈ more, l ∈ ls ∧ found l = true ∧ l ∉ links) (fun r l hl hr => ?_) ⟨[], by simp⟩
  obtain ⟨more, rfl, hmore⟩ := hr
  unfold addLink
  split_ifs with hfound hmem
  · exact ⟨more, rfl, hmore⟩
  · refine ⟨more ++ [l], by rw [append_assoc], fun l' hl' => ?_⟩
    rw [mem_append, mem_singleton] at hl'
    rcases hl' with hl' | rfl
    · exact hmore l' hl'
    · exact ⟨hl, hfound, fun h => hmem (mem_append_left _ h)⟩
  · exact ⟨more, rfl, hmore⟩

theorem addLinks_again (found found' : α → Bool) (links ls : List α) :
    ∃ more, addLinks found' (addLinks found links ls) ls = addLinks found links ls ++ more ∧
      ∀ l ∈ more, found' l = true ∧ found l = false := by
  obtain ⟨more, heq, hmore⟩ := addLinks_eq found' (addLinks found links ls) ls
  refine ⟨more, heq, fun l hl => ?_⟩
  obtain ⟨hls, hfound', hnot⟩ := hmore l hl
  refine ⟨hfound', Bool.eq_false_iff.2 fun hfound => hnot ?_⟩
  exact (mem_addLinks found links ls l).2 (.inr ⟨l, hls, hfound, rfl⟩)

end Links

end Lib
