import Mathlib.Algebra.GroupWithZero.Nat
import Mathlib.Data.List.DropRight

/-!
# Texts

Trimming, and what stands before a mark:

* `isWhitespace`: the Unicode `White_Space` characters; `byteLength`: the length in bytes;
* `trim`: a text without leading and trailing white space (`trim_eq_self`, `trim_of_visible`).
-/

namespace Lib
open List

/-- The `White_Space` property. -/
def isWhitespace (c : Char) : Bool :=
  (9 ≤ c.toNat && c.toNat ≤ 13) || c.toNat == 32 || c.toNat == 0x85 || c.toNat == 0xA0 ||
    c.toNat == 0x1680 || (0x2000 ≤ c.toNat && c.toNat ≤ 0x200A) || c.toNat == 0x2028 ||
    c.toNat == 0x2029 || c.toNat == 0x202F || c.toNat == 0x205F || c.toNat == 0x3000

/-- `str::len`. -/
def byteLength (cs : List Char) : Nat := (cs.map Char.utf8Size).sum

/-- `str::trim` on the characters of a text. -/
def trim (cs : List Char) : List Char := (cs.dropWhile isWhitespace).rdropWhile isWhitespace

theorem trim_eq_self {c d : Char} (cs : List Char) (hc : isWhitespace c = false) (hd : isWhitespace d = false) :
    trim (c :: (cs ++ [d])) = c :: (cs ++ [d]) := by
  unfold trim
  rw [dropWhile_cons_of_neg (by simp [hc]), ← cons_append, rdropWhile_concat_neg _ _ _ (by simp [hd])]

theorem trim_of_visible {cs : List Char} (h : ∀ c ∈ cs, isWhitespace c = false) : trim cs = cs := by
  unfold trim
  have hdrop : cs.dropWhile isWhitespace = cs := by
    rcases cs with _ | ⟨c, cs⟩
    · rfl
    · exact dropWhile_cons_of_neg (by simp [h c mem_cons_self])
  rw [hdrop]
  rcases eq_nil_or_concat cs with rfl | ⟨cs, c, rfl⟩
  · rfl
  · rw [concat_eq_append] at h ⊢
    exact rdropWhile_concat_neg _ _ _ (by simp [h c (by simp)])

theorem rdropWhile_append {α : Type} {p : α → Bool} {c : α} (hc : p c = false) (a b : List α) :
    (a ++ c :: b).rdropWhile p = a ++ c :: b.rdropWhile p := by
  have hkeep : ([c] : List α).dropWhile p = [c] := dropWhile_cons_of_neg (by simp [hc])
  rw [List.rdropWhile, reverse_append, reverse_cons, append_assoc, dropWhile_append]
  split
  · next hempty =>
    rw [dropWhile_append, hkeep]
    simp [List.rdropWhile, isEmpty_iff.1 hempty]
  · simp [List.rdropWhile]

theorem append_mark_inj {α : Type} {m : α} {xs ys zs zs' : List α} (hx : m ∉ xs) (hy : m ∉ ys)
    (h : xs ++ m :: zs = ys ++ m :: zs') : xs = ys := by
  induction xs generalizing ys with
  | nil =>
    rcases ys with _ | ⟨y, ys⟩
    · rfl
    · rw [nil_append, cons_append, List.cons.injEq] at h
      exact absurd (h.1 ▸ mem_cons_self) hy
  | cons x xs ih =>
    rcases ys with _ | ⟨y, ys⟩
    · rw [nil_append, cons_append, List.cons.injEq] at h
      exact absurd (h.1 ▸ mem_cons_self) hx
    · rw [cons_append, cons_append, List.cons.injEq] at h
      rw [h.1, ih (fun e => hx (mem_cons_of_mem x e)) (fun e => hy (mem_cons_of_mem y e)) h.2]

end Lib
