import Mathlib.Algebra.Group.Int.Defs
import Mathlib.Algebra.Group.Nat.Defs
import LetsFlutSsh.Lib.Text

/-!
# The fields of a line

* `splitWhitespace` : the words of a text;
* `lines` : the lines of a text; `lines_flatMap` : written lines read back;
* `splitOnce`, `rsplitOnce` : what stands before and after the first, or the last, of a character;
* `parseUnsigned`, `parseSigned` : numbers in decimal; `parseUnsigned_toDigits` : printed numbers read back.
-/

namespace Lib
open List

/-! ## Words -/

def Visible (cs : List Char) : Prop := ∀ c ∈ cs, isWhitespace c = false

instance (cs : List Char) : Decidable (Visible cs) := List.decidableBAll (isWhitespace · = false) cs

def splitWhitespace (cs : List Char) : List (List Char) := (cs.splitOnP isWhitespace).filter (· ≠ [])

section

variable {α : Type} {p : α → Bool} {xs piece : List α} (h : piece ∈ xs.splitOnP p)
include h

theorem not_of_mem_splitOnP : ∀ x ∈ piece, p x = false := by
  induction xs generalizing piece with
  | nil =>
    rw [splitOnP_nil, mem_singleton] at h
    simp [h]
  | cons y ys ih =>
    rw [splitOnP_cons_eq_if_modifyHead] at h
    split at h
    · rcases mem_cons.1 h with rfl | h
      · simp
      · exact ih h
    next hy =>
    obtain ⟨first, rest, hsplit⟩ := exists_cons_of_ne_nil (splitOnP_ne_nil p ys)
    rw [hsplit] at h ih
    rw [modifyHead_cons, mem_cons] at h
    rcases h with rfl | h
    · rw [forall_mem_cons]
      exact ⟨by simpa using hy, ih mem_cons_self⟩
    · exact ih (mem_cons_of_mem first h)

theorem subset_of_mem_splitOnP : piece ⊆ xs := by
  induction xs generalizing piece with
  | nil =>
    rw [splitOnP_nil, mem_singleton] at h
    rw [h]
    exact List.Subset.refl []
  | cons y ys ih =>
    rw [splitOnP_cons_eq_if_modifyHead] at h
    split at h
    · rcases mem_cons.1 h with rfl | h
      · exact nil_subset _
      · exact subset_cons_of_subset y (ih h)
    · obtain ⟨first, rest, hsplit⟩ := exists_cons_of_ne_nil (splitOnP_ne_nil p ys)
      rw [hsplit] at h ih
      rw [modifyHead_cons, mem_cons] at h
      rcases h with rfl | h
      · exact cons_subset_cons y (ih mem_cons_self)
      · exact subset_cons_of_subset y (ih (mem_cons_of_mem first h))

end

variable {cs word a b line : List Char} {sep : Char} {n : Nat}

theorem mem_splitWhitespace (h : word ∈ splitWhitespace cs) : Visible word ∧ word ≠ [] := by
  obtain ⟨hmem, hne⟩ := mem_filter.1 h
  exact ⟨not_of_mem_splitOnP hmem, by simpa using hne⟩

theorem splitWhitespace_single (hword : Visible word) (hne : word ≠ []) :
    splitWhitespace word = [word] := by
  rw [splitWhitespace, splitOnP_eq_singleton hword]
  simp [hne]

theorem splitWhitespace_cons {rest : List Char} {c : Char} (hword : Visible word) (hne : word ≠ [])
    (hc : isWhitespace c = true) : splitWhitespace (word ++ c :: rest) = word :: splitWhitespace rest := by
  rw [splitWhitespace, splitOnP_append_cons_of_forall_mem hword c hc, filter_cons_of_pos (by simp [hne]),
    splitWhitespace]

theorem trim_between (ha : Visible a) (hb : Visible b) (hne : a ≠ []) (hne' : b ≠ [])
    (mid : List Char) : trim (a ++ mid ++ b) = a ++ mid ++ b := by
  obtain ⟨c, a, rfl⟩ := exists_cons_of_ne_nil hne
  obtain ⟨b, d, rfl⟩ := (eq_nil_or_concat b).resolve_left hne'
  have hassoc : c :: a ++ mid ++ b.concat d = c :: (a ++ mid ++ b ++ [d]) := by simp
  rw [hassoc]
  exact trim_eq_self _ (ha c mem_cons_self) (hb d (by simp))

/-! ## Lines -/

def stripCr (line : List Char) : List Char := if line.getLast? = some '\r' then line.dropLast else line

/-- The lines of a text of which `line` is already read. -/
def linesFrom (line : List Char) : List Char → List (List Char)
  | [] => if line = [] then [] else [line]
  | c :: cs => if c = '\n' then stripCr line :: linesFrom [] cs else linesFrom (line ++ [c]) cs

def lines (cs : List Char) : List (List Char) := linesFrom [] cs

theorem linesFrom_line {piece : List Char} (h : '\n' ∉ piece) (line rest : List Char) :
    linesFrom line (piece ++ '\n' :: rest) = stripCr (line ++ piece) :: linesFrom [] rest := by
  induction piece generalizing line with
  | nil => simp [linesFrom]
  | cons c piece ih =>
    rw [mem_cons, not_or] at h
    rw [cons_append, linesFrom, if_neg (Ne.symm h.1), ih h.2, append_assoc, singleton_append]

theorem lines_flatMap {pieces : List (List Char)} (h : ∀ l ∈ pieces, '\n' ∉ l ∧ '\r' ∉ l) :
    lines (pieces.flatMap fun l => l ++ ['\n']) = pieces := by
  induction pieces with
  | nil => rfl
  | cons l pieces ih =>
    rw [forall_mem_cons] at h
    rw [flatMap_cons, append_assoc, singleton_append, lines, linesFrom_line h.1.1, nil_append, stripCr,
      if_neg fun hr => h.1.2 (mem_of_getLast? hr)]
    exact congrArg (l :: ·) (ih h.2)

theorem mem_linesFrom {l : List Char} (hline : '\n' ∉ line) (h : l ∈ linesFrom line cs) :
    '\n' ∉ l ∧ ∀ c ∈ l, c ∈ line ∨ c ∈ cs := by
  induction cs generalizing line with
  | nil =>
    rw [linesFrom] at h
    split at h
    · cases h
    · rw [mem_singleton.1 h]
      exact ⟨hline, fun c hc => .inl hc⟩
  | cons d cs ih =>
    rw [linesFrom] at h
    split at h
    · rcases mem_cons.1 h with rfl | h
      · have hsub : ∀ c ∈ stripCr line, c ∈ line := fun c hc => by
          unfold stripCr at hc
          split at hc
          · exact dropLast_subset line hc
          · exact hc
        exact ⟨fun hn => hline (hsub _ hn), fun c hc => .inl (hsub c hc)⟩
      · obtain ⟨hn, hsub⟩ := ih not_mem_nil h
        exact ⟨hn, fun c hc => .inr (mem_cons_of_mem d ((hsub c hc).resolve_left not_mem_nil))⟩
    · next hd =>
      obtain ⟨hn, hsub⟩ := ih (by simpa [hline] using Ne.symm hd) h
      refine ⟨hn, fun c hc => ?_⟩
      rcases hsub c hc with hc | hc
      · rcases mem_append.1 hc with hc | hc
        · exact .inl hc
        · exact .inr (mem_singleton.1 hc ▸ mem_cons_self)
      · exact .inr (mem_cons_of_mem d hc)

theorem mem_lines {l : List Char} (h : l ∈ lines cs) : '\n' ∉ l ∧ ∀ c ∈ l, c ∈ cs :=
  (mem_linesFrom not_mem_nil h).imp_right fun hsub c hc => (hsub c hc).resolve_left not_mem_nil

def Closed (cs : List Char) : Prop := ∀ c, cs.getLast? = some c → c = '\n'

theorem closed_nil : Closed [] := nofun
theorem closed_concat (cs : List Char) : Closed (cs ++ ['\n']) := fun c h => by simpa using h.symm

theorem linesFrom_append (line rest : List Char) :
    linesFrom line (cs ++ '\n' :: rest) = linesFrom line (cs ++ ['\n']) ++ lines rest := by
  induction cs generalizing line with
  | nil => simp [linesFrom, lines]
  | cons c cs ih =>
    rw [cons_append, cons_append, linesFrom, linesFrom]
    split
    · rw [ih, cons_append]
    · exact ih _

theorem lines_append (h : Closed cs) (rest : List Char) : lines (cs ++ rest) = lines cs ++ lines rest := by
  obtain rfl | ⟨front, last, rfl⟩ := eq_nil_or_concat' cs
  · rfl
  · obtain rfl : last = '\n' := h last (by simp)
    rw [append_assoc]
    exact linesFrom_append [] rest

theorem lines_concat (h : '\n' ∉ line) : lines (line ++ ['\n']) = [stripCr line] := by
  rw [lines, linesFrom_line h]
  rfl

theorem exists_closed (cs : List Char) : ∃ front line, cs = front ++ line ∧ Closed front ∧ '\n' ∉ line := by
  induction cs using List.reverseRecOn with
  | nil => exact ⟨[], [], rfl, closed_nil, not_mem_nil⟩
  | append_singleton cs c ih =>
    rcases Decidable.em (c = '\n') with rfl | hc
    · exact ⟨cs ++ ['\n'], [], by simp, closed_concat cs, not_mem_nil⟩
    · obtain ⟨front, line, rfl, hfront, hline⟩ := ih
      exact ⟨front, line ++ [c], by simp, hfront, by simpa [hline] using Ne.symm hc⟩

theorem linesFrom_open (h : '\n' ∉ line) (read : List Char) :
    linesFrom read line = if read ++ line = [] then [] else [read ++ line] := by
  induction line generalizing read with
  | nil => simp [linesFrom]
  | cons c line ih =>
    rw [mem_cons, not_or] at h
    rw [linesFrom, if_neg (Ne.symm h.1), ih h.2, append_assoc, singleton_append]

theorem lines_open (h : '\n' ∉ line) : lines line = if line = [] then [] else [line] :=
  linesFrom_open h []

/-! ## Cutting at a character -/

def splitOnce (sep : Char) (cs : List Char) : Option (List Char × List Char) :=
  if sep ∈ cs then some (cs.takeWhile (· ≠ sep), (cs.dropWhile (· ≠ sep)).tail) else none

def rsplitOnce (sep : Char) (cs : List Char) : Option (List Char × List Char) :=
  (splitOnce sep cs.reverse).map fun p => (p.2.reverse, p.1.reverse)

theorem splitOnce_append (ha : sep ∉ a) (b : List Char) :
    splitOnce sep (a ++ sep :: b) = some (a, b) := by
  have hall : ∀ x ∈ a, decide (x ≠ sep) = true := fun x hx => by
    rw [decide_eq_true_eq]
    rintro rfl
    exact ha hx
  rw [splitOnce, if_pos (by simp), takeWhile_append_of_pos hall, dropWhile_append_of_pos hall,
    takeWhile_cons_of_neg (by simp), dropWhile_cons_of_neg (by simp), append_nil, tail_cons]

theorem splitOnce_of_not_mem (h : sep ∉ cs) : splitOnce sep cs = none := if_neg h

theorem eq_of_splitOnce (h : splitOnce sep cs = some (a, b)) : cs = a ++ sep :: b ∧ sep ∉ a := by
  by_cases hmem : sep ∈ cs
  · obtain ⟨a', b', rfl, ha'⟩ := eq_append_cons_of_mem hmem
    rw [splitOnce_append ha'] at h
    cases h
    exact ⟨rfl, ha'⟩
  · rw [splitOnce_of_not_mem hmem] at h
    cases h

theorem rsplitOnce_append (hb : sep ∉ b) (a : List Char) : rsplitOnce sep (a ++ sep :: b) = some (a, b) := by
  have hb' : sep ∉ b.reverse := by simpa using hb
  rw [rsplitOnce, reverse_append, reverse_cons, append_assoc, singleton_append,
    splitOnce_append hb']
  simp

/-! ## Numbers -/

def parseDigitChars (cs : List Char) : Option Nat :=
  if cs ≠ [] ∧ cs.all Char.isDigit then some (Nat.ofDigitChars 10 cs 0) else none

/-- `str::parse` for an unsigned type whose values are below `limit`. -/
def parseUnsigned (limit : Nat) (cs : List Char) : Option Nat :=
  let digits := match cs with
    | '+' :: rest => rest
    | _ => cs
  (parseDigitChars digits).bind fun n => if n < limit then some n else none

/-- `str::parse` for a signed type with `bits` bits. -/
def parseSigned (bits : Nat) (cs : List Char) : Option Int :=
  match cs with
  | '-' :: rest => (parseDigitChars rest).bind fun n => if n ≤ 2 ^ (bits - 1) then some (-(n : Int)) else none
  | _ => (parseUnsigned (2 ^ (bits - 1)) cs).map Int.ofNat

theorem parseDigitChars_toDigits (n : Nat) : parseDigitChars (Nat.toDigits 10 n) = some n := by
  rw [parseDigitChars, if_pos, Nat.ofDigitChars_ten_toDigits]
  exact ⟨Nat.toDigits_ne_nil, all_eq_true.2 fun c hc => Nat.isDigit_of_mem_toDigits (by decide) (by decide) hc⟩

theorem toDigits_cons (n : Nat) : ∃ c cs, Nat.toDigits 10 n = c :: cs ∧ c.isDigit = true := by
  obtain ⟨c, cs, hcs⟩ := exists_cons_of_ne_nil (Nat.toDigits_ne_nil (n := n) (b := 10))
  exact ⟨c, cs, hcs, Nat.isDigit_of_mem_toDigits (by decide) (by decide) (hcs ▸ mem_cons_self)⟩

theorem parseUnsigned_toDigits {limit : Nat} (h : n < limit) : parseUnsigned limit (Nat.toDigits 10 n) = some n := by
  have hdigits := parseDigitChars_toDigits n
  obtain ⟨c, cs, hcs, hc⟩ := toDigits_cons n
  rw [hcs] at hdigits ⊢
  have hplus : c ≠ '+' := by
    rintro rfl
    simp at hc
  unfold parseUnsigned
  dsimp only
  split
  · next heq =>
    cases heq
    exact absurd rfl hplus
  · rw [hdigits, Option.bind_some, if_pos h]

theorem visible_of_parseUnsigned {limit : Nat} (h : parseUnsigned limit cs = some n) : Visible cs := by
  have hdigit : ∀ c : Char, c.isDigit = true → isWhitespace c = false := by
    intro c hc
    have hrange : 48 ≤ c.toNat ∧ c.toNat ≤ 57 := by
      rw [Char.isDigit, Bool.and_eq_true, decide_eq_true_eq, decide_eq_true_eq] at hc
      exact hc
    simp only [isWhitespace, Bool.or_eq_false_iff, Bool.and_eq_false_iff, decide_eq_false_iff_not, beq_eq_false_iff_ne]
    omega
  have hdigits : ∀ {ds : List Char} {m : Nat}, parseDigitChars ds = some m → Visible ds := by
    intro ds m hds c hc
    unfold parseDigitChars at hds
    split at hds
    · next hall => exact hdigit c (all_eq_true.1 hall.2 c hc)
    · cases hds
  obtain ⟨m, hm, -⟩ := Option.bind_eq_some_iff.1 h
  split at hm
  · exact forall_mem_cons.2 ⟨by decide, hdigits hm⟩
  · exact hdigits hm

theorem parseSigned_toDigits {bits : Nat} (h : n < 2 ^ (bits - 1)) :
    parseSigned bits (Nat.toDigits 10 n) = some (n : Int) := by
  have hunsigned := parseUnsigned_toDigits h
  obtain ⟨c, cs, hcs, hc⟩ := toDigits_cons n
  rw [hcs] at hunsigned ⊢
  have hminus : c ≠ '-' := by
    rintro rfl
    simp at hc
  unfold parseSigned
  split
  · next heq =>
    cases heq
    exact absurd rfl hminus
  · rw [hunsigned]
    rfl

end Lib
