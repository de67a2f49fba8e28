import Mathlib.Data.List.Basic

/-!
# Lines of a bounded length

* `readUntil d n xs` : what a bounded reader takes off `xs`: up to and including the first `d`, at
  most `n` items;
* `boundedLines d n xs` : all reads of at most `n + 1` items, until nothing is left (`mem_boundedLines`, `boundedLines_terminated`).
-/

namespace Lib
open List

variable {α : Type} [DecidableEq α]

/-- Take off items up to and including the first `d`, at most `n`. -/
def readUntil (d : α) : Nat → List α → List α × List α
  | _, [] => ([], [])
  | 0, x :: xs => ([], x :: xs)
  | n + 1, x :: xs =>
    if x = d then ([x], xs)
    else
      let r := readUntil d n xs
      (x :: r.1, r.2)

theorem readUntil_append (d : α) (n : Nat) (xs : List α) : (readUntil d n xs).1 ++ (readUntil d n xs).2 = xs := by
  induction xs generalizing n with
  | nil => simp [readUntil]
  | cons x xs ih =>
    rcases n with _ | n
    · simp [readUntil]
    · unfold readUntil
      split_ifs
      · rfl
      · simpa using ih n

theorem length_readUntil_snd (d : α) (n : Nat) (x : α) (xs : List α) :
    (readUntil d (n + 1) (x :: xs)).2.length < (x :: xs).length := by
  unfold readUntil
  split_ifs with hx
  · simp
  · have h := congrArg List.length (readUntil_append d n xs)
    rw [length_append] at h
    simp only [length_cons]
    omega

/-- The reads of at most `n + 1` items, until nothing is left. -/
def boundedLines (d : α) (n : Nat) : List α → List (List α)
  | [] => []
  | x :: xs => (readUntil d (n + 1) (x :: xs)).1 :: boundedLines d n (readUntil d (n + 1) (x :: xs)).2
termination_by xs => xs.length
decreasing_by exact length_readUntil_snd d n x xs

structure BoundedLine (d : α) (n : Nat) (line : List α) : Prop where
  ne_nil : line ≠ []
  length_le : line.length ≤ n + 1
  /-- The separator stands at the end only. -/
  ends : d ∈ line → ∃ xs, line = xs ++ [d] ∧ d ∉ xs

theorem readUntil_fst (d : α) (n : Nat) (xs : List α) : (readUntil d n xs).1.length ≤ n ∧
    (d ∈ (readUntil d n xs).1 → ∃ ys, (readUntil d n xs).1 = ys ++ [d] ∧ d ∉ ys) := by
  induction xs generalizing n with
  | nil => simp [readUntil]
  | cons x xs ih =>
    rcases n with _ | n
    · simp [readUntil]
    unfold readUntil
    split_ifs with hx
    · subst hx
      exact ⟨by simp, fun _ => ⟨[], rfl, not_mem_nil⟩⟩
    · obtain ⟨hlen, hends⟩ := ih n
      refine ⟨by simpa using hlen, fun hd => ?_⟩
      obtain ⟨ys, hys, hnot⟩ := hends ((mem_cons.1 hd).resolve_left fun h => hx h.symm)
      refine ⟨x :: ys, by simp [hys], ?_⟩
      simp [hnot, Ne.symm hx]

variable {line : List α}

section

variable {d : α} {n : Nat}

theorem mem_boundedLines {xs : List α} (h : line ∈ boundedLines d n xs) : BoundedLine d n line := by
  induction xs using boundedLines.induct d n with
  | case1 =>
    rw [boundedLines] at h
    exact absurd h not_mem_nil
  | case2 x xs ih =>
    rw [boundedLines, mem_cons] at h
    rcases h with rfl | h
    · obtain ⟨hlen, hends⟩ := readUntil_fst d (n + 1) (x :: xs)
      refine ⟨fun hnil => ?_, hlen, hends⟩
      unfold readUntil at hnil
      split_ifs at hnil
    · exact ih h

theorem readUntil_terminated (hd : d ∉ line) (hlen : line.length < n) (rest : List α) :
    readUntil d n (line ++ d :: rest) = (line ++ [d], rest) := by
  induction line generalizing n with
  | nil =>
    obtain ⟨m, rfl⟩ := Nat.exists_eq_succ_of_ne_zero (Nat.ne_of_gt hlen)
    simp [readUntil]
  | cons x xs ih =>
    obtain ⟨m, rfl⟩ := Nat.exists_eq_succ_of_ne_zero (Nat.ne_of_gt (Nat.zero_lt_of_lt hlen))
    rw [mem_cons, not_or] at hd
    have htail := ih (n := m) hd.2 (by simpa using hlen)
    simp only [cons_append, readUntil, if_neg (Ne.symm hd.1), htail]

theorem boundedLines_terminated {ls : List (List α)} (h : ∀ l ∈ ls, d ∉ l ∧ l.length ≤ n) :
    boundedLines d n (ls.flatMap fun l => l ++ [d]) = ls.map fun l => l ++ [d] := by
  induction ls with
  | nil => rw [flatMap_nil, boundedLines, map_nil]
  | cons l ls ih =>
    obtain ⟨hd, hlen⟩ := h l mem_cons_self
    have hread := readUntil_terminated hd (Nat.lt_succ_of_le hlen) (ls.flatMap fun l => l ++ [d])
    have hcons : ((l :: ls).flatMap fun l => l ++ [d]) = l ++ d :: ls.flatMap fun l => l ++ [d] := by
      rw [flatMap_cons, append_assoc]
      rfl
    have hstep : ∀ ys : List α, ys ≠ [] →
        boundedLines d n ys = (readUntil d (n + 1) ys).1 :: boundedLines d n (readUntil d (n + 1) ys).2 := by
      intro ys hys
      obtain ⟨y, ys, rfl⟩ := exists_cons_of_ne_nil hys
      rw [boundedLines]
    rw [hcons, hstep _ (by simp), hread, ih fun l hl => h l (mem_cons_of_mem _ hl), map_cons]

theorem length_readUntil_of_long (hd : d ∉ line) (hlen : n ≤ line.length) (rest : List α) :
    (readUntil d (n + 1) (line ++ d :: rest)).1.length = n + 1 := by
  induction line generalizing n with
  | nil =>
    obtain rfl := Nat.le_zero.1 hlen
    simp [readUntil]
  | cons x xs ih =>
    rw [mem_cons, not_or] at hd
    rw [cons_append, readUntil, if_neg (Ne.symm hd.1)]
    rcases n with _ | n
    · cases xs <;> simp [readUntil]
    · rw [length_cons, ih hd.2 (by simpa using hlen)]

theorem exists_long_of_terminated {ls : List (List α)} (hd : ∀ l ∈ ls, d ∉ l) (hlong : ∃ l ∈ ls, n ≤ l.length) :
    ∃ r ∈ boundedLines d n (ls.flatMap fun l => l ++ [d]), n < r.length := by
  induction ls with
  | nil =>
    obtain ⟨l, hl, -⟩ := hlong
    exact absurd hl not_mem_nil
  | cons l ls ih =>
    obtain ⟨hl, hls⟩ := forall_mem_cons.1 hd
    obtain ⟨y, ys, hys⟩ := exists_cons_of_ne_nil (l := l ++ d :: ls.flatMap fun l => l ++ [d]) (by simp)
    rw [flatMap_cons, append_assoc, singleton_append, hys, boundedLines, ← hys]
    by_cases hfull : n ≤ l.length
    · refine ⟨_, mem_cons_self, ?_⟩
      rw [length_readUntil_of_long hl hfull]
      exact Nat.lt_succ_self n
    rw [readUntil_terminated hl (by omega)]
    obtain ⟨l', hl', hlen⟩ := hlong
    have hrest : l' ∈ ls := by
      rcases mem_cons.1 hl' with rfl | h
      · exact absurd hlen hfull
      · exact h
    obtain ⟨r, hr, hlt⟩ := ih hls ⟨l', hrest, hlen⟩
    exact ⟨r, mem_cons_of_mem _ hr, hlt⟩

end

end Lib
