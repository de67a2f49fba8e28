import Mathlib.Data.List.Basic

/-!
# Reading an exact amount from a stream that arrives in pieces

* `readInCuts` : reads until enough is there; each read gives as much as has arrived, at least one element;
* `eq_of_readInCuts` : the pieces do not show in what is read.
-/

namespace Lib
open List

variable {α : Type}

/-- What is read, what the stream still holds, and how the next reads are cut; nothing when the stream ends before. -/
def readInCuts (need : Nat) (input : List α) (cuts : List Nat) : Option (List α × List α × List Nat) :=
  if need = 0 then some ([], input, cuts)
  else if input = [] then none
  else
    let got := min (cuts.headD 0 + 1) (min need input.length)
    (readInCuts (need - got) (input.drop got) cuts.tail).map fun r => (input.take got ++ r.1, r.2)
termination_by need
decreasing_by
  have hpos : 0 < input.length := List.length_pos_iff.2 (by assumption)
  omega

variable {need : Nat} {input : List α}

theorem readInCuts_eq_some (h : need ≤ input.length) (cuts : List Nat) :
    ∃ cuts', readInCuts need input cuts = some (input.take need, input.drop need, cuts') := by
  induction need using Nat.strongRecOn generalizing input cuts with
  | ind need ih =>
    rw [readInCuts]
    split_ifs with hzero hempty
    · subst hzero
      exact ⟨cuts, rfl⟩
    · subst hempty
      exact absurd (Nat.le_zero.1 h) hzero
    · have hpos : 0 < input.length := length_pos_iff.2 hempty
      set got := min (cuts.headD 0 + 1) (min need input.length) with hgot
      have hle : got ≤ need := by omega
      have hrest : need - got ≤ (input.drop got).length := by
        rw [length_drop]
        omega
      obtain ⟨cuts', hread⟩ := ih (need - got) (by omega) hrest cuts.tail
      refine ⟨cuts', ?_⟩
      dsimp only
      rw [hread, Option.map_some, drop_drop, Nat.add_sub_cancel' hle, ← take_add, Nat.add_sub_cancel' hle]

theorem readInCuts_eq_none (h : input.length < need) (cuts : List Nat) : readInCuts need input cuts = none := by
  induction need using Nat.strongRecOn generalizing input cuts with
  | ind need ih =>
    rw [readInCuts, if_neg (by omega)]
    split_ifs with hempty
    · rfl
    have hpos : 0 < input.length := length_pos_iff.2 hempty
    set got := min (cuts.headD 0 + 1) (min need input.length) with hgot
    have hrest : (input.drop got).length < need - got := by
      rw [length_drop]
      omega
    dsimp only
    rw [ih (need - got) (by omega) hrest cuts.tail, Option.map_none]

section

variable {read rest : List α} {cuts cuts' : List Nat} (h : readInCuts need input cuts = some (read, rest, cuts'))
include h

theorem eq_of_readInCuts : need ≤ input.length ∧ read = input.take need ∧ rest = input.drop need := by
  rcases Nat.lt_or_ge input.length need with hlt | hle
  · rw [readInCuts_eq_none hlt] at h
    cases h
  · obtain ⟨cuts'', heq⟩ := readInCuts_eq_some hle cuts
    rw [heq] at h
    cases h
    exact ⟨hle, rfl, rfl⟩

theorem length_of_readInCuts : rest.length + need = input.length := by
  obtain ⟨hle, -, rfl⟩ := eq_of_readInCuts h
  rw [length_drop]
  omega

end

end Lib
