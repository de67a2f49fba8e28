import Mathlib.Data.List.Infix

/-!
# Removing a word in one pass

`removeAll` deletes the occurrences of a word from left to right, as `str::replace` with nothing does.

* `Woven` : a word whose letters stand in order, with whole copies of the removed word in between;
* `Hides` : a text in which the letters of the removed word stand so, with a copy somewhere between them (`infix_removeAll_iff`);
* `splitFirst` : the text before the first occurrence of a word, and after it.
-/

namespace Lib
open List

variable {α : Type}

/-- The pass, with the number of letters of an occurrence that are still to be dropped. -/
def removeFrom [DecidableEq α] (word : List α) : Nat → List α → List α
  | _, [] => []
  | k + 1, _ :: text => removeFrom word k text
  | 0, x :: text =>
    if word <+: x :: text then removeFrom word (word.length - 1) text else x :: removeFrom word 0 text

def removeAll [DecidableEq α] (word text : List α) : List α := removeFrom word 0 text

/-- The letters of the second word in order, each with copies of the first word before it. -/
inductive Woven (word : List α) : List α → List α → Prop where
  | nil : Woven word [] []
  | keep {c : α} {w s : List α} : Woven word w s → Woven word (c :: w) (c :: s)
  | copy {c : α} {w s : List α} : Woven word (c :: w) s → Woven word (c :: w) (word ++ s)

/-- Somewhere in the text stand the letters of the word, with a copy of it between them. -/
def Hides (a : α) (rest text : List α) : Prop :=
  ∃ before s after, text = before ++ a :: (s ++ after) ∧ Woven (a :: rest) rest s ∧ s ≠ rest

variable {text : List α}

section Pass

variable [DecidableEq α] {word : List α}

theorem removeFrom_drop (k : Nat) (text : List α) : removeFrom word k text = removeAll word (text.drop k) := by
  induction k generalizing text with
  | zero => rfl
  | succ k ih =>
    rcases text with _ | ⟨x, text⟩
    · rfl
    · exact ih text

theorem removeAll_nil : removeAll word [] = [] := rfl

theorem removeAll_copy (hword : word ≠ []) (text : List α) : removeAll word (word ++ text) = removeAll word text := by
  obtain ⟨a, rest, rfl⟩ := exists_cons_of_ne_nil hword
  rw [cons_append, removeAll, removeFrom, if_pos (cons_prefix_cons.2 ⟨rfl, prefix_append rest text⟩), removeFrom_drop]
  simp

theorem removeAll_cons {x : α} (h : ¬word <+: x :: text) : removeAll word (x :: text) = x :: removeAll word text := by
  rw [removeAll, removeFrom, if_neg h]
  rfl

theorem removeAll_of_not_infix (h : ¬word <:+: text) : removeAll word text = text := by
  induction text with
  | nil => rfl
  | cons x text ih =>
    rw [removeAll_cons fun hpre => h hpre.isInfix, ih fun hin => h (infix_cons hin)]

theorem removeAll_induction (hword : word ≠ []) {motive : List α → Prop} (nil : motive [])
    (copy : ∀ text, motive text → motive (word ++ text))
    (keep : ∀ x text, ¬word <+: x :: text → motive text → motive (x :: text)) (text : List α) : motive text := by
  induction hn : text.length using Nat.strong_induction_on generalizing text with
  | h n ih =>
    rcases text with _ | ⟨x, text⟩
    · exact nil
    rcases Decidable.em (word <+: x :: text) with ⟨after, hafter⟩ | hno
    · rw [← hafter]
      have hpos : 0 < word.length := length_pos_of_ne_nil hword
      refine copy after (ih after.length ?_ after rfl)
      rw [← hn, ← hafter, length_append]
      omega
    · exact keep x text hno (ih text.length (by rw [← hn, length_cons]; omega) text rfl)

end Pass

section Unbordered

variable {a : α} {rest : List α}

theorem prefix_of_prefix_append_cons (ha : a ∉ rest) {before after : List α} (h : rest <+: before ++ a :: after) :
    rest <+: before := by
  rcases prefix_or_prefix_of_prefix h (prefix_append before (a :: after)) with hpre | ⟨more, hmore⟩
  · exact hpre
  rcases more with _ | ⟨c, more⟩
  · rw [append_nil] at hmore
    rw [hmore]
  exfalso
  rw [← hmore] at h
  obtain ⟨t, ht⟩ := h
  have hc : c = a := by
    have hhead : (c :: more) ++ t = a :: after := by
      rw [append_assoc] at ht
      exact append_cancel_left ht
    exact (List.cons.inj hhead).1
  refine ha ?_
  rw [← hmore, hc]
  simp

variable [DecidableEq α]

theorem removeAll_append (ha : a ∉ rest) (before after : List α) :
    removeAll (a :: rest) (before ++ a :: after) = removeAll (a :: rest) before ++ removeAll (a :: rest) (a :: after) := by
  induction before using removeAll_induction (cons_ne_nil a rest) with
  | nil => rfl
  | copy before ih =>
    rw [append_assoc, removeAll_copy (cons_ne_nil a rest), removeAll_copy (cons_ne_nil a rest), ih]
  | keep x before hno ih =>
    have hno' : ¬a :: rest <+: x :: (before ++ a :: after) := by
      rw [cons_prefix_cons]
      rintro ⟨rfl, hrest⟩
      exact hno (cons_prefix_cons.2 ⟨rfl, prefix_of_prefix_append_cons ha hrest⟩)
    rw [cons_append, removeAll_cons hno', removeAll_cons hno, ih, cons_append]

theorem removeAll_woven {w s : List α} (h : Woven (a :: rest) w s) (hw : a ∉ w) (after : List α) :
    removeAll (a :: rest) (s ++ after) = w ++ removeAll (a :: rest) after := by
  induction h with
  | nil => rfl
  | @keep c w s _ ih =>
    have hno : ¬a :: rest <+: c :: (s ++ after) := by
      rw [cons_prefix_cons]
      rintro ⟨rfl, -⟩
      exact hw mem_cons_self
    rw [cons_append, removeAll_cons hno, ih (fun hmem => hw (mem_cons_of_mem c hmem)), cons_append]
  | copy _ ih => rw [append_assoc, removeAll_copy (cons_ne_nil a rest), ih hw]

omit [DecidableEq α] in
theorem not_prefix_of_woven {w s : List α} (h : Woven (a :: rest) w s) (hw : a ∉ w) (hne : s ≠ w) (after : List α) :
    ¬w <+: s ++ after := by
  induction h with
  | nil => exact absurd rfl hne
  | @keep c w s _ ih =>
    rw [cons_append, cons_prefix_cons]
    rintro ⟨-, hpre⟩
    exact ih (fun hmem => hw (mem_cons_of_mem c hmem)) (fun heq => hne (by rw [heq])) hpre
  | @copy c w s _ _ =>
    rw [append_assoc, cons_append, cons_prefix_cons]
    rintro ⟨rfl, -⟩
    exact hw mem_cons_self

theorem woven_of_removeAll : ∀ {w v : List α}, removeAll (a :: rest) text = w ++ v →
    ∃ s after, text = s ++ after ∧ Woven (a :: rest) w s ∧ removeAll (a :: rest) after = v := by
  induction text using removeAll_induction (cons_ne_nil a rest) with
  | nil =>
    intro w v h
    obtain ⟨rfl, rfl⟩ := append_eq_nil_iff.1 h.symm
    exact ⟨[], [], rfl, .nil, rfl⟩
  | copy text ih =>
    intro w v h
    rcases w with _ | ⟨c, w⟩
    · exact ⟨[], _, rfl, .nil, h⟩
    rw [removeAll_copy (cons_ne_nil a rest)] at h
    obtain ⟨s, after, rfl, hwoven, hafter⟩ := ih h
    exact ⟨(a :: rest) ++ s, after, (append_assoc _ _ _).symm, hwoven.copy, hafter⟩
  | keep x text hno ih =>
    intro w v h
    rcases w with _ | ⟨c, w⟩
    · exact ⟨[], _, rfl, .nil, h⟩
    rw [removeAll_cons hno, cons_append] at h
    obtain ⟨rfl, htail⟩ := List.cons.inj h
    obtain ⟨s, after, rfl, hwoven, hafter⟩ := ih htail
    exact ⟨x :: s, after, rfl, hwoven.keep, hafter⟩

theorem exists_kept : ∀ {u v : List α} {x : α}, removeAll (a :: rest) text = u ++ x :: v →
    ∃ before after, text = before ++ x :: after ∧ ¬a :: rest <+: x :: after ∧ removeAll (a :: rest) after = v := by
  induction text using removeAll_induction (cons_ne_nil a rest) with
  | nil =>
    intro u v x h
    exact absurd h.symm (by simp [removeAll_nil])
  | copy text ih =>
    intro u v x h
    rw [removeAll_copy (cons_ne_nil a rest)] at h
    obtain ⟨before, after, rfl, hno, hafter⟩ := ih h
    exact ⟨(a :: rest) ++ before, after, (append_assoc _ _ _).symm, hno, hafter⟩
  | keep y text hno ih =>
    intro u v x h
    rw [removeAll_cons hno] at h
    rcases u with _ | ⟨c, u⟩
    · obtain ⟨rfl, htail⟩ := List.cons.inj h
      exact ⟨[], text, rfl, hno, htail⟩
    · obtain ⟨rfl, htail⟩ := List.cons.inj h
      obtain ⟨before, after, rfl, hno', hafter⟩ := ih htail
      exact ⟨y :: before, after, rfl, hno', hafter⟩

theorem infix_removeAll_iff (ha : a ∉ rest) (text : List α) :
    a :: rest <:+: removeAll (a :: rest) text ↔ Hides a rest text := by
  constructor
  · rintro ⟨u, v, huv⟩
    rw [append_assoc] at huv
    obtain ⟨before, after, rfl, hno, hafter⟩ := exists_kept huv.symm
    obtain ⟨s, after, rfl, hwoven, -⟩ := woven_of_removeAll hafter
    refine ⟨before, s, after, rfl, hwoven, ?_⟩
    rintro rfl
    exact hno (cons_prefix_cons.2 ⟨rfl, prefix_append _ _⟩)
  · rintro ⟨before, s, after, rfl, hwoven, hne⟩
    have hno : ¬a :: rest <+: a :: (s ++ after) := fun hpre =>
      not_prefix_of_woven hwoven ha hne after (cons_prefix_cons.1 hpre).2
    rw [removeAll_append ha, removeAll_cons hno, removeAll_woven hwoven ha]
    exact ⟨_, _, append_assoc _ _ _⟩

/-- What stands before the first occurrence of the word, and what follows it. -/
def splitFirst (word : List α) : List α → Option (List α × List α)
  | [] => none
  | x :: text =>
    if word <+: x :: text then some ([], (x :: text).drop word.length)
    else (splitFirst word text).map fun r => (x :: r.1, r.2)

theorem splitFirst_append (ha : a ∉ rest) {body : List α} (hbody : ¬a :: rest <:+: body) (after : List α) :
    splitFirst (a :: rest) (body ++ a :: (rest ++ after)) = some (body, after) := by
  induction body with
  | nil =>
    rw [nil_append, splitFirst, if_pos (cons_prefix_cons.2 ⟨rfl, prefix_append rest after⟩)]
    simp
  | cons x body ih =>
    have hno : ¬a :: rest <+: x :: (body ++ a :: (rest ++ after)) := by
      rw [cons_prefix_cons]
      rintro ⟨rfl, hrest⟩
      exact hbody (cons_prefix_cons.2 ⟨rfl, prefix_of_prefix_append_cons ha hrest⟩).isInfix
    rw [cons_append, splitFirst, if_neg hno, ih fun hin => hbody (infix_cons hin)]
    rfl

end Unbordered

end Lib
