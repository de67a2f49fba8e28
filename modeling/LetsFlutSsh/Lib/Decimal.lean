import Mathlib.Tactic.Ring

/-!
# Decimal digits of a fixed width

* `fixedDigits w n` : the last `w` decimal digits of `n`, most significant first; the zero-padded
  numeral of a number that fits;
* `fixedDigits_lt_iff` : numerals of one width compare as their numbers.
-/

namespace Lib
open List

/-- The last `w` decimal digits of `n`. -/
def fixedDigits : Nat → Nat → List Char
  | 0, _ => []
  | w + 1, n => fixedDigits w (n / 10) ++ [Nat.digitChar (n % 10)]

@[simp] theorem length_fixedDigits (w n : Nat) : (fixedDigits w n).length = w := by
  induction w generalizing n with
  | zero => rfl
  | succ w ih => simp [fixedDigits, ih]

theorem digitChar_range {d : Nat} (h : d < 10) : 48 ≤ d.digitChar.toNat ∧ d.digitChar.toNat ≤ 57 := by
  rw [Nat.toNat_digitChar_of_lt_ten h]
  omega

theorem fixedDigits_range {w n : Nat} {c : Char} (h : c ∈ fixedDigits w n) : 48 ≤ c.toNat ∧ c.toNat ≤ 57 := by
  induction w generalizing n with
  | zero => cases h
  | succ w ih =>
    rw [fixedDigits, mem_append, mem_singleton] at h
    rcases h with h | rfl
    · exact ih h
    · exact digitChar_range (by omega)

theorem fixedDigits_zero (w : Nat) : fixedDigits w 0 = List.replicate w '0' := by
  induction w with
  | zero => rfl
  | succ w ih =>
    rw [fixedDigits, Nat.zero_div, ih, replicate_succ']
    rfl

theorem pad_toDigits {w n : Nat} (hw : 0 < w) (hn : n < 10 ^ w) :
    List.replicate (w - (Nat.toDigits 10 n).length) '0' ++ Nat.toDigits 10 n = fixedDigits w n := by
  induction w generalizing n with
  | zero => omega
  | succ w ih =>
    by_cases hsmall : n < 10
    · rw [fixedDigits, Nat.div_eq_of_lt hsmall, Nat.mod_eq_of_lt hsmall, Nat.toDigits_of_lt_base hsmall, fixedDigits_zero]
      rfl
    have hdiv : n / 10 < 10 ^ w := by
      rw [pow_succ] at hn
      omega
    have hpos : 0 < w := by
      by_contra h
      have hzero : w = 0 := by omega
      rw [hzero] at hn
      omega
    rw [fixedDigits, ← ih hpos hdiv, Nat.toDigits_of_base_le (by decide) (by omega), length_append,
      append_assoc, length_singleton, Nat.add_sub_add_right]

theorem ofDigitChars_fixedDigits {w n : Nat} (h : n < 10 ^ w) : Nat.ofDigitChars 10 (fixedDigits w n) 0 = n := by
  induction w generalizing n with
  | zero =>
    have hzero : n = 0 := by omega
    rw [hzero]
    rfl
  | succ w ih =>
    rw [pow_succ] at h
    rw [fixedDigits, Nat.ofDigitChars_append, ih (by omega), Nat.ofDigitChars_cons_digitChar_of_lt_ten (by omega),
      Nat.ofDigitChars_nil]
    omega

theorem ofDigitChars_lt {cs : List Char} (h : ∀ c ∈ cs, c.toNat ≤ 57) (acc : Nat) :
    Nat.ofDigitChars 10 cs acc < 10 ^ cs.length * (acc + 1) := by
  induction cs generalizing acc with
  | nil => simp
  | cons c cs ih =>
    obtain ⟨hc, hcs⟩ := forall_mem_cons.1 h
    have hzero : '0'.toNat = 48 := rfl
    have hnext : 10 * acc + (c.toNat - '0'.toNat) + 1 ≤ 10 * (acc + 1) := by omega
    rw [Nat.ofDigitChars_cons, length_cons, pow_succ, Nat.mul_assoc]
    exact Nat.lt_of_lt_of_le (ih hcs _) (Nat.mul_le_mul_left _ hnext)

theorem append_lt_append_iff {α : Type*} [LT α] [Std.Irrefl (α := α) (· < ·)] {a b s t : List α}
    (h : a.length = b.length) : a ++ s < b ++ t ↔ a < b ∨ a = b ∧ s < t := by
  induction a generalizing b with
  | nil =>
    obtain rfl := length_eq_zero_iff.1 h.symm
    simp
  | cons x a ih =>
    obtain ⟨y, b, rfl⟩ := exists_cons_of_length_eq_add_one h.symm
    have hlen : a.length = b.length := by simpa using h
    rw [cons_append, cons_append, cons_lt_cons_iff, cons_lt_cons_iff, ih hlen, List.cons.injEq]
    tauto

theorem digitChar_lt_iff {c d : Nat} (hc : c < 10) (hd : d < 10) : c.digitChar < d.digitChar ↔ c < d := by
  rw [Char.lt_def, UInt32.lt_iff_toNat_lt]
  show c.digitChar.toNat < d.digitChar.toNat ↔ c < d
  rw [Nat.toNat_digitChar_of_lt_ten hc, Nat.toNat_digitChar_of_lt_ten hd]
  omega

theorem fixedDigits_inj {w m n : Nat} (hm : m < 10 ^ w) (hn : n < 10 ^ w) : fixedDigits w m = fixedDigits w n ↔ m = n := by
  refine ⟨fun h => ?_, fun h => h ▸ rfl⟩
  induction w generalizing m n with
  | zero => omega
  | succ w ih =>
    rw [pow_succ] at hm hn
    obtain ⟨hinit, hlast⟩ := append_inj' h rfl
    have hdiv := ih (by omega) (by omega) hinit
    have hmod : (m % 10).digitChar.toNat = (n % 10).digitChar.toNat := by rw [singleton_inj.1 hlast]
    rw [Nat.toNat_digitChar_of_lt_ten (by omega), Nat.toNat_digitChar_of_lt_ten (by omega)] at hmod
    omega

theorem fixedDigits_lt_iff {w m n : Nat} (hm : m < 10 ^ w) (hn : n < 10 ^ w) :
    fixedDigits w m < fixedDigits w n ↔ m < n := by
  induction w generalizing m n with
  | zero =>
    have hnil : ¬([] : List Char) < [] := not_lt_nil []
    simp only [fixedDigits, hnil, false_iff]
    omega
  | succ w ih =>
    rw [pow_succ] at hm hn
    have hsame : m / 10 = n / 10 ↔ fixedDigits w (m / 10) = fixedDigits w (n / 10) :=
      (fixedDigits_inj (by omega) (by omega)).symm
    have hlast : [(m % 10).digitChar] < [(n % 10).digitChar] ↔ m % 10 < n % 10 := by
      rw [cons_lt_cons_iff, digitChar_lt_iff (by omega) (by omega)]
      simp
    rw [fixedDigits, fixedDigits, append_lt_append_iff (by simp), ih (by omega) (by omega), ← hsame, hlast]
    omega

end Lib
