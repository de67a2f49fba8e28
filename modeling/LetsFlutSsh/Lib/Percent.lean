import LetsFlutSsh.Lib.Bytes

/-!
# Percent encoding

* `hexDigit`, `hexValue` : a digit of an escape and its value;
* `percentEncode` : every byte outside a set becomes an escape;
* `percentDecode` : every escape becomes its byte (`percentDecode_percentEncode`, `percentDecode_append`).
-/

namespace Lib
open List

def hexDigit (n : Nat) : UInt8 := if n < 10 then UInt8.ofNat (48 + n) else UInt8.ofNat (55 + n)

/-- `char::to_digit(16)`. -/
def hexValue (b : UInt8) : Option Nat :=
  if 48 ≤ b.toNat ∧ b.toNat ≤ 57 then some (b.toNat - 48)
  else if 65 ≤ b.toNat ∧ b.toNat ≤ 70 then some (b.toNat - 55)
  else if 97 ≤ b.toNat ∧ b.toNat ≤ 102 then some (b.toNat - 87)
  else none

theorem toNat_hexDigit {n : Nat} (h : n < 16) : (hexDigit n).toNat = if n < 10 then 48 + n else 55 + n := by
  unfold hexDigit
  split_ifs <;> rw [UInt8.toNat_ofNat'] <;> omega

theorem hexValue_hexDigit {n : Nat} (h : n < 16) : hexValue (hexDigit n) = some n := by
  unfold hexValue
  rw [toNat_hexDigit h]
  split_ifs <;> first | omega | (congr 1; omega)

def percent : UInt8 := 0x25
def percentByte (b : UInt8) : Bytes := [percent, hexDigit (b.toNat / 16), hexDigit (b.toNat % 16)]

/-- The bytes outside `keep` become escapes. -/
def percentEncode (keep : UInt8 → Bool) (bs : Bytes) : Bytes := bs.flatMap fun b => if keep b then [b] else percentByte b

variable {keep : UInt8 → Bool}

@[simp] theorem percentEncode_nil : percentEncode keep [] = [] := rfl

theorem percentEncode_cons (b : UInt8) (bs : Bytes) :
    percentEncode keep (b :: bs) = (if keep b then [b] else percentByte b) ++ percentEncode keep bs :=
  flatMap_cons

theorem percentEncode_append (xs ys : Bytes) :
    percentEncode keep (xs ++ ys) = percentEncode keep xs ++ percentEncode keep ys := flatMap_append

variable {bs : Bytes}

theorem percentEncode_of_keep (h : ∀ b ∈ bs, keep b = true) : percentEncode keep bs = bs := by
  induction bs with
  | nil => rfl
  | cons b bs ih =>
    rw [percentEncode_cons, if_pos (h b mem_cons_self), ih fun x hx => h x (mem_cons_of_mem b hx)]
    rfl

theorem mem_percentEncode {b : UInt8} (h : b ∈ percentEncode keep bs) :
    keep b = true ∨ b = percent ∨ ∃ n < 16, b = hexDigit n := by
  obtain ⟨a, -, ha⟩ := mem_flatMap.1 h
  have hlt := a.toNat_lt
  split_ifs at ha with hkeep
  · rw [mem_singleton] at ha
    exact .inl (ha ▸ hkeep)
  · simp only [percentByte, mem_cons, not_mem_nil, or_false] at ha
    rcases ha with rfl | rfl | rfl
    · exact .inr (.inl rfl)
    · exact .inr (.inr ⟨_, by omega, rfl⟩)
    · exact .inr (.inr ⟨_, by omega, rfl⟩)

def escaped (a hi lo : UInt8) : Option UInt8 :=
  if a = percent then (hexValue hi).bind fun h => (hexValue lo).map fun l => UInt8.ofNat (16 * h + l) else none

/-- An escape becomes its byte; a percent sign without two digits stays. -/
def percentDecode : Bytes → Bytes
  | a :: hi :: lo :: rest =>
    match escaped a hi lo with
    | some b => b :: percentDecode rest
    | none => a :: percentDecode (hi :: lo :: rest)
  | bs => bs

@[simp] theorem percentDecode_nil : percentDecode [] = [] := rfl

theorem escaped_percentByte (b : UInt8) : escaped percent (hexDigit (b.toNat / 16)) (hexDigit (b.toNat % 16)) = some b := by
  have hlt := b.toNat_lt
  rw [escaped, if_pos rfl, hexValue_hexDigit (by omega), hexValue_hexDigit (by omega), Option.bind_some, Option.map_some,
    Nat.div_add_mod, UInt8.ofNat_toNat]

theorem percentDecode_percentByte (b : UInt8) (bs : Bytes) : percentDecode (percentByte b ++ bs) = b :: percentDecode bs := by
  rw [percentByte, cons_append, cons_append, cons_append, nil_append, percentDecode, escaped_percentByte]

theorem percentDecode_cons {a : UInt8} (h : a ≠ percent) (bs : Bytes) : percentDecode (a :: bs) = a :: percentDecode bs := by
  match bs with
  | [] => rfl
  | [_] => rfl
  | hi :: lo :: rest => rw [percentDecode, escaped, if_neg h]

theorem percentDecode_of_not_mem (h : percent ∉ bs) : percentDecode bs = bs := by
  induction bs with
  | nil => rfl
  | cons b bs ih =>
    rw [mem_cons, not_or] at h
    rw [percentDecode_cons (Ne.symm h.1), ih h.2]

theorem percentDecode_percentEncode (hkeep : keep percent = false) (bs rest : Bytes) :
    percentDecode (percentEncode keep bs ++ rest) = bs ++ percentDecode rest := by
  induction bs with
  | nil => rfl
  | cons b bs ih =>
    rw [percentEncode_cons, append_assoc]
    split_ifs with hb
    · have hne : b ≠ percent := by
        rintro rfl
        rw [hkeep] at hb
        cases hb
      rw [singleton_append, percentDecode_cons hne, ih, cons_append]
    · rw [percentDecode_percentByte, ih, cons_append]

theorem percentDecode_append {c : UInt8} (hc : hexValue c = none) (hne : c ≠ percent) (xs ys : Bytes) :
    percentDecode (xs ++ c :: ys) = percentDecode xs ++ c :: percentDecode ys := by
  have hone : ∀ a, percentDecode (a :: c :: ys) = a :: c :: percentDecode ys := by
    intro a
    match ys with
    | [] => rfl
    | y :: ys =>
      have hescaped : escaped a c y = none := by simp [escaped, hc]
      rw [percentDecode, hescaped]
      rw [percentDecode_cons hne]
  induction xs using percentDecode.induct with
  | case1 a hi lo rest b hb ih =>
    rw [cons_append, cons_append, cons_append, percentDecode, hb, percentDecode, hb]
    rw [ih, cons_append]
  | case2 a hi lo rest hb ih =>
    rw [cons_append, cons_append, cons_append, percentDecode, hb, percentDecode, hb]
    rw [← cons_append, ← cons_append, ih, cons_append]
  | case3 bs hshort =>
    match bs, hshort with
    | [], _ => rw [nil_append, percentDecode_cons hne]; rfl
    | [a], _ => exact hone a
    | [a, b], _ =>
      -- An escape would have to end with `c`.
      have hescaped : escaped a b c = none := by simp [escaped, hc]
      rw [cons_append, cons_append, nil_append, percentDecode, hescaped]
      rw [hone]
      rfl
    | a :: b :: d :: rest, h => exact absurd rfl (h a b d rest)

end Lib
