import Mathlib.Data.Nat.Size
import Mathlib.Tactic.Linarith
import LetsFlutSsh.Lib.Bytes

/-!
# Big-endian numbers

* `bigEndian` : the number of a byte string;
* `significant` : the bytes from the first non-zero one;
* `twosComplement` : the signed number, and `IsMpint` : its shortest byte string;
* `mpintBytes` : a natural number as a signed one, written on its significant bytes (`isMpint_mpintBytes`).
-/

namespace Lib
open List

def bigEndian : Bytes → Nat
  | [] => 0
  | b :: bs => b.toNat * 256 ^ bs.length + bigEndian bs

def significant (bs : Bytes) : Bytes := bs.dropWhile (· = 0)

def twosComplement : Bytes → Int
  | [] => 0
  | b :: bs => if b.toNat < 128 then bigEndian (b :: bs) else bigEndian (b :: bs) - 256 ^ (bs.length + 1)

/-- The shortest byte string with this signed number: without its first byte it would have another. -/
structure IsMpint (n : Int) (bs : Bytes) : Prop where
  value : twosComplement bs = n
  minimal : ∀ b rest, bs = b :: rest → twosComplement rest ≠ n

def padded : Bytes → Bytes
  | [] => []
  | b :: bs => if b.toNat < 128 then b :: bs else 0 :: b :: bs

def mpintBytes (bs : Bytes) : Bytes := padded (significant bs)

variable {bs bs' : Bytes} {b : UInt8}

theorem bigEndian_lt (bs : Bytes) : bigEndian bs < 256 ^ bs.length := by
  induction bs with
  | nil => simp [bigEndian]
  | cons b bs ih =>
    have hb : b.toNat ≤ 255 := Nat.le_of_lt_succ b.toNat_lt
    calc b.toNat * 256 ^ bs.length + bigEndian bs < b.toNat * 256 ^ bs.length + 256 ^ bs.length := by omega
      _ = (b.toNat + 1) * 256 ^ bs.length := by ring
      _ ≤ 256 * 256 ^ bs.length := Nat.mul_le_mul_right _ (by omega)
      _ = 256 ^ (bs.length + 1) := by ring

theorem bigEndian_append (bs bs' : Bytes) : bigEndian (bs ++ bs') = bigEndian bs * 256 ^ bs'.length + bigEndian bs' := by
  induction bs with
  | nil => simp [bigEndian]
  | cons b bs ih =>
    rw [cons_append, bigEndian, bigEndian, ih, length_append, pow_add]
    ring

theorem bigEndian_concat (bs : Bytes) (b : UInt8) : bigEndian (bs ++ [b]) = bigEndian bs * 256 + b.toNat := by
  rw [bigEndian_append]
  simp [bigEndian]

theorem bigEndian_reverse (bs : Bytes) : bigEndian bs.reverse = ofLeBytes bs := by
  induction bs with
  | nil => rfl
  | cons b bs ih =>
    rw [reverse_cons, bigEndian_concat, ih, ofLeBytes]
    ring

theorem bigEndian_reverse_leBytes {w n : Nat} (h : n < 256 ^ w) : bigEndian (leBytes w n).reverse = n := by
  rw [bigEndian_reverse, ofLeBytes_leBytes h]

theorem ofLeBytes_leBytes_mod (w n : Nat) : ofLeBytes (leBytes w n) = n % 256 ^ w := by
  induction w generalizing n with
  | zero => simp [leBytes, ofLeBytes, Nat.mod_one]
  | succ w ih =>
    have hbyte : n.toUInt8.toNat = n % 256 := by simp [Nat.toUInt8]
    rw [leBytes, ofLeBytes, ih, hbyte, pow_succ, Nat.mul_comm (256 ^ w), Nat.mod_mul]

theorem bigEndian_zero_cons (bs : Bytes) : bigEndian (0 :: bs) = bigEndian bs := by
  simp [bigEndian]

theorem le_bigEndian (h : b ≠ 0) (bs : Bytes) : 256 ^ bs.length ≤ bigEndian (b :: bs) := by
  have hb : 0 < b.toNat := Nat.pos_of_ne_zero fun hzero => h (UInt8.toNat_inj.1 hzero)
  rw [bigEndian]
  have hmul : 1 * 256 ^ bs.length ≤ b.toNat * 256 ^ bs.length := Nat.mul_le_mul_right _ hb
  omega

theorem bigEndian_inj (hlen : bs.length = bs'.length) (h : bigEndian bs = bigEndian bs') : bs = bs' := by
  induction bs generalizing bs' with
  | nil => exact (length_eq_zero_iff.1 hlen.symm).symm
  | cons b bs ih =>
    cases bs' with
    | nil => cases hlen
    | cons b' bs' =>
      have hlen' : bs.length = bs'.length := by simpa using hlen
      rw [bigEndian, bigEndian, hlen'] at h
      have hlt := bigEndian_lt bs
      have hlt' := bigEndian_lt bs'
      rw [hlen'] at hlt
      have hpos : 0 < 256 ^ bs'.length := Nat.pow_pos (by omega)
      have hhead : b.toNat = b'.toNat := by
        have hdiv := congrArg (· / 256 ^ bs'.length) h
        simpa [Nat.mul_comm, Nat.mul_add_div hpos, Nat.div_eq_of_lt hlt, Nat.div_eq_of_lt hlt'] using hdiv
      have htail : bigEndian bs = bigEndian bs' := by
        rw [hhead] at h
        omega
      rw [UInt8.toNat_inj.1 hhead, ih hlen' htail]

@[simp] theorem significant_zero_cons (bs : Bytes) : significant (0 :: bs) = significant bs := by
  simp [significant]

theorem significant_of_ne (h : b ≠ 0) : significant (b :: bs) = b :: bs := by
  simp [significant, h]

theorem bigEndian_significant (bs : Bytes) : bigEndian (significant bs) = bigEndian bs := by
  induction bs with
  | nil => rfl
  | cons b bs ih =>
    by_cases h : b = 0
    · rw [h, significant_zero_cons, ih, bigEndian_zero_cons]
    · rw [significant_of_ne h]

theorem head_significant {rest : Bytes} (h : significant bs = b :: rest) : b ≠ 0 := by
  induction bs with
  | nil => cases h
  | cons c bs ih =>
    by_cases hc : c = 0
    · rw [hc, significant_zero_cons] at h
      exact ih h
    · rw [significant_of_ne hc, List.cons.injEq] at h
      exact h.1 ▸ hc

theorem significant_eq_nil_iff : significant bs = [] ↔ bigEndian bs = 0 := by
  rw [← bigEndian_significant]
  rcases h : significant bs with _ | ⟨b, rest⟩
  · simp [bigEndian]
  · have hle := le_bigEndian (head_significant h) rest
    have hpos : 0 < 256 ^ rest.length := Nat.pow_pos (by omega)
    simp only [reduceCtorEq, false_iff]
    omega

theorem length_significant_le (h : bigEndian bs = bigEndian bs') : (significant bs).length ≤ (significant bs').length := by
  rcases hs : significant bs with _ | ⟨b, rest⟩
  · exact Nat.zero_le _
  have hle := le_bigEndian (head_significant hs) rest
  have hlt := bigEndian_lt (significant bs')
  rw [← hs, bigEndian_significant, h] at hle
  rw [bigEndian_significant] at hlt
  have hpow : rest.length < (significant bs').length := (Nat.pow_lt_pow_iff_right (by omega)).1 (hle.trans_lt hlt)
  exact hpow

theorem significant_congr (h : bigEndian bs = bigEndian bs') : significant bs = significant bs' := by
  apply bigEndian_inj
  · exact Nat.le_antisymm (length_significant_le h) (length_significant_le h.symm)
  · rw [bigEndian_significant, bigEndian_significant, h]

theorem twosComplement_le (bs : Bytes) : twosComplement bs ≤ bigEndian bs := by
  cases bs with
  | nil => rfl
  | cons b bs =>
    have hpos : (0 : Int) < 256 ^ (bs.length + 1) := by positivity
    by_cases h : b.toNat < 128
    · exact (if_pos h).le
    · rw [twosComplement, if_neg h]
      omega

theorem twosComplement_of_lt (h : b.toNat < 128) (bs : Bytes) : twosComplement (b :: bs) = bigEndian (b :: bs) :=
  if_pos h

theorem twosComplement_of_ge (h : ¬ b.toNat < 128) (bs : Bytes) :
    twosComplement (b :: bs) = bigEndian (b :: bs) - 256 ^ (bs.length + 1) := if_neg h

theorem IsMpint.eq_nil_iff {n : Int} (h : IsMpint n bs) : bs = [] ↔ n = 0 := by
  constructor
  · intro hnil
    rw [← h.value, hnil]
    rfl
  rintro rfl
  by_contra hne
  obtain ⟨b, rest, rfl⟩ := exists_cons_of_ne_nil hne
  have hvalue := h.value
  by_cases hb : b.toNat < 128
  · -- All bytes are zero.
    rw [twosComplement_of_lt hb, Int.natCast_eq_zero, bigEndian, Nat.add_eq_zero_iff] at hvalue
    apply h.minimal b rest rfl
    rcases rest with _ | ⟨c, rest⟩
    · rfl
    have hc : c = 0 := by
      by_contra hc
      have hle := le_bigEndian hc rest
      have hpos : 0 < 256 ^ rest.length := Nat.pow_pos (by omega)
      omega
    rw [twosComplement_of_lt (by simp [hc]), hvalue.2]
    rfl
  · rw [twosComplement_of_ge hb] at hvalue
    have hlt := bigEndian_lt (b :: rest)
    rw [length_cons] at hlt
    zify at hlt
    omega

theorem isMpint_mpintBytes (bs : Bytes) : IsMpint (bigEndian bs) (mpintBytes bs) := by
  unfold mpintBytes
  rw [← bigEndian_significant]
  rcases hs : significant bs with _ | ⟨b, rest⟩
  · exact ⟨rfl, nofun⟩
  unfold padded
  dsimp only
  split
  · next hb =>
    refine ⟨twosComplement_of_lt hb rest, ?_⟩
    rintro c tail heq
    rw [List.cons.injEq] at heq
    rw [← heq.2]
    have hle := twosComplement_le rest
    have hlt := bigEndian_lt rest
    have hge := le_bigEndian (head_significant hs) rest
    omega
  · next hb =>
    refine ⟨?_, ?_⟩
    · rw [twosComplement_of_lt (by decide), bigEndian_zero_cons]
    · rintro c tail heq
      rw [List.cons.injEq] at heq
      rw [← heq.2, twosComplement_of_ge hb]
      have hpos : (0 : Int) < 256 ^ (rest.length + 1) := by positivity
      omega

theorem length_mpintBytes (h : bigEndian bs ≠ 0) : (mpintBytes bs).length = (bigEndian bs).size / 8 + 1 := by
  obtain ⟨b, rest, hs⟩ := exists_cons_of_ne_nil (significant_eq_nil_iff.not.2 h)
  have hlt := bigEndian_lt (b :: rest)
  have hge := le_bigEndian (head_significant hs) rest
  rw [← bigEndian_significant, mpintBytes, hs]
  have hpow : ∀ k, 256 ^ k = 2 ^ (8 * k) := fun k => by rw [pow_mul]; norm_num
  rw [length_cons, hpow] at hlt
  rw [hpow] at hge
  have hlow := Nat.lt_size.2 hge
  have hhigh := Nat.size_le.2 hlt
  have hrest := bigEndian_lt rest
  rw [hpow] at hrest
  have hhalf : 2 ^ (8 * rest.length + 7) = 128 * 2 ^ (8 * rest.length) := by rw [pow_add]; ring
  have hnum : bigEndian (b :: rest) = b.toNat * 2 ^ (8 * rest.length) + bigEndian rest := by rw [bigEndian, hpow]
  unfold padded
  dsimp only
  split
  · next hb =>
    -- The top bit is free.
    have hsize : (bigEndian (b :: rest)).size ≤ 8 * rest.length + 7 := by
      apply Nat.size_le.2
      have hmul : (b.toNat + 1) * 2 ^ (8 * rest.length) ≤ 128 * 2 ^ (8 * rest.length) := Nat.mul_le_mul_right _ hb
      rw [Nat.add_mul] at hmul
      omega
    rw [length_cons]
    omega
  · next hb =>
    have hsize : 8 * rest.length + 7 < (bigEndian (b :: rest)).size := by
      apply Nat.lt_size.2
      have hmul : 128 * 2 ^ (8 * rest.length) ≤ b.toNat * 2 ^ (8 * rest.length) := Nat.mul_le_mul_right _ (Nat.not_lt.1 hb)
      omega
    rw [length_cons, length_cons]
    omega

end Lib
