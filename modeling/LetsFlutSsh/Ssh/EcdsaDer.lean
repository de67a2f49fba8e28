import LetsFlutSsh.Ssh.Wire

/-!
# ECDSA signatures from DER and from two raw halves

* `ecdsaDerToSshMpint`, `ecdsaRawConcatToSshMpint` : the two encoders, on words of 32 or 64 bits;
* `LengthField`, `Consumes` : what a DER signature is made of, and that it is made of nothing else;
* `derSignature` : the DER encoding of two numbers;
* `HugeLength` : a length field that an index and a word cannot hold together;
* `sound_iff`, `agree_iff` : what the DER encoder does with any bytes, and when the two agree;
  `signaturePaths_iff`, and `integer_length_overflows` : eight bytes that a 32-bit word is too short for.
-/

namespace LetsFlutSsh.Ssh
open Lib List

/-! ## The encoders -/

inductive Usize where
  | bits32
  | bits64

def Usize.bits : Usize → Nat
  | .bits32 => 32
  | .bits64 => 64

/-- No slice is longer than `isize::MAX`. -/
def Usize.Fits (w : Usize) (bs : Bytes) : Prop := bs.length < 2 ^ (w.bits - 1)

instance (w : Usize) (bs : Bytes) : Decidable (w.Fits bs) := inferInstanceAs (Decidable (_ < _))

/-- An `Error::Auth`, or an overflow or an index out of range. -/
inductive Stop where
  | auth (text : String)
  | panic
  deriving DecidableEq

def Usize.add (w : Usize) (a b : Nat) : Except Stop Nat := if a + b < 2 ^ w.bits then .ok (a + b) else .error .panic

/-- `buf[i]`. -/
def readAt (buf : Bytes) (i : Nat) : Except Stop UInt8 :=
  match buf[i]? with
  | some b => .ok b
  | none => .error .panic

/-- `buf[i..j]`. -/
def slice (buf : Bytes) (i j : Nat) : Except Stop Bytes :=
  if i ≤ j ∧ j ≤ buf.length then .ok ((buf.take j).drop i) else .error .panic

def derMaxLengthBytes : Nat := 4

/-- The bytes of a long length, most significant first; what is shifted out of the word is lost. -/
def readLengthBytes (w : Usize) (buf : Bytes) : Nat → Nat → Nat → Except Stop (Nat × Nat)
  | 0, len, idx => .ok (len, idx)
  | nbytes + 1, len, idx => do
    let b ← readAt buf idx
    let idx ← w.add idx 1
    readLengthBytes w buf nbytes ((len <<< 8) % 2 ^ w.bits ||| b.toNat) idx

def readDerLength (w : Usize) (buf : Bytes) (idx : Nat) : Except Stop (Nat × Nat) :=
  if idx ≥ buf.length then .error (.auth "ssh wire: truncated DER length")
  else do
    let first ← readAt buf idx
    let idx ← w.add idx 1
    if first &&& 0x80 = 0 then .ok (first.toNat, idx)
    else
      let nbytes := (first &&& 0x7f).toNat
      if nbytes = 0 ∨ nbytes > derMaxLengthBytes then .error (.auth "ssh wire: bad DER length encoding")
      else do
        let stop ← w.add idx nbytes
        if stop > buf.length then .error (.auth "ssh wire: bad DER length encoding")
        else readLengthBytes w buf nbytes 0 idx

def readDerInteger (w : Usize) (buf : Bytes) (idx : Nat) : Except Stop (Bytes × Nat) :=
  if idx ≥ buf.length then .error (.auth "ssh wire: bad DER (INTEGER tag)")
  else do
    let tag ← readAt buf idx
    if tag ≠ 0x02 then .error (.auth "ssh wire: bad DER (INTEGER tag)")
    else do
      let idx ← w.add idx 1
      let (len, idx) ← readDerLength w buf idx
      let stop ← w.add idx len
      if stop > buf.length ∨ len = 0 then .error (.auth "ssh wire: truncated DER INTEGER")
      else do
        let bytes ← slice buf idx stop
        .ok (pad (dropZeros bytes), stop)

def parseEcdsaDer (w : Usize) (der : Bytes) : Except Stop (Bytes × Bytes) :=
  if der.length < 2 then .error (.auth "ssh wire: bad DER (SEQUENCE tag)")
  else do
    let tag ← readAt der 0
    if tag ≠ 0x30 then .error (.auth "ssh wire: bad DER (SEQUENCE tag)")
    else do
      let idx ← w.add 0 1
      let (seqLen, idx) ← readDerLength w der idx
      let stop ← w.add idx seqLen
      if stop ≠ der.length then .error (.auth "ssh wire: bad DER (SEQUENCE length)")
      else do
        let (r, idx) ← readDerInteger w der idx
        let (s, idx) ← readDerInteger w der idx
        if idx ≠ der.length then .error (.auth "ssh wire: bad DER (trailing bytes)")
        else .ok (r, s)

def ecdsaDerToSshMpint (w : Usize) (der : Bytes) : Except Stop Bytes := do
  let (r, s) ← parseEcdsaDer w der
  let both ← w.add r.length s.length
  let _capacity ← w.add both 16
  .ok (pushSshString (pushSshString [] r) s)

def ecdsaRawConcatToSshMpint (w : Usize) (rs : Bytes) : Except Stop Bytes :=
  if rs.length % 2 ≠ 0 ∨ rs = [] then
    .error (.auth ("ssh wire: ecdsa raw r||s must be non-empty and even-length, got " ++ toString rs.length ++ " bytes"))
  else do
    let half := rs.length / 2
    let _capacity ← w.add rs.length 16
    .ok (pushSshMpint (pushSshMpint [] (rs.take half)) (rs.drop half))

/-! ## What a signature is made of -/

/-- A length on one byte, or on up to four after their number. -/
inductive LengthField : Bytes → Nat → Prop where
  | short {b : UInt8} (h : b.toNat < 128) : LengthField [b] b.toNat
  | long {first : UInt8} {rest : Bytes} (hcount : first.toNat = 128 + rest.length) (hne : rest ≠ [])
      (hle : rest.length ≤ derMaxLengthBytes) : LengthField (first :: rest) (bigEndian rest)

/-- The bytes are two numbers in a sequence and nothing else, and the output holds the two. -/
def Consumes (der out : Bytes) : Prop :=
  ∃ l lr ls r s, der = 0x30 :: l ++ (0x02 :: lr ++ r) ++ (0x02 :: ls ++ s) ∧
    LengthField l ((0x02 :: lr ++ r) ++ (0x02 :: ls ++ s)).length ∧
    LengthField lr r.length ∧ r ≠ [] ∧ LengthField ls s.length ∧ s ≠ [] ∧
    out = pushSshString (pushSshString [] (written r)) (written s)

/-- What lies before a length field that the parser comes to, in an input of so many bytes. -/
inductive Before : Bytes → Nat → Prop where
  | sequence {total : Nat} : Before [0x30] total
  | first {l : Bytes} {n total : Nat} (hl : LengthField l n) (htotal : total = 1 + l.length + n) :
      Before (0x30 :: l ++ [0x02]) total
  | second {l lr r : Bytes} {n total : Nat} (hl : LengthField l n) (htotal : total = 1 + l.length + n)
      (hr : LengthField lr r.length) (hne : r ≠ []) : Before (0x30 :: l ++ (0x02 :: lr ++ r) ++ [0x02]) total

/-- A length field that the parser comes to, and a word cannot hold the index of its end. -/
def HugeLength (w : Usize) (der : Bytes) : Prop :=
  ∃ before field n rest, der = before ++ field ++ rest ∧ Before before der.length ∧ LengthField field n ∧
    2 ^ w.bits ≤ before.length + field.length + n

/-- Neither an overflow nor a slice out of range, and the whole input when there is an output. -/
def Sound (der : Bytes) : Except Stop Bytes → Prop
  | .ok out => Consumes der out
  | .error (.auth _) => True
  | .error .panic => False

/-! ## Readers -/

variable {w : Usize} {before field rest bytes : Bytes} {b : UInt8} {n a c : Nat}

theorem ok_bind {α β : Type} (x : α) (f : α → Except Stop β) : (Except.ok x >>= f) = f x := rfl

theorem Usize.bits_spec (w : Usize) : 2 ^ w.bits = 2 * 2 ^ (w.bits - 1) ∧ 2 ^ 31 ≤ 2 ^ (w.bits - 1) := by
  cases w <;> decide

theorem Usize.add_of_lt (h : a + c < 2 ^ w.bits) : w.add a c = .ok (a + c) := if_pos h
theorem Usize.add_of_ge (h : 2 ^ w.bits ≤ a + c) : w.add a c = .error .panic := if_neg (Nat.not_lt.2 h)

theorem readAt_append (before : Bytes) (b : UInt8) (rest : Bytes) : readAt (before ++ b :: rest) before.length = .ok b := by
  simp [readAt]

theorem slice_append (before bytes rest : Bytes) :
    slice (before ++ bytes ++ rest) before.length (before.length + bytes.length) = .ok bytes := by
  have hlen : before.length + bytes.length = (before ++ bytes).length := length_append.symm
  rw [slice, if_pos (by simp), hlen, take_left, drop_left]

theorem long_of_topBit {first : UInt8} (h : ¬ first &&& 0x80 = 0) : first.toNat = 128 + (first &&& 0x7f).toNat := by
  have hall := forall_byte (p := fun b => decide (¬ b &&& 0x80 = 0 → b.toNat = 128 + (b &&& 0x7f).toNat))
    (by decide +kernel) first
  exact of_decide_eq_true hall h

theorem readLengthBytes_append {len : Nat} (hfits : w.Fits (before ++ bytes ++ rest))
    (hlen : len * 256 ^ bytes.length + 256 ^ bytes.length ≤ 2 ^ 32) :
    readLengthBytes w (before ++ bytes ++ rest) bytes.length len before.length =
      .ok (len * 256 ^ bytes.length + bigEndian bytes, before.length + bytes.length) := by
  have hbits := w.bits_spec
  induction bytes generalizing before len with
  | nil => simp [readLengthBytes, bigEndian]
  | cons b bytes ih =>
    unfold Usize.Fits at hfits
    have hlong := hfits
    simp only [length_append, length_cons] at hlong
    have hpow : 256 ^ (b :: bytes).length = 256 * 256 ^ bytes.length := by rw [length_cons, pow_succ, Nat.mul_comm]
    have hb : b.toNat < 256 := b.toNat_lt
    have hpos : 0 < 256 ^ bytes.length := Nat.pow_pos (by omega)
    rw [hpow] at hlen
    have hstep : (len * 256 + b.toNat) * 256 ^ bytes.length + 256 ^ bytes.length ≤ 2 ^ 32 := by
      calc (len * 256 + b.toNat) * 256 ^ bytes.length + 256 ^ bytes.length
          = len * (256 * 256 ^ bytes.length) + (b.toNat + 1) * 256 ^ bytes.length := by ring
        _ ≤ len * (256 * 256 ^ bytes.length) + 256 * 256 ^ bytes.length := by
            apply Nat.add_le_add_left
            exact Nat.mul_le_mul_right _ hb
        _ ≤ 2 ^ 32 := hlen
    have hsmall : len * 256 + b.toNat < 2 ^ w.bits := by
      have hone : (len * 256 + b.toNat) * 1 ≤ (len * 256 + b.toNat) * 256 ^ bytes.length := Nat.mul_le_mul_left _ hpos
      omega
    have hshift : (len <<< 8) % 2 ^ w.bits ||| b.toNat = len * 256 + b.toNat := by
      have hmod : len * 2 ^ 8 % 2 ^ w.bits = 2 ^ 8 * len := by
        rw [Nat.mul_comm len]
        apply Nat.mod_eq_of_lt
        omega
      rw [Nat.shiftLeft_eq, hmod, ← Nat.two_pow_add_eq_or_of_lt hb len]
      omega
    have happ : before ++ (b :: bytes) ++ rest = before ++ [b] ++ bytes ++ rest := by simp
    have hidx : before.length + 1 = (before ++ [b]).length := by simp
    rw [happ] at hfits
    rw [length_cons, readLengthBytes, append_assoc, cons_append, readAt_append]
    rw [ok_bind, Usize.add_of_lt (by omega), ok_bind]
    rw [hshift, hidx, ← cons_append, ← append_assoc, happ, ih hfits hstep]
    congr 2
    · rw [bigEndian, pow_succ]
      ring
    · omega

theorem LengthField.ne_nil (h : LengthField field n) : field ≠ [] := by
  cases h <;> simp

theorem readDerLength_field (h : LengthField field n) (hfits : w.Fits (before ++ field ++ rest)) :
    readDerLength w (before ++ field ++ rest) before.length = .ok (n, before.length + field.length) := by
  have hbits := w.bits_spec
  have hlong := hfits
  unfold Usize.Fits at hlong
  simp only [length_append] at hlong
  unfold readDerLength
  cases h with
  | @short b hb =>
    rw [if_neg (by simp), append_assoc, singleton_append, readAt_append, ok_bind, Usize.add_of_lt (by omega), ok_bind]
    exact if_pos ((topBit_eq_zero_iff b).2 hb)
  | @long first tail hcount hne hle =>
    have htop : ¬ first &&& 0x80 = 0 := by
      rw [topBit_eq_zero_iff]
      omega
    have hnbytes : (first &&& 0x7f).toNat = tail.length := by
      have := long_of_topBit htop
      omega
    have hpos := length_pos_iff.2 hne
    rw [length_cons] at hlong
    have happ : before ++ (first :: tail) ++ rest = before ++ [first] ++ tail ++ rest := by simp
    have hidx : before.length + 1 = (before ++ [first]).length := by simp
    rw [if_neg (by simp), append_assoc, cons_append, readAt_append, ok_bind, Usize.add_of_lt (by omega), ok_bind,
      if_neg htop, hnbytes, if_neg (by unfold derMaxLengthBytes at hle ⊢; omega), Usize.add_of_lt (by omega), ok_bind,
      if_neg (by simp; omega), hidx, ← cons_append, ← append_assoc, happ, readLengthBytes_append (happ ▸ hfits)]
    · simp only [Nat.zero_mul, Nat.zero_add, length_append, length_cons, length_nil]
      congr 2
      omega
    · rw [Nat.zero_mul, Nat.zero_add]
      calc 256 ^ tail.length ≤ 256 ^ 4 := Nat.pow_le_pow_right (by omega) hle
        _ = 2 ^ 32 := by norm_num

/-- The part of `read_der_length` for a long length. -/
def readLongLength (w : Usize) (buf : Bytes) (nbytes idx : Nat) : Except Stop (Nat × Nat) :=
  if nbytes = 0 ∨ nbytes > derMaxLengthBytes then .error (.auth "ssh wire: bad DER length encoding")
  else (w.add idx nbytes).bind fun stop =>
    if stop > buf.length then .error (.auth "ssh wire: bad DER length encoding") else readLengthBytes w buf nbytes 0 idx

theorem readDerLength_cases (hfits : w.Fits (before ++ rest)) :
    (∃ text, readDerLength w (before ++ rest) before.length = .error (.auth text)) ∨
      ∃ field n tail, rest = field ++ tail ∧ LengthField field n := by
  have hbits := w.bits_spec
  have hlong := hfits
  unfold Usize.Fits at hlong
  rw [length_append] at hlong
  rcases rest with _ | ⟨first, tail⟩
  · exact .inl ⟨_, if_pos (by simp)⟩
  rw [length_cons] at hlong
  by_cases htop : first &&& 0x80 = 0
  · exact .inr ⟨[first], first.toNat, tail, rfl, .short ((topBit_eq_zero_iff first).1 htop)⟩
  have hstart : readDerLength w (before ++ first :: tail) before.length =
      readLongLength w (before ++ first :: tail) (first &&& 0x7f).toNat (before.length + 1) := by
    rw [readDerLength, if_neg (by simp), readAt_append, ok_bind, Usize.add_of_lt (by omega), ok_bind, if_neg htop]
    rfl
  by_cases hcount : (first &&& 0x7f).toNat = 0 ∨ (first &&& 0x7f).toNat > derMaxLengthBytes
  · exact .inl ⟨_, hstart.trans (if_pos hcount)⟩
  have hle : (first &&& 0x7f).toNat ≤ 4 := Nat.not_lt.1 (not_or.1 hcount).2
  by_cases hroom : (first &&& 0x7f).toNat ≤ tail.length
  · have htake : (tail.take (first &&& 0x7f).toNat).length = (first &&& 0x7f).toNat := length_take_of_le hroom
    refine .inr ⟨first :: tail.take (first &&& 0x7f).toNat, _, tail.drop (first &&& 0x7f).toNat, ?_, .long ?_ ?_ ?_⟩
    · rw [cons_append, take_append_drop]
    · rw [htake]
      exact long_of_topBit htop
    · apply ne_nil_of_length_pos
      omega
    · rw [htake]
      exact hle
  · refine .inl ⟨"ssh wire: bad DER length encoding", hstart.trans ((if_neg hcount).trans ?_)⟩
    rw [Usize.add_of_lt (by omega)]
    apply if_pos
    simp only [length_append, length_cons]
    omega

/-- The part of `read_der_integer` after the length. -/
def readContent (w : Usize) (buf : Bytes) (len idx : Nat) : Except Stop (Bytes × Nat) := do
  let stop ← w.add idx len
  if stop > buf.length ∨ len = 0 then .error (.auth "ssh wire: truncated DER INTEGER")
  else do
    let bytes ← slice buf idx stop
    .ok (pad (dropZeros bytes), stop)

theorem readDerInteger_tag (hfits : w.Fits (before ++ 0x02 :: rest)) :
    readDerInteger w (before ++ 0x02 :: rest) before.length =
      (readDerLength w (before ++ [0x02] ++ rest) (before ++ [0x02]).length).bind fun p =>
        readContent w (before ++ 0x02 :: rest) p.1 p.2 := by
  have hbits := w.bits_spec
  unfold Usize.Fits at hfits
  simp only [length_append, length_cons] at hfits
  have happ : before ++ [0x02] ++ rest = before ++ 0x02 :: rest := by simp
  have hidx : (before ++ [(0x02 : UInt8)]).length = before.length + 1 := by simp
  rw [readDerInteger, if_neg (by simp), readAt_append, happ, hidx, ok_bind, if_neg (not_not.2 rfl),
    Usize.add_of_lt (by omega)]
  rfl

theorem readDerInteger_length (h : LengthField field n) (hfits : w.Fits (before ++ 0x02 :: (field ++ rest))) :
    readDerInteger w (before ++ 0x02 :: (field ++ rest)) before.length =
      readContent w (before ++ 0x02 :: (field ++ rest)) n (before.length + 1 + field.length) := by
  have happ : before ++ [0x02] ++ field ++ rest = before ++ 0x02 :: (field ++ rest) := by simp
  rw [readDerInteger_tag hfits, ← append_assoc, readDerLength_field h (happ ▸ hfits)]
  simp only [Except.bind, length_append, length_cons, length_nil]

theorem readContent_ok {content : Bytes} (hne : content ≠ []) (hfits : w.Fits (before ++ content ++ rest)) :
    readContent w (before ++ content ++ rest) content.length before.length =
      .ok (written content, before.length + content.length) := by
  have hbits := w.bits_spec
  unfold Usize.Fits at hfits
  simp only [length_append] at hfits
  have hpos := length_pos_iff.2 hne
  rw [readContent, Usize.add_of_lt (by omega), ok_bind, if_neg (by simp only [length_append]; omega), slice_append,
    ok_bind, pad_dropZeros]

theorem readDerInteger_field {content : Bytes} (h : LengthField field content.length) (hne : content ≠ [])
    (hfits : w.Fits (before ++ (0x02 :: field ++ content) ++ rest)) :
    readDerInteger w (before ++ (0x02 :: field ++ content) ++ rest) before.length =
      .ok (written content, before.length + (0x02 :: field ++ content).length) := by
  have happ : before ++ (0x02 :: field ++ content) ++ rest = before ++ 0x02 :: (field ++ (content ++ rest)) := by simp
  have happ' : before ++ (0x02 :: field ++ content) ++ rest = before ++ [0x02] ++ field ++ content ++ rest := by simp
  have hidx : before.length + 1 + field.length = (before ++ [0x02] ++ field).length := by
    simp only [length_append, length_cons, length_nil]
  have hread := readDerInteger_length h (happ ▸ hfits)
  rw [← happ, happ', hidx] at hread
  rw [happ', hread, readContent_ok hne (happ' ▸ hfits)]
  have hlen : (before ++ [0x02] ++ field).length + content.length = before.length + (0x02 :: field ++ content).length := by
    simp only [length_append, length_cons, length_nil]
    omega
  rw [hlen]

theorem readDerInteger_huge (h : LengthField field n) (hhuge : 2 ^ w.bits ≤ before.length + 1 + field.length + n)
    (hfits : w.Fits (before ++ 0x02 :: (field ++ rest))) :
    readDerInteger w (before ++ 0x02 :: (field ++ rest)) before.length = .error .panic := by
  rw [readDerInteger_length h hfits, readContent, Usize.add_of_ge hhuge]
  rfl

theorem readDerInteger_cases (hfits : w.Fits (before ++ rest)) :
    (∃ text, readDerInteger w (before ++ rest) before.length = .error (.auth text)) ∨
      (∃ field n tail, rest = 0x02 :: (field ++ tail) ∧ LengthField field n ∧
        2 ^ w.bits ≤ before.length + 1 + field.length + n) ∨
      ∃ field content tail, rest = (0x02 :: field ++ content) ++ tail ∧ LengthField field content.length ∧ content ≠ [] := by
  rcases rest with _ | ⟨tag, rest⟩
  · exact .inl ⟨_, if_pos (by simp)⟩
  by_cases htag : tag = 0x02
  · rw [htag] at hfits ⊢
    have happ : before ++ [0x02] ++ rest = before ++ 0x02 :: rest := by simp
    obtain ⟨text, herror⟩ | ⟨field, n, tail, rfl, hfield⟩ := readDerLength_cases (happ ▸ hfits)
    · refine .inl ⟨text, ?_⟩
      rw [readDerInteger_tag hfits, herror]
      rfl
    by_cases hhuge : 2 ^ w.bits ≤ before.length + 1 + field.length + n
    · exact .inr (.inl ⟨field, n, tail, rfl, hfield, hhuge⟩)
    by_cases hroom : 0 < n ∧ n ≤ tail.length
    · have htake : (tail.take n).length = n := length_take_of_le hroom.2
      refine .inr (.inr ⟨field, tail.take n, tail.drop n, ?_, htake.symm ▸ hfield, ne_nil_of_length_pos (by omega)⟩)
      simp
    · refine .inl ⟨"ssh wire: truncated DER INTEGER", ?_⟩
      rw [readDerInteger_length hfield hfits, readContent, Usize.add_of_lt (by omega)]
      apply if_pos
      simp only [length_append, length_cons]
      omega
  · refine .inl ⟨"ssh wire: bad DER (INTEGER tag)", ?_⟩
    rw [readDerInteger, if_neg (by simp), readAt_append]
    exact if_pos htag

/-! ## The whole signature -/

variable {der l lr ls r s tail : Bytes}

/-- The end of `parse_ecdsa_der`, after the length of the sequence was checked. -/
def readNumbers (w : Usize) (der : Bytes) (idx : Nat) : Except Stop (Bytes × Bytes) := do
  let first ← readDerInteger w der idx
  let second ← readDerInteger w der first.2
  if second.2 ≠ der.length then .error (.auth "ssh wire: bad DER (trailing bytes)")
  else .ok (first.1, second.1)

/-- The part of `parse_ecdsa_der` after the length of the sequence. -/
def readBody (w : Usize) (der : Bytes) (seqLen idx : Nat) : Except Stop (Bytes × Bytes) := do
  let stop ← w.add idx seqLen
  if stop ≠ der.length then .error (.auth "ssh wire: bad DER (SEQUENCE length)") else readNumbers w der idx

theorem parseEcdsaDer_tag (hne : rest ≠ []) : parseEcdsaDer w (0x30 :: rest) =
    (readDerLength w ([0x30] ++ rest) [(0x30 : UInt8)].length).bind fun p => readBody w (0x30 :: rest) p.1 p.2 := by
  have hbits := w.bits_spec
  have hpos := length_pos_iff.2 hne
  have htag : readAt (0x30 :: rest) 0 = .ok 0x30 := rfl
  rw [parseEcdsaDer, if_neg (by simp only [length_cons]; omega), htag, ok_bind, if_neg (not_not.2 rfl),
    Usize.add_of_lt (by omega)]
  rfl

theorem parseEcdsaDer_length (h : LengthField l n) (hfits : w.Fits (0x30 :: (l ++ rest))) :
    parseEcdsaDer w (0x30 :: (l ++ rest)) = readBody w (0x30 :: (l ++ rest)) n (0x30 :: l).length := by
  have happ : [0x30] ++ (l ++ rest) = [0x30] ++ l ++ rest := by simp
  have hread : readDerLength w ([0x30] ++ l ++ rest) [(0x30 : UInt8)].length = .ok (n, [(0x30 : UInt8)].length + l.length) :=
    readDerLength_field h hfits
  rw [parseEcdsaDer_tag (by simp [h.ne_nil]), happ, hread]
  have hidx : [(0x30 : UInt8)].length + l.length = (0x30 :: l).length := by rw [length_singleton, length_cons, Nat.add_comm]
  rw [hidx]
  rfl

theorem readBody_huge {seqLen idx : Nat} (h : 2 ^ w.bits ≤ idx + seqLen) : readBody w der seqLen idx = .error .panic := by
  rw [readBody, Usize.add_of_ge h]
  rfl

theorem readBody_length {idx seqLen : Nat} (h : idx + seqLen = der.length) (hfits : w.Fits der) :
    readBody w der seqLen idx = readNumbers w der idx := by
  have hbits := w.bits_spec
  unfold Usize.Fits at hfits
  rw [readBody, Usize.add_of_lt (by omega), ok_bind, if_neg (not_not.2 h)]

theorem length_dropZeros_le (bs : Bytes) : (dropZeros bs).length ≤ bs.length := by
  induction bs using dropZeros.induct with
  | case1 a b rest h ih =>
    rw [dropZeros, if_pos h, length_cons]
    omega
  | case2 a b rest h => rw [dropZeros, if_neg h]
  | case3 bs h => rw [dropZeros]; exact h

theorem length_written_le (bs : Bytes) : (written bs).length ≤ bs.length + 1 := by
  have hle := length_dropZeros_le bs
  rw [← pad_dropZeros, pad]
  split
  · rw [length_cons]
    omega
  · omega

theorem ecdsaDerToSshMpint_of_parse (h : parseEcdsaDer w der = .ok (written r, written s))
    (hlen : r.length + s.length + 6 ≤ der.length) (hfits : w.Fits der) :
    ecdsaDerToSshMpint w der = .ok (pushSshString (pushSshString [] (written r)) (written s)) := by
  have hbits := w.bits_spec
  unfold Usize.Fits at hfits
  have hr := length_written_le r
  have hs := length_written_le s
  rw [ecdsaDerToSshMpint, h, ok_bind]
  dsimp only
  rw [Usize.add_of_lt (by omega), ok_bind, Usize.add_of_lt (by omega), ok_bind]

theorem ecdsaDerToSshMpint_of_error {stop : Stop} (h : parseEcdsaDer w der = .error stop) :
    ecdsaDerToSshMpint w der = .error stop := by
  rw [ecdsaDerToSshMpint, h]
  rfl

theorem ecdsaDerToSshMpint_field (hfits : w.Fits (0x30 :: l ++ (0x02 :: lr ++ r) ++ (0x02 :: ls ++ s)))
    (hl : LengthField l ((0x02 :: lr ++ r) ++ (0x02 :: ls ++ s)).length) (hr : LengthField lr r.length) (hrne : r ≠ [])
    (hs : LengthField ls s.length) (hsne : s ≠ []) :
    ecdsaDerToSshMpint w (0x30 :: l ++ (0x02 :: lr ++ r) ++ (0x02 :: ls ++ s)) =
      .ok (pushSshString (pushSshString [] (written r)) (written s)) := by
  have happ : 0x30 :: l ++ (0x02 :: lr ++ r) ++ (0x02 :: ls ++ s) = 0x30 :: (l ++ ((0x02 :: lr ++ r) ++ (0x02 :: ls ++ s))) := by
    simp
  have hnil : 0x30 :: l ++ (0x02 :: lr ++ r) ++ (0x02 :: ls ++ s) = 0x30 :: l ++ (0x02 :: lr ++ r) ++ (0x02 :: ls ++ s) ++ [] :=
    (append_nil _).symm
  apply ecdsaDerToSshMpint_of_parse _ _ hfits
  · rw [happ, parseEcdsaDer_length hl (happ ▸ hfits), ← happ, readBody_length (by simp; omega) hfits,
      readNumbers, readDerInteger_field hr hrne hfits, ok_bind]
    rw [← length_append, hnil, readDerInteger_field hs hsne (hnil ▸ hfits), ok_bind]
    exact if_neg (by simp; omega)
  · have hlpos := length_pos_iff.2 hl.ne_nil
    have hrpos := length_pos_iff.2 hr.ne_nil
    have hspos := length_pos_iff.2 hs.ne_nil
    simp only [length_append, length_cons]
    omega

theorem readNumbers_cases (hl : LengthField l n) (htotal : der.length = 1 + l.length + n) (hfits : w.Fits der)
    (hder : der = 0x30 :: l ++ rest) :
    (∃ text, readNumbers w der (0x30 :: l).length = .error (.auth text)) ∨
      (readNumbers w der (0x30 :: l).length = .error .panic ∧ HugeLength w der) ∨
        ∃ lr ls r s, der = 0x30 :: l ++ (0x02 :: lr ++ r) ++ (0x02 :: ls ++ s) ∧
          LengthField lr r.length ∧ r ≠ [] ∧ LengthField ls s.length ∧ s ≠ [] := by
  obtain ⟨text, herror⟩ | ⟨field, m, tail, htail, hfield, hhuge⟩ | ⟨lr, r, tail, htail, hr, hrne⟩ :=
    readDerInteger_cases (hder ▸ hfits)
  · refine .inl ⟨text, ?_⟩
    rw [readNumbers, hder, herror]
    rfl
  · refine .inr (.inl ⟨?_, 0x30 :: l ++ [0x02], field, m, tail, ?_, .first hl htotal, hfield, ?_⟩)
    · rw [htail] at hder
      rw [readNumbers, hder, readDerInteger_huge hfield hhuge (hder ▸ hfits)]
      rfl
    · simp [hder, htail]
    · rw [length_append, length_singleton]
      exact hhuge
  have hder' : der = 0x30 :: l ++ (0x02 :: lr ++ r) ++ tail := by simp [hder, htail]
  have hfirst : readNumbers w der (0x30 :: l).length =
      (readDerInteger w der (0x30 :: l ++ (0x02 :: lr ++ r)).length).bind fun second =>
        if second.2 ≠ der.length then .error (.auth "ssh wire: bad DER (trailing bytes)")
        else .ok (written r, second.1) := by
    have hread := readDerInteger_field hr hrne (hder' ▸ hfits)
    rw [← hder', ← length_append] at hread
    rw [readNumbers, hread]
    rfl
  obtain ⟨text, herror⟩ | ⟨field, m, rest', hrest, hfield, hhuge⟩ | ⟨ls, s, rest', hrest, hs, hsne⟩ :=
    readDerInteger_cases (hder' ▸ hfits)
  · refine .inl ⟨text, ?_⟩
    rw [← hder'] at herror
    rw [hfirst, herror]
    rfl
  · refine .inr (.inl ⟨?_, 0x30 :: l ++ (0x02 :: lr ++ r) ++ [0x02], field, m, rest', ?_, .second hl htotal hr hrne, hfield, ?_⟩)
    · rw [hrest] at hder'
      have hread := readDerInteger_huge hfield hhuge (hder' ▸ hfits)
      rw [← hder'] at hread
      rw [hfirst, hread]
      rfl
    · simp [hder', hrest]
    · have hlen : (0x30 :: l ++ (0x02 :: lr ++ r) ++ [(0x02 : UInt8)]).length = (0x30 :: l ++ (0x02 :: lr ++ r)).length + 1 :=
        length_append
      rw [hlen]
      exact hhuge
  have hder'' : der = 0x30 :: l ++ (0x02 :: lr ++ r) ++ (0x02 :: ls ++ s) ++ rest' := by simp [hder', hrest]
  have hread := readDerInteger_field hs hsne (hder'' ▸ hfits)
  rw [← hder'', ← length_append] at hread
  rcases rest' with _ | ⟨b, rest'⟩
  · refine .inr (.inr ⟨lr, ls, r, s, by simpa using hder'', hr, hrne, hs, hsne⟩)
  · refine .inl ⟨"ssh wire: bad DER (trailing bytes)", ?_⟩
    rw [hfirst, hread]
    apply if_pos
    rw [hder'']
    simp only [length_append, length_cons]
    omega

theorem parseEcdsaDer_cases (hfits : w.Fits der) : (∃ text, parseEcdsaDer w der = .error (.auth text)) ∨
    (parseEcdsaDer w der = .error .panic ∧ HugeLength w der) ∨
      ∃ l lr ls r s, der = 0x30 :: l ++ (0x02 :: lr ++ r) ++ (0x02 :: ls ++ s) ∧
        LengthField l ((0x02 :: lr ++ r) ++ (0x02 :: ls ++ s)).length ∧
        LengthField lr r.length ∧ r ≠ [] ∧ LengthField ls s.length ∧ s ≠ [] := by
  rcases der with _ | ⟨tag, _ | ⟨b, rest⟩⟩
  · exact .inl ⟨_, rfl⟩
  · exact .inl ⟨_, rfl⟩
  by_cases htag : tag = 0x30
  swap
  · refine .inl ⟨"ssh wire: bad DER (SEQUENCE tag)", ?_⟩
    have hread : readAt (tag :: b :: rest) 0 = .ok tag := rfl
    rw [parseEcdsaDer, if_neg (by simp), hread, ok_bind, if_pos htag]
  subst htag
  have happ : [0x30] ++ (b :: rest) = 0x30 :: b :: rest := rfl
  obtain ⟨text, herror⟩ | ⟨l, n, tail, htail, hl⟩ := readDerLength_cases (happ ▸ hfits)
  · refine .inl ⟨text, ?_⟩
    rw [parseEcdsaDer_tag (cons_ne_nil b rest), herror]
    rfl
  rw [htail] at hfits ⊢
  rw [parseEcdsaDer_length hl hfits]
  by_cases hhuge : 2 ^ w.bits ≤ (0x30 :: l).length + n
  · refine .inr (.inl ⟨readBody_huge hhuge, [0x30], l, n, tail, by simp, .sequence, hl, ?_⟩)
    rw [length_singleton]
    rw [length_cons] at hhuge
    omega
  by_cases htotal : (0x30 :: l).length + n = (0x30 :: (l ++ tail)).length
  · rw [readBody_length htotal hfits]
    obtain herror | hpanic | ⟨lr, ls, r, s, hder, hr, hrne, hs, hsne⟩ :=
      readNumbers_cases hl (by rw [← htotal, length_cons]; omega) hfits (cons_append).symm
    · exact .inl herror
    · exact .inr (.inl hpanic)
    · refine .inr (.inr ⟨l, lr, ls, r, s, hder, ?_, hr, hrne, hs, hsne⟩)
      have hlen := congrArg List.length hder
      rw [← htotal, append_assoc, length_append] at hlen
      rwa [← Nat.add_left_cancel hlen]
  · refine .inl ⟨"ssh wire: bad DER (SEQUENCE length)", ?_⟩
    rw [readBody, Usize.add_of_lt (by omega), ok_bind, if_pos htotal]

theorem parseEcdsaDer_of_length (hder : der = 0x30 :: l ++ rest) (hl : LengthField l n) (htotal : der.length = 1 + l.length + n)
    (hfits : w.Fits der) : parseEcdsaDer w der = readNumbers w der (0x30 :: l).length := by
  rw [hder, cons_append] at hfits htotal
  rw [hder, cons_append, parseEcdsaDer_length hl hfits, readBody_length _ hfits]
  rw [htotal, length_cons]
  omega

theorem parseEcdsaDer_of_huge (hfits : w.Fits der) (h : HugeLength w der) : parseEcdsaDer w der = .error .panic := by
  obtain ⟨before, field, n, rest, hder, hbefore, hfield, hhuge⟩ := h
  cases hbefore with
  | sequence =>
    have happ : [0x30] ++ field ++ rest = 0x30 :: (field ++ rest) := by simp
    rw [happ] at hder
    rw [hder, parseEcdsaDer_length hfield (hder ▸ hfits)]
    apply readBody_huge
    rw [length_cons]
    rw [length_singleton] at hhuge
    omega
  | @first l m _ hl htotal =>
    have happ : 0x30 :: l ++ [0x02] ++ field ++ rest = 0x30 :: l ++ 0x02 :: (field ++ rest) := by simp
    rw [happ] at hder
    rw [parseEcdsaDer_of_length hder hl htotal hfits, readNumbers, hder, readDerInteger_huge hfield _ (hder ▸ hfits)]
    · rfl
    · simpa using hhuge
  | @second l lr r m _ hl htotal hr hrne =>
    have happ : 0x30 :: l ++ (0x02 :: lr ++ r) ++ [0x02] ++ field ++ rest =
        0x30 :: l ++ ((0x02 :: lr ++ r) ++ 0x02 :: (field ++ rest)) := by simp
    rw [happ] at hder
    have happ' : 0x30 :: l ++ ((0x02 :: lr ++ r) ++ 0x02 :: (field ++ rest)) =
        0x30 :: l ++ (0x02 :: lr ++ r) ++ 0x02 :: (field ++ rest) := (append_assoc _ _ _).symm
    rw [parseEcdsaDer_of_length hder hl htotal hfits, readNumbers, hder, happ',
      readDerInteger_field hr hrne (happ' ▸ hder ▸ hfits), ok_bind]
    rw [← length_append, readDerInteger_huge hfield _ (happ' ▸ hder ▸ hfits)]
    · rfl
    · simp only [length_append, length_cons, length_nil] at hhuge ⊢
      omega

theorem sound_iff (hfits : w.Fits der) : Sound der (ecdsaDerToSshMpint w der) ↔ ¬ HugeLength w der := by
  constructor
  · intro h hhuge
    rw [ecdsaDerToSshMpint_of_error (parseEcdsaDer_of_huge hfits hhuge)] at h
    exact h
  intro hhuge
  obtain ⟨text, herror⟩ | ⟨-, hpanic⟩ | ⟨l, lr, ls, r, s, rfl, hl, hr, hrne, hs, hsne⟩ := parseEcdsaDer_cases hfits
  · rw [ecdsaDerToSshMpint_of_error herror]
    trivial
  · exact absurd hpanic hhuge
  · rw [ecdsaDerToSshMpint_field hfits hl hr hrne hs hsne]
    exact ⟨l, lr, ls, r, s, rfl, hl, hr, hrne, hs, hsne, rfl⟩

/-! ## The DER encoding of two numbers -/

def derContent (n : Nat) : Bytes := (leBytes (n.size / 8 + 1) n).reverse

def derLength (n : Nat) : Bytes :=
  if n < 128 then [n.toUInt8] else (128 + (n.size + 7) / 8).toUInt8 :: (leBytes ((n.size + 7) / 8) n).reverse

def derInteger (n : Nat) : Bytes := 0x02 :: derLength (derContent n).length ++ derContent n
def derBody (r s : Nat) : Bytes := derInteger r ++ derInteger s
def derSignature (r s : Nat) : Bytes := 0x30 :: derLength (derBody r s).length ++ derBody r s

/-- The two numbers on `n` bytes each. -/
def rawConcat (n r s : Nat) : Bytes := (leBytes n r).reverse ++ (leBytes n s).reverse

/-- Two numbers below `256 ^ n`, in encodings that are slices. -/
structure Halves (w : Usize) where
  n : Nat
  r : Nat
  s : Nat
  r_lt : r < 256 ^ n
  s_lt : s < 256 ^ n
  fitsDer : w.Fits (derSignature r s)
  fitsRaw : w.Fits (rawConcat n r s)

def Agree (p : Halves w) : Prop := ecdsaDerToSshMpint w (derSignature p.r p.s) = ecdsaRawConcatToSshMpint w (rawConcat p.n p.r p.s)

theorem lt_pow_size (k n : Nat) (h : n.size ≤ 8 * k) : n < 256 ^ k := by
  have hpow : 256 ^ k = 2 ^ (8 * k) := by rw [pow_mul]; norm_num
  rw [hpow]
  exact Nat.size_le.1 h

theorem bigEndian_derContent (n : Nat) : bigEndian (derContent n) = n := by
  apply bigEndian_reverse_leBytes
  apply lt_pow_size
  omega

theorem derContent_ne_nil (n : Nat) : derContent n ≠ [] := by
  apply ne_nil_of_length_pos
  simp [derContent]

theorem lengthField_derLength (h : n < 2 ^ 32) : LengthField (derLength n) n := by
  unfold derLength
  split
  · next hshort =>
    have hn : n.toUInt8.toNat = n := by simp [Nat.toUInt8]; omega
    have hfield : LengthField [n.toUInt8] n.toUInt8.toNat := .short (by omega)
    rwa [hn] at hfield
  next hlong =>
  have hsize : n.size ≤ 32 := Nat.size_le.2 h
  have hpos : 0 < n.size := Nat.size_pos.2 (by omega)
  have hlen : (leBytes ((n.size + 7) / 8) n).reverse.length = (n.size + 7) / 8 := by simp
  have hvalue : bigEndian (leBytes ((n.size + 7) / 8) n).reverse = n :=
    bigEndian_reverse_leBytes (lt_pow_size _ n (by omega))
  have hfield : LengthField ((128 + (n.size + 7) / 8).toUInt8 :: (leBytes ((n.size + 7) / 8) n).reverse)
      (bigEndian (leBytes ((n.size + 7) / 8) n).reverse) := by
    apply LengthField.long
    · rw [hlen]
      simp [Nat.toUInt8]
      omega
    · apply ne_nil_of_length_pos
      omega
    · rw [hlen]
      unfold derMaxLengthBytes
      omega
  rwa [hvalue] at hfield

theorem written_congr {a b : Bytes} (ha : a ≠ []) (hb : b ≠ []) (h : bigEndian a = bigEndian b) : written a = written b := by
  unfold written
  rw [h, mpintBytes, mpintBytes, significant_congr h]
  simp [ha, hb]

theorem ecdsaDerToSshMpint_derSignature {r s : Nat} (hfits : w.Fits (derSignature r s)) (h : (derBody r s).length < 2 ^ 32) :
    ecdsaDerToSshMpint w (derSignature r s) =
      .ok (pushSshString (pushSshString [] (written (derContent r))) (written (derContent s))) := by
  have hr : (derContent r).length < 2 ^ 32 := by
    simp only [derBody, derInteger, length_append, length_cons] at h
    omega
  have hs : (derContent s).length < 2 ^ 32 := by
    simp only [derBody, derInteger, length_append, length_cons] at h
    omega
  have happ : derSignature r s = 0x30 :: derLength (derBody r s).length ++
      (0x02 :: derLength (derContent r).length ++ derContent r) ++ (0x02 :: derLength (derContent s).length ++ derContent s) := by
    rw [append_assoc]
    rfl
  rw [happ] at hfits ⊢
  exact ecdsaDerToSshMpint_field hfits (lengthField_derLength h) (lengthField_derLength hr) (derContent_ne_nil r)
    (lengthField_derLength hs) (derContent_ne_nil s)

theorem ecdsaDerToSshMpint_of_long {r s : Nat} (hfits : w.Fits (derSignature r s)) (h : 2 ^ 32 ≤ (derBody r s).length) :
    ∃ text, ecdsaDerToSshMpint w (derSignature r s) = .error (.auth text) := by
  have hbody : (derBody r s).length < 2 ^ 63 := by
    have hw : 2 ^ (w.bits - 1) ≤ 2 ^ 63 := by cases w <;> decide
    unfold Usize.Fits at hfits
    simp only [derSignature, length_append, length_cons] at hfits
    omega
  have hlow := Nat.lt_size.2 h
  have hhigh := Nat.size_le.2 hbody
  have hlength : derLength (derBody r s).length = (128 + ((derBody r s).length.size + 7) / 8).toUInt8 ::
      (leBytes (((derBody r s).length.size + 7) / 8) (derBody r s).length).reverse := if_neg (by omega)
  have hfirst : (128 + ((derBody r s).length.size + 7) / 8).toUInt8.toNat = 128 + ((derBody r s).length.size + 7) / 8 := by
    simp [Nat.toUInt8]
    omega
  have hne : derLength (derBody r s).length ++ derBody r s ≠ [] := by simp [hlength]
  have hfits' : w.Fits ([0x30] ++ (derLength (derBody r s).length ++ derBody r s)) := hfits
  obtain ⟨text, herror⟩ | ⟨field, n, tail, hfield, hl⟩ := readDerLength_cases hfits'
  · refine ⟨text, ecdsaDerToSshMpint_of_error ?_⟩
    rw [derSignature, cons_append, parseEcdsaDer_tag hne, herror]
    rfl
  -- No field of the parser begins like this.
  rw [hlength] at hfield
  cases hl with
  | short hb =>
    have hhead := (List.cons.inj hfield).1
    rw [← hhead] at hb
    omega
  | long hcount _ hle =>
    have hhead := (List.cons.inj hfield).1
    rw [← hhead] at hcount
    unfold derMaxLengthBytes at hle
    omega

theorem ecdsaRawConcatToSshMpint_rawConcat {n r s : Nat} (hn : n ≠ 0) (hfits : w.Fits (rawConcat n r s)) :
    ecdsaRawConcatToSshMpint w (rawConcat n r s) =
      .ok (pushSshString (pushSshString [] (written (leBytes n r).reverse)) (written (leBytes n s).reverse)) := by
  have hbits := w.bits_spec
  have hlen : (rawConcat n r s).length = 2 * n := by
    simp [rawConcat]
    omega
  have hhalf : 2 * n / 2 = (leBytes n r).reverse.length := by
    simp
  have hne : ¬ (2 * n % 2 ≠ 0 ∨ rawConcat n r s = []) := by
    rintro (hodd | hnil)
    · omega
    · rw [hnil] at hlen
      exact hn (by simpa using hlen.symm)
  unfold Usize.Fits at hfits
  rw [ecdsaRawConcatToSshMpint, hlen, if_neg hne]
  rw [Usize.add_of_lt (by omega), ok_bind, pushSshMpint_eq, pushSshMpint_eq, hhalf, rawConcat, take_left, drop_left]

theorem ecdsaRawConcatToSshMpint_zero (r s : Nat) : ecdsaRawConcatToSshMpint w (rawConcat 0 r s) =
    .error (.auth ("ssh wire: ecdsa raw r||s must be non-empty and even-length, got " ++ toString 0 ++ " bytes")) := rfl

theorem agree_iff (p : Halves w) : Agree p ↔ p.n ≠ 0 ∧ (derBody p.r p.s).length < 2 ^ 32 := by
  unfold Agree
  constructor
  · intro h
    have hn : p.n ≠ 0 := by
      intro hn
      have hr := p.r_lt
      have hs := p.s_lt
      rw [hn, pow_zero, Nat.lt_one_iff] at hr hs
      have hfits := p.fitsDer
      rw [hn, hr, hs, ecdsaRawConcatToSshMpint_zero] at h
      rw [hr, hs] at hfits
      rw [ecdsaDerToSshMpint_derSignature hfits (by decide)] at h
      cases h
    refine ⟨hn, ?_⟩
    by_contra hlong
    obtain ⟨text, herror⟩ := ecdsaDerToSshMpint_of_long p.fitsDer (Nat.not_lt.1 hlong)
    rw [herror, ecdsaRawConcatToSshMpint_rawConcat hn p.fitsRaw] at h
    cases h
  · rintro ⟨hn, hlong⟩
    have hbytes : ∀ m, (leBytes p.n m).reverse ≠ [] := by
      intro m
      apply ne_nil_of_length_pos
      simp only [length_reverse, length_leBytes]
      omega
    rw [ecdsaDerToSshMpint_derSignature p.fitsDer hlong, ecdsaRawConcatToSshMpint_rawConcat hn p.fitsRaw,
      written_congr (derContent_ne_nil p.r) (hbytes p.r), written_congr (derContent_ne_nil p.s) (hbytes p.s)]
    · rw [bigEndian_derContent, bigEndian_reverse_leBytes p.s_lt]
    · rw [bigEndian_derContent, bigEndian_reverse_leBytes p.r_lt]

/-- **Both paths**, for any numbers and any bytes. -/
theorem signaturePaths_iff (w : Usize) (p : Halves w) (der : {der : Bytes // w.Fits der}) :
    (Agree p ↔ p.n ≠ 0 ∧ (derBody p.r p.s).length < 2 ^ 32) ∧
      (Sound der.1 (ecdsaDerToSshMpint w der.1) ↔ ¬ HugeLength w der.1) :=
  ⟨agree_iff p, sound_iff der.2⟩

/-- An INTEGER that says it is `2 ^ 32 - 1` bytes long: on a word of 32 bits the index wraps. -/
theorem integer_length_overflows : ¬ ∀ (w : Usize) (p : Halves w) (der : {der : Bytes // w.Fits der}),
    Agree p ∧ Sound der.1 (ecdsaDerToSshMpint w der.1) := by
  intro h
  have hsound := (h .bits32 ⟨1, 1, 1, by decide, by decide, by decide +kernel, by decide⟩
    ⟨[0x30, 0x06, 0x02, 0x84, 0xff, 0xff, 0xff, 0xff], by decide⟩).2
  have hpanic : ecdsaDerToSshMpint .bits32 [0x30, 0x06, 0x02, 0x84, 0xff, 0xff, 0xff, 0xff] = .error .panic := by decide +kernel
  rw [hpanic] at hsound
  exact hsound

end LetsFlutSsh.Ssh
