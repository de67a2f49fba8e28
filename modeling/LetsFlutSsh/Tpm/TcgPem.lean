import LetsFlutSsh.Lib.Tlv
import LetsFlutSsh.Ssh.Wire

/-!
# The envelope of a TPM key

`linux/tpm_tcg_pem.rs`: the public and the private blob of a key in TCG ASN.1, on words of 64 bits.

* `encode`, `decode` : the two directions, with an index out of range as an outcome of its own;
* `Ends` : a result that is no index out of range (`decode_ends`);
* `Inserted` : elements with other context tags anywhere after the object identifier;
* `codec_spec` : `decode` inverts `encode`, looks past such elements, refuses every cut encoding and never goes out of range.
-/

namespace LetsFlutSsh.Tpm
open Lib Ssh List

/-- `TpmError::Crypto`, or an index out of range. -/
inductive Halt where
  | crypto (text : String)
  | panic

structure TpmKey where
  emptyAuth : Option Bool
  parent : UInt32
  /-- `public`. -/
  pubkey : Bytes
  /-- `private`. -/
  privkey : Bytes

def oidLoadableKey : Bytes := [0x67, 0x81, 0x05, 0x0a, 0x01, 0x03]

def tagBoolean : UInt8 := 0x01
def tagInteger : UInt8 := 0x02
def tagOctetString : UInt8 := 0x04
def tagOid : UInt8 := 0x06
def tagSequence : UInt8 := 0x30
def tagContext0Explicit : UInt8 := 0xA0

/-! ## Writing -/

def writeLength (out : Bytes) (len : Nat) : Bytes :=
  if len < 0x80 then out ++ [UInt8.ofNat len]
  else
    let bytes := (leBytes 8 len).reverse
    let firstNonzero := (bytes.findIdx? (· ≠ 0)).getD (bytes.length - 1)
    let trimmed := bytes.drop firstNonzero
    out ++ [0x80 ||| UInt8.ofNat trimmed.length] ++ trimmed

def writeTlv (out : Bytes) (tag : UInt8) (body : Bytes) : Bytes := writeLength (out ++ [tag]) body.length ++ body
def writeOid (out oidBytes : Bytes) : Bytes := writeTlv out tagOid oidBytes
def writeBoolean (out : Bytes) (value : Bool) : Bytes := writeTlv out tagBoolean [if value then 0xFF else 0x00]
def writeInteger (out : Bytes) (value : UInt32) : Bytes := writeTlv out tagInteger (pad (dropZeros (beU32 value.toNat)))
def writeOctetString (out bytes : Bytes) : Bytes := writeTlv out tagOctetString bytes

def encode (key : TpmKey) : Bytes :=
  let body := writeOid [] oidLoadableKey
  let body := match key.emptyAuth with
    | some value => writeTlv body tagContext0Explicit (writeBoolean [] value)
    | none => body
  let body := writeInteger body key.parent
  let body := writeOctetString body key.pubkey
  let body := writeOctetString body key.privkey
  writeTlv [] tagSequence body

/-! ## Reading -/

/-- A byte as `{:#x}` prints it. -/
def hexByte (b : UInt8) : String := "0x" ++ String.ofList (Nat.toDigits 16 b.toNat)

/-- `bs[i]`. -/
def byteAt (bs : Bytes) (i : Nat) : Except Halt UInt8 :=
  match bs[i]? with
  | some b => .ok b
  | none => .error .panic

/-- `&bs[i..j]`. -/
def slice (bs : Bytes) (i j : Nat) : Except Halt Bytes :=
  if i ≤ j ∧ j ≤ bs.length then .ok ((bs.take j).drop i) else .error .panic

/-- The octets of a long length: a shift of a `usize`, which drops bits, and an addition that is checked. -/
def readOctets (value : Nat) : Bytes → Except Halt Nat
  | [] => .ok value
  | b :: bs =>
    let shifted := (value <<< 8) % 2 ^ 64
    if shifted + b.toNat < 2 ^ 64 then readOctets (shifted + b.toNat) bs
    else .error (.crypto "tcg-pem: long-form length overflow")

def readLength (input : Bytes) : Except Halt (Nat × Nat) :=
  if input = [] then .error (.crypto "tcg-pem: missing length byte")
  else do
    let first ← byteAt input 0
    if first < 0x80 then .ok (first.toNat, 1)
    else if first = 0x80 then .error (.crypto "tcg-pem: indefinite-length forbidden in DER")
    else
      let n := (first &&& 0x7F).toNat
      if n = 0 ∨ n > 8 then .error (.crypto ("tcg-pem: long-form length octet count " ++ toString n ++ " out of range"))
      else if input.length < 1 + n then .error (.crypto "tcg-pem: truncated long-form length")
      else do
        let octets ← slice input 1 (1 + n)
        let value ← readOctets 0 octets
        .ok (value, 1 + n)

def readTlv (input : Bytes) (expectedTag : UInt8) : Except Halt (Bytes × Bytes) :=
  if input = [] then .error (.crypto ("tcg-pem: expected tag " ++ hexByte expectedTag ++ ", got empty input"))
  else do
    let tag ← byteAt input 0
    if tag ≠ expectedTag then
      .error (.crypto ("tcg-pem: tag mismatch (expected " ++ hexByte expectedTag ++ ", got " ++ hexByte tag ++ ")"))
    else do
      let (len, headerLen) ← readLength (← slice input 1 input.length)
      let totalHeader := 1 + headerLen
      if 2 ^ 64 ≤ totalHeader + len then .error (.crypto "tcg-pem: length overflow")
      else
        let bodyEnd := totalHeader + len
        if bodyEnd > input.length then
          .error (.crypto ("tcg-pem: declared length " ++ toString len ++ " exceeds buffer (" ++
            toString (input.length - min totalHeader input.length) ++ " bytes available after header)"))
        else do
          let body ← slice input totalHeader bodyEnd
          let rest ← slice input bodyEnd input.length
          .ok (body, rest)

def parseUnsignedInteger (body : Bytes) : Except Halt UInt32 :=
  if body = [] then .error (.crypto "tcg-pem: empty INTEGER body")
  else do
    let first ← byteAt body 0
    if first &&& 0x80 ≠ 0 then .error (.crypto "tcg-pem: negative INTEGER for parent")
    else do
      let stripped ← (if body.length > 1 ∧ first = 0x00 then slice body 1 body.length else .ok body : Except Halt Bytes)
      if stripped.length > 4 then
        .error (.crypto ("tcg-pem: parent INTEGER too wide (" ++ toString stripped.length ++ " bytes > 4)"))
      else .ok (stripped.foldl (fun (value : UInt32) b => value <<< 8 ||| b.toUInt32) 0)

structure TcgFields where
  emptyAuth : Option Bool := none
  parent : Option UInt32 := none
  /-- `public`. -/
  pubkey : Option Bytes := none
  /-- `private`. -/
  privkey : Option Bytes := none

def decodeField (cursor : Bytes) (fields : TcgFields) : Except Halt (Bytes × TcgFields) := do
  let tag ← byteAt cursor 0
  if tag = tagContext0Explicit then do
    let (inner, next) ← readTlv cursor tagContext0Explicit
    let (boolBody, leftover) ← readTlv inner tagBoolean
    if leftover ≠ [] then .error (.crypto "tcg-pem: trailing bytes in [0] EXPLICIT BOOLEAN")
    else if boolBody.length ≠ 1 then .error (.crypto "tcg-pem: BOOLEAN length != 1")
    else do
      let value ← byteAt boolBody 0
      .ok (next, { fields with emptyAuth := some (value ≠ 0) })
  else if tag = tagInteger then do
    let (intBody, next) ← readTlv cursor tagInteger
    let parent ← parseUnsignedInteger intBody
    .ok (next, { fields with parent := some parent })
  else if tag = tagOctetString then do
    let (octetBody, next) ← readTlv cursor tagOctetString
    if fields.pubkey = none then .ok (next, { fields with pubkey := some octetBody })
    else if fields.privkey = none then .ok (next, { fields with privkey := some octetBody })
    else .error (.crypto "tcg-pem: too many OCTET STRING fields")
  else do
    let (_, next) ← readTlv cursor tag
    .ok (next, fields)

variable (bs : Bytes)
variable {tag : UInt8}

section Primitives

variable {bs body rest rest' input field octets : Bytes} {i j n : Nat} {b : UInt8}

theorem slice_of_le (h : i ≤ j) (hj : j ≤ bs.length) : slice bs i j = .ok ((bs.take j).drop i) := if_pos ⟨h, hj⟩

theorem slice_tail (b : UInt8) : slice (b :: bs) 1 (b :: bs).length = .ok bs := by
  rw [slice_of_le (by simp) le_rfl, take_length]
  rfl

theorem readOctets_eq (value : Nat) (h : octets.length ≤ 8) (hvalue : value < 256 ^ (8 - octets.length)) :
    readOctets value octets = .ok (value * 256 ^ octets.length + bigEndian octets) := by
  induction octets generalizing value with
  | nil => simp [readOctets, bigEndian]
  | cons b octets ih =>
    have hlen : octets.length + 1 ≤ 8 := h
    have hpow : 256 ^ (8 - octets.length) = 256 ^ (8 - (octets.length + 1)) * 256 := by
      rw [← pow_succ]
      congr 1
      omega
    have hbyte := b.toNat_lt
    have hnext : value * 256 + b.toNat < 256 ^ (8 - octets.length) := by
      rw [hpow]
      rw [length_cons] at hvalue
      omega
    have hle : 256 ^ (8 - octets.length) ≤ 2 ^ 64 := by
      calc 256 ^ (8 - octets.length) ≤ 256 ^ 8 := Nat.pow_le_pow_right (by norm_num) (by omega)
        _ = 2 ^ 64 := by norm_num
    have hlt : value * 256 + b.toNat < 2 ^ 64 := lt_of_lt_of_le hnext hle
    have hshift : (value <<< 8) % 2 ^ 64 = value * 256 :=
      (congrArg (· % 2 ^ 64) (Nat.shiftLeft_eq value 8)).trans (Nat.mod_eq_of_lt (lt_of_le_of_lt (Nat.le_add_right _ _) hlt))
    unfold readOctets
    rw [hshift]
    refine (if_pos hlt).trans ?_
    rw [ih _ (by omega) hnext, bigEndian, length_cons, pow_succ]
    congr 1
    ring

theorem readLength_field (h : LengthOctets field n) (rest : Bytes) : readLength (field ++ rest) = .ok (n, field.length) := by
  cases h with
  | @short b hb =>
    unfold readLength
    rw [if_neg (by simp)]
    exact if_pos hb
  | @long octets hpos hle =>
    have hlen : 0 < octets.length := length_pos_of_ne_nil hpos
    obtain ⟨hlong, hdefinite, hcount⟩ := longMark_spec hlen hle
    unfold readLength
    rw [if_neg (by simp)]
    have hfirst : byteAt (((0x80 ||| UInt8.ofNat octets.length) :: octets) ++ rest) 0 =
        .ok (0x80 ||| UInt8.ofNat octets.length) := rfl
    have hslice : slice (((0x80 ||| UInt8.ofNat octets.length) :: octets) ++ rest) 1 (1 + octets.length) = .ok octets := by
      rw [slice_of_le (by omega) (by simp; omega), Nat.add_comm, cons_append, take_succ_cons, drop_one,
        tail_cons, take_left]
    have hread : readOctets 0 octets = .ok (bigEndian octets) := by
      rw [readOctets_eq 0 hle (Nat.pow_pos (by norm_num)), Nat.zero_mul, Nat.zero_add]
    rw [hfirst]
    show (if _ then _ else _) = _
    rw [if_neg hlong, if_neg hdefinite, hcount]
    rw [if_neg (by omega), if_neg (by simp; omega), hslice]
    show (do
      let value ← readOctets 0 octets
      Except.ok (value, 1 + octets.length)) = _
    rw [hread, length_cons, Nat.add_comm]
    rfl

theorem readLength_cases (input : Bytes) : (∃ text, readLength input = .error (.crypto text)) ∨
    ∃ field n rest, LengthOctets field n ∧ input = field ++ rest ∧ readLength input = .ok (n, field.length) := by
  rcases input with _ | ⟨first, rest⟩
  · exact .inl ⟨_, rfl⟩
  rcases Decidable.em (first < 0x80) with hshort | hlong
  · exact .inr ⟨[first], first.toNat, rest, .short hshort, rfl, readLength_field (.short hshort) rest⟩
  have hread : readLength (first :: rest) =
      if first = 0x80 then .error (.crypto "tcg-pem: indefinite-length forbidden in DER")
      else
        let n := (first &&& 0x7F).toNat
        if n = 0 ∨ n > 8 then .error (.crypto ("tcg-pem: long-form length octet count " ++ toString n ++ " out of range"))
        else if (first :: rest).length < 1 + n then .error (.crypto "tcg-pem: truncated long-form length")
        else (slice (first :: rest) 1 (1 + n)).bind fun octets => (readOctets 0 octets).bind fun value => .ok (value, 1 + n) := by
    unfold readLength
    rw [if_neg (cons_ne_nil _ _)]
    exact if_neg hlong
  rw [hread]
  dsimp only
  split_ifs with hindefinite hcount htruncated
  · exact .inl ⟨_, rfl⟩
  · exact .inl ⟨_, rfl⟩
  · exact .inl ⟨_, rfl⟩
  · right
    rw [length_cons] at htruncated
    have hmark := mark_of_count hlong
    have hlen : (rest.take (first &&& 0x7F).toNat).length = (first &&& 0x7F).toNat := by
      rw [length_take]
      omega
    have hpos : rest.take (first &&& 0x7F).toNat ≠ [] := by
      intro hnil
      rw [hnil] at hlen
      exact hcount (.inl hlen.symm)
    have hfield : LengthOctets (first :: rest.take (first &&& 0x7F).toNat) (bigEndian (rest.take (first &&& 0x7F).toNat)) := by
      have hlong := LengthOctets.long hpos (by rw [hlen]; omega)
      rw [hlen, ← hmark] at hlong
      exact hlong
    have hsplit : first :: rest = first :: rest.take (first &&& 0x7F).toNat ++ rest.drop (first &&& 0x7F).toNat := by
      rw [cons_append, take_append_drop]
    refine ⟨_, _, _, hfield, hsplit, ?_⟩
    have hagain := readLength_field hfield (rest.drop (first &&& 0x7F).toNat)
    rw [← hsplit, hread, if_neg hindefinite] at hagain
    rwa [if_neg hcount, if_neg (by rw [length_cons]; exact htruncated)] at hagain

end Primitives

/-! ## One element -/

section Elements

variable {body rest input element : Bytes}

theorem readTlv_element (h : IsElement tag body element) (hfits : (element ++ rest).length < 2 ^ 64) :
    readTlv (element ++ rest) tag = .ok (body, rest) := by
  obtain ⟨field, hfield, rfl⟩ := h
  have hlen : (tag :: (field ++ body) ++ rest).length = 1 + field.length + body.length + rest.length := by
    simp
    omega
  rw [hlen] at hfits
  have htail : tag :: (field ++ body) ++ rest = tag :: (field ++ (body ++ rest)) := by simp
  unfold readTlv
  rw [if_neg (by simp), htail, slice_tail]
  have hbyte : byteAt (tag :: (field ++ (body ++ rest))) 0 = .ok tag := rfl
  have hbody : slice (tag :: (field ++ (body ++ rest))) (1 + field.length) (1 + field.length + body.length) = .ok body := by
    rw [slice_of_le (by omega) (by simp; omega), Nat.add_assoc, Nat.add_comm 1, Nat.add_comm 1, take_succ_cons,
      drop_succ_cons, ← append_assoc, ← length_append, take_left, drop_left]
  have hrest : slice (tag :: (field ++ (body ++ rest))) (1 + field.length + body.length)
      (tag :: (field ++ (body ++ rest))).length = .ok rest := by
    rw [slice_of_le (by simp; omega) le_rfl, take_length, Nat.add_assoc, Nat.add_comm 1, drop_succ_cons,
      ← append_assoc, ← length_append, drop_left]
  rw [hbyte]
  refine (if_neg (not_not.2 rfl)).trans ?_
  show (readLength (field ++ (body ++ rest))).bind _ = _
  rw [readLength_field hfield]
  refine (if_neg (by omega)).trans ((if_neg (by simp; omega)).trans ?_)
  rw [hbody]
  rw [hrest]
  rfl

theorem readTlv_cases (input : Bytes) (tag : UInt8) : (∃ text, readTlv input tag = .error (.crypto text)) ∨
    ∃ element body rest, IsElement tag body element ∧ input = element ++ rest ∧ readTlv input tag = .ok (body, rest) := by
  rcases input with _ | ⟨first, tail⟩
  · exact .inl ⟨_, rfl⟩
  rcases Decidable.em (first = tag) with rfl | hne
  · have hread : readTlv (first :: tail) first = (readLength tail).bind fun p =>
        if 2 ^ 64 ≤ 1 + p.2 + p.1 then .error (.crypto "tcg-pem: length overflow")
        else if 1 + p.2 + p.1 > (first :: tail).length then
          .error (.crypto ("tcg-pem: declared length " ++ toString p.1 ++ " exceeds buffer (" ++
            toString ((first :: tail).length - min (1 + p.2) (first :: tail).length) ++ " bytes available after header)"))
        else (slice (first :: tail) (1 + p.2) (1 + p.2 + p.1)).bind fun body =>
          (slice (first :: tail) (1 + p.2 + p.1) (first :: tail).length).bind fun rest => .ok (body, rest) := by
      unfold readTlv
      rw [if_neg (cons_ne_nil _ _), slice_tail]
      exact if_neg (not_not.2 rfl)
    rcases readLength_cases tail with ⟨text, htext⟩ | ⟨field, n, rest, hfield, rfl, hlength⟩
    · exact .inl ⟨text, by rw [hread, htext]; rfl⟩
    rcases Decidable.em (2 ^ 64 ≤ 1 + field.length + n) with hoverflow | hfits
    · exact .inl ⟨_, by rw [hread, hlength]; exact if_pos hoverflow⟩
    rcases Decidable.em (1 + field.length + n > (first :: (field ++ rest)).length) with hlong | hshort
    · exact .inl ⟨_, by rw [hread, hlength]; exact (if_neg hfits).trans (if_pos hlong)⟩
    right
    have hn : n ≤ rest.length := by
      simp only [length_cons, length_append] at hshort
      omega
    have hbody : (rest.take n).length = n := by
      rw [length_take]
      omega
    have helement : IsElement first (rest.take n) (first :: (field ++ rest.take n)) := ⟨field, by rwa [hbody], rfl⟩
    have hsplit : first :: (field ++ rest) = first :: (field ++ rest.take n) ++ rest.drop n := by simp
    refine ⟨_, _, _, helement, hsplit, ?_⟩
    have hhead : slice (first :: (field ++ rest)) (1 + field.length) (1 + field.length + n) = .ok (rest.take n) := by
      rw [slice_of_le (by omega) (Nat.not_lt.1 hshort), Nat.add_assoc, Nat.add_comm 1, Nat.add_comm 1, take_succ_cons,
        drop_succ_cons, take_append, take_of_length_le (by omega), Nat.add_sub_cancel_left, drop_left]
    have htail : slice (first :: (field ++ rest)) (1 + field.length + n) (first :: (field ++ rest)).length =
        .ok (rest.drop n) := by
      rw [slice_of_le (Nat.not_lt.1 hshort) le_rfl, take_length, Nat.add_assoc, Nat.add_comm 1, drop_succ_cons,
        drop_append, drop_of_length_le (by omega), nil_append, Nat.add_sub_cancel_left]
    rw [hread, hlength]
    refine (if_neg hfits).trans ((if_neg hshort).trans ?_)
    rw [hhead]
    rw [htail]
    rfl
  · left
    unfold readTlv
    rw [if_neg (cons_ne_nil _ _)]
    exact ⟨_, if_pos hne⟩

/-- The result has `P`, or is an error; no index is out of range. -/
def Ends {α : Type} (P : α → Prop) : Except Halt α → Prop
  | .ok a => P a
  | .error (.crypto _) => True
  | .error .panic => False

theorem Ends.bind {α β : Type} {P : α → Prop} {Q : β → Prop} {x : Except Halt α} {f : α → Except Halt β} (h : Ends P x)
    (hf : ∀ a, P a → Ends Q (f a)) : Ends Q (x.bind f) := by
  rcases x with (text | _) | a
  · trivial
  · exact h
  · exact hf a h

theorem readTlv_ends (input : Bytes) (tag : UInt8) : Ends (fun p => p.2.length < input.length) (readTlv input tag) := by
  rcases readTlv_cases input tag with ⟨text, htext⟩ | ⟨element, body, rest, helement, rfl, hok⟩
  · rw [htext]
    trivial
  · have hlen := helement.length.1
    rw [hok]
    rw [length_append]
    exact Nat.lt_add_of_pos_left (by omega)

theorem foldl_bigEndian (value : UInt32) :
    (bs.foldl (fun (value : UInt32) b => value <<< 8 ||| b.toUInt32) value).toNat =
      (value.toNat * 256 ^ bs.length + bigEndian bs) % 2 ^ 32 := by
  induction bs generalizing value with
  | nil => simp [bigEndian, Nat.mod_eq_of_lt value.toNat_lt]
  | cons b bs ih =>
    have hstep : (value <<< 8 ||| b.toUInt32).toNat = (value.toNat * 256 + b.toNat) % 2 ^ 32 := by
      have hbyte := b.toNat_lt
      have hshift : value.toNat <<< 8 % 2 ^ 32 = (value.toNat % 2 ^ 24) <<< 8 := by
        rw [Nat.shiftLeft_eq, Nat.shiftLeft_eq]
        omega
      rw [UInt32.toNat_or, UInt32.toNat_shiftLeft, UInt8.toNat_toUInt32]
      show (value.toNat <<< 8 % 2 ^ 32) ||| b.toNat = _
      rw [hshift, ← Nat.shiftLeft_add_eq_or_of_lt (by omega), Nat.shiftLeft_eq]
      omega
    have hnumber : value.toNat * 256 ^ (b :: bs).length + bigEndian (b :: bs) =
        (value.toNat * 256 + b.toNat) * 256 ^ bs.length + bigEndian bs := by
      rw [bigEndian, length_cons]
      ring
    rw [foldl_cons, ih, hstep, hnumber, Nat.add_mod, Nat.mul_mod, Nat.mod_mod, ← Nat.mul_mod, ← Nat.add_mod]

theorem parseUnsignedInteger_cons (first : UInt8) (rest : Bytes) : parseUnsignedInteger (first :: rest) =
    if first &&& 0x80 ≠ 0 then .error (.crypto "tcg-pem: negative INTEGER for parent")
    else
      (if (first :: rest).length > 1 ∧ first = 0x00 then .ok rest else .ok (first :: rest) : Except Halt Bytes).bind
        fun stripped =>
          if stripped.length > 4 then
            .error (.crypto ("tcg-pem: parent INTEGER too wide (" ++ toString stripped.length ++ " bytes > 4)"))
          else .ok (stripped.foldl (fun (value : UInt32) b => value <<< 8 ||| b.toUInt32) 0) := by
  unfold parseUnsignedInteger
  rw [if_neg (cons_ne_nil _ _), slice_tail]
  rfl

theorem parseUnsignedInteger_ends (body : Bytes) : Ends (fun _ => True) (parseUnsignedInteger body) := by
  rcases body with _ | ⟨first, rest⟩
  · trivial
  rw [parseUnsignedInteger_cons]
  split_ifs
  · trivial
  all_goals
    dsimp only [Except.bind]
    split_ifs <;> trivial

end Elements

/-! ## All elements -/

section Fields

variable {cursor body rest element : Bytes} {fields : TcgFields}

theorem decodeField_cons (first : UInt8) (tail : Bytes) (fields : TcgFields) : decodeField (first :: tail) fields =
    if first = tagContext0Explicit then
      (readTlv (first :: tail) tagContext0Explicit).bind fun outer => (readTlv outer.1 tagBoolean).bind fun inner =>
        if inner.2 ≠ [] then .error (.crypto "tcg-pem: trailing bytes in [0] EXPLICIT BOOLEAN")
        else if inner.1.length ≠ 1 then .error (.crypto "tcg-pem: BOOLEAN length != 1")
        else (byteAt inner.1 0).bind fun value => .ok (outer.2, { fields with emptyAuth := some (value ≠ 0) })
      else if first = tagInteger then
        (readTlv (first :: tail) tagInteger).bind fun p => (parseUnsignedInteger p.1).bind fun parent =>
          .ok (p.2, { fields with parent := some parent })
      else if first = tagOctetString then
        (readTlv (first :: tail) tagOctetString).bind fun p =>
          if fields.pubkey = none then .ok (p.2, { fields with pubkey := some p.1 })
          else if fields.privkey = none then .ok (p.2, { fields with privkey := some p.1 })
          else .error (.crypto "tcg-pem: too many OCTET STRING fields")
      else (readTlv (first :: tail) first).bind fun p => .ok (p.2, fields) := rfl

theorem decodeField_ends (hne : cursor ≠ []) (fields : TcgFields) :
    Ends (fun p => p.1.length < cursor.length) (decodeField cursor fields) := by
  obtain ⟨first, tail, rfl⟩ := exists_cons_of_ne_nil hne
  rw [decodeField_cons]
  split_ifs
  · refine (readTlv_ends _ _).bind fun outer houter => (readTlv_ends _ _).bind fun inner _ => ?_
    split_ifs with hleft hone
    · trivial
    · trivial
    · obtain ⟨value, hvalue⟩ := length_eq_one_iff.1 (not_not.1 hone)
      rw [hvalue]
      exact houter
  · exact (readTlv_ends _ _).bind fun _ hp => (parseUnsignedInteger_ends _).bind fun _ _ => hp
  · exact (readTlv_ends _ _).bind fun _ hp => hp
  · exact (readTlv_ends _ _).bind fun _ hp => hp
  · exact (readTlv_ends _ _).bind fun _ _ => trivial
  · exact (readTlv_ends _ _).bind fun _ hp => hp

theorem decodeField_lt (hne : cursor ≠ []) {p : Bytes × TcgFields} (h : decodeField cursor fields = .ok p) :
    p.1.length < cursor.length := by
  have hends := decodeField_ends hne fields
  rw [h] at hends
  exact hends

def decodeFields (cursor : Bytes) (fields : TcgFields) : Except Halt TcgFields :=
  if hne : cursor = [] then .ok fields
  else
    match h : decodeField cursor fields with
    | .error e => .error e
    | .ok p =>
      have := decodeField_lt hne h
      decodeFields p.1 p.2
termination_by cursor.length

/-- `ok_or_else`. -/
def required {α : Type} (field : Option α) (text : String) : Except Halt α :=
  match field with
  | some value => .ok value
  | none => .error (.crypto text)

def decode (bytes : Bytes) : Except Halt TpmKey := do
  let (seq, rest) ← readTlv bytes tagSequence
  if rest ≠ [] then .error (.crypto "tcg-pem: trailing bytes after SEQUENCE")
  else do
    let (oid, afterOid) ← readTlv seq tagOid
    if oid ≠ oidLoadableKey then
      .error (.crypto ("tcg-pem: wrong key OID arm (got " ++ toString oid.length ++ " bytes, expected id-loadablekey)"))
    else do
      let fields ← decodeFields afterOid {}
      let parent ← required fields.parent "tcg-pem: missing parent INTEGER"
      let pubkey ← required fields.pubkey "tcg-pem: missing public OCTET STRING"
      let privkey ← required fields.privkey "tcg-pem: missing private OCTET STRING"
      .ok ⟨fields.emptyAuth, parent, pubkey, privkey⟩

theorem decodeFields_nil (fields : TcgFields) : decodeFields [] fields = .ok fields := by
  rw [decodeFields, dif_pos rfl]

theorem decodeFields_eq (hne : cursor ≠ []) : decodeFields cursor fields = (decodeField cursor fields).bind fun p => decodeFields p.1 p.2 := by
  rw [decodeFields, dif_neg hne]
  split
  · next e he => rw [he]; rfl
  · next p hp =>
    show decodeFields p.1 p.2 = _
    rw [hp]
    rfl

theorem decodeFields_ends (cursor : Bytes) (fields : TcgFields) : Ends (fun _ => True) (decodeFields cursor fields) := by
  induction hn : cursor.length using Nat.strong_induction_on generalizing cursor fields with
  | h n ih =>
    rcases Decidable.em (cursor = []) with rfl | hne
    · rw [decodeFields_nil]
      trivial
    rw [decodeFields_eq hne]
    exact (decodeField_ends hne fields).bind fun p hp => ih p.1.length (hn ▸ hp) p.1 p.2 rfl

end Fields

/-! ## What is written is read -/

section Writing

variable {body element : Bytes} {elements elements' : List Bytes} {fields fields' : TcgFields} {k : TpmKey}

theorem writeTlv_append (out : Bytes) (tag : UInt8) (body : Bytes) : writeTlv out tag body = out ++ writeTlv [] tag body := by
  unfold writeTlv writeLength
  split <;> simp only [append_assoc, nil_append]

theorem drop_findIdx (d : Nat) (h : bigEndian bs ≠ 0) :
    bs.drop ((bs.findIdx? (· ≠ 0)).getD d) = significant bs := by
  induction bs with
  | nil => exact absurd rfl h
  | cons b bs ih =>
    rcases Decidable.em (b = 0) with rfl | hb
    · rw [bigEndian_zero_cons] at h
      have hsome : (bs.findIdx? (· ≠ 0)).isSome := by
        rw [findIdx?_isSome]
        by_contra hall
        refine h (significant_eq_nil_iff.1 (dropWhile_eq_nil_iff.2 fun c hc => ?_))
        by_contra hzero
        exact hall (any_eq_true.2 ⟨c, hc, by simpa using hzero⟩)
      obtain ⟨i, hi⟩ := Option.isSome_iff_exists.1 hsome
      rw [significant_zero_cons, ← ih h, findIdx?_cons, hi]
      rfl
    · rw [significant_of_ne hb, findIdx?_cons, if_pos (by simpa using hb)]
      rfl

theorem lengthOctets_writeLength {len : Nat} (h : len < 2 ^ 64) : LengthOctets (writeLength [] len) len := by
  rcases Decidable.em (len < 0x80) with hshort | hlong
  · have hbyte : (UInt8.ofNat len).toNat = len := UInt8.toNat_ofNat_of_lt' (Nat.lt_trans hshort (by norm_num))
    have hfield := LengthOctets.short (b := UInt8.ofNat len) (by rw [UInt8.lt_iff_toNat_lt, hbyte]; exact hshort)
    rw [hbyte] at hfield
    unfold writeLength
    rwa [if_pos hshort]
  · have hnumber : bigEndian (leBytes 8 len).reverse = len := bigEndian_reverse_leBytes h
    have hne : bigEndian (leBytes 8 len).reverse ≠ 0 := by omega
    have hvalue : bigEndian (significant (leBytes 8 len).reverse) = len := (bigEndian_significant _).trans hnumber
    have hle : (significant (leBytes 8 len).reverse).length ≤ 8 := by
      have hdrop := (dropWhile_sublist (l := (leBytes 8 len).reverse) (· = 0)).length_le
      rwa [length_reverse, length_leBytes] at hdrop
    have hfield := LengthOctets.long (mt significant_eq_nil_iff.1 hne) hle
    rw [hvalue] at hfield
    unfold writeLength
    rw [if_neg hlong]
    dsimp only
    rwa [drop_findIdx _ _ hne]

theorem isElement_writeTlv (tag : UInt8) (h : body.length < 2 ^ 64) : IsElement tag body (writeTlv [] tag body) := by
  refine ⟨_, lengthOctets_writeLength h, ?_⟩
  unfold writeTlv writeLength
  split <;> simp only [nil_append, cons_append]

theorem length_writeTlv_le (tag : UInt8) (h : body.length < 2 ^ 64) : (writeTlv [] tag body).length ≤ body.length + 10 := by
  obtain ⟨field, hfield, heq⟩ := isElement_writeTlv tag h
  have hle := hfield.length_le
  rw [heq, length_cons, length_append]
  omega

theorem le_length_writeTlv (tag : UInt8) (body : Bytes) : body.length ≤ (writeTlv [] tag body).length := by
  unfold writeTlv
  rw [length_append]
  exact Nat.le_add_left _ _

theorem readTlv_cut (h : IsElement tag body element) (hfits : element.length < 2 ^ 64) {n : Nat} (hn : n < element.length) :
    ∃ text, readTlv (element.take n) tag = .error (.crypto text) := by
  rcases readTlv_cases (element.take n) tag with hhalt | ⟨element', body', rest, helement, htake, _⟩
  · exact hhalt
  -- A whole element within the cut one would be read at the head of the whole one too.
  have hsplit : element = element' ++ (rest ++ element.drop n) := by
    rw [← append_assoc, ← htake, take_append_drop]
  have hwhole : readTlv element tag = .ok (body, []) := by
    have hread : readTlv (element ++ []) tag = .ok (body, []) := readTlv_element h (by simpa using hfits)
    rwa [append_nil] at hread
  have hpart : readTlv element tag = .ok (body', rest ++ element.drop n) := by
    have hread : readTlv (element' ++ (rest ++ element.drop n)) tag = .ok (body', rest ++ element.drop n) :=
      readTlv_element helement (hsplit ▸ hfits)
    rwa [← hsplit] at hread
  rw [hwhole] at hpart
  have hnil : element.drop n = [] := (append_eq_nil_iff.1 (congrArg Prod.snd (Except.ok.inj hpart)).symm).2
  exact absurd (drop_eq_nil_iff.1 hnil) (Nat.not_le.2 hn)

theorem foldl_eq {octets : Bytes} {value : UInt32} (h : bigEndian octets = value.toNat) :
    octets.foldl (fun (value : UInt32) b => value <<< 8 ||| b.toUInt32) 0 = value := by
  have hlt := value.toNat_lt
  have hfold := foldl_bigEndian octets 0
  rw [UInt32.toNat_zero, Nat.zero_mul, Nat.zero_add, h, Nat.mod_eq_of_lt hlt] at hfold
  exact UInt32.toNat_inj.1 hfold

theorem parseUnsignedInteger_written (value : UInt32) :
    parseUnsignedInteger (pad (dropZeros (beU32 value.toNat))) = .ok value := by
  have hlt := value.toNat_lt
  have hnumber : bigEndian (beU32 value.toNat) = value.toNat := by
    rw [bigEndian_beU32]
    exact Nat.mod_eq_of_lt hlt
  rw [pad_dropZeros]
  rcases hocts : significant (beU32 value.toNat) with _ | ⟨b, rest⟩
  · have hzero : bigEndian (beU32 value.toNat) = 0 := significant_eq_nil_iff.1 hocts
    have hvalue : value = 0 := UInt32.toNat_inj.1 (hnumber.symm.trans hzero)
    have hne : beU32 value.toNat ≠ [] := ne_nil_of_length_pos (by rw [length_beU32]; norm_num)
    rw [written, if_pos ⟨hne, hzero⟩, hvalue]
    rfl
  have hb : b ≠ 0 := head_significant hocts
  have hsum : bigEndian (b :: rest) = value.toNat := by rw [← hocts, bigEndian_significant, hnumber]
  have hlen : (b :: rest).length ≤ 4 := by
    have hdrop := (dropWhile_sublist (l := beU32 value.toNat) (· = 0)).length_le
    rw [length_beU32] at hdrop
    rwa [← hocts]
  have hne : ¬(beU32 value.toNat ≠ [] ∧ bigEndian (beU32 value.toNat) = 0) := by
    rintro ⟨_, hzero⟩
    rw [significant_eq_nil_iff.2 hzero] at hocts
    cases hocts
  rw [written, if_neg hne, mpintBytes, hocts, padded]
  split_ifs with hsign
  · rw [parseUnsignedInteger_cons, if_neg (not_not.2 ((topBit_eq_zero_iff b).2 hsign)), if_neg fun hzero => hb hzero.2]
    exact (if_neg (Nat.not_lt.2 hlen)).trans (congrArg Except.ok (foldl_eq hsum))
  · have htop : (0x00 : UInt8) &&& 0x80 = 0 := by decide
    rw [parseUnsignedInteger_cons, if_neg (not_not.2 htop), if_pos ⟨by simp, rfl⟩]
    exact (if_neg (Nat.not_lt.2 hlen)).trans (congrArg Except.ok (foldl_eq hsum))

end Writing

/-! ## The fields of an envelope -/

/-- An element with one of the tags `[1]` to `[5]`, primitive or constructed. -/
def IsContextElement (element : Bytes) : Prop :=
  ∃ n body, 1 ≤ n ∧ n ≤ 5 ∧ (IsElement (0x80 + UInt8.ofNat n) body element ∨ IsElement (0xA0 + UInt8.ofNat n) body element)

/-- Elements with such tags stand anywhere between the others. -/
inductive Inserted : List Bytes → List Bytes → Prop where
  | nil : Inserted [] []
  | same {elements elements' : List Bytes} (element : Bytes) (h : Inserted elements elements') :
      Inserted (element :: elements) (element :: elements')
  | extra {elements elements' : List Bytes} {element : Bytes} (hext : IsContextElement element)
      (h : Inserted elements elements') : Inserted elements (element :: elements')

/-- The elements after the object identifier, as `encode` writes them. -/
def fieldsOf (key : TpmKey) : List Bytes :=
  (match key.emptyAuth with
    | some value => [writeTlv [] tagContext0Explicit (writeBoolean [] value)]
    | none => []) ++
  [writeInteger [] key.parent, writeOctetString [] key.pubkey, writeOctetString [] key.privkey]

def envelope (elements : List Bytes) : Bytes := writeTlv [] tagSequence (writeOid [] oidLoadableKey ++ elements.flatten)

/-- The element is one field: wherever it stands, it is read to its end. -/
def Reads (fields : TcgFields) (element : Bytes) (fields' : TcgFields) : Prop :=
  element ≠ [] ∧ ∀ rest, (element ++ rest).length < 2 ^ 64 → decodeField (element ++ rest) fields = .ok (rest, fields')

/-- Elements that are read one after another. -/
inductive ReadsAll : TcgFields → List Bytes → TcgFields → Prop where
  | nil {fields : TcgFields} : ReadsAll fields [] fields
  | cons {fields fields' fields'' : TcgFields} {element : Bytes} {elements : List Bytes}
      (h : Reads fields element fields') (hall : ReadsAll fields' elements fields'') : ReadsAll fields (element :: elements) fields''

section Envelope

variable {body element : Bytes} {elements elements' : List Bytes} {fields fields' : TcgFields} {k : TpmKey}

theorem encode_eq (k : TpmKey) : encode k = envelope (fieldsOf k) := by
  unfold encode envelope fieldsOf writeOid writeInteger writeOctetString
  rcases k.emptyAuth with _ | value
  · dsimp only
    rw [writeTlv_append _ _ k.privkey, writeTlv_append _ _ k.pubkey, writeTlv_append _ tagInteger]
    simp only [nil_append, append_assoc, flatten_cons, flatten_nil, append_nil]
  · dsimp only
    rw [writeTlv_append _ _ k.privkey, writeTlv_append _ _ k.pubkey, writeTlv_append _ tagInteger,
      writeTlv_append _ tagContext0Explicit]
    simp only [nil_append, cons_append, append_assoc, flatten_cons, flatten_nil, append_nil]

theorem decodeFields_all (h : ReadsAll fields elements fields') (hfits : elements.flatten.length < 2 ^ 64) :
    decodeFields elements.flatten fields = .ok fields' := by
  induction h with
  | nil => exact decodeFields_nil _
  | @cons fields fields' fields'' element elements h _ ih =>
    rw [flatten_cons] at hfits ⊢
    have hne : element ++ elements.flatten ≠ [] := fun hnil => h.1 (append_eq_nil_iff.1 hnil).1
    rw [decodeFields_eq hne, h.2 _ hfits]
    exact ih (Nat.lt_of_le_of_lt (by rw [length_append]; exact Nat.le_add_left _ _) hfits)

theorem reads_element (h : IsElement tag body element)
    (hstep : ∀ tail rest, readTlv (tag :: tail) tag = .ok (body, rest) → decodeField (tag :: tail) fields = .ok (rest, fields')) :
    Reads fields element fields' := by
  refine ⟨h.ne_nil, fun rest hfits => ?_⟩
  have hread := readTlv_element h hfits
  obtain ⟨field, _, rfl⟩ := h
  rw [cons_append] at hread ⊢
  exact hstep _ _ hread

theorem reads_other (h : IsElement tag body element) (h0 : tag ≠ tagContext0Explicit) (hint : tag ≠ tagInteger)
    (hoctets : tag ≠ tagOctetString) (fields : TcgFields) : Reads fields element fields := by
  refine reads_element h fun tail rest hread => ?_
  rw [decodeField_cons, if_neg h0, if_neg hint, if_neg hoctets, hread]
  rfl

theorem reads_context (h : IsContextElement element) (fields : TcgFields) : Reads fields element fields := by
  obtain ⟨n, body, hpos, hle, helement⟩ := h
  have htags : ∀ n ≤ 5, 1 ≤ n → [0x80 + UInt8.ofNat n, 0xA0 + UInt8.ofNat n].all fun tag =>
      tag ≠ tagContext0Explicit ∧ tag ≠ tagInteger ∧ tag ≠ tagOctetString := by decide
  rcases helement with hprimitive | hconstructed
  · obtain ⟨h0, hint, hoctets⟩ := of_decide_eq_true (all_eq_true.1 (htags n hle hpos) _ mem_cons_self)
    exact reads_other hprimitive h0 hint hoctets fields
  · obtain ⟨h0, hint, hoctets⟩ := of_decide_eq_true (all_eq_true.1 (htags n hle hpos) _ (mem_cons_of_mem _ mem_cons_self))
    exact reads_other hconstructed h0 hint hoctets fields

theorem ReadsAll.inserted (h : Inserted elements elements') (hall : ReadsAll fields elements fields') :
    ReadsAll fields elements' fields' := by
  induction h generalizing fields with
  | nil => exact hall
  | same element _ ih =>
    cases hall with
    | cons hreads hall => exact .cons hreads (ih hall)
  | extra hext _ ih => exact .cons (reads_context hext fields) (ih hall)

theorem reads_auth (value : Bool) (fields : TcgFields) :
    Reads fields (writeTlv [] tagContext0Explicit (writeBoolean [] value)) { fields with emptyAuth := some value } := by
  have hinner : writeBoolean [] value = [tagBoolean, 0x01, if value then 0xFF else 0x00] := by cases value <;> rfl
  have helement : IsElement tagContext0Explicit (writeBoolean [] value) _ :=
    isElement_writeTlv tagContext0Explicit (by rw [hinner]; norm_num)
  refine reads_element helement fun tail rest hread => ?_
  rw [decodeField_cons, if_pos rfl, hread, hinner]
  cases value <;> rfl

theorem length_dropZeros_le : (dropZeros bs).length ≤ bs.length := by
  induction bs using dropZeros.induct with
  | case1 a b rest h ih =>
    rw [dropZeros, if_pos h]
    exact Nat.le_succ_of_le ih
  | case2 a b rest h => rw [dropZeros, if_neg h]
  | case3 bs h => rw [dropZeros]; exact h

theorem length_number_le (n : Nat) : (pad (dropZeros (beU32 n))).length ≤ 5 := by
  have hle := length_dropZeros_le (beU32 n)
  rw [length_beU32] at hle
  unfold pad
  split
  · exact Nat.succ_le_succ hle
  · exact Nat.le_succ_of_le hle

theorem reads_parent (parent : UInt32) (fields : TcgFields) :
    Reads fields (writeInteger [] parent) { fields with parent := some parent } := by
  have hbody : (pad (dropZeros (beU32 parent.toNat))).length < 2 ^ 64 := Nat.lt_of_le_of_lt (length_number_le _) (by norm_num)
  have helement : IsElement tagInteger _ (writeInteger [] parent) := isElement_writeTlv tagInteger hbody
  refine reads_element helement fun tail rest hread => ?_
  rw [decodeField_cons, if_neg (by decide), if_pos rfl, hread]
  show (parseUnsignedInteger _).bind _ = _
  rw [parseUnsignedInteger_written]
  rfl

theorem reads_public {bytes : Bytes} (h : bytes.length < 2 ^ 64) (hnone : fields.pubkey = none) :
    Reads fields (writeOctetString [] bytes) { fields with pubkey := some bytes } := by
  refine reads_element (isElement_writeTlv tagOctetString h) fun tail rest hread => ?_
  rw [decodeField_cons, if_neg (by decide), if_neg (by decide), if_pos rfl, hread]
  exact if_pos hnone

theorem reads_private {bytes : Bytes} (h : bytes.length < 2 ^ 64) (hsome : fields.pubkey ≠ none)
    (hnone : fields.privkey = none) : Reads fields (writeOctetString [] bytes) { fields with privkey := some bytes } := by
  refine reads_element (isElement_writeTlv tagOctetString h) fun tail rest hread => ?_
  rw [decodeField_cons, if_neg (by decide), if_neg (by decide), if_pos rfl, hread]
  exact (if_neg hsome).trans (if_pos hnone)

theorem readsAll_fieldsOf (hpub : k.pubkey.length < 2 ^ 64) (hpriv : k.privkey.length < 2 ^ 64) :
    ReadsAll {} (fieldsOf k) ⟨k.emptyAuth, some k.parent, some k.pubkey, some k.privkey⟩ := by
  have hrest : ∀ emptyAuth : Option Bool, ReadsAll { emptyAuth := emptyAuth }
      [writeInteger [] k.parent, writeOctetString [] k.pubkey, writeOctetString [] k.privkey]
      ⟨emptyAuth, some k.parent, some k.pubkey, some k.privkey⟩ := fun emptyAuth =>
    .cons (reads_parent k.parent _) (.cons (reads_public hpub rfl) (.cons (reads_private hpriv nofun rfl) .nil))
  unfold fieldsOf
  rcases hauth : k.emptyAuth with _ | value
  · exact hrest none
  · exact .cons (reads_auth value {}) (hrest (some value))

theorem length_fieldsOf_le (hpub : k.pubkey.length < 2 ^ 32) (hpriv : k.privkey.length < 2 ^ 32) :
    (fieldsOf k).flatten.length ≤ k.pubkey.length + k.privkey.length + 48 := by
  have hle : (writeTlv [] tagOctetString k.pubkey).length ≤ k.pubkey.length + 10 := length_writeTlv_le _ (by omega)
  have hle' : (writeTlv [] tagOctetString k.privkey).length ≤ k.privkey.length + 10 := length_writeTlv_le _ (by omega)
  have hnumber := length_number_le k.parent.toNat
  have hparent : (writeTlv [] tagInteger (pad (dropZeros (beU32 k.parent.toNat)))).length ≤ _ := length_writeTlv_le _ (by omega)
  unfold fieldsOf writeInteger writeOctetString
  rw [flatten_append, length_append]
  rcases k.emptyAuth with _ | _ | _ <;>
    simp only [flatten_cons, flatten_nil, length_append, length_nil] <;>
    first
      | omega
      | (have hauth : (writeTlv [] tagContext0Explicit (writeBoolean [] false)).length = 5 := rfl; omega)
      | (have hauth : (writeTlv [] tagContext0Explicit (writeBoolean [] true)).length = 5 := rfl; omega)

theorem decode_envelope (hall : ReadsAll {} elements ⟨k.emptyAuth, some k.parent, some k.pubkey, some k.privkey⟩)
    (hfits : (envelope elements).length < 2 ^ 64) : decode (envelope elements) = .ok k := by
  have hbody : (writeOid [] oidLoadableKey ++ elements.flatten).length < 2 ^ 64 :=
    Nat.lt_of_le_of_lt (le_length_writeTlv _ _) hfits
  have helement : IsElement tagSequence _ (envelope elements) := isElement_writeTlv tagSequence hbody
  have hseq : readTlv (envelope elements) tagSequence = .ok (writeOid [] oidLoadableKey ++ elements.flatten, []) := by
    have hread : readTlv (envelope elements ++ []) tagSequence = .ok (_, []) := readTlv_element helement (by simpa using hfits)
    rwa [append_nil] at hread
  have hoid : readTlv (writeOid [] oidLoadableKey ++ elements.flatten) tagOid = .ok (oidLoadableKey, elements.flatten) :=
    readTlv_element (isElement_writeTlv tagOid (by decide)) hbody
  have hflat : elements.flatten.length < 2 ^ 64 := by
    rw [length_append] at hbody
    omega
  unfold decode
  rw [hseq]
  show (readTlv _ _).bind _ = _
  rw [hoid]
  show (decodeFields _ _).bind _ = _
  rw [decodeFields_all hall hflat]
  rfl

theorem required_ends {α : Type} (field : Option α) (text : String) : Ends (fun _ => True) (required field text) := by
  cases field <;> trivial

theorem decode_ends (bytes : Bytes) : Ends (fun _ => True) (decode bytes) := by
  refine (readTlv_ends bytes tagSequence).bind fun seq _ => ?_
  dsimp only
  split_ifs
  · trivial
  refine (readTlv_ends seq.1 tagOid).bind fun oid _ => ?_
  split_ifs
  · trivial
  refine (decodeFields_ends oid.2 {}).bind fun fields _ => ?_
  exact (required_ends _ _).bind fun _ _ => (required_ends _ _).bind fun _ _ => (required_ends _ _).bind fun _ _ => trivial

/-- **The codec**: what was written is read back, also with other elements between the fields; a cut encoding is an error, and
no bytes lead out of range. -/
theorem codec_spec (k : TpmKey) (hpub : k.pubkey.length < 2 ^ 32) (hpriv : k.privkey.length < 2 ^ 32) :
    decode (encode k) = .ok k ∧
    (∀ elements, Inserted (fieldsOf k) elements → (envelope elements).length < 2 ^ 63 → decode (envelope elements) = .ok k) ∧
    (∀ n < (encode k).length, ∃ text, decode ((encode k).take n) = .error (.crypto text)) ∧
    ∀ bytes, decode bytes ≠ .error .panic := by
  have hall : ReadsAll {} (fieldsOf k) ⟨k.emptyAuth, some k.parent, some k.pubkey, some k.privkey⟩ :=
    readsAll_fieldsOf (by omega) (by omega)
  have hfields := length_fieldsOf_le hpub hpriv
  have hoid : (writeOid [] oidLoadableKey).length = 8 := rfl
  have hbody : (writeOid [] oidLoadableKey ++ (fieldsOf k).flatten).length < 2 ^ 63 := by
    rw [length_append]
    omega
  have helement : IsElement tagSequence _ (envelope (fieldsOf k)) := isElement_writeTlv tagSequence (by omega)
  have hfits : (envelope (fieldsOf k)).length < 2 ^ 64 :=
    Nat.lt_of_le_of_lt (length_writeTlv_le tagSequence (by omega)) (by omega)
  refine ⟨?_, fun elements hins hlen => ?_, fun n hn => ?_, fun bytes hpanic => ?_⟩
  · rw [encode_eq]
    exact decode_envelope hall hfits
  · exact decode_envelope (hall.inserted hins) (by omega)
  · rw [encode_eq] at hn ⊢
    obtain ⟨text, hcut⟩ := readTlv_cut helement hfits hn
    exact ⟨text, by unfold decode; rw [hcut]; rfl⟩
  · have hends := decode_ends bytes
    rw [hpanic] at hends
    exact hends

/-- A key with an authorisation flag and a parent whose top bit is set. -/
theorem codec_spec_sample :
    decode (encode ⟨some true, 0x81000001, [1, 2, 3], [4]⟩) = .ok ⟨some true, 0x81000001, [1, 2, 3], [4]⟩ ∧
    decode (envelope (fieldsOf ⟨some true, 0x81000001, [1, 2, 3], [4]⟩ ++ [[0xA1, 1, 9]])) =
      .ok ⟨some true, 0x81000001, [1, 2, 3], [4]⟩ := by
  have hspec := codec_spec ⟨some true, 0x81000001, [1, 2, 3], [4]⟩ (by decide) (by decide)
  have helement : IsContextElement [0xA1, 1, 9] := ⟨1, [9], by decide, by decide, .inr ⟨[1], .short (by decide), rfl⟩⟩
  exact ⟨hspec.1, hspec.2.1 _ (.same _ (.same _ (.same _ (.same _ (.extra helement .nil))))) (by decide)⟩

end Envelope

end LetsFlutSsh.Tpm
