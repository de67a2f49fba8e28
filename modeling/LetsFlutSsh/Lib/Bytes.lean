import Mathlib.Data.List.DropRight
import Mathlib.Tactic.Ring

/-!
# Byte strings

* `Bytes`, and `Block n` : byte strings of one fixed length (keys, nonces);
* `leBytes w n` / `ofLeBytes` : little-endian words of `w` bytes(`ofLeBytes_leBytes`);
* `readExact n bs` : the first `n` bytes and the rest, or nothing when `bs` is too short;
* `utf8` / `fromUtf8` : a string and its UTF-8 encoding;
* `sliceText` : a text between two byte indices, which must be character boundaries (`sliceText_asBytes`);
* `scanWhile` : an index moved over bytes (`scanWhile_asBytes`).
-/

namespace Lib
open List

abbrev Bytes := List UInt8

/-- A byte string of exactly `n` bytes. -/
def Block (n : Nat) := {b : Bytes // b.length = n}

instance (n : Nat) : DecidableEq (Block n) := inferInstanceAs (DecidableEq {b : Bytes // b.length = n})

/-- The block of `n` equal bytes. -/
def Block.fill (n : Nat) (b : UInt8) : Block n := ⟨List.replicate n b, List.length_replicate⟩

/-- The `w` low bytes of `n`, least significant first. -/
def leBytes : Nat → Nat → Bytes
  | 0, _ => []
  | w + 1, n => n.toUInt8 :: leBytes w (n / 256)

def ofLeBytes : Bytes → Nat
  | [] => 0
  | b :: bs => b.toNat + 256 * ofLeBytes bs

@[simp] theorem length_leBytes (w n : Nat) : (leBytes w n).length = w := by
  induction w generalizing n with
  | zero => rfl
  | succ w ih => simp [leBytes, ih]

variable {n : Nat}

theorem ofLeBytes_leBytes {w : Nat} (h : n < 256 ^ w) : ofLeBytes (leBytes w n) = n := by
  induction w generalizing n with
  | zero => simp [leBytes, ofLeBytes]; omega
  | succ w ih =>
    have hdiv : n / 256 < 256 ^ w := by
      rw [pow_succ] at h
      omega
    have hbyte : n.toUInt8.toNat = n % 256 := by simp [Nat.toUInt8]
    rw [leBytes, ofLeBytes, ih hdiv, hbyte]
    omega

theorem leBytes_inj {w m : Nat} (hm : m < 256 ^ w) (hn : n < 256 ^ w) (h : leBytes w m = leBytes w n) : m = n := by
  rw [← ofLeBytes_leBytes hm, h, ofLeBytes_leBytes hn]

theorem ofLeBytes_lt (bs : Bytes) : ofLeBytes bs < 256 ^ bs.length := by
  induction bs with
  | nil => exact Nat.one_pos
  | cons b bs ih =>
    have hlt := b.toNat_lt
    rw [ofLeBytes, length_cons, Nat.pow_succ]
    omega

theorem leBytes_ofLeBytes (bs : Bytes) : leBytes bs.length (ofLeBytes bs) = bs := by
  induction bs with
  | nil => rfl
  | cons b bs ih =>
    have hbyte : (b.toNat + 256 * ofLeBytes bs).toUInt8 = b := by
      apply UInt8.toNat_inj.1
      rw [Nat.toUInt8_eq, UInt8.toNat_ofNat', Nat.add_mul_mod_self_left, Nat.mod_eq_of_lt b.toNat_lt]
    have hrest : (b.toNat + 256 * ofLeBytes bs) / 256 = ofLeBytes bs := by
      have hlt := b.toNat_lt
      omega
    rw [length_cons, ofLeBytes, leBytes, hbyte, hrest, ih]

/-- The next `n` bytes and what follows them; nothing when fewer are left. -/
def readExact (n : Nat) (bs : Bytes) : Option (Bytes × Bytes) :=
  if n ≤ bs.length then some (bs.take n, bs.drop n) else none

theorem readExact_append {a : Bytes} (h : a.length = n) (b : Bytes) : readExact n (a ++ b) = some (a, b) := by
  subst h
  simp [readExact]

theorem readExact_nil (h : 0 < n) : readExact n [] = none := by
  simp [readExact]
  omega

variable {bs : Bytes}

theorem readExact_length {a b : Bytes} (h : readExact n bs = some (a, b)) :
    a.length = n ∧ b.length = bs.length - n := by
  unfold readExact at h
  split at h
  · obtain ⟨rfl, rfl⟩ := Prod.mk.inj (Option.some.inj h)
    simp only [length_take, length_drop, and_true]
    omega
  · cases h

theorem le_of_readExact {a b : Bytes} (h : readExact n bs = some (a, b)) : n ≤ bs.length := by
  by_contra hc
  simp [readExact, hc] at h

/-- The next `n` bytes as a block. -/
def readBlock (n : Nat) (bs : Bytes) : Option (Block n × Bytes) :=
  if h : n ≤ bs.length then
    some (⟨bs.take n, by simp [List.length_take, Nat.min_eq_left h]⟩, bs.drop n)
  else none

theorem readBlock_append (a : Block n) (b : Bytes) : readBlock n (a.1 ++ b) = some (a, b) := by
  obtain ⟨a, rfl⟩ := a
  simp [readBlock]

theorem readBlock_length {b : Bytes} {a : Block n}
    (h : readBlock n bs = some (a, b)) : b.length = bs.length - n := by
  unfold readBlock at h
  split at h
  · obtain ⟨-, rfl⟩ := Prod.mk.inj (Option.some.inj h)
    exact length_drop
  · cases h

theorem le_of_readBlock {b : Bytes} {a : Block n} (h : readBlock n bs = some (a, b)) : n ≤ bs.length := by
  by_contra hc
  simp [readBlock, hc] at h

def utf8 (s : String) : Bytes := s.toUTF8.data.toList

def fromUtf8 (bs : Bytes) : Option String := String.fromUTF8? ⟨bs.toArray⟩

variable (s : String)

@[simp] theorem fromUtf8_utf8 : fromUtf8 (utf8 s) = some s := by
  simp only [fromUtf8, utf8, String.fromUTF8?, String.toUTF8_eq_toByteArray, Array.toArray_toList, dif_pos s.isValidUTF8]
  rfl

theorem length_le_utf8 : s.length ≤ (utf8 s).length := by
  have hencode : ∀ cs : List Char, cs.length ≤ cs.utf8Encode.size := by
    intro cs
    induction cs with
    | nil => exact Nat.zero_le _
    | cons c cs ih =>
      have hpos := c.utf8Size_pos
      have hsize : [c].utf8Encode.size = c.utf8Size := by
        rw [utf8Encode_singleton, size_toByteArray, String.length_utf8EncodeChar]
      rw [utf8Encode_cons, ByteArray.size_append, length_cons]
      omega
  have h := hencode s.toList
  rw [String.length_toList, String.utf8Encode_toList] at h
  unfold utf8
  rw [Array.length_toList, String.toUTF8_eq_toByteArray]
  exact h

theorem utf8_eq_flatMap : utf8 s = s.toList.flatMap String.utf8EncodeChar := by
  unfold utf8
  rw [String.toUTF8_eq_toByteArray, ← String.utf8Encode_toList, List.utf8Encode]
  simp

theorem utf8_append (t : String) : utf8 (s ++ t) = utf8 s ++ utf8 t := by
  simp only [utf8_eq_flatMap, String.toList_append, flatMap_append]

theorem fromUtf8_eq_some_iff {s : String} : fromUtf8 bs = some s ↔ utf8 s = bs := by
  constructor
  · intro h
    unfold fromUtf8 String.fromUTF8? at h
    split_ifs at h with hvalid
    cases h
    unfold utf8
    simp [String.toUTF8_eq_toByteArray, String.fromUTF8]
  · rintro rfl
    exact fromUtf8_utf8 s

theorem utf8_injective : Function.Injective utf8 := by
  intro s t h
  have hs := fromUtf8_utf8 s
  rw [h, fromUtf8_utf8] at hs
  exact (Option.some.inj hs).symm

theorem eq_of_mem_utf8EncodeChar {b : UInt8} (hb : b < 128) {c : Char} (h : b ∈ String.utf8EncodeChar c) :
    c = Char.ofNat b.toNat := by
  have hlt : b.toNat < 128 := by simpa using UInt8.lt_iff_toNat_lt.1 hb
  have hlow : ∀ n, b = UInt8.ofNat n → n % 256 < 128 := by
    rintro n rfl
    simpa using hlt
  unfold String.utf8EncodeChar at h
  dsimp only at h
  split_ifs at h with h₁ h₂ h₃
  · rw [mem_singleton] at h
    have hv : c.val.toNat = b.toNat := by
      rw [h, UInt8.toNat_ofNat']
      omega
    rw [← hv]
    exact (Char.ofNat_toNat c).symm
  · simp only [mem_cons, not_mem_nil, or_false] at h
    rcases h with h | h
    all_goals have := hlow _ h; omega
  · simp only [mem_cons, not_mem_nil, or_false] at h
    rcases h with h | h | h
    all_goals have := hlow _ h; omega
  · simp only [mem_cons, not_mem_nil, or_false] at h
    rcases h with h | h | h | h
    all_goals have := hlow _ h; omega

theorem utf8_of_ascii {s : String} (h : ∀ c ∈ s.toList, c.toNat < 128) : utf8 s = s.toList.map fun c => UInt8.ofNat c.toNat := by
  have hencode : ∀ c : Char, c.toNat < 128 → String.utf8EncodeChar c = [UInt8.ofNat c.toNat] := by
    intro c hc
    have hval : c.val.toNat < 128 := hc
    unfold String.utf8EncodeChar
    rw [if_pos (by omega)]
    rfl
  rw [utf8_eq_flatMap]
  generalize s.toList = cs at h
  induction cs with
  | nil => rfl
  | cons c cs ih =>
    obtain ⟨hc, hcs⟩ := forall_mem_cons.1 h
    rw [flatMap_cons, hencode c hc, ih hcs]
    rfl

/-! ## Texts by byte indices -/

def asBytes (cs : List Char) : Bytes := cs.flatMap String.utf8EncodeChar

theorem asBytes_cons (c : Char) (text : List Char) : asBytes (c :: text) = String.utf8EncodeChar c ++ asBytes text := rfl

theorem asBytes_append (cs ds : List Char) : asBytes (cs ++ ds) = asBytes cs ++ asBytes ds := flatMap_append

def ascii (c : Char) : UInt8 := UInt8.ofNat c.toNat

/-- A slice that does not fall on a character boundary. -/
inductive Panic where
  | charBoundary
  deriving DecidableEq

/-- `&text[n..]`. -/
def sliceFrom : Nat → List Char → Except Panic (List Char)
  | 0, cs => .ok cs
  | _ + 1, [] => .error .charBoundary
  | n + 1, c :: cs => if c.utf8Size ≤ n + 1 then sliceFrom (n + 1 - c.utf8Size) cs else .error .charBoundary

/-- `&text[..n]`. -/
def sliceTo : Nat → List Char → Except Panic (List Char)
  | 0, _ => .ok []
  | _ + 1, [] => .error .charBoundary
  | n + 1, c :: cs =>
    if c.utf8Size ≤ n + 1 then (sliceTo (n + 1 - c.utf8Size) cs).map (c :: ·) else .error .charBoundary

/-- `&text[a..b]`. -/
def sliceText (text : List Char) (a b : Nat) : Except Panic (List Char) :=
  if a ≤ b then (sliceFrom a text).bind (sliceTo (b - a)) else .error .charBoundary

/-- The index of the first byte from `i` on that does not pass. -/
def scanWhile (p : UInt8 → Bool) (bytes : Bytes) (i : Nat) : Nat := i + ((bytes.drop i).takeWhile p).length

section Slices
variable {p : UInt8 → Bool} {q : Char → Bool} {c d : Char}

theorem length_asBytes_cons (c : Char) (cs : List Char) : (asBytes (c :: cs)).length = c.utf8Size + (asBytes cs).length := by
  rw [asBytes_cons, length_append, String.length_utf8EncodeChar]

theorem length_le_asBytes (cs : List Char) : cs.length ≤ (asBytes cs).length := by
  have hcs := length_le_utf8 (String.ofList cs)
  rwa [utf8_eq_flatMap, String.length_ofList, String.toList_ofList] at hcs

theorem sliceFrom_asBytes (pre cs : List Char) : sliceFrom (asBytes pre).length (pre ++ cs) = .ok cs := by
  induction pre with
  | nil => simp [asBytes, sliceFrom]
  | cons c pre ih =>
    obtain ⟨n, hn⟩ := Nat.exists_eq_succ_of_ne_zero (Nat.ne_of_gt (Nat.add_pos_left c.utf8Size_pos (asBytes pre).length))
    rw [length_asBytes_cons, hn, cons_append, sliceFrom, if_pos (by omega)]
    rw [show n + 1 - c.utf8Size = (asBytes pre).length by omega]
    exact ih

theorem sliceTo_asBytes (cs rest : List Char) : sliceTo (asBytes cs).length (cs ++ rest) = .ok cs := by
  induction cs with
  | nil => simp [asBytes, sliceTo]
  | cons c cs ih =>
    obtain ⟨n, hn⟩ := Nat.exists_eq_succ_of_ne_zero (Nat.ne_of_gt (Nat.add_pos_left c.utf8Size_pos (asBytes cs).length))
    rw [length_asBytes_cons, hn, cons_append, sliceTo, if_pos (by omega)]
    rw [show n + 1 - c.utf8Size = (asBytes cs).length by omega, ih]
    rfl

theorem sliceText_asBytes (pre cs rest : List Char) :
    sliceText (pre ++ (cs ++ rest)) (asBytes pre).length (asBytes (pre ++ cs)).length = .ok cs := by
  rw [sliceText, asBytes_append, length_append, if_pos (Nat.le_add_right _ _), Nat.add_sub_cancel_left, sliceFrom_asBytes]
  exact sliceTo_asBytes cs rest

/-- An ASCII byte is its character, and no part of another. -/
theorem mem_utf8EncodeChar_iff {b : UInt8} (hd : d.toNat < 128) (hb : b ∈ String.utf8EncodeChar c) :
    b = ascii d ↔ c = d := by
  have hbyte : (ascii d).toNat = d.toNat := by
    rw [ascii, UInt8.toNat_ofNat']
    omega
  constructor
  · rintro rfl
    rw [eq_of_mem_utf8EncodeChar (UInt8.lt_iff_toNat_lt.2 (by rw [hbyte]; exact hd)) hb, hbyte, Char.ofNat_toNat]
  · rintro rfl
    have hone := utf8_of_ascii (s := String.ofList [c]) (by simpa using hd)
    rw [utf8_eq_flatMap, String.toList_ofList, flatMap_singleton] at hone
    rw [hone] at hb
    exact mem_singleton.1 hb

theorem takeWhile_asBytes (h : ∀ c, ∀ b ∈ String.utf8EncodeChar c, p b = q c) (cs : List Char) :
    (asBytes cs).takeWhile p = asBytes (cs.takeWhile q) := by
  induction cs with
  | nil => rfl
  | cons c cs ih =>
    rw [asBytes_cons]
    cases hq : q c with
    | true => rw [takeWhile_append_of_pos fun b hb => (h c b hb).trans hq, ih, takeWhile_cons_of_pos hq, asBytes_cons]
    | false =>
      obtain ⟨b, bs, hbytes⟩ := exists_cons_of_ne_nil (String.utf8EncodeChar_ne_nil (c := c))
      have hb : p b = false := (h c b (by rw [hbytes]; exact mem_cons_self)).trans hq
      rw [hbytes, cons_append, takeWhile_cons_of_neg (by simp [hb]), takeWhile_cons_of_neg (by simp [hq])]
      rfl

theorem scanWhile_asBytes (h : ∀ c, ∀ b ∈ String.utf8EncodeChar c, p b = q c) (pre cs : List Char) :
    scanWhile p (asBytes (pre ++ cs)) (asBytes pre).length = (asBytes (pre ++ cs.takeWhile q)).length := by
  rw [scanWhile, asBytes_append, drop_left, takeWhile_asBytes h, asBytes_append, length_append]

theorem getElem?_asBytes (hd : d.toNat < 128) (pre cs : List Char) :
    (asBytes (pre ++ cs))[(asBytes pre).length]? = some (ascii d) ↔ cs.head? = some d := by
  rw [asBytes_append, getElem?_append_right (Nat.le_refl _), Nat.sub_self]
  rcases cs with _ | ⟨c, cs⟩
  · simp [asBytes]
  · obtain ⟨b, bs, hbytes⟩ := exists_cons_of_ne_nil (String.utf8EncodeChar_ne_nil (c := c))
    rw [asBytes_cons, hbytes, cons_append, getElem?_cons_zero, Option.some_inj, head?_cons, Option.some_inj]
    exact mem_utf8EncodeChar_iff hd (by rw [hbytes]; exact mem_cons_self)

end Slices

theorem forall_byte {p : UInt8 → Bool} (h : ∀ n < 256, p (UInt8.ofNat n) = true) (b : UInt8) : p b = true := by
  have hb := h b.toNat b.toNat_lt
  rwa [UInt8.ofNat_toNat] at hb

end Lib
