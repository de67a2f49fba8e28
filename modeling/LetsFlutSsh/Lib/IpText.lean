import LetsFlutSsh.Lib.Bytes

/-!
# Addresses as text

* `parseIpv4` : four decimal numbers between dots;
* `hexNumber` : a number in hexadecimal;
* `parseIpv6` : the full form, eight hexadecimal groups between colons.
-/

namespace Lib
open List Option

def decimalByte (cs : List Char) : Option UInt8 :=
  if cs ≠ [] ∧ cs.all Char.isDigit = true ∧ Nat.ofDigitChars 10 cs 0 < 256 then some (UInt8.ofNat (Nat.ofDigitChars 10 cs 0)) else none

theorem decimalByte_toDigits (b : UInt8) : decimalByte (Nat.toDigits 10 b.toNat) = some b := by
  have hvalue : Nat.ofDigitChars 10 (Nat.toDigits 10 b.toNat) 0 = b.toNat := Nat.ofDigitChars_toDigits (by decide) (by decide)
  have hdigits : (Nat.toDigits 10 b.toNat).all Char.isDigit = true :=
    all_eq_true.2 fun c hc => Nat.isDigit_of_mem_toDigits (by decide) (by decide) hc
  unfold decimalByte
  rw [hvalue, if_pos ⟨Nat.toDigits_ne_nil, hdigits, b.toNat_lt⟩, UInt8.ofNat_toNat]

/-- The bytes of an address such as `127.0.0.1`. -/
def parseIpv4 (cs : List Char) : Option Bytes :=
  let groups := cs.splitOn '.'
  if groups.length = 4 then groups.mapM decimalByte else none

theorem mapM_some {α β : Type} {f : α → Option β} {g : β → α} (h : ∀ b, f (g b) = some b) (bs : List β) :
    (bs.map g).mapM f = some bs := by
  induction bs with
  | nil => rfl
  | cons b bs ih =>
    rw [map_cons, mapM_cons, h, ih]
    rfl

theorem parseIpv4_text {bs : Bytes} (h : bs.length = 4) :
    parseIpv4 (['.'].intercalate (bs.map fun b => Nat.toDigits 10 b.toNat)) = some bs := by
  have hfree : ∀ group ∈ bs.map fun b => Nat.toDigits 10 b.toNat, '.' ∉ group := by
    intro group hgroup hdot
    obtain ⟨b, _, rfl⟩ := mem_map.1 hgroup
    exact absurd (Nat.isDigit_of_mem_toDigits (by decide) (by decide) hdot) (by decide)
  have hne : (bs.map fun b => Nat.toDigits 10 b.toNat) ≠ [] := ne_nil_of_length_pos (by rw [length_map, h]; decide)
  unfold parseIpv4
  rw [splitOn_intercalate '.' hfree hne]
  dsimp only
  rw [length_map, if_pos h]
  exact mapM_some decimalByte_toDigits bs

def hexCharValue (c : Char) : Option Nat :=
  if '0' ≤ c ∧ c ≤ '9' then some (c.toNat - 48)
  else if 'a' ≤ c ∧ c ≤ 'f' then some (c.toNat - 87)
  else if 'A' ≤ c ∧ c ≤ 'F' then some (c.toNat - 55)
  else none

theorem hexCharValue_digitChar {d : Nat} (h : d < 16) : hexCharValue d.digitChar = some d := by
  have hall : ∀ d < 16, hexCharValue d.digitChar = some d := by decide
  exact hall d h

/-- A number in hexadecimal, after a value that stands before it. -/
def hexNumber (value : Nat) : List Char → Option Nat
  | [] => some value
  | c :: cs => (hexCharValue c).bind fun d => hexNumber (value * 16 + d) cs

theorem hexNumber_append (value : Nat) (cs ds : List Char) :
    hexNumber value (cs ++ ds) = (hexNumber value cs).bind fun v => hexNumber v ds := by
  induction cs generalizing value with
  | nil => rfl
  | cons c cs ih =>
    rw [cons_append, hexNumber, hexNumber]
    cases hexCharValue c with
    | none => rfl
    | some d => exact ih (value * 16 + d)

theorem hexNumber_toDigits (n : Nat) : hexNumber 0 (Nat.toDigits 16 n) = some n := by
  induction n using Nat.strong_induction_on with
  | h n ih =>
    rcases Nat.lt_or_ge n 16 with hsmall | hlarge
    · rw [Nat.toDigits_of_lt_base hsmall, hexNumber, hexCharValue_digitChar hsmall, bind_some, hexNumber, Nat.zero_mul,
        Nat.zero_add]
    · rw [Nat.toDigits_of_base_le (by decide) hlarge, hexNumber_append, ih (n / 16) (by omega), bind_some, hexNumber,
        hexCharValue_digitChar (Nat.mod_lt n (by decide)), bind_some, hexNumber, Nat.mul_comm, Nat.div_add_mod]

def hexGroup (cs : List Char) : Option (UInt8 × UInt8) :=
  if cs ≠ [] ∧ cs.length ≤ 4 then (hexNumber 0 cs).map fun n => (UInt8.ofNat (n / 256), UInt8.ofNat n) else none

/-- The bytes of an address such as `fe80:0:0:0:0:0:0:1`. -/
def parseIpv6 (cs : List Char) : Option Bytes :=
  let groups := cs.splitOn ':'
  if groups.length = 8 then (groups.mapM hexGroup).map fun words => words.flatMap fun w => [w.1, w.2] else none

def hexText (w : UInt8 × UInt8) : List Char := Nat.toDigits 16 (w.1.toNat * 256 + w.2.toNat)

theorem hexGroup_hexText (w : UInt8 × UInt8) : hexGroup (hexText w) = some w := by
  have hhi := w.1.toNat_lt
  have hlo := w.2.toNat_lt
  have hlen : (hexText w).length ≤ 4 := (Nat.length_toDigits_le_iff (by decide) (by decide)).2 (by omega)
  have hdiv : (w.1.toNat * 256 + w.2.toNat) / 256 = w.1.toNat := by omega
  have hmod : UInt8.ofNat (w.1.toNat * 256 + w.2.toNat) = w.2 := by
    apply UInt8.toNat_inj.1
    rw [UInt8.toNat_ofNat']
    omega
  unfold hexGroup
  rw [if_pos ⟨Nat.toDigits_ne_nil, hlen⟩]
  unfold hexText
  rw [hexNumber_toDigits, map_some, hdiv, hmod, UInt8.ofNat_toNat]

theorem parseIpv6_text {words : List (UInt8 × UInt8)} (h : words.length = 8) :
    parseIpv6 ([':'].intercalate (words.map hexText)) = some (words.flatMap fun w => [w.1, w.2]) := by
  have hcolon : ∀ n : Nat, ':' ∉ Nat.toDigits 16 n := by
    intro n
    induction n using Nat.strong_induction_on with
    | h n ih =>
      have hdigit : ∀ d < 16, ':' ≠ d.digitChar := by decide
      rcases Nat.lt_or_ge n 16 with hsmall | hlarge
      · rw [Nat.toDigits_of_lt_base hsmall, mem_singleton]
        exact hdigit n hsmall
      · rw [Nat.toDigits_of_base_le (by decide) hlarge, mem_append, mem_singleton]
        rintro (hfront | hlast)
        · exact ih (n / 16) (by omega) hfront
        · exact hdigit (n % 16) (Nat.mod_lt n (by decide)) hlast
  have hfree : ∀ group ∈ words.map hexText, ':' ∉ group := by
    intro group hgroup
    obtain ⟨w, _, rfl⟩ := mem_map.1 hgroup
    exact hcolon _
  have hne : words.map hexText ≠ [] := ne_nil_of_length_pos (by rw [length_map, h]; decide)
  unfold parseIpv6
  rw [splitOn_intercalate ':' hfree hne]
  dsimp only
  rw [length_map, if_pos h, mapM_some hexGroup_hexText]
  rfl

end Lib
