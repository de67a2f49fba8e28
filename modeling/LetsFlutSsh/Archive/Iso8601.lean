import LetsFlutSsh.Lib.Bytes

/-!
# Archive timestamps

Stamps travel as `YYYY-MM-DDTHH:MM:SS.mmmZ` texts:

* `formatIso8601Utc`: Unix milliseconds to text, through the civil date;
* `parseIso8601Opt`: text to milliseconds; a field that is no number takes its default, and only
  a text shorter than 24 bytes has no stamp;
* `Stable`: a stamp that its own text gives back.
-/

namespace LetsFlutSsh.Archive
open Lib List

/-- Decimal digits of `n`, zero-padded to at least `w` of them. -/
def padNat (w n : Nat) : String :=
  String.ofList (List.replicate (w - (toString n).length) '0') ++ toString n

/-- `{:0w}` of a signed number: the sign counts towards the width. -/
def padInt (w : Nat) (n : Int) : String :=
  if n < 0 then "-" ++ padNat (w - 1) n.natAbs else padNat w n.natAbs

structure Civil where
  year : Int
  month : Nat
  day : Nat
  hh : Nat
  mm : Nat
  ss : Nat

/-- `unix_to_civil`: Unix seconds to the civil date. -/
def unixToCivil (secs : Int) : Civil :=
  let days := secs / 86400
  let timeOfDay := (secs % 86400).toNat
  let z := days + 719468
  let era := z / 146097
  let doe := z % 146097
  let yoe := (doe - doe / 1460 + doe / 36524 - doe / 146096) / 365
  let y := yoe + era * 400
  let doy := doe - (365 * yoe + yoe / 4 - yoe / 100)
  let mp := (5 * doy + 2) / 153
  let d := (doy - (153 * mp + 2) / 5 + 1).toNat
  let m := (if mp < 10 then mp + 3 else mp - 9).toNat
  { year := if m ≤ 2 then y + 1 else y
    month := m
    day := d
    hh := timeOfDay / 3600
    mm := timeOfDay % 3600 / 60
    ss := timeOfDay % 60 }

def civilToUnixMs (c : Civil) : Int :=
  let y := if c.month ≤ 2 then c.year - 1 else c.year
  let era := y / 400
  let yoe := y - era * 400
  let m : Int := c.month
  let doy := (153 * (if m > 2 then m - 3 else m + 9) + 2) / 5 + c.day - 1
  let doe := yoe * 365 + yoe / 4 - yoe / 100 + doy
  let daysSinceEpoch := era * 146097 + doe - 719468
  (daysSinceEpoch * 86400 + c.hh * 3600 + c.mm * 60 + c.ss) * 1000

def formatIso8601Utc (ms : Int64) : String :=
  let c := unixToCivil (ms.toInt / 1000)
  padInt 4 c.year ++ "-" ++ padNat 2 c.month ++ "-" ++ padNat 2 c.day ++ "T" ++
    padNat 2 c.hh ++ ":" ++ padNat 2 c.mm ++ ":" ++ padNat 2 c.ss ++ "." ++
    padNat 3 (ms.toInt % 1000).toNat ++ "Z"

def parseDigits : Nat → Bytes → Option Nat
  | acc, [] => some acc
  | acc, b :: bs => if 48 ≤ b ∧ b ≤ 57 then parseDigits (acc * 10 + (b.toNat - 48)) bs else none

/-- `str::parse::<i64>` on a few bytes: an optional sign and at least one digit. -/
def parseI64 : Bytes → Option Int
  | [] => none
  | [43] => none
  | [45] => none
  | 43 :: bs => (parseDigits 0 bs).map fun n => (n : Int)
  | 45 :: bs => (parseDigits 0 bs).map fun n => -(n : Int)
  | bs => (parseDigits 0 bs).map fun n => (n : Int)

def byteOf (c : Char) : UInt8 := UInt8.ofNat c.toNat

theorem toNat_byteOf {c : Char} (h : c.toNat ≤ 57) : (byteOf c).toNat = c.toNat := by
  rw [byteOf, UInt8.toNat_ofNat']
  omega

theorem parseDigits_map {cs : List Char} (h : ∀ c ∈ cs, 48 ≤ c.toNat ∧ c.toNat ≤ 57) (acc : Nat) :
    parseDigits acc (cs.map byteOf) = some (Nat.ofDigitChars 10 cs acc) := by
  induction cs generalizing acc with
  | nil => rfl
  | cons c cs ih =>
    obtain ⟨hc, hcs⟩ := forall_mem_cons.1 h
    have hbyte := toNat_byteOf hc.2
    have hrange : 48 ≤ byteOf c ∧ byteOf c ≤ 57 := by
      rw [UInt8.le_iff_toNat_le, UInt8.le_iff_toNat_le, hbyte]
      exact hc
    rw [map_cons, parseDigits, if_pos hrange, ih hcs, Nat.ofDigitChars_cons, hbyte, Nat.mul_comm acc 10]
    rfl

theorem parseI64_map {cs : List Char} (hne : cs ≠ []) (h : ∀ c ∈ cs, 48 ≤ c.toNat ∧ c.toNat ≤ 57) :
    parseI64 (cs.map byteOf) = some (Nat.ofDigitChars 10 cs 0 : Int) := by
  have hdigits := parseDigits_map h 0
  obtain ⟨c, cs, rfl⟩ := exists_cons_of_ne_nil hne
  have hc := h c mem_cons_self
  have hbyte := toNat_byteOf hc.2
  have hplus : byteOf c ≠ 43 := by
    intro heq
    have hval : (43 : UInt8).toNat = 43 := rfl
    rw [heq, hval] at hbyte
    omega
  have hminus : byteOf c ≠ 45 := by
    intro heq
    have hval : (45 : UInt8).toNat = 45 := rfl
    rw [heq, hval] at hbyte
    omega
  rw [map_cons] at hdigits ⊢
  rw [parseI64, hdigits]
  · rfl
  -- The arms before the last: nothing to read, or a sign.
  all_goals simp [hplus, hminus]

def asU32 (n : Int) : Nat := (n % 2 ^ 32).toNat

def parseIso8601Opt (s : String) : Option Int64 :=
  let bytes := utf8 s
  if bytes.length < 24 then none
  else
    let parse (off len : Nat) : Option Int := parseI64 ((bytes.drop off).take len)
    let year := (parse 0 4).getD 1970
    let month := (parse 5 2).getD 1
    let day := (parse 8 2).getD 1
    let hh := (parse 11 2).getD 0
    let mm := (parse 14 2).getD 0
    let ss := (parse 17 2).getD 0
    let ms := (parse 20 3).getD 0
    some (Int64.ofInt (civilToUnixMs ⟨year, asU32 month, asU32 day, asU32 hh, asU32 mm, asU32 ss⟩ + ms))

def parseIso8601OrNow (s : String) (nowMs : Int64) : Int64 := (parseIso8601Opt s).getD nowMs

def Stable (ms : Int64) : Prop := parseIso8601Opt (formatIso8601Utc ms) = some ms

instance (ms : Int64) : Decidable (Stable ms) := inferInstanceAs (Decidable (_ = _))

theorem parseIso8601OrNow_of_stable {ms : Int64} (h : Stable ms) (now : Int64) :
    parseIso8601OrNow (formatIso8601Utc ms) now = ms := by
  unfold parseIso8601OrNow
  rw [h, Option.getD_some]

theorem le_length_padNat (w n : Nat) : w ≤ (padNat w n).length := by
  unfold padNat
  rw [String.length_append, String.length_ofList, length_replicate]
  omega

theorem le_length_padInt (w : Nat) (n : Int) : w ≤ (padInt w n).length := by
  unfold padInt
  split_ifs
  · have hpad := le_length_padNat (w - 1) n.natAbs
    have hsign : "-".length = 1 := rfl
    rw [String.length_append]
    omega
  · exact le_length_padNat w n.natAbs

theorem isSome_parse_format (ms : Int64) : (parseIso8601Opt (formatIso8601Utc ms)).isSome := by
  have hlen : 24 ≤ (formatIso8601Utc ms).length := by
    rcases hcivil : unixToCivil (ms.toInt / 1000) with ⟨year, month, day, hh, mm, ss⟩
    have hyear := le_length_padInt 4 year
    have hmonth := le_length_padNat 2 month
    have hday := le_length_padNat 2 day
    have hhour := le_length_padNat 2 hh
    have hminute := le_length_padNat 2 mm
    have hsecond := le_length_padNat 2 ss
    have hmillis := le_length_padNat 3 (ms.toInt % 1000).toNat
    have hmarks : "-".length = 1 ∧ "T".length = 1 ∧ ":".length = 1 ∧ ".".length = 1 ∧ "Z".length = 1 :=
      ⟨rfl, rfl, rfl, rfl, rfl⟩
    unfold formatIso8601Utc
    rw [hcivil]
    simp only [String.length_append]
    omega
  have hbytes := length_le_utf8 (formatIso8601Utc ms)
  unfold parseIso8601Opt
  rw [if_neg (by omega)]
  rfl

example : Stable 1777161600123 := by decide +kernel

end LetsFlutSsh.Archive
