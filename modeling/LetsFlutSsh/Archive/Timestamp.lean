import LetsFlutSsh.Archive.Apply
import LetsFlutSsh.Lib.Calendar
import LetsFlutSsh.Lib.Decimal
import Mathlib.Tactic.Linarith

/-!
# What the timestamps denote

* `Moment` : a second of the calendar. `civilToUnixMs` counts it (`civilToUnixMs_civil`) and
  `unixToCivil` finds it (`exists_moment`), on both sides of 1970;
* `Stamp` : a moment with a year of four digits and a fraction, its text and its milliseconds. The
  parser reads a stamp that is long enough (`parse_string`).
-/

namespace LetsFlutSsh.Archive
open Lib List

/-! ## Moments -/

@[ext] structure Moment where
  date : Date
  hh : Nat
  mm : Nat
  ss : Nat
  hh_lt : hh < 24
  mm_lt : mm < 60
  ss_lt : ss < 60

namespace Moment

def seconds (t : Moment) : Int := t.date.dayNumber * 86400 + t.hh * 3600 + t.mm * 60 + t.ss

def civil (t : Moment) : Civil := ⟨t.date.year, t.date.month, t.date.day, t.hh, t.mm, t.ss⟩

end Moment

variable (t : Moment)

theorem civilToUnixMs_civil : civilToUnixMs t.civil = t.seconds * 1000 := by
  have hmarch := t.date.dayNumber_eq_march
  have hyear : (if t.date.month ≤ 2 then t.date.year - 1 else t.date.year) = t.date.marchYear := rfl
  have hmonth : (if (t.date.month : Int) > 2 then (t.date.month : Int) - 3 else t.date.month + 9) = t.date.marchMonth := by
    unfold Date.marchMonth
    split_ifs <;> omega
  unfold civilToUnixMs Moment.civil Moment.seconds
  dsimp only
  rw [hyear, hmonth, hmarch, marchStart]
  generalize t.date.marchYear = y
  have hera : y / 4 = y / 400 * 100 + (y - y / 400 * 400) / 4 := by omega
  have hcentury : y / 100 = y / 400 * 4 + (y - y / 400 * 400) / 100 := by omega
  rw [hera, hcentury]
  ring

theorem ofMarch_fields {y : Int} {n : Nat} (h : n ≤ 364 ∨ n = 365 ∧ IsLeap (y + 1)) :
    let mp : Int := (5 * n + 2) / 153
    let m := (if mp < 10 then mp + 3 else mp - 9).toNat
    (if m ≤ 2 then y + 1 else y) = (Date.ofMarch y n h).year ∧ m = (Date.ofMarch y n h).month ∧
      (n - (153 * mp + 2) / 5 + 1 : Int).toNat = (Date.ofMarch y n h).day := by
  have hmp : (5 * (n : Int) + 2) / 153 = ((5 * n + 2) / 153 : Nat) := by omega
  have hle : 153 * ((5 * n + 2) / 153) ≤ 5 * n + 2 := by omega
  unfold Date.ofMarch
  dsimp only
  rw [hmp]
  generalize (5 * n + 2) / 153 = mp at hle
  refine ⟨?_, ?_, by omega⟩ <;> split_ifs <;> omega

theorem exists_moment (secs : Int) : ∃ t : Moment, unixToCivil secs = t.civil ∧ t.seconds = secs := by
  have hhour : (secs % 86400).toNat / 3600 < 24 := by omega
  have hminute : (secs % 86400).toNat % 3600 / 60 < 60 := Nat.div_lt_of_lt_mul (Nat.mod_lt _ (by decide))
  have hsecond : (secs % 86400).toNat % 60 < 60 := Nat.mod_lt _ (by decide)
  have htime : secs = secs / 86400 * 86400 + ((secs % 86400).toNat / 3600 : Nat) * 3600 +
      ((secs % 86400).toNat % 3600 / 60 : Nat) * 60 + ((secs % 86400).toNat % 60 : Nat) := by omega
  have hdays := Int.mul_ediv_add_emod (secs / 86400 + 719468) 146097
  obtain ⟨c, q, i, doy, hc, hq, hi, hdoy, hleap, hcycles⟩ :=
    exists_cycles (Int.emod_nonneg (secs / 86400 + 719468) (by decide)) (Int.emod_lt_of_pos _ (by decide))
  have hyear := year_of_cycles hc hq hi hdoy hleap hcycles
  rw [hcycles] at hyear hdays
  generalize hera : (secs / 86400 + 719468) / 146097 = era at hdays
  obtain ⟨hfour, hhundred, hhundreds⟩ := year_div hc hq hi
  obtain ⟨n, rfl⟩ := Int.eq_ofNat_of_zero_le hdoy
  have hrest : 36524 * c + 1461 * q + 365 * i + n - (365 * (100 * c + 4 * q + i) + (25 * c + q) - c) = (n : Int) := by
    ring
  have hlast : n ≤ 364 ∨ n = 365 ∧ IsLeap (100 * c + 4 * q + i + era * 400 + 1) := by
    refine hleap.imp Int.ofNat_le.1 fun ⟨hn, hthree, hq'⟩ => ⟨Int.ofNat_inj.1 hn, ?_⟩
    rw [hthree]
    exact isLeap_of_cycles era hq hq'
  have hstart : marchStart (100 * c + 4 * q + i + era * 400) + n = secs / 86400 := by
    rw [marchStart_add_eras, marchStart, hfour, hhundred, hhundreds]
    linarith
  refine ⟨⟨Date.ofMarch _ n hlast, _, _, _, hhour, hminute, hsecond⟩, ?_, ?_⟩
  · obtain ⟨hy, hm, hd⟩ := ofMarch_fields hlast
    unfold unixToCivil Moment.civil
    dsimp only
    rw [hera, hcycles, hyear, hfour, hhundred, hrest, hy, hm, hd]
  · rw [Moment.seconds, Date.dayNumber_ofMarch, hstart]
    exact htime.symm

theorem Moment.seconds_bounds :
    t.date.dayNumber * 86400 ≤ t.seconds ∧ t.seconds < (t.date.dayNumber + 1) * 86400 := by
  have hh := t.hh_lt
  have hm := t.mm_lt
  have hs := t.ss_lt
  unfold Moment.seconds
  omega

theorem Moment.seconds_lt_iff (u : Moment) : t.seconds < u.seconds ↔
    t.date.year < u.date.year ∨ t.date.year = u.date.year ∧ (t.date.month < u.date.month ∨
      t.date.month = u.date.month ∧ (t.date.day < u.date.day ∨ t.date.day = u.date.day ∧
        (t.hh < u.hh ∨ t.hh = u.hh ∧ (t.mm < u.mm ∨ t.mm = u.mm ∧ t.ss < u.ss)))) := by
  have htm := t.mm_lt
  have hts := t.ss_lt
  have hum := u.mm_lt
  have hus := u.ss_lt
  have htb := t.seconds_bounds
  have hub := u.seconds_bounds
  rcases t.date.before_or_eq_or_before u.date with hbefore | heq | hafter
  · have hlt := hbefore.dayNumber_lt
    unfold Date.Before at hbefore
    have hsec : t.seconds < u.seconds := by omega
    omega
  · unfold Moment.seconds
    rw [heq]
    omega
  · have hlt := hafter.dayNumber_lt
    unfold Date.Before at hafter
    have hsec : ¬t.seconds < u.seconds := by omega
    omega

theorem Moment.seconds_injective {t u : Moment} (h : t.seconds = u.seconds) : t = u := by
  have htb := t.seconds_bounds
  have hub := u.seconds_bounds
  have hdate : t.date = u.date := Date.dayNumber_injective (by omega)
  have htm := t.mm_lt
  have hts := t.ss_lt
  have hum := u.mm_lt
  have hus := u.ss_lt
  unfold Moment.seconds at h
  rw [hdate] at h
  ext1
  · exact hdate
  all_goals omega

/-! ## Texts -/

def Moment.text (t : Moment) : List Char :=
  fixedDigits 4 t.date.year.toNat ++ ('-' :: fixedDigits 2 t.date.month ++ ('-' :: fixedDigits 2 t.date.day ++
    ('T' :: fixedDigits 2 t.hh ++ (':' :: fixedDigits 2 t.mm ++ (':' :: fixedDigits 2 t.ss)))))

/-- A moment that a text can name, and the digits of its fraction; without them the text has no fraction. -/
structure Stamp where
  moment : Moment
  fraction : List Char
  year_nonneg : 0 ≤ moment.date.year
  year_le : moment.date.year ≤ 9999
  digits : ∀ c ∈ fraction, 48 ≤ c.toNat ∧ c.toNat ≤ 57

namespace Stamp

/-- `YYYY-MM-DDTHH:MM:SS`, the fraction if there is one, `Z`. -/
def text (t : Stamp) : List Char :=
  t.moment.text ++ ((if t.fraction = [] then [] else '.' :: t.fraction) ++ ['Z'])

def string (t : Stamp) : String := String.ofList t.text

/-- The instant in milliseconds; what the fraction has beyond them is cut off. -/
def millis (t : Stamp) : Int := t.moment.seconds * 1000 + Nat.ofDigitChars 10 ((t.fraction ++ ['0', '0', '0']).take 3) 0

end Stamp

def IsTimestamp (s : String) : Prop := ∃ t : Stamp, s = t.string

theorem Moment.length_text : t.text.length = 19 := by simp [Moment.text]

theorem Moment.fields_lt : t.date.month < 100 ∧ t.date.day < 100 ∧ t.hh < 100 ∧ t.mm < 100 ∧ t.ss < 100 := by
  have hmonth := t.date.month_le
  have hday := t.date.day_le.trans (monthLength_le _ _)
  have hh := t.hh_lt
  have hm := t.mm_lt
  have hs := t.ss_lt
  omega

theorem Moment.text_lt_iff {t u : Moment} (ht : 0 ≤ t.date.year ∧ t.date.year ≤ 9999)
    (hu : 0 ≤ u.date.year ∧ u.date.year ≤ 9999) : t.text < u.text ↔ t.seconds < u.seconds := by
  obtain ⟨hmonth, hday, hhour, hminute, hsecond⟩ := t.fields_lt
  obtain ⟨hmonth', hday', hhour', hminute', hsecond'⟩ := u.fields_lt
  have hyear : t.date.year.toNat < u.date.year.toNat ↔ t.date.year < u.date.year := by omega
  have hyears : t.date.year.toNat = u.date.year.toNat ↔ t.date.year = u.date.year := by omega
  -- Field by field: a separator, two digits, the rest.
  have hfield : ∀ {c : Char} {m n : Nat} {x y : List Char}, m < 100 → n < 100 →
      (c :: fixedDigits 2 m ++ x < c :: fixedDigits 2 n ++ y ↔ m < n ∨ m = n ∧ x < y) := by
    intro c m n x y hm hn
    rw [cons_append, cons_append, cons_lt_cons_self, append_lt_append_iff (by simp),
      fixedDigits_lt_iff hm hn, fixedDigits_inj hm hn]
  rw [Moment.seconds_lt_iff, Moment.text, Moment.text, append_lt_append_iff (by simp),
    fixedDigits_lt_iff (by omega) (by omega), fixedDigits_inj (by omega) (by omega), hyear, hyears,
    hfield hmonth hmonth', hfield hday hday', hfield hhour hhour', hfield hminute hminute', cons_lt_cons_self,
    fixedDigits_lt_iff hsecond hsecond']

/-! ## Formatting -/

theorem toList_padNat {w n : Nat} (hw : 0 < w) (hn : n < 10 ^ w) : (padNat w n).toList = fixedDigits w n := by
  have hlist : (toString n).toList = Nat.toDigits 10 n := Nat.toList_repr
  rw [padNat, String.toList_append, String.toList_ofList, ← String.length_toList, hlist, pad_toDigits hw hn]

def YearInRange (ms : Int64) : Prop :=
  0 ≤ (unixToCivil (ms.toInt / 1000)).year ∧ (unixToCivil (ms.toInt / 1000)).year ≤ 9999

instance (ms : Int64) : Decidable (YearInRange ms) := inferInstanceAs (Decidable (_ ∧ _))

theorem exists_stamp {ms : Int64} (h : YearInRange ms) : ∃ t : Stamp, formatIso8601Utc ms = t.string ∧
    unixToCivil (ms.toInt / 1000) = t.moment.civil ∧ t.moment.seconds = ms.toInt / 1000 ∧
      t.fraction = fixedDigits 3 (ms.toInt % 1000).toNat := by
  obtain ⟨m, hcivil, hseconds⟩ := exists_moment (ms.toInt / 1000)
  have h : 0 ≤ m.date.year ∧ m.date.year ≤ 9999 := by rwa [YearInRange, hcivil] at h
  refine ⟨⟨m, fixedDigits 3 (ms.toInt % 1000).toNat, h.1, h.2, fun c hc => fixedDigits_range hc⟩, ?_, hcivil, hseconds, rfl⟩
  have hyear : padInt 4 m.date.year = padNat 4 m.date.year.toNat := by
    have habs : m.date.year.natAbs = m.date.year.toNat := by omega
    rw [padInt, if_neg (not_lt.2 h.1), habs]
  have hfraction : fixedDigits 3 (ms.toInt % 1000).toNat ≠ [] := by
    intro hnil
    have hlength := length_fixedDigits 3 (ms.toInt % 1000).toNat
    rw [hnil] at hlength
    cases hlength
  obtain ⟨hmonth, hday, hhour, hminute, hsecond⟩ := m.fields_lt
  have hfour : m.date.year.toNat < 10 ^ 4 := by omega
  apply String.toList_injective
  simp only [formatIso8601Utc, hcivil, Moment.civil, hyear, String.toList_append, toList_padNat (by decide : 0 < 4) hfour,
    toList_padNat (by decide : 0 < 2) hmonth, toList_padNat (by decide : 0 < 2) hday,
    toList_padNat (by decide : 0 < 2) hhour, toList_padNat (by decide : 0 < 2) hminute,
    toList_padNat (by decide : 0 < 2) hsecond, toList_padNat (n := (ms.toInt % 1000).toNat) (by decide : 0 < 3) (by omega),
    Stamp.string, String.toList_ofList, Stamp.text, Moment.text, if_neg hfraction]
  simp

/-! ## Parsing -/

theorem parseI64_fixedDigits {w n : Nat} (hw : 0 < w) (h : n < 10 ^ w) :
    parseI64 ((fixedDigits w n).map byteOf) = some (n : Int) := by
  rw [parseI64_map _ fun c hc => fixedDigits_range hc, ofDigitChars_fixedDigits h]
  intro hnil
  have hlength := length_fixedDigits w n
  rw [hnil, length_nil] at hlength
  omega

variable (t : Stamp)

theorem Stamp.ascii : ∀ c ∈ t.text, c.toNat < 128 := by
  have hdigits : ∀ {w n : Nat}, ∀ c ∈ fixedDigits w n, c.toNat < 128 := fun c hc => by
    have hrange := fixedDigits_range hc
    omega
  have hfraction : ∀ c ∈ t.fraction, c.toNat < 128 := fun c hc => by
    have hrange := t.digits c hc
    omega
  intro c hc
  simp only [Stamp.text, Moment.text, mem_append, mem_cons, not_mem_nil, or_false] at hc
  split_ifs at hc <;> simp only [mem_cons, not_mem_nil, false_or] at hc <;> aesop

theorem Stamp.utf8_string : utf8 t.string = t.text.map byteOf := by
  rw [Stamp.string, utf8_of_ascii (by rw [String.toList_ofList]; exact t.ascii), String.toList_ofList]
  rfl

theorem Stamp.fraction_eq {t : Stamp} (h : 24 ≤ (utf8 t.string).length) : ∃ a b c cs, t.fraction = a :: b :: c :: cs := by
  have hthree : 3 ≤ t.fraction.length := by
    rw [t.utf8_string, length_map, Stamp.text, length_append, t.moment.length_text] at h
    split_ifs at h
    · simp at h
    · simp only [cons_append, length_cons, length_append, length_nil] at h
      omega
  match hfraction : t.fraction with
  | a :: b :: c :: cs => exact ⟨a, b, c, cs, rfl⟩
  | [] | [_] | [_, _] =>
    rw [hfraction] at hthree
    simp at hthree

theorem Stamp.parse_string (hlong : 24 ≤ (utf8 t.string).length) :
    parseIso8601Opt t.string = some (Int64.ofInt t.millis) := by
  obtain ⟨a, b, c, cs, hfraction⟩ := fraction_eq hlong
  have htext : utf8 t.string = (t.moment.text ++ ('.' :: a :: b :: c :: cs ++ ['Z'])).map byteOf := by
    rw [t.utf8_string, Stamp.text, hfraction, if_neg (cons_ne_nil _ _)]
  obtain ⟨hmonth, hday, hhour, hminute, hsecond⟩ := t.moment.fields_lt
  have hyear : t.moment.date.year.toNat < 10 ^ 4 := by
    have hle := t.year_le
    omega
  have hnonneg : (t.moment.date.year.toNat : Int) = t.moment.date.year := Int.toNat_of_nonneg t.year_nonneg
  -- What stands at each field's place.
  have h0 : (utf8 t.string).take 4 = (fixedDigits 4 t.moment.date.year.toNat).map byteOf := by rw [htext]; rfl
  have h5 : ((utf8 t.string).drop 5).take 2 = (fixedDigits 2 t.moment.date.month).map byteOf := by rw [htext]; rfl
  have h8 : ((utf8 t.string).drop 8).take 2 = (fixedDigits 2 t.moment.date.day).map byteOf := by rw [htext]; rfl
  have h11 : ((utf8 t.string).drop 11).take 2 = (fixedDigits 2 t.moment.hh).map byteOf := by rw [htext]; rfl
  have h14 : ((utf8 t.string).drop 14).take 2 = (fixedDigits 2 t.moment.mm).map byteOf := by rw [htext]; rfl
  have h17 : ((utf8 t.string).drop 17).take 2 = (fixedDigits 2 t.moment.ss).map byteOf := by rw [htext]; rfl
  have h20 : ((utf8 t.string).drop 20).take 3 = [a, b, c].map byteOf := by rw [htext]; rfl
  have hmillis : parseI64 ([a, b, c].map byteOf) = some (Nat.ofDigitChars 10 [a, b, c] 0 : Int) := by
    refine parseI64_map (cons_ne_nil _ _) fun x hx => t.digits x ?_
    rw [hfraction]
    exact mem_of_mem_take (i := 3) hx
  have hu32 : ∀ n : Nat, n < 100 → asU32 (n : Int) = n := by
    intro n hn
    unfold asU32
    omega
  unfold parseIso8601Opt
  dsimp only
  rw [if_neg (not_lt.2 hlong), drop_zero, h0, h5, h8, h11, h14, h17, h20, hmillis,
    parseI64_fixedDigits (by decide) hyear, parseI64_fixedDigits (by decide) hmonth, parseI64_fixedDigits (by decide) hday,
    parseI64_fixedDigits (by decide) hhour, parseI64_fixedDigits (by decide) hminute,
    parseI64_fixedDigits (by decide) hsecond]
  simp only [Option.getD_some, hnonneg, hu32 _ hmonth, hu32 _ hday, hu32 _ hhour, hu32 _ hminute, hu32 _ hsecond]
  have hcivil := civilToUnixMs_civil t.moment
  rw [Moment.civil] at hcivil
  rw [hcivil, Stamp.millis, hfraction]
  rfl

theorem Stamp.millis_bounds : -62167219200000 ≤ t.millis ∧ t.millis < 253402300800000 := by
  have hdays := t.moment.date.dayNumber_of_years t.year_nonneg (Int.lt_add_one_of_le t.year_le)
  have hstart : yearStart 0 = -719528 := by decide
  have hend : yearStart (9999 + 1) = 2932897 := by decide
  obtain ⟨hlow, hhigh⟩ := t.moment.seconds_bounds
  have hfraction : Nat.ofDigitChars 10 ((t.fraction ++ ['0', '0', '0']).take 3) 0 < 1000 := by
    have hlength : ((t.fraction ++ ['0', '0', '0']).take 3).length = 3 := by simp
    have hdigits : ∀ c ∈ (t.fraction ++ ['0', '0', '0']).take 3, c.toNat ≤ 57 := by
      intro c hc
      rcases mem_append.1 (mem_of_mem_take hc) with hc | hc
      · exact (t.digits c hc).2
      · rw [eq_of_mem_replicate (n := 3) hc]
        decide
    have hlt := ofDigitChars_lt hdigits 0
    rwa [hlength] at hlt
  unfold Stamp.millis
  omega

theorem Stamp.toInt_millis : (Int64.ofInt t.millis).toInt = t.millis := by
  obtain ⟨hlow, hhigh⟩ := t.millis_bounds
  exact Int64.toInt_ofInt_of_le (by omega) (by omega)

/-! ## The codec -/

theorem parseIso8601Opt_eq_none_iff (s : String) : parseIso8601Opt s = none ↔ (utf8 s).length < 24 := by
  unfold parseIso8601Opt
  dsimp only
  split_ifs with h <;> simp [h]

/-- **The timestamp codec**, for the years 0 to 9999: a value's text gives it back, its civil date and time are those
of its second in the calendar, and texts sort as their values do. -/
theorem formatIso8601Utc_faithful {a b : Int64} (ha : YearInRange a) (hb : YearInRange b) :
    parseIso8601Opt (formatIso8601Utc a) = some a ∧
      (∃ t : Moment, unixToCivil (a.toInt / 1000) = t.civil ∧ t.seconds = a.toInt / 1000) ∧
        (formatIso8601Utc a < formatIso8601Utc b ↔ a < b) := by
  obtain ⟨t, hat, hcivil, hseconds, hfraction⟩ := exists_stamp ha
  obtain ⟨u, hbu, -, hseconds', hfraction'⟩ := exists_stamp hb
  have hmillis : t.millis = a.toInt := by
    have htake : (t.fraction ++ ['0', '0', '0']).take 3 = fixedDigits 3 (a.toInt % 1000).toNat := by
      rw [hfraction, take_left' (length_fixedDigits 3 _)]
    rw [Stamp.millis, hseconds, htake, ofDigitChars_fixedDigits (by omega)]
    omega
  refine ⟨?_, ⟨t.moment, hcivil, hseconds⟩, ?_⟩
  · have hlong : 24 ≤ (utf8 (formatIso8601Utc a)).length := by
      by_contra hshort
      have hnone := (parseIso8601Opt_eq_none_iff _).2 (not_le.1 hshort)
      have hsome := isSome_parse_format a
      rw [hnone] at hsome
      cases hsome
    rw [hat] at hlong ⊢
    rw [t.parse_string hlong, hmillis, Int64.ofInt_toInt]
  · have hlength : t.moment.text.length = u.moment.text.length := by rw [t.moment.length_text, u.moment.length_text]
    have hlt := Moment.text_lt_iff ⟨t.year_nonneg, t.year_le⟩ ⟨u.year_nonneg, u.year_le⟩
    have hsame : t.moment.text = u.moment.text ↔ t.moment.seconds = u.moment.seconds := by
      refine ⟨fun h => ?_, fun h => by rw [Moment.seconds_injective h]⟩
      have hgt := Moment.text_lt_iff ⟨u.year_nonneg, u.year_le⟩ ⟨t.year_nonneg, t.year_le⟩
      rw [h] at hlt hgt
      exact le_antisymm (not_lt.1 fun h => List.lt_irrefl _ (hgt.2 h)) (not_lt.1 fun h => List.lt_irrefl _ (hlt.2 h))
    have hne : ∀ n, fixedDigits 3 n ≠ [] := fun n hnil => by
      have hlen := length_fixedDigits 3 n
      rw [hnil] at hlen
      cases hlen
    have hfractions := fixedDigits_lt_iff (w := 3) (m := (a.toInt % 1000).toNat) (n := (b.toInt % 1000).toNat)
      (by omega) (by omega)
    rw [hat, hbu, String.lt_iff, Stamp.string, Stamp.string, String.toList_ofList, String.toList_ofList,
      Stamp.text, Stamp.text, hfraction, hfraction', if_neg (hne _), if_neg (hne _), append_lt_append_iff hlength,
      hlt, hsame, List.cons_append, List.cons_append, List.cons_lt_cons_self, append_lt_append_iff (by simp), hfractions,
      hseconds, hseconds', Int64.lt_iff_toInt_lt]
    have hz := List.lt_irrefl ['Z']
    simp only [hz, and_false, or_false]
    omega

theorem formatIso8601Utc_faithful_sample :
    YearInRange (-1) ∧ YearInRange 951782400000 ∧ parseIso8601Opt (formatIso8601Utc (-1)) = some (-1) ∧
      (∃ t : Moment, unixToCivil ((-1 : Int64).toInt / 1000) = t.civil ∧ t.seconds = (-1 : Int64).toInt / 1000) ∧
        (formatIso8601Utc (-1) < formatIso8601Utc 951782400000 ↔ (-1 : Int64) < 951782400000) :=
  have hbefore : YearInRange (-1) := by decide +kernel
  have hleap : YearInRange 951782400000 := by decide +kernel
  ⟨hbefore, hleap, formatIso8601Utc_faithful hbefore hleap⟩

/-! ## Malformed stamps -/

/-- A text is read only as the timestamp that it is, and one that is none loses against a local stamp. -/
def RejectsMalformed (s : String) (localTs : Int64) : Prop :=
  (∀ ms, parseIso8601Opt s = some ms → ∃ t : Stamp, s = t.string ∧ ms.toInt = t.millis) ∧
    (¬IsTimestamp s → lwwPeerLoses ((parseIso8601Opt s).getD 0) (some localTs) = true)

/-- **Malformed stamps are refused by their length alone**: what has 24 bytes is read, whatever it holds. -/
theorem rejectsMalformed_iff (s : String) (localTs : Int64) :
    RejectsMalformed s localTs ↔ IsTimestamp s ∨ ((utf8 s).length < 24 ∧ 0 ≤ localTs) := by
  have hnone := parseIso8601Opt_eq_none_iff s
  constructor
  · rintro ⟨hread, hloses⟩
    by_cases hstamp : IsTimestamp s
    · exact Or.inl hstamp
    refine Or.inr ?_
    match hparse : parseIso8601Opt s with
    | some ms =>
      obtain ⟨t, ht, -⟩ := hread ms hparse
      exact absurd ⟨t, ht⟩ hstamp
    | none =>
      have hle := hloses hstamp
      rw [hparse] at hle
      exact ⟨hnone.1 hparse, of_decide_eq_true hle⟩
  · rintro (⟨t, rfl⟩ | ⟨hshort, hlocal⟩)
    · refine ⟨fun ms hparse => ⟨t, rfl, ?_⟩, fun hstamp => absurd ⟨t, rfl⟩ hstamp⟩
      have hlong : 24 ≤ (utf8 t.string).length := by
        by_contra hshort
        rw [hnone.2 (not_le.1 hshort)] at hparse
        cases hparse
      rw [t.parse_string hlong] at hparse
      rw [← Option.some.inj hparse, t.toInt_millis]
    · have hparse := hnone.2 hshort
      refine ⟨fun ms hms => ?_, fun _ => ?_⟩
      · rw [hparse] at hms
        cases hms
      · rw [hparse]
        exact decide_eq_true hlocal

/-- Month 99, day 99: read, and later than any date. -/
theorem month_ninety_nine_wins : ¬RejectsMalformed "9999-99-99T99:99:99.999Z" 1777161600123 := by
  rintro ⟨hread, -⟩
  have hparse : parseIso8601Opt "9999-99-99T99:99:99.999Z" = some 253638535239999 := by decide +kernel
  obtain ⟨t, -, hmillis⟩ := hread _ hparse
  obtain ⟨-, hlate⟩ := t.millis_bounds
  have hval : (253638535239999 : Int64).toInt = 253638535239999 := by decide
  omega

end LetsFlutSsh.Archive
