import LetsFlutSsh.Lib.Bytes

/-!
# Recorder lines: the asciinema v2 text of a header and of an event

`recorder/mod.rs` composes each record by hand: `jsonEscape`, `formatDelta`, `headerLine`,
`eventLine`. The reader gives a record back without its newline (`trimEndNewlines`), which is the
text that went in (`trimEndNewlines_headerLine`, `trimEndNewlines_eventLine`).
-/

namespace LetsFlutSsh.Recorder
open Lib List

/-- What the recorder is writing: terminal output or terminal input. -/
inductive RecordDirection where
  | output
  | input
  deriving DecidableEq

/-- U+FFFD, put in the place of each maximal ill-formed byte sequence. -/
def replacement : Char := Char.ofNat 0xFFFD

def isCont (b : UInt8) : Bool := b &&& 0xC0 == 0x80

/-- The second byte a three-byte sequence may have after its first one. -/
def isSecondOf3 (b c : UInt8) : Bool :=
  (b == 0xE0 && 0xA0 ≤ c && c ≤ 0xBF) || (0xE1 ≤ b && b ≤ 0xEC && isCont c) ||
    (b == 0xED && 0x80 ≤ c && c ≤ 0x9F) || (0xEE ≤ b && b ≤ 0xEF && isCont c)

/-- The second byte a four-byte sequence may have after its first one. -/
def isSecondOf4 (b c : UInt8) : Bool :=
  (b == 0xF0 && 0x90 ≤ c && c ≤ 0xBF) || (0xF1 ≤ b && b ≤ 0xF3 && isCont c) || (b == 0xF4 && 0x80 ≤ c && c ≤ 0x8F)

/-- The scalar value of a lead byte's payload and its continuation bytes. -/
def scalar (lead : Nat) (conts : Bytes) : Char :=
  Char.ofNat (conts.foldl (fun acc c => acc * 64 + c.toNat % 64) lead)

def fromUtf8Lossy : Bytes → List Char
  | [] => []
  | b :: r =>
    if b < 0x80 then Char.ofNat b.toNat :: fromUtf8Lossy r
    else if 0xC2 ≤ b && b ≤ 0xDF then
      match r with
      | [] => [replacement]
      | c :: r₁ =>
        if isCont c then scalar (b.toNat % 32) [c] :: fromUtf8Lossy r₁
        else replacement :: fromUtf8Lossy (c :: r₁)
    else if 0xE0 ≤ b && b ≤ 0xEF then
      match r with
      | [] => [replacement]
      | c :: r₁ =>
        if isSecondOf3 b c then
          match r₁ with
          | [] => [replacement]
          | d :: r₂ =>
            if isCont d then scalar (b.toNat % 16) [c, d] :: fromUtf8Lossy r₂
            else replacement :: fromUtf8Lossy (d :: r₂)
        else replacement :: fromUtf8Lossy (c :: r₁)
    else if 0xF0 ≤ b && b ≤ 0xF4 then
      match r with
      | [] => [replacement]
      | c :: r₁ =>
        if isSecondOf4 b c then
          match r₁ with
          | [] => [replacement]
          | d :: r₂ =>
            if isCont d then
              match r₂ with
              | [] => [replacement]
              | e :: r₃ =>
                if isCont e then scalar (b.toNat % 8) [c, d, e] :: fromUtf8Lossy r₃
                else replacement :: fromUtf8Lossy (e :: r₃)
            else replacement :: fromUtf8Lossy (d :: r₂)
        else replacement :: fromUtf8Lossy (c :: r₁)
    else replacement :: fromUtf8Lossy r

def hexDigit (n : Nat) : Char := "0123456789abcdef".toList.getD (n % 16) '0'

/-- The format `{:04x}` of a number below `0x10000`. -/
def hex4 (n : Nat) : List Char :=
  [hexDigit (n / 4096), hexDigit (n / 256), hexDigit (n / 16), hexDigit n]

/-- The escape of one character inside a JSON string literal. Bidi overrides and isolates are
escaped like control characters, so that a recording shows them in a text search. -/
def jsonEscapeChar (c : Char) : List Char :=
  if c = '"' then ['\\', '"']
  else if c = '\\' then ['\\', '\\']
  else if c = '\n' then ['\\', 'n']
  else if c = '\r' then ['\\', 'r']
  else if c = '\t' then ['\\', 't']
  else if c.toNat = 0x08 then ['\\', 'b']
  else if c.toNat = 0x0c then ['\\', 'f']
  else
    let cp := c.toNat
    if cp < 0x20 || (0x202A ≤ cp && cp ≤ 0x202E) || (0x2066 ≤ cp && cp ≤ 0x2069) then
      if cp ≤ 0xFFFF then '\\' :: 'u' :: hex4 cp
      else
        let v := cp - 0x10000
        '\\' :: 'u' :: hex4 (0xD800 + v / 1024) ++ '\\' :: 'u' :: hex4 (0xDC00 + v % 1024)
    else [c]

def jsonEscape (s : List Char) : List Char := s.flatMap jsonEscapeChar

def pad6 (n : Nat) : List Char :=
  let ds := (toString n).toList
  List.replicate (6 - ds.length) '0' ++ ds

/-- The delta `micros / 10^6` in seconds as a JSON number: whole seconds without a fraction, else
up to six digits with the trailing zeros dropped. The source computes in `f64`, which holds every
delta below `2^52` microseconds to the digits printed here. -/
def formatDelta (micros : Nat) : List Char :=
  if micros = 0 then ['0']
  else if micros % 1000000 = 0 then (toString (micros / 1000000)).toList
  else ((toString (micros / 1000000)).toList ++ '.' :: pad6 (micros % 1000000)).rdropWhile (· == '0')

def headerText (width height timestampSecs : Nat) (shellLabel : String) : List Char :=
  "\x7b\"version\":2,\"width\":".toList ++ (toString width).toList ++ ",\"height\":".toList ++ (toString height).toList ++
    ",\"timestamp\":".toList ++ (toString timestampSecs).toList ++
    ",\"env\":\x7b\"TERM\":\"xterm-256color\",\"SHELL\":\"".toList ++ jsonEscape shellLabel.toList ++
    "\"\x7d\x7d".toList

def RecordDirection.kindChar : RecordDirection → Char
  | .output => 'o'
  | .input => 'i'

/-- The event record `[delta, "o"|"i", text]`, without its newline. -/
def eventText (kind : RecordDirection) (bytes : Bytes) (micros : Nat) : List Char :=
  '[' :: formatDelta micros ++ ",\"".toList ++ [kind.kindChar] ++ "\",\"".toList ++
    jsonEscape (fromUtf8Lossy bytes) ++ "\"]".toList

def headerLine (width height timestampSecs : Nat) (shellLabel : String) : String :=
  String.ofList (headerText width height timestampSecs shellLabel ++ ['\n'])

def eventLine (kind : RecordDirection) (bytes : Bytes) (micros : Nat) : String :=
  String.ofList (eventText kind bytes micros ++ ['\n'])

/-- `trim_end_matches('\n')`. -/
def trimEndNewlines (s : String) : String :=
  String.ofList (s.toList.rdropWhile (· == '\n'))

theorem utf8_trimEndNewlines (s : String) : utf8 (trimEndNewlines s) = (utf8 s).rdropWhile (· == 10) := by
  unfold trimEndNewlines
  rw [utf8_eq_flatMap, utf8_eq_flatMap, String.toList_ofList]
  induction s.toList using List.reverseRecOn with
  | nil => rfl
  | append_singleton cs c ih =>
    rw [flatMap_append, flatMap_singleton]
    by_cases hc : c = '\n'
    · subst hc
      rw [rdropWhile_concat_pos _ _ _ (by decide), ih]
      rw [show String.utf8EncodeChar '\n' = [10] from by decide, rdropWhile_concat_pos _ _ _ (by decide)]
    rw [rdropWhile_concat_neg _ _ _ (by simpa using hc), flatMap_append, flatMap_singleton]
    obtain ⟨bs, b, hb⟩ := (eq_nil_or_concat (String.utf8EncodeChar c)).resolve_left String.utf8EncodeChar_ne_nil
    have hne : b ≠ 10 := by
      rintro rfl
      have hmem : (10 : UInt8) ∈ String.utf8EncodeChar c := by rw [hb]; simp
      exact hc ((eq_of_mem_utf8EncodeChar (by decide) hmem).trans (by decide))
    rw [hb, concat_eq_append, ← append_assoc, rdropWhile_concat_neg _ _ _ (by simpa using hne)]

theorem trimEndNewlines_newline {t : List Char} {c : Char} (ht : t.getLast? = some c)
    (hc : c ≠ '\n') : trimEndNewlines (String.ofList (t ++ ['\n'])) = String.ofList t := by
  obtain ⟨u, rfl⟩ := getLast?_eq_some_iff.mp ht
  rw [trimEndNewlines, String.toList_ofList, rdropWhile_concat_pos (· == '\n') (u ++ [c]) '\n' (by simp),
    rdropWhile_concat_neg (· == '\n') u c (by simpa using hc)]

theorem trimEndNewlines_headerLine (w h t : Nat) (shell : String) :
    trimEndNewlines (headerLine w h t shell) = String.ofList (headerText w h t shell) := by
  have hend : (headerText w h t shell).getLast? = some '\x7d' := by
    have htail : "\"\x7d\x7d".toList.getLast? = some '\x7d' := by decide
    unfold headerText
    rw [getLast?_append, htail, Option.some_or]
  exact trimEndNewlines_newline hend (by decide)

theorem trimEndNewlines_eventLine (kind : RecordDirection) (bytes : Bytes) (micros : Nat) :
    trimEndNewlines (eventLine kind bytes micros) = String.ofList (eventText kind bytes micros) := by
  have hend : (eventText kind bytes micros).getLast? = some ']' := by
    have htail : "\"]".toList.getLast? = some ']' := by decide
    rw [eventText, getLast?_append, htail, Option.some_or]
  exact trimEndNewlines_newline hend (by decide)

example : eventText .output [0x68, 0x69, 0xFF, 0x0A] 1500000 = "[1.5,\"o\",\"hi\uFFFD\\n\"]".toList := by decide

end LetsFlutSsh.Recorder
