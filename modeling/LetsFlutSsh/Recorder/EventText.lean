import LetsFlutSsh.Lib.Json
import LetsFlutSsh.Recorder.Line

/-!
# Recorder: the event record as JSON

What `decode_event_line` reads off the text that `record_event` composed:

* `NumberText`, `Literal` : the numbers and string literals the recorder writes, as JSON defines them;
* `numberText_formatDelta`, `literal_jsonEscape` : they are what `formatDelta` and `jsonEscape` give;
* `JsonReader` : `serde_json::from_str` on such texts.
-/

namespace LetsFlutSsh.Recorder
open Lib List

/-! ## Numbers -/

/-- An unsigned JSON number without an exponent. -/
inductive NumberText : List Char → Prop
  | int (n : Nat) : NumberText (toString n).toList
  | frac (n : Nat) {ds : List Char} : ds ≠ [] → (∀ d ∈ ds, d.isDigit = true) → NumberText ((toString n).toList ++ '.' :: ds)

theorem toList_toString (n : Nat) : (toString n).toList = Nat.toDigits 10 n := by
  rw [Nat.toString_eq_ofList_toDigits, String.toList_ofList]

theorem rdropWhile_append {p : Char → Bool} (a : List Char) {b : List Char} (h : ∃ c ∈ b, p c = false) :
    (a ++ b).rdropWhile p = a ++ b.rdropWhile p ∧ b.rdropWhile p ≠ [] := by
  obtain ⟨c, hc, hp⟩ := h
  have hne : b.rdropWhile p ≠ [] := by
    intro hnil
    have hall := rdropWhile_eq_nil_iff.mp hnil c hc
    rw [hp] at hall
    cases hall
  refine ⟨?_, hne⟩
  induction b using List.reverseRecOn with
  | nil => exact absurd rfl hne
  | append_singleton b x ih =>
    by_cases hx : p x
    · rw [← append_assoc, rdropWhile_concat_pos _ _ _ hx, rdropWhile_concat_pos _ _ _ hx]
      rw [rdropWhile_concat_pos _ _ _ hx] at hne
      refine ih ?_ hne
      rcases mem_append.mp hc with h | h
      · exact h
      · rw [mem_singleton.mp h, hx] at hp
        cases hp
    · rw [← append_assoc, rdropWhile_concat_neg _ _ _ hx, rdropWhile_concat_neg _ _ _ hx, append_assoc]

theorem exists_ne_zero_of_pos {n : Nat} (h : 0 < n) : ∃ c ∈ Nat.toDigits 10 n, (c == '0') = false := by
  by_contra hall
  have hrep : Nat.toDigits 10 n = List.replicate (Nat.toDigits 10 n).length '0' := by
    refine eq_replicate_iff.mpr ⟨rfl, fun c hc => ?_⟩
    by_contra hne
    exact hall ⟨c, hc, beq_false_of_ne hne⟩
  have hvalue := Nat.ofDigitChars_ten_toDigits (n := n)
  rw [hrep] at hvalue
  have hzero : ∀ k, Nat.ofDigitChars 10 (List.replicate k '0') 0 = 0 := by
    intro k
    induction k with
    | zero => rfl
    | succ k ih =>
      rw [replicate_succ, Nat.ofDigitChars_cons]
      exact ih
  rw [hzero] at hvalue
  omega

theorem length_toDigits_le {n : Nat} (h : n < 2 ^ 128) : (Nat.toDigits 10 n).length ≤ 39 := by
  rw [Nat.length_toDigits_le_iff (by decide) (by decide)]
  omega

theorem numberText_formatDelta (micros : Nat) : NumberText (formatDelta micros) := by
  unfold formatDelta
  split_ifs with hzero hwhole
  · exact .int 0
  · exact .int _
  -- the fraction keeps its digits up to the last one that is not zero
  have hdigits : ∀ c ∈ pad6 (micros % 1000000), c.isDigit = true := by
    intro c hc
    unfold pad6 at hc
    rw [toList_toString] at hc
    rcases mem_append.mp hc with h | h
    · rw [eq_of_mem_replicate h]
      decide
    · exact Nat.isDigit_of_mem_toDigits (by decide) (by decide) h
  have hsome : ∃ c ∈ pad6 (micros % 1000000), (c == '0') = false := by
    obtain ⟨c, hc, hne⟩ := exists_ne_zero_of_pos (Nat.pos_of_ne_zero hwhole)
    refine ⟨c, mem_append_right _ ?_, hne⟩
    rwa [toList_toString]
  obtain ⟨hdrop, hne⟩ := rdropWhile_append ((toString (micros / 1000000)).toList ++ ['.']) hsome
  rw [append_assoc, append_assoc, singleton_append, singleton_append] at hdrop
  rw [hdrop]
  exact .frac _ hne fun d hd => hdigits d (( rdropWhile_prefix _ _).subset hd)

theorem length_formatDelta_le {micros : Nat} (h : micros < 2 ^ 128) : (formatDelta micros).length ≤ 300 := by
  have hint := length_toDigits_le (n := micros / 1000000) (by omega)
  have hfrac := length_toDigits_le (n := micros % 1000000) (by omega)
  unfold formatDelta
  split_ifs
  · decide
  · rw [toList_toString]
    omega
  · refine (( rdropWhile_prefix _ _).length_le).trans ?_
    unfold pad6
    rw [toList_toString, toList_toString]
    simp only [length_append, length_cons, length_replicate]
    omega

/-! ## String literals -/

def shortEscapes : List (Char × Char) :=
  [('"', '"'), ('\\', '\\'), ('n', '\n'), ('r', '\r'), ('t', '\t'), ('b', Char.ofNat 0x08), ('f', Char.ofNat 0x0c)]

/-- The text of one character inside a string literal: itself, an escape of one letter, or the four
digits of a code unit that is no surrogate. -/
inductive LiteralChar : List Char → Char → Prop
  | plain {c : Char} : c ≠ '"' → c ≠ '\\' → 0x20 ≤ c.toNat → LiteralChar [c] c
  | short {e c : Char} : (e, c) ∈ shortEscapes → LiteralChar ['\\', e] c
  | unit {n : Nat} : n < 0xD800 → LiteralChar ('\\' :: 'u' :: hex4 n) (Char.ofNat n)

/-- The text between the quotes of a string literal. -/
inductive Literal : List Char → List Char → Prop
  | nil : Literal [] []
  | cons {t r : List Char} {c : Char} {cs : List Char} : LiteralChar t c → Literal r cs → Literal (t ++ r) (c :: cs)

theorem literalChar_jsonEscapeChar (c : Char) : LiteralChar (jsonEscapeChar c) c := by
  have hchar : ∀ {n : Nat}, c.toNat = n → c = Char.ofNat n := by
    rintro _ rfl
    exact (Char.ofNat_toNat c).symm
  unfold jsonEscapeChar
  split_ifs with h₁ h₂ h₃ h₄ h₅ h₆ h₇
  · subst h₁
    exact .short (by decide)
  · subst h₂
    exact .short (by decide)
  · subst h₃
    exact .short (by decide)
  · subst h₄
    exact .short (by decide)
  · subst h₅
    exact .short (by decide)
  · rw [hchar h₆]
    exact .short (by decide)
  · rw [hchar h₇]
    exact .short (by decide)
  · dsimp only
    split_ifs with hspecial hbmp
    · -- a control character or a bidi mark, all below the surrogates
      have hsmall : c.toNat < 0xD800 := by
        simp only [Bool.or_eq_true, Bool.and_eq_true, decide_eq_true_eq] at hspecial
        omega
      simpa only [Char.ofNat_toNat] using LiteralChar.unit hsmall
    · simp only [Bool.or_eq_true, Bool.and_eq_true, decide_eq_true_eq] at hspecial
      omega
    · refine .plain h₁ h₂ ?_
      simp only [Bool.or_eq_true, Bool.and_eq_true, decide_eq_true_eq] at hspecial
      omega

theorem literal_jsonEscape (s : List Char) : Literal (jsonEscape s) s := by
  induction s with
  | nil => exact .nil
  | cons c s ih => exact .cons (literalChar_jsonEscapeChar c) ih

/-! ## Reading an event -/

def tripleText (num first second : List Char) : List Char :=
  '[' :: num ++ ",\"".toList ++ first ++ "\",\"".toList ++ second ++ "\"]".toList

/-- `serde_json::from_str` on the lines of a recording. A number of many more digits than a time ever
has may be out of the range of `f64`. -/
structure JsonReader where
  fromStr : String → Except String Json
  /-- An array of a number and two strings. -/
  fromStr_triple : ∀ num first second s t, NumberText num → num.length ≤ 300 → Literal first s → Literal second t →
    ∃ v x, v.asF64 = some x ∧
      fromStr (String.ofList (tripleText num first second)) = .ok (.arr [v, .str (String.ofList s), .str (String.ofList t)])
  /-- What begins with a brace is no array. -/
  fromStr_brace : ∀ t v, fromStr (String.ofList ('\x7b' :: t)) = .ok v → v.asArray = none

/-! ## A reader -/

def hexValue (c : Char) : Nat := "0123456789abcdef".toList.idxOf c

/-- The character that a piece of literal text stands for, and the text after it. -/
def readLiteralChar : List Char → Option (Char × List Char)
  | [] => none
  | c :: r =>
    if c = '\\' then
      match r with
      | [] => none
      | e :: r =>
        if e = 'u' then
          match r with
          | d₁ :: d₂ :: d₃ :: d₄ :: r =>
            some (Char.ofNat (hexValue d₁ * 4096 + hexValue d₂ * 256 + hexValue d₃ * 16 + hexValue d₄), r)
          | _ => none
        else (shortEscapes.lookup e).map fun c => (c, r)
    else some (c, r)

/-- What a string literal stands for, up to its closing quote, and the text after that. -/
def readLiteral : Nat → List Char → Option (List Char × List Char)
  | 0, _ => none
  | n + 1, cs =>
    if cs.head? = some '"' then some ([], cs.tail)
    else do
      let (c, r) ← readLiteralChar cs
      let (s, r) ← readLiteral n r
      return (c :: s, r)

def readNumber (num : List Char) : Json :=
  let whole := num.takeWhile (· ≠ '.')
  match num.dropWhile (· ≠ '.') with
  | [] => .int (Nat.ofDigitChars 10 whole 0)
  | _ :: ds => .float (Nat.ofDigitChars 10 (whole ++ ds) 0 / 10 ^ ds.length)

def readTriple : List Char → Option Json
  | '[' :: r =>
    match r.dropWhile (· ≠ ',') with
    | ',' :: '"' :: r₁ => do
      let (s, r₂) ← readLiteral (r₁.length + 1) r₁
      match r₂ with
      | ',' :: '"' :: r₃ =>
        let (t, r₄) ← readLiteral (r₃.length + 1) r₃
        if r₄ = [']'] then some (.arr [readNumber (r.takeWhile (· ≠ ',')), .str (String.ofList s), .str (String.ofList t)])
        else none
      | _ => none
    | _ => none
  | _ => none

theorem hexValue_hexDigit (n : Nat) : hexValue (hexDigit n) = n % 16 := by
  have hall : ∀ d < 16, hexValue ("0123456789abcdef".toList.getD d '0') = d := by decide
  exact hall (n % 16) (Nat.mod_lt _ (by decide))

theorem readLiteralChar_append {t : List Char} {c : Char} (h : LiteralChar t c) (r : List Char) :
    readLiteralChar (t ++ r) = some (c, r) ∧ (t ++ r).head? ≠ some '"' := by
  cases h with
  | plain hquote hslash _ =>
    refine ⟨?_, by simpa using hquote⟩
    rw [singleton_append, readLiteralChar.eq_def]
    exact if_neg hslash
  | short hmem =>
    have hlookup : ∀ x ∈ shortEscapes, x.1 ≠ 'u' ∧ shortEscapes.lookup x.1 = some x.2 := by decide
    obtain ⟨hu, hfound⟩ := hlookup _ hmem
    refine ⟨?_, by simp⟩
    simp [readLiteralChar, hu, hfound]
  | unit hn =>
    refine ⟨?_, by simp⟩
    simp only [hex4, cons_append, nil_append, readLiteralChar, if_true, hexValue_hexDigit]
    congr 3
    omega

theorem readLiteral_append {t s : List Char} (h : Literal t s) (r : List Char) {n : Nat} (hn : t.length < n) :
    readLiteral n (t ++ '"' :: r) = some (s, r) := by
  induction h generalizing n with
  | nil =>
    obtain ⟨m, rfl⟩ := Nat.exists_eq_succ_of_ne_zero (Nat.ne_of_gt hn)
    rfl
  | @cons t u c s hc _ ih =>
    obtain ⟨m, rfl⟩ := Nat.exists_eq_succ_of_ne_zero (Nat.ne_of_gt (Nat.zero_lt_of_lt hn))
    obtain ⟨hread, hquote⟩ := readLiteralChar_append hc (u ++ '"' :: r)
    have hpos : 0 < t.length := by
      cases hc <;> simp
    have hrest := ih (n := m) (by rw [length_append] at hn; omega)
    rw [append_assoc, readLiteral, if_neg hquote, hread]
    simp [hrest]

theorem NumberText.no_comma {num : List Char} (h : NumberText num) : ',' ∉ num := by
  have hdigit : ∀ {ds : List Char}, (∀ d ∈ ds, d.isDigit = true) → ',' ∉ ds := by
    intro ds hds hmem
    exact absurd (hds ',' hmem) (by decide)
  have hint : ∀ n : Nat, ',' ∉ (toString n).toList := by
    intro n
    rw [toList_toString]
    exact hdigit fun d hd => Nat.isDigit_of_mem_toDigits (by decide) (by decide) hd
  cases h with
  | int n => exact hint n
  | frac n _ hds =>
    rw [mem_append, mem_cons]
    rintro (hmem | hdot | hmem)
    · exact hint n hmem
    · exact absurd hdot (by decide)
    · exact hdigit hds hmem

theorem readTriple_tripleText {num first second s t : List Char} (hnum : NumberText num) (hs : Literal first s)
    (ht : Literal second t) :
    readTriple (tripleText num first second) =
      some (.arr [readNumber num, .str (String.ofList s), .str (String.ofList t)]) := by
  have hcomma : ∀ c ∈ num, decide (c ≠ ',') = true := by
    intro c hc
    rw [decide_eq_true_eq]
    rintro rfl
    exact hnum.no_comma hc
  have hshape : tripleText num first second =
      '[' :: (num ++ ',' :: '"' :: (first ++ '"' :: ',' :: '"' :: (second ++ '"' :: [']']))) := by
    simp [tripleText]
  have htake : ∀ r, (num ++ ',' :: r).takeWhile (fun c => decide (c ≠ ',')) = num := by
    intro r
    rw [takeWhile_append_of_pos hcomma]
    simp
  have hdrop : ∀ r, (num ++ ',' :: r).dropWhile (fun c => decide (c ≠ ',')) = ',' :: r := by
    intro r
    rw [dropWhile_append_of_pos hcomma]
    simp
  have hfirst := readLiteral_append hs (',' :: '"' :: (second ++ '"' :: [']']))
    (n := (first ++ '"' :: ',' :: '"' :: (second ++ '"' :: [']'])).length + 1) (by rw [length_append]; omega)
  have hsecond := readLiteral_append ht [']'] (n := (second ++ '"' :: [']']).length + 1) (by rw [length_append]; omega)
  rw [hshape, readTriple]
  simp only [htake, hdrop, hfirst, hsecond, Option.bind_eq_bind, Option.bind_some, if_true]

theorem asF64_readNumber (num : List Char) : ∃ x, (readNumber num).asF64 = some x := by
  unfold readNumber
  split
  · exact ⟨_, rfl⟩
  · exact ⟨_, rfl⟩

def eventReader : JsonReader where
  fromStr line := match readTriple line.toList with
    | some v => .ok v
    | none => .error "expected an event"
  fromStr_triple num first second s t hnum _ hs ht := by
    obtain ⟨x, hx⟩ := asF64_readNumber num
    refine ⟨_, x, hx, ?_⟩
    rw [String.toList_ofList, readTriple_tripleText hnum hs ht]
  fromStr_brace t v h := by
    rw [String.toList_ofList] at h
    cases h

structure DecodedEvent where
  timestamp : Rat
  direction : String
  data : String

def decodeEventLine (R : JsonReader) (line : String) : Option DecodedEvent := do
  let value ← (R.fromStr line).toOption
  match ← value.asArray with
  | v :: d :: t :: _ =>
    let timestamp ← v.asF64
    let direction ← d.asStr
    let data ← t.asStr
    return { timestamp, direction, data }
  | _ => none

theorem eventText_eq_tripleText (kind : RecordDirection) (bytes : Bytes) (micros : Nat) :
    eventText kind bytes micros = tripleText (formatDelta micros) [kind.kindChar] (jsonEscape (fromUtf8Lossy bytes)) := rfl

theorem decodeEventLine_eventText (R : JsonReader) (kind : RecordDirection) (bytes : Bytes) {micros : Nat}
    (h : micros < 2 ^ 128) :
    ∃ timestamp, decodeEventLine R (String.ofList (eventText kind bytes micros)) =
      some { timestamp, direction := String.ofList [kind.kindChar], data := String.ofList (fromUtf8Lossy bytes) } := by
  have hkind : Literal [kind.kindChar] [kind.kindChar] := by
    cases kind <;> exact .cons (.plain (by decide) (by decide) (by decide)) .nil
  obtain ⟨v, x, hx, hread⟩ := R.fromStr_triple _ _ _ _ _ (numberText_formatDelta micros) (length_formatDelta_le h)
    hkind (literal_jsonEscape (fromUtf8Lossy bytes))
  refine ⟨x, ?_⟩
  rw [eventText_eq_tripleText, decodeEventLine, hread]
  simp [Except.toOption, hx]

theorem headerText_brace (w h t : Nat) (shell : String) : ∃ r, headerText w h t shell = '\x7b' :: r := ⟨_, rfl⟩

theorem decodeEventLine_headerText (R : JsonReader) (w h t : Nat) (shell : String) :
    decodeEventLine R (String.ofList (headerText w h t shell)) = none := by
  obtain ⟨r, hr⟩ := headerText_brace w h t shell
  rw [hr, decodeEventLine]
  cases hv : R.fromStr (String.ofList ('\x7b' :: r)) with
  | error e => rfl
  | ok v =>
    have hnone := R.fromStr_brace r v hv
    simp [Except.toOption, hnone]

end LetsFlutSsh.Recorder
