import Mathlib.Algebra.Group.Nat.Defs
import LetsFlutSsh.Lib.Bytes
import LetsFlutSsh.Lib.Text

/-!
# Digest authentication

* `DigestChallenge.parse` : the challenge of a `WWW-Authenticate` header, by byte indices that may fall in a character;
* `readPairs` : the same on characters (`parseAuthPairs_eq`, `readPairs_of_le`);
* `DigestState` : the challenge in use and its nonce count;
* `setChallenge`, `hasChallenge`, `buildResponse` : what a client does with it, each under the lock.
-/

namespace LetsFlutSsh.WebDav
open Lib List

inductive AuthMethod where
  | basic
  | digest
  | bearer
  deriving DecidableEq

structure Credentials where
  method : AuthMethod
  username : Option String
  passwordOrToken : String

structure DigestChallenge where
  realm : String
  nonce : String
  qop : Option String
  opaqueText : Option String
  algorithm : String
  stale : Bool

/-- `to_ascii_lowercase`. -/
def asciiLower (cs : List Char) : List Char := cs.map Char.toLower

def skipSeparators (bytes : Bytes) (i : Nat) : Nat :=
  scanWhile (fun b => b = ascii ' ' || b = ascii '\t' || b = ascii ',') bytes i

def scanKey (input : List Char) (bytes : Bytes) (i : Nat) : Except Panic (List Char × Nat) := do
  let stop := scanWhile (fun b => b ≠ ascii '=' && b ≠ ascii ',') bytes i
  let key ← sliceText input i stop
  .ok (asciiLower (trim key), stop)

/-- How many bytes the loop of `scan_quoted_value` passes; `skip` stands behind a backslash. -/
def quotedSpan (skip : Bool) : Bytes → Nat
  | [] => 0
  | b :: rest => if b = ascii '"' ∧ skip = false then 0 else quotedSpan (b = ascii '\\' && !skip) rest + 1

def scanQuotedValue (input : List Char) (bytes : Bytes) (i : Nat) : Except Panic (List Char × Nat) := do
  let stop := i + quotedSpan false (bytes.drop i)
  let v ← sliceText input i stop
  .ok (v, if stop < bytes.length then stop + 1 else stop)

def scanTokenValue (input : List Char) (bytes : Bytes) (i : Nat) : Except Panic (List Char × Nat) := do
  let stop := scanWhile (fun b => b ≠ ascii ',') bytes i
  let v ← sliceText input i stop
  .ok (trim v, stop)

def scanValue (input : List Char) (bytes : Bytes) (i : Nat) : Except Panic (List Char × Nat) :=
  if bytes[i]? = some (ascii '"') then scanQuotedValue input bytes (i + 1) else scanTokenValue input bytes i

/-- The loop of `parse_auth_pairs`; every round moves the index. -/
def parseAuthPairs (input : List Char) (bytes : Bytes) : Nat → Nat → Except Panic (List (String × String))
  | 0, _ => .ok []
  | rounds + 1, i => do
    let i := skipSeparators bytes i
    if bytes.length ≤ i then .ok []
    else
      let (key, i) ← scanKey input bytes i
      if bytes[i]? ≠ some (ascii '=') then parseAuthPairs input bytes rounds i
      else
        let (value, i) ← scanValue input bytes (i + 1)
        let pairs ← parseAuthPairs input bytes rounds i
        .ok (if key = [] then pairs else (String.ofList key, String.ofList value) :: pairs)

def pairValue (pairs : List (String × String)) (key : String) : Option String :=
  (pairs.reverse.find? (·.1 = key)).map Prod.snd

def DigestChallenge.parse (headerValue : String) : Except Panic (Option DigestChallenge) :=
  let trimmed := trim headerValue.toList
  if "Digest ".toList.isPrefixOf trimmed || "digest ".toList.isPrefixOf trimmed then
    let rest := trimmed.drop 7
    (parseAuthPairs rest (asBytes rest) (asBytes rest).length 0).map fun pairs => some
      { realm := (pairValue pairs "realm").getD ""
        nonce := (pairValue pairs "nonce").getD ""
        qop := pairValue pairs "qop"
        opaqueText := pairValue pairs "opaque"
        algorithm := (pairValue pairs "algorithm").getD "MD5"
        stale := (pairValue pairs "stale").elim false fun v => asciiLower v.toList = "true".toList }
  else .ok none

/-! ## On characters -/

def isSeparator (c : Char) : Bool := c = ' ' || c = '\t' || c = ','
def isKeyChar (c : Char) : Bool := c ≠ '=' && c ≠ ','

/-- The span up to the closing quote, escapes included, and what follows; `skip` stands behind a backslash. -/
def readQuoted (skip : Bool) : List Char → List Char × List Char
  | [] => ([], [])
  | c :: rest =>
    if c = '"' ∧ skip = false then ([], rest)
    else
      let (value, after) := readQuoted (c = '\\' && !skip) rest
      (c :: value, after)

def readValue (cs : List Char) : List Char × List Char :=
  if cs.head? = some '"' then readQuoted false cs.tail
  else (trim (cs.takeWhile (· ≠ ',')), cs.dropWhile (· ≠ ','))

/-- Every round takes a character. -/
def readPairs : Nat → List Char → List (String × String)
  | 0, _ => []
  | rounds + 1, input =>
    let rest := input.dropWhile isSeparator
    let key := asciiLower (trim (rest.takeWhile isKeyChar))
    match rest.dropWhile isKeyChar with
    | [] => []
    | c :: after =>
      if c = '=' then
        let (value, after) := readValue after
        if key = [] then readPairs rounds after
        else (String.ofList key, String.ofList value) :: readPairs rounds after
      else readPairs rounds (c :: after)

theorem length_readQuoted (skip : Bool) (cs : List Char) : (readQuoted skip cs).2.length ≤ cs.length := by
  induction cs generalizing skip with
  | nil => exact Nat.le_refl 0
  | cons c rest ih =>
    rw [readQuoted]
    split_ifs
    · exact Nat.le_succ _
    · exact Nat.le_succ_of_le (ih _)

theorem length_readValue (cs : List Char) : (readValue cs).2.length ≤ cs.length := by
  unfold readValue
  split_ifs
  · have htail : cs.tail.length ≤ cs.length := by
      rw [length_tail]
      omega
    exact (length_readQuoted false _).trans htail
  · exact length_dropWhile_le _ cs

theorem length_round {input after : List Char} {c : Char}
    (h : (input.dropWhile isSeparator).dropWhile isKeyChar = c :: after) :
    after.length < input.length ∧ (c ≠ '=' → (c :: after).length < input.length) := by
  have hkey := length_dropWhile_le isKeyChar (input.dropWhile isSeparator)
  have hseparators := length_dropWhile_le isSeparator input
  rw [h, length_cons] at hkey
  refine ⟨by omega, fun hne => ?_⟩
  -- The separator that ends a key without value is no character of the key's own.
  rcases hrest : input.dropWhile isSeparator with _ | ⟨d, rest⟩
  · rw [hrest] at h
    cases h
  have hd : isSeparator d = false := by
    have hnot := head?_dropWhile_not isSeparator input
    rwa [hrest, head?_cons] at hnot
  rw [hrest] at h hseparators
  rw [dropWhile_cons] at h
  split_ifs at h with hkeychar
  · have hrest' := length_dropWhile_le isKeyChar rest
    rw [h] at hrest'
    rw [length_cons] at hseparators
    omega
  · cases h
    unfold isSeparator at hd
    unfold isKeyChar at hkeychar
    simp_all

theorem readPairs_of_le {rounds : Nat} {input : List Char} (h : input.length ≤ rounds) :
    readPairs rounds input = readPairs input.length input := by
  suffices hall : ∀ n m (input : List Char), input.length ≤ n → input.length ≤ m →
      readPairs n input = readPairs m input from hall _ _ _ h (Nat.le_refl _)
  intro n
  induction n with
  | zero =>
    intro m input hn _
    obtain rfl := eq_nil_of_length_eq_zero (Nat.le_zero.1 hn)
    cases m <;> rfl
  | succ n ih =>
    intro m input hn hm
    rcases m with _ | m
    · obtain rfl := eq_nil_of_length_eq_zero (Nat.le_zero.1 hm)
      rfl
    unfold readPairs
    dsimp only
    rcases hround : (input.dropWhile isSeparator).dropWhile isKeyChar with _ | ⟨c, after⟩
    · rfl
    obtain ⟨hafter, hbare⟩ := length_round hround
    have hvalue := length_readValue after
    dsimp only
    split_ifs with hc
    · exact ih m _ (by omega) (by omega)
    · rw [ih m (readValue after).2 (by omega) (by omega)]
    · have hlt := hbare hc
      exact ih m _ (by omega) (by omega)

/-! ## Every index is a boundary -/

section Boundaries
variable {cs : List Char}

theorem skipSeparators_asBytes (pre cs : List Char) :
    skipSeparators (asBytes (pre ++ cs)) (asBytes pre).length = (asBytes (pre ++ cs.takeWhile isSeparator)).length := by
  refine scanWhile_asBytes (fun c b hb => ?_) pre cs
  simp only [isSeparator, mem_utf8EncodeChar_iff (by decide : ' '.toNat < 128) hb,
    mem_utf8EncodeChar_iff (by decide : '\t'.toNat < 128) hb, mem_utf8EncodeChar_iff (by decide : ','.toNat < 128) hb]

theorem scanKey_asBytes (pre cs : List Char) : scanKey (pre ++ cs) (asBytes (pre ++ cs)) (asBytes pre).length =
    .ok (asciiLower (trim (cs.takeWhile isKeyChar)), (asBytes (pre ++ cs.takeWhile isKeyChar)).length) := by
  have hstop : scanWhile (fun b => b ≠ ascii '=' && b ≠ ascii ',') (asBytes (pre ++ cs)) (asBytes pre).length =
      (asBytes (pre ++ cs.takeWhile isKeyChar)).length := by
    refine scanWhile_asBytes (fun c b hb => ?_) pre cs
    simp only [isKeyChar, ne_eq, mem_utf8EncodeChar_iff (by decide : '='.toNat < 128) hb,
      mem_utf8EncodeChar_iff (by decide : ','.toNat < 128) hb]
  have hslice := sliceText_asBytes pre (cs.takeWhile isKeyChar) (cs.dropWhile isKeyChar)
  rw [takeWhile_append_dropWhile] at hslice
  rw [scanKey, hstop, hslice]
  rfl

theorem scanTokenValue_asBytes (pre cs : List Char) : scanTokenValue (pre ++ cs) (asBytes (pre ++ cs)) (asBytes pre).length =
    .ok (trim (cs.takeWhile (· ≠ ',')), (asBytes (pre ++ cs.takeWhile (· ≠ ','))).length) := by
  have hstop : scanWhile (fun b => b ≠ ascii ',') (asBytes (pre ++ cs)) (asBytes pre).length =
      (asBytes (pre ++ cs.takeWhile (· ≠ ','))).length := by
    refine scanWhile_asBytes (fun c b hb => ?_) pre cs
    simp only [ne_eq, mem_utf8EncodeChar_iff (by decide : ','.toNat < 128) hb]
  have hslice := sliceText_asBytes pre (cs.takeWhile (· ≠ ',')) (cs.dropWhile (· ≠ ','))
  rw [takeWhile_append_dropWhile] at hslice
  rw [scanTokenValue, hstop, hslice]
  rfl

/-- The bytes of an escaped character behind its first are no quote and no backslash. -/
theorem quotedSpan_char (skip : Bool) (c : Char) (hc : ¬(c = '"' ∧ skip = false)) (rest : Bytes) :
    quotedSpan skip (String.utf8EncodeChar c ++ rest) = quotedSpan (c = '\\' && !skip) rest + c.utf8Size := by
  have hquote : ∀ b ∈ String.utf8EncodeChar c, b = ascii '"' ↔ c = '"' := fun b hb => mem_utf8EncodeChar_iff (by decide) hb
  have hslash : ∀ b ∈ String.utf8EncodeChar c, b = ascii '\\' ↔ c = '\\' := fun b hb => mem_utf8EncodeChar_iff (by decide) hb
  rw [← String.length_utf8EncodeChar c]
  by_cases hascii : c.toNat < 128
  · have hone := utf8_of_ascii (s := String.ofList [c]) (by simpa using hascii)
    rw [utf8_eq_flatMap, String.toList_ofList, flatMap_singleton] at hone
    rw [hone] at hquote hslash ⊢
    simp only [map_singleton, mem_singleton, forall_eq] at hquote hslash
    simp only [map_singleton, singleton_append, quotedSpan, hquote, hslash, if_neg hc, length_singleton]
  · -- Nothing in a wide character is looked at.
    have hplain : ∀ d : Char, d.toNat < 128 → c ≠ d := fun d hd heq => hascii (heq ▸ hd)
    have hpass : ∀ bs : Bytes, (∀ b ∈ bs, b ≠ ascii '"' ∧ b ≠ ascii '\\') →
        quotedSpan false (bs ++ rest) = quotedSpan false rest + bs.length := by
      intro bs hbs
      induction bs with
      | nil => rfl
      | cons b bs ih =>
        rw [forall_mem_cons] at hbs
        simp only [cons_append, quotedSpan, hbs.1, false_and, if_false, decide_false, Bool.false_and, ih hbs.2, length_cons]
        omega
    have hother : ∀ b ∈ String.utf8EncodeChar c, b ≠ ascii '"' ∧ b ≠ ascii '\\' := fun b hb =>
      ⟨fun h => hplain '"' (by decide) ((hquote b hb).1 h), fun h => hplain '\\' (by decide) ((hslash b hb).1 h)⟩
    obtain ⟨b, bs, hbytes⟩ := exists_cons_of_ne_nil (String.utf8EncodeChar_ne_nil (c := c))
    rw [hbytes, forall_mem_cons] at hother
    rw [hbytes, decide_eq_false (hplain '\\' (by decide)), Bool.false_and, cons_append, quotedSpan,
      if_neg fun h => hother.1.1 h.1, decide_eq_false hother.1.2, Bool.false_and, hpass bs hother.2, length_cons]
    omega

theorem quotedSpan_asBytes (skip : Bool) (cs : List Char) :
    quotedSpan skip (asBytes cs) = (asBytes (readQuoted skip cs).1).length ∧
      ∃ closing, cs = (readQuoted skip cs).1 ++ (closing ++ (readQuoted skip cs).2) ∧
        (closing = ['"'] ∨ closing = [] ∧ (readQuoted skip cs).2 = []) := by
  induction cs generalizing skip with
  | nil => exact ⟨rfl, [], rfl, .inr ⟨rfl, rfl⟩⟩
  | cons c rest ih =>
    rw [asBytes_cons, readQuoted]
    by_cases hc : c = '"' ∧ skip = false
    · rw [if_pos hc]
      obtain ⟨rfl, rfl⟩ := hc
      exact ⟨rfl, ['"'], rfl, .inl rfl⟩
    · obtain ⟨hspan, closing, hsplit, hclosing⟩ := ih (c = '\\' && !skip)
      rw [if_neg hc, quotedSpan_char skip c hc, hspan]
      refine ⟨?_, closing, ?_, hclosing⟩
      · rw [length_asBytes_cons, Nat.add_comm]
      · rw [cons_append, ← hsplit]

theorem scanQuotedValue_asBytes (pre cs : List Char) : ∃ front, cs = front ++ (readQuoted false cs).2 ∧
    scanQuotedValue (pre ++ cs) (asBytes (pre ++ cs)) (asBytes pre).length =
      .ok ((readQuoted false cs).1, (asBytes (pre ++ front)).length) := by
  obtain ⟨hspan, closing, hsplit, hclosing⟩ := quotedSpan_asBytes false cs
  generalize hread : readQuoted false cs = r at hspan hsplit hclosing
  refine ⟨r.1 ++ closing, by rw [append_assoc, ← hsplit], ?_⟩
  have hslice := sliceText_asBytes pre r.1 (closing ++ r.2)
  rw [← hsplit] at hslice
  have hstop : (asBytes pre).length + quotedSpan false ((asBytes (pre ++ cs)).drop (asBytes pre).length) =
      (asBytes (pre ++ r.1)).length := by
    rw [asBytes_append, drop_left, hspan, asBytes_append, length_append]
  have hlength : (asBytes (pre ++ cs)).length = (asBytes (pre ++ r.1)).length + ((asBytes closing).length + (asBytes r.2).length) := by
    rw [hsplit]
    simp only [asBytes_append, length_append]
    omega
  rw [scanQuotedValue, hstop, hslice]
  refine congrArg (fun i => Except.ok (r.1, i)) ?_
  rw [hlength, ← append_assoc, asBytes_append (pre ++ r.1), length_append]
  rcases hclosing with rfl | ⟨rfl, hnil⟩
  · have hone : (asBytes ['"']).length = 1 := by decide
    rw [hone, if_pos (by omega)]
  · rw [hnil]
    exact if_neg (Nat.lt_irrefl _)

theorem scanValue_asBytes (pre cs : List Char) : ∃ front, cs = front ++ (readValue cs).2 ∧
    scanValue (pre ++ cs) (asBytes (pre ++ cs)) (asBytes pre).length =
      .ok ((readValue cs).1, (asBytes (pre ++ front)).length) := by
  have hhead := getElem?_asBytes (d := '"') (by decide) pre cs
  by_cases hquote : cs.head? = some '"'
  · obtain ⟨c, rest, rfl⟩ := exists_cons_of_ne_nil (l := cs) (by rintro rfl; cases hquote)
    obtain rfl := Option.some.inj hquote
    obtain ⟨front, hsplit, hscan⟩ := scanQuotedValue_asBytes (pre ++ ['"']) rest
    rw [readValue, if_pos hquote, tail_cons]
    refine ⟨'"' :: front, by rw [cons_append, ← hsplit], ?_⟩
    have hone : (asBytes (pre ++ ['"'])).length = (asBytes pre).length + 1 := by
      rw [asBytes_append, length_append]
      rfl
    rw [append_assoc, singleton_append, hone, append_assoc, singleton_append] at hscan
    rw [scanValue, if_pos (hhead.2 hquote), hscan]
  · rw [scanValue, if_neg fun h => hquote (hhead.1 h), scanTokenValue_asBytes, readValue, if_neg hquote]
    exact ⟨cs.takeWhile (· ≠ ','), takeWhile_append_dropWhile.symm, rfl⟩

/-- **The loop never slices within a character**, and reads what the characters say. -/
theorem parseAuthPairs_eq (rounds : Nat) (pre cs : List Char) :
    parseAuthPairs (pre ++ cs) (asBytes (pre ++ cs)) rounds (asBytes pre).length = .ok (readPairs rounds cs) := by
  induction rounds generalizing pre cs with
  | zero => rfl
  | succ rounds ih =>
    rw [parseAuthPairs, readPairs, skipSeparators_asBytes]
    have hinput : pre ++ cs = (pre ++ cs.takeWhile isSeparator) ++ cs.dropWhile isSeparator := by
      rw [append_assoc, takeWhile_append_dropWhile]
    rw [hinput]
    generalize pre ++ cs.takeWhile isSeparator = pre
    generalize cs.dropWhile isSeparator = rest
    dsimp only
    by_cases hend : rest = []
    · rw [hend, append_nil, if_pos (Nat.le_refl _)]
      rfl
    have hmore : ¬ (asBytes (pre ++ rest)).length ≤ (asBytes pre).length := by
      obtain ⟨c, rest, rfl⟩ := exists_cons_of_ne_nil hend
      have hpos := c.utf8Size_pos
      rw [asBytes_append, length_append, length_asBytes_cons]
      omega
    have hkey := scanKey_asBytes pre rest
    have hsplit : rest = rest.takeWhile isKeyChar ++ rest.dropWhile isKeyChar := takeWhile_append_dropWhile.symm
    rw [if_neg hmore, hkey]
    generalize htake : rest.takeWhile isKeyChar = key at hsplit
    generalize hdrop : rest.dropWhile isKeyChar = after at hsplit
    have hafter : pre ++ rest = (pre ++ key) ++ after := by rw [append_assoc, ← hsplit]
    have hhead := getElem?_asBytes (d := '=') (by decide) (pre ++ key) after
    rw [hafter]
    change (if _ ≠ _ then _ else _) = _
    rcases after with _ | ⟨c, after⟩
    · rw [if_pos fun h => absurd (hhead.1 h) (by simp)]
      exact (ih (pre ++ key) []).trans (congrArg Except.ok (by cases rounds <;> rfl))
    by_cases hc : c = '='
    · subst hc
      obtain ⟨front, hfront, hvalue⟩ := scanValue_asBytes (pre ++ key ++ ['=']) after
      have hnext := ih (pre ++ key ++ ['='] ++ front) (readValue after).2
      have hone : (asBytes (pre ++ key ++ ['='])).length = (asBytes (pre ++ key)).length + 1 := by
        rw [asBytes_append, length_append]
        rfl
      rw [append_assoc _ front, ← hfront] at hnext
      rw [append_assoc _ ['='], singleton_append] at hvalue hnext
      rw [hone] at hvalue
      rw [if_neg (not_not.2 (hhead.2 rfl)), hvalue]
      change (parseAuthPairs _ _ _ _).bind _ = _
      rw [hnext]
      change Except.ok (ite _ _ _) = _
      split_ifs <;> rfl
    · rw [if_pos fun h => hc (Option.some.inj (hhead.1 h)), ih (pre ++ key) (c :: after)]
      exact congrArg Except.ok (if_neg hc).symm

theorem parseAuthPairs_start {rounds : Nat} (h : (asBytes cs).length ≤ rounds) :
    parseAuthPairs cs (asBytes cs) rounds 0 = .ok (readPairs cs.length cs) :=
  (parseAuthPairs_eq rounds [] cs).trans (congrArg Except.ok (readPairs_of_le ((length_le_asBytes cs).trans h)))

end Boundaries

/-- The part of a header that answers a `qop`. -/
structure QopPart where
  qop : String
  nc : Nat
  cnonce : String

/-- The value of an `Authorization` header for a challenge. -/
structure DigestHeader where
  username : String
  realm : String
  nonce : String
  uri : String
  algorithm : String
  response : String
  qopPart : Option QopPart
  opaqueText : Option String

/-- `{:08x}`. -/
def hex8 (n : Nat) : String :=
  String.ofList (List.replicate (8 - (Nat.toDigits 16 n).length) '0' ++ Nat.toDigits 16 n)

def DigestHeader.text (h : DigestHeader) : String :=
  "Digest username=\"" ++ h.username ++ "\", realm=\"" ++ h.realm ++ "\", nonce=\"" ++ h.nonce ++ "\", uri=\"" ++ h.uri ++
    "\", algorithm=" ++ h.algorithm ++ ", response=\"" ++ h.response ++ "\"" ++
    h.qopPart.elim "" (fun p => ", qop=" ++ p.qop ++ ", nc=" ++ hex8 p.nc ++ ", cnonce=\"" ++ p.cnonce ++ "\"") ++
    h.opaqueText.elim "" fun o => ", opaque=\"" ++ o ++ "\""

def DigestHeader.count (h : DigestHeader) : Option (String × Nat) := h.qopPart.map fun p => (h.nonce, p.nc)

structure DigestStateInner where
  challenge : DigestChallenge
  nc : Nat

abbrev DigestState := Option DigestStateInner

/-- `to_ascii_uppercase` of the algorithm's name. -/
def DigestChallenge.algorithmName (c : DigestChallenge) : String := String.ofList (c.algorithm.toList.map Char.toUpper)

/-- The protection that a header names: `auth` as the server spelled it. -/
def chosenQop (qop : String) : String :=
  (((qop.toList.splitOn ',').map trim).find? fun s => asciiLower s = "auth".toList).elim "auth" String.ofList

def DigestChallenge.Counts (c : DigestChallenge) : Prop := c.qop.isSome = true ∧ c.algorithmName = "MD5"

instance (c : DigestChallenge) : Decidable c.Counts := inferInstanceAs (Decidable (_ ∧ _))

namespace DigestState

def setChallenge (c : DigestChallenge) : DigestState := some { challenge := c, nc := 0 }

def hasChallenge (s : DigestState) : Bool := s.isSome

variable (md5Hex : String → String) (creds : Credentials) (method requestUri cnonce : String)

def headerFor (inner : DigestStateInner) : DigestHeader :=
  let c := inner.challenge
  let user := creds.username.getD ""
  let ha1 := md5Hex (user ++ ":" ++ c.realm ++ ":" ++ creds.passwordOrToken)
  let ha2 := md5Hex (method ++ ":" ++ requestUri)
  { username := user
    realm := c.realm
    nonce := c.nonce
    uri := requestUri
    algorithm := c.algorithmName
    response := c.qop.elim (md5Hex (ha1 ++ ":" ++ c.nonce ++ ":" ++ ha2)) fun qop =>
      md5Hex (ha1 ++ ":" ++ c.nonce ++ ":" ++ hex8 inner.nc ++ ":" ++ cnonce ++ ":" ++ chosenQop qop ++ ":" ++ ha2)
    qopPart := c.qop.map fun qop => ⟨chosenQop qop, inner.nc, cnonce⟩
    opaqueText := c.opaqueText }

/-- `build_response`. The count is a `u32`; it goes up before the algorithm is looked at. -/
def buildResponse (s : DigestState) : Except String DigestHeader × DigestState :=
  match s with
  | none => (.error "digest challenge not yet received", none)
  | some inner =>
    if inner.nc + 1 < 2 ^ 32 then
      let counted := { inner with nc := inner.nc + 1 }
      if inner.challenge.algorithmName ≠ "MD5" then
        (.error ("unsupported digest algorithm: " ++ inner.challenge.algorithmName), some counted)
      else (.ok (headerFor md5Hex creds method requestUri cnonce counted), some counted)
    else (.error "digest nonce-count overflow — re-auth required", some inner)

variable {md5Hex creds method requestUri cnonce}

theorem buildResponse_state {s : DigestState} {after : DigestStateInner}
    (h : (buildResponse md5Hex creds method requestUri cnonce s).2 = some after) :
    ∃ inner, s = some inner ∧ after.challenge = inner.challenge ∧ inner.nc ≤ after.nc := by
  rcases s with _ | inner
  · cases h
  refine ⟨inner, rfl, ?_⟩
  unfold buildResponse at h
  dsimp only at h
  split_ifs at h <;> cases h
  · exact ⟨rfl, Nat.le_succ _⟩
  · exact ⟨rfl, Nat.le_succ _⟩
  · exact ⟨rfl, Nat.le_refl _⟩

theorem buildResponse_count {s : DigestState} {header : DigestHeader} {count : String × Nat}
    (h : (buildResponse md5Hex creds method requestUri cnonce s).1 = .ok header) (hcount : header.count = some count) :
    ∃ inner, s = some inner ∧ inner.challenge.Counts ∧ count = (inner.challenge.nonce, inner.nc + 1) ∧
      (buildResponse md5Hex creds method requestUri cnonce s).2 = some { inner with nc := inner.nc + 1 } := by
  rcases s with _ | inner
  · cases h
  refine ⟨inner, rfl, ?_⟩
  unfold buildResponse at h ⊢
  dsimp only at h ⊢
  split_ifs at h ⊢ with hlt hmd5
  cases h
  unfold DigestHeader.count headerFor at hcount
  dsimp only at hcount
  rcases hqop : inner.challenge.qop with _ | qop
  · rw [hqop] at hcount
    cases hcount
  · rw [hqop] at hcount
    cases hcount
    exact ⟨⟨by rw [hqop]; rfl, not_not.1 hmd5⟩, rfl, rfl⟩

end DigestState

end LetsFlutSsh.WebDav
