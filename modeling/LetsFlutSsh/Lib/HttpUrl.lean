import LetsFlutSsh.Lib.DotSegments
import LetsFlutSsh.Lib.Fields

/-!
# Addresses of HTTP requests

After the URL standard, for the schemes `http` and `https`:

* `HostParser` : the parsing of hosts, as the standard describes it;
* `HttpUrl`, `HttpUrl.parse` : an address and its parts;
* `HttpUrl.wire` : what a client sends of it;
* `Extends` : an address that is lengthened behind a slash.
-/

namespace Lib
open List Option

/-- What the parser makes of a host; a domain in lower case is left as it is. -/
structure HostParser where
  parse : Bytes → Option Bytes
  /-- A host holds nothing that ends it, and colons only between brackets. -/
  plain : ∀ raw host, parse raw = some host → (∀ b ∈ host, 0x20 < b ∧ b ∉ ([0x2F, 0x5C, 0x3F, 0x23, 0x40] : Bytes)) ∧
    ((∀ b ∈ host, b ∉ ([0x3A, 0x5B, 0x5D] : Bytes)) ∨
      ∃ inner, host = 0x5B :: inner ++ [0x5D] ∧ ∀ b ∈ inner, b ∉ ([0x5B, 0x5D] : Bytes))
  /-- Control characters and spaces are refused. -/
  refuses : ∀ raw, (∃ b ∈ raw, b ≤ 0x20) → parse raw = none
  /-- Further labels in front of a host stay what they are, if they are accepted. -/
  labels : ∀ raw host label host', parse raw = some host →
    (∀ b ∈ label, (0x61 ≤ b ∧ b ≤ 0x7A) ∨ (0x30 ≤ b ∧ b ≤ 0x39) ∨ b = 0x2D ∨ b = 0x2E) →
    parse (label ++ 0x2E :: host) = some host' → host' = label ++ 0x2E :: host

def isLabelByte (b : UInt8) : Bool := (0x61 ≤ b && b ≤ 0x7A) || (0x30 ≤ b && b ≤ 0x39) || b = 0x2D || b = 0x2E

variable {b : UInt8}

theorem labelByte_plain (h : isLabelByte b = true) :
    0x20 < b ∧ b ∉ ([0x2F, 0x5C, 0x3F, 0x23, 0x40] : Bytes) ∧ b ∉ ([0x3A, 0x5B, 0x5D] : Bytes) := by
  have hall := forall_byte (p := fun b => !isLabelByte b || (decide (0x20 < b) &&
    decide (b ∉ ([0x2F, 0x5C, 0x3F, 0x23, 0x40] : Bytes)) && decide (b ∉ ([0x3A, 0x5B, 0x5D] : Bytes)))) (by decide +kernel) b
  rw [h, Bool.not_true, Bool.false_or] at hall
  simpa only [Bool.and_eq_true, decide_eq_true_eq, and_assoc] using hall

/-- The parser of lower-case domains, which it leaves as they are. -/
def HostParser.verbatim : HostParser where
  parse := fun raw => if raw.all isLabelByte then some raw else none
  plain := by
    intro raw host h
    split_ifs at h with hall
    cases h
    have hplain := fun b hb => labelByte_plain (List.all_eq_true.1 hall b hb)
    exact ⟨fun b hb => ⟨(hplain b hb).1, (hplain b hb).2.1⟩, .inl fun b hb => (hplain b hb).2.2⟩
  refuses := by
    rintro raw ⟨b, hb, hlow⟩
    refine if_neg fun hall => ?_
    exact absurd (labelByte_plain (List.all_eq_true.1 hall b hb)).1 (UInt8.not_lt.2 hlow)
  labels := by
    intro raw host label host' _ _ h
    split_ifs at h
    exact (Option.some_inj.1 h).symm

/-- The parts of an address, with the port unless it is the scheme's own. -/
structure HttpUrl where
  scheme : Bytes
  host : Bytes
  port : Option Nat
  path : List Bytes
  query : Option Bytes
  fragment : Option Bytes
  deriving DecidableEq

variable {scheme seg rest a : Bytes} {P : HostParser} {default : Nat}

namespace HttpUrl

/-! ## Cutting -/

def isC0OrSpace (b : UInt8) : Bool := b ≤ 0x20
def isTabOrNewline (b : UInt8) : Bool := b = 0x09 || b = 0x0A || b = 0x0D
def isSlash (b : UInt8) : Bool := b = 0x2F || b = 0x5C

def endsAuthority (b : UInt8) : Bool := isSlash b || b = 0x3F || b = 0x23

def isAlpha (b : UInt8) : Bool := (0x61 ≤ b && b ≤ 0x7A) || (0x41 ≤ b && b ≤ 0x5A)
def isDigit (b : UInt8) : Bool := 0x30 ≤ b && b ≤ 0x39

/-- Letters, digits, `+`, `-` and `.`. -/
def isSchemeByte (b : UInt8) : Bool := isAlpha b || isDigit b || b = 0x2B || b = 0x2D || b = 0x2E

def lower (b : UInt8) : UInt8 := if 0x41 ≤ b && b ≤ 0x5A then b + 0x20 else b

/-- The parser trims control characters and spaces and drops tabs and line ends. -/
def clean (url : Bytes) : Bytes := ((url.dropWhile isC0OrSpace).rdropWhile isC0OrSpace).filter fun b => !isTabOrNewline b

def splitScheme (url : Bytes) : Option (Bytes × Bytes) :=
  match url.dropWhile isSchemeByte with
  | c :: rest =>
    if c = 0x3A ∧ url.head?.any isAlpha = true then some ((url.takeWhile isSchemeByte).map lower, rest) else none
  | [] => none

/-- What stands before the first `sep`, and behind it. -/
def cut (sep : UInt8) (text : Bytes) : Bytes × Option Bytes :=
  (text.takeWhile (· ≠ sep), if sep ∈ text then some (text.dropWhile (· ≠ sep)).tail else none)

/-- The host and the port, apart at the first colon outside of brackets. -/
def splitPort (inBrackets : Bool) : Bytes → Bytes × Option Bytes
  | [] => ([], none)
  | b :: bs =>
    if b = 0x3A ∧ inBrackets = false then ([], some bs)
    else
      let r := splitPort (if b = 0x5B then true else if b = 0x5D then false else inBrackets) bs
      (b :: r.1, r.2)

def decimal (digits : Bytes) : Option Nat := parseDigitChars (digits.map fun b => Char.ofNat b.toNat)

/-- The port, unless it is left out or the scheme's own; nothing when the text is no port. -/
def portOf (default : Nat) : Option Bytes → Option (Option Nat)
  | none => some none
  | some text =>
    if text = [] then some none
    else (decimal text).bind fun n => if n < 65536 then some (if n = default then none else some n) else none

/-! ## Paths and queries -/

def isUp (seg : Bytes) : Bool :=
  seg.map lower ∈ [utf8 "..", utf8 "%2e.", utf8 ".%2e", utf8 "%2e%2e"]

def isHere (seg : Bytes) : Bool := seg.map lower ∈ [utf8 ".", utf8 "%2e"]

def dots : DotRules Bytes := { up := isUp, here := isHere, empty := [] }

/-- Everything but control characters, spaces, what is not ASCII, and the marks that paths escape. -/
def keptInPath (b : UInt8) : Bool :=
  0x21 ≤ b && b ≤ 0x7E && b ∉ ([0x22, 0x23, 0x3C, 0x3E, 0x3F, 0x5E, 0x60, 0x7B, 0x7D] : Bytes)

def keptInQuery (b : UInt8) : Bool := 0x21 ≤ b && b ≤ 0x7E && b ∉ ([0x22, 0x23, 0x27, 0x3C, 0x3E] : Bytes)

/-- The pieces of a path; the slash in front of it does not count. -/
def pieces (path : Bytes) : List Bytes := (if path.head?.any isSlash then path.tail else path).splitOnP isSlash

def segments (path : Bytes) : List Bytes := (dots.removeDots [] (pieces path)).map (percentEncode keptInPath)

/-! ## Parsing -/

def defaultPort (scheme : Bytes) : Option Nat :=
  if scheme = utf8 "http" then some 80 else if scheme = utf8 "https" then some 443 else none

def withoutUserInfo (authority : Bytes) : Bytes := authority.rtakeWhile (· ≠ 0x40)

def parseServer (P : HostParser) (default : Nat) (authority : Bytes) : Option (Bytes × Option Nat) :=
  let server := splitPort false (withoutUserInfo authority)
  if server.1 = [] then none
  else (P.parse server.1).bind fun host => (portOf default server.2).map fun port => (host, port)

def withTail (scheme : Bytes) (server : Bytes × Option Nat) (tail : Bytes) : HttpUrl where
  scheme := scheme
  host := server.1
  port := server.2
  path := segments (cut 0x3F (cut 0x23 tail).1).1
  query := (cut 0x3F (cut 0x23 tail).1).2.map (percentEncode keptInQuery)
  fragment := (cut 0x23 tail).2

def parseRest (P : HostParser) (scheme rest : Bytes) (default : Nat) : Option HttpUrl :=
  let body := rest.dropWhile isSlash
  (parseServer P default (body.takeWhile fun b => !endsAuthority b)).map fun server =>
    withTail scheme server (body.dropWhile fun b => !endsAuthority b)

def parse (P : HostParser) (url : Bytes) : Option HttpUrl :=
  (splitScheme (clean url)).bind fun sr => (defaultPort sr.1).bind fun default => parseRest P sr.1 sr.2 default

/-! ## What a client sends -/

def portText (port : Option Nat) : Bytes := port.elim [] fun p => utf8 (":" ++ toString p)

/-- The `Host` header and the two parts of the target. -/
structure Wire where
  host : Bytes
  path : Bytes
  query : Option Bytes
  deriving DecidableEq

def wire (u : HttpUrl) : Wire := { host := u.host ++ portText u.port, path := pathText u.path, query := u.query }

/-! ## Cutting what was put together -/

section
variable {p : UInt8 → Bool} {sep c : UInt8} {b x : Bytes}

theorem takeWhile_append_stop (hc : p c = false) (a b : Bytes) : (a ++ c :: b).takeWhile p = a.takeWhile p := by
  rw [takeWhile_append]
  split_ifs with hall
  · rw [takeWhile_cons_of_neg (by simp [hc]), append_nil]
    exact (( takeWhile_prefix p).eq_of_length hall).symm
  · rfl

theorem dropWhile_append_stop (hc : p c = false) (a b : Bytes) : (a ++ c :: b).dropWhile p = a.dropWhile p ++ c :: b := by
  rw [dropWhile_append]
  split_ifs with hempty
  · rw [dropWhile_cons_of_neg (by simp [hc]), isEmpty_iff.1 hempty]
    rfl
  · rfl

theorem cut_of_not_mem (h : sep ∉ a) : cut sep a = (a, none) := by
  rw [cut, if_neg h, takeWhile_eq_self_iff.2 fun x hx => decide_eq_true (by rintro rfl; exact h hx)]

theorem cut_append (h : sep ∉ a) (b : Bytes) : cut sep (a ++ sep :: b) = (a, some b) := by
  have hall : ∀ x ∈ a, decide (x ≠ sep) = true := fun x hx => decide_eq_true (by rintro rfl; exact h hx)
  rw [cut, if_pos (by simp), takeWhile_append_of_pos hall, dropWhile_append_of_pos hall,
    takeWhile_cons_of_neg (by simp), dropWhile_cons_of_neg (by simp), append_nil, tail_cons]

theorem cut_append_of_mem (h : sep ∈ a) (b : Bytes) : cut sep (a ++ b) = ((cut sep a).1, (cut sep a).2.map (· ++ b)) := by
  obtain ⟨a₁, a₂, rfl, ha⟩ := eq_append_cons_of_mem h
  rw [append_assoc, cons_append, cut_append ha, cut_append ha]
  rfl

theorem cut_append_of_not_mem (h : sep ∉ a) (b : Bytes) : cut sep (a ++ b) = (a ++ (cut sep b).1, (cut sep b).2) := by
  by_cases hb : sep ∈ b
  · obtain ⟨b₁, b₂, rfl, hb₁⟩ := eq_append_cons_of_mem hb
    rw [← append_assoc, cut_append (by simp [h, hb₁]), cut_append hb₁]
  · rw [cut_of_not_mem (by simp [h, hb]), cut_of_not_mem hb]

theorem pieces_append (t : Bytes) : ∃ front, ∀ x, pieces (t ++ 0x2F :: x) = front ++ x.splitOnP isSlash := by
  rcases t with _ | ⟨d, t⟩
  · exact ⟨[], fun x => rfl⟩
  rcases hd : isSlash d with _ | _
  · refine ⟨(d :: t).splitOnP isSlash, fun x => ?_⟩
    rw [pieces, cons_append, head?_cons, any_some, hd, if_neg Bool.false_ne_true, ← cons_append]
    exact splitOnP_append_cons (d :: t) x (by decide)
  · refine ⟨t.splitOnP isSlash, fun x => ?_⟩
    rw [pieces, cons_append, head?_cons, any_some, hd, if_pos rfl, tail_cons]
    exact splitOnP_append_cons t x (by decide)

end

/-- The segments that are left of a path behind those of `front`. -/
def below (front : List Bytes) (path : Bytes) : List Bytes :=
  front.take (front.length - (dots.climb (path.splitOnP isSlash)).1) ++
    (dots.climb (path.splitOnP isSlash)).2.map (percentEncode keptInPath)

theorem segments_append (t x : Bytes) : segments (t ++ 0x2F :: x) = below (segments (t ++ [0x2F])).dropLast x := by
  obtain ⟨front, hfront⟩ := pieces_append t
  have hnil : segments (t ++ [0x2F]) = (front.foldl dots.enter []).map (percentEncode keptInPath) ++ [[]] := by
    rw [segments, hfront]
    change ((dots.removeDots [] (front ++ [[]])).map _) = _
    rw [DotRules.removeDots_append _ _ (cons_ne_nil _ _), DotRules.removeDots_eq, DotRules.climb_of_plain (by decide)]
    simp
  rw [hnil, dropLast_concat, segments, hfront, DotRules.removeDots_append _ _ (splitOnP_ne_nil _ _),
    DotRules.removeDots_eq, map_append, map_take, below, length_map]

theorem segments_cons (x : Bytes) : segments (0x2F :: x) = below [] x := by
  have h := segments_append [] x
  rw [nil_append, nil_append] at h
  rw [h]
  rfl

theorem below_eq {front : List Bytes} {path : Bytes}
    (h : ∀ piece ∈ path.splitOnP isSlash, ∀ b ∈ piece, keptInPath b = true) :
    below front path = dots.removeDots front (path.splitOnP isSlash) := by
  rw [DotRules.removeDots_eq, below]
  congr 1
  conv_rhs => rw [← map_id (dots.climb (path.splitOnP isSlash)).2]
  refine map_congr_left fun seg hseg => ?_
  rcases DotRules.mem_climb seg hseg with ⟨hmem, -⟩ | rfl
  · exact percentEncode_of_keep (h seg hmem)
  · rfl

/-! ## Escaped dots -/

theorem lower_eq : (lower b = 0x2E → b = 0x2E) ∧ (lower b = percent → b = percent) ∧
    (lower b = 0x32 → b = 0x32) ∧ (lower b = 0x65 → b = 0x65 ∨ b = 0x45) := by
  have hall := forall_byte (p := fun b => (decide (lower b = 0x2E → b = 0x2E)) && (decide (lower b = percent → b = percent)) &&
    (decide (lower b = 0x32 → b = 0x32)) && (decide (lower b = 0x65 → b = 0x65 ∨ b = 0x45))) (by decide +kernel) b
  simpa only [Bool.and_eq_true, decide_eq_true_eq, and_assoc] using hall

theorem percentDecode_of_dot (h : seg.map lower = 0x2E :: rest ∨ seg.map lower = percent :: 0x32 :: 0x65 :: rest) :
    ∃ tail, percentDecode seg = 0x2E :: percentDecode tail ∧ tail.map lower = rest := by
  rcases h with h | h
  · obtain ⟨b, tail, rfl, hb, htail⟩ := map_eq_cons_iff.1 h
    obtain rfl := lower_eq.1 hb
    exact ⟨tail, percentDecode_cons (by decide) tail, htail⟩
  obtain ⟨a, tail, rfl, ha, h⟩ := map_eq_cons_iff.1 h
  obtain ⟨b, tail, rfl, hb, h⟩ := map_eq_cons_iff.1 h
  obtain ⟨c, tail, rfl, hc, htail⟩ := map_eq_cons_iff.1 h
  obtain rfl := lower_eq.2.1 ha
  obtain rfl := lower_eq.2.2.1 hb
  refine ⟨tail, ?_, htail⟩
  rcases lower_eq.2.2.2 hc with rfl | rfl
  · rfl
  · rfl

theorem percentDecode_of_isHere (h : isHere seg = true) : percentDecode seg = [0x2E] := by
  have hdot : utf8 "." = [0x2E] := by decide
  have hescaped : utf8 "%2e" = [percent, 0x32, 0x65] := by decide
  rw [isHere, decide_eq_true_eq, mem_cons, mem_singleton, hdot, hescaped] at h
  obtain ⟨tail, hdecode, htail⟩ := percentDecode_of_dot h
  rw [hdecode, map_eq_nil_iff.1 htail]
  rfl

theorem percentDecode_of_isUp (h : isUp seg = true) : percentDecode seg = [0x2E, 0x2E] := by
  have hplain : utf8 ".." = [0x2E, 0x2E] := by decide
  have hfirst : utf8 "%2e." = [percent, 0x32, 0x65, 0x2E] := by decide
  have hsecond : utf8 ".%2e" = [0x2E, percent, 0x32, 0x65] := by decide
  have hboth : utf8 "%2e%2e" = [percent, 0x32, 0x65, percent, 0x32, 0x65] := by decide
  rw [isUp, decide_eq_true_eq, mem_cons, mem_cons, mem_cons, mem_singleton, hplain, hfirst, hsecond, hboth] at h
  obtain ⟨rest, hseg, hrest⟩ : ∃ rest, (seg.map lower = 0x2E :: rest ∨ seg.map lower = percent :: 0x32 :: 0x65 :: rest) ∧
      (rest = [0x2E] ∨ rest = [percent, 0x32, 0x65]) := by
    rcases h with h | h | h | h
    · exact ⟨_, .inl h, .inl rfl⟩
    · exact ⟨_, .inr h, .inl rfl⟩
    · exact ⟨_, .inl h, .inr rfl⟩
    · exact ⟨_, .inr h, .inr rfl⟩
  obtain ⟨tail, hdecode, rfl⟩ := percentDecode_of_dot hseg
  obtain ⟨tail', hdecode', htail'⟩ := percentDecode_of_dot hrest
  rw [hdecode, hdecode', map_eq_nil_iff.1 htail']
  rfl

/-! ## Addresses that are lengthened -/

section
variable {scheme j rest url x sl : Bytes}

theorem splitScheme_append (h : splitScheme a = some (scheme, rest)) (b : Bytes) :
    splitScheme (a ++ b) = some (scheme, rest ++ b) := by
  unfold splitScheme at h
  rcases hdrop : a.dropWhile isSchemeByte with _ | ⟨c, tail⟩
  · rw [hdrop] at h
    cases h
  rw [hdrop] at h
  dsimp only at h
  split_ifs at h with hc
  cases h
  have hne : (a.dropWhile isSchemeByte).isEmpty = false := by rw [hdrop]; rfl
  have htake : (a ++ b).takeWhile isSchemeByte = a.takeWhile isSchemeByte := by
    have hsplit : a = a.takeWhile isSchemeByte ++ c :: rest := by rw [← hdrop, takeWhile_append_dropWhile]
    have hcstop : isSchemeByte c = false := by rw [hc.1]; decide
    rw [hsplit, append_assoc, cons_append, takeWhile_append_stop hcstop, takeWhile_append_stop hcstop]
  have hhead : (a ++ b).head?.any isAlpha = true := by
    rcases a with _ | ⟨d, a⟩
    · cases hdrop
    · exact hc.2
  rw [splitScheme, dropWhile_append, hne, if_neg Bool.false_ne_true, hdrop, htake]
  exact if_pos ⟨hc.1, hhead⟩

theorem splitScheme_slash (h : splitScheme (a ++ 0x2F :: x) = some (scheme, rest)) :
    ∃ front, splitScheme a = some (scheme, front) ∧ rest = front ++ 0x2F :: x := by
  have hstop : isSchemeByte 0x2F = false := by decide
  unfold splitScheme at h
  rw [dropWhile_append_stop hstop, takeWhile_append_stop hstop] at h
  unfold splitScheme
  rcases hdrop : a.dropWhile isSchemeByte with _ | ⟨c, tail⟩
  · rw [hdrop] at h
    simp at h
  rw [hdrop, cons_append] at h
  dsimp only at h ⊢
  split_ifs at h with hc
  cases h
  have hhead : a.head?.any isAlpha = true := by
    rcases a with _ | ⟨d, a⟩
    · cases hdrop
    · exact hc.2
  exact ⟨tail, if_pos ⟨hc.1, hhead⟩, rfl⟩

theorem splitPort_junk (hj : ∀ b ∈ j, b ≤ 0x20) (a : Bytes) (inBrackets : Bool) :
    splitPort inBrackets (a ++ j) = ((splitPort inBrackets a).1 ++ (if (splitPort inBrackets a).2.isNone then j else []),
        (splitPort inBrackets a).2.map (· ++ j)) := by
  induction a generalizing inBrackets with
  | nil =>
    change splitPort inBrackets j = (j, none)
    induction j generalizing inBrackets with
    | nil => rfl
    | cons b j ih =>
      obtain ⟨hb, hj⟩ := forall_mem_cons.1 hj
      have hne : b ≠ 0x3A := by
        rintro rfl
        revert hb
        decide
      rw [splitPort, if_neg fun h => hne h.1]
      rw [ih hj]
  | cons b a ih =>
    rw [cons_append, splitPort, splitPort]
    by_cases hb : b = 0x3A ∧ inBrackets = false
    · rw [if_pos hb, if_pos hb]
      rfl
    · rw [if_neg hb, if_neg hb]
      rw [ih, cons_append]

theorem portOf_junk (hj : ∃ b ∈ j, b ≤ 0x20) (port : Bytes) : portOf default (some (port ++ j)) = none := by
  obtain ⟨b, hb, hlow⟩ := hj
  have hne : port ++ j ≠ [] := ne_nil_of_mem (mem_append_right port hb)
  have hdecimal : decimal (port ++ j) = none := by
    refine if_neg ?_
    rintro ⟨-, hall⟩
    have hdigit := all_eq_true.1 hall _ (mem_map_of_mem (mem_append_right port hb))
    have hsmall : ∀ n < 33, (Char.ofNat n).isDigit = false := by decide
    rw [hsmall b.toNat (Nat.lt_succ_of_le (UInt8.le_iff_toNat_le.1 hlow))] at hdigit
    cases hdigit
  rw [portOf, if_neg hne, hdecimal, bind_none]

theorem parseServer_junk (hj : ∀ b ∈ j, b ≤ 0x20) (hne : j ≠ []) (a : Bytes) : parseServer P default (a ++ j) = none := by
  obtain ⟨v, hv⟩ : ∃ v, withoutUserInfo (a ++ j) = v ++ j := by
    have hat : ∀ b ∈ j.reverse, decide (b ≠ 0x40) = true := by
      intro b hb
      refine decide_eq_true ?_
      rintro rfl
      exact absurd (hj _ (mem_reverse.1 hb)) (by decide)
    refine ⟨(a.reverse.takeWhile fun b => b ≠ 0x40).reverse, ?_⟩
    rw [withoutUserInfo, List.rtakeWhile, reverse_append, takeWhile_append_of_pos hat, reverse_append, reverse_reverse]
  obtain ⟨b, hb⟩ := exists_mem_of_ne_nil j hne
  rw [parseServer, hv, splitPort_junk hj]
  rcases hport : (splitPort false v).2 with _ | port
  · rw [isNone_none, if_pos rfl, P.refuses _ ⟨b, mem_append_right _ hb, hj b hb⟩]
    exact ite_self _
  · rw [map_some, portOf_junk ⟨b, hb, hj b hb⟩]
    rcases P.parse _ with _ | host
    · exact ite_self _
    · exact ite_self _

def trimSlashes (url : Bytes) : Bytes := url.rdropWhile (· = 0x2F)

def cleanStart (url : Bytes) : Bytes := (url.dropWhile isC0OrSpace).filter fun b => !isTabOrNewline b

theorem filter_visible (hx : ∀ b ∈ x, 0x20 < b) : x.filter (fun b => !isTabOrNewline b) = x := by
  refine filter_eq_self.2 fun b hb => ?_
  have hlow := hx b hb
  rw [Bool.not_eq_true', isTabOrNewline, Bool.or_eq_false_iff, Bool.or_eq_false_iff]
  refine ⟨⟨?_, ?_⟩, ?_⟩ <;> exact decide_eq_false (by rintro rfl; revert hlow; decide)

theorem cleanStart_visible (hx : ∀ b ∈ x, 0x20 < b) : cleanStart x = x := by
  have hdrop : x.dropWhile isC0OrSpace = x := by
    refine dropWhile_eq_self_iff.2 fun hpos hlow => ?_
    exact absurd (hx _ (getElem_mem hpos)) (UInt8.not_lt.2 (of_decide_eq_true hlow))
  rw [cleanStart, hdrop, filter_visible hx]

theorem clean_append (hx : ∀ b ∈ x, 0x20 < b) (url : Bytes) : clean (url ++ 0x2F :: x) = cleanStart url ++ 0x2F :: x := by
  have hend : (url.dropWhile isC0OrSpace ++ 0x2F :: x).rdropWhile isC0OrSpace = url.dropWhile isC0OrSpace ++ 0x2F :: x := by
    rw [rdropWhile_eq_self_iff]
    intro hne
    rw [getLast_append_of_ne_nil _ (cons_ne_nil _ _)]
    have hlast : ∀ b ∈ 0x2F :: x, ¬isC0OrSpace b = true := by
      refine forall_mem_cons.2 ⟨by decide, fun b hb hlow => ?_⟩
      exact absurd (hx b hb) (UInt8.not_lt.2 (of_decide_eq_true hlow))
    exact hlast _ (getLast_mem _)
  rw [clean, dropWhile_append_stop (by decide), hend, filter_append, filter_cons_of_pos (by decide),
    filter_visible hx, cleanStart]

theorem clean_trim (url : Bytes) : ∃ j sl, (∀ b ∈ j, b ≤ 0x20) ∧ (∀ b ∈ sl, b = 0x2F) ∧ (j = [] ∨ sl = []) ∧
    cleanStart (trimSlashes url) ++ sl = clean url ++ j := by
  have hsplit : trimSlashes url ++ url.rtakeWhile (· = 0x2F) = url := rdropWhile_append_rtakeWhile ..
  have hslashes : ∀ b ∈ url.rtakeWhile (· = 0x2F), b = 0x2F := by
    intro b hb
    simpa using mem_rtakeWhile_imp hb
  rcases hsl : url.rtakeWhile (· = 0x2F) with _ | ⟨c, sl⟩
  · rw [hsl, append_nil] at hsplit
    refine ⟨((url.dropWhile isC0OrSpace).rtakeWhile isC0OrSpace).filter fun b => !isTabOrNewline b, [], fun b hb => ?_, nofun,
      .inr rfl, ?_⟩
    · have hlow := mem_rtakeWhile_imp (mem_of_mem_filter hb)
      simpa [isC0OrSpace] using hlow
    · rw [hsplit, append_nil, clean, ← filter_append, rdropWhile_append_rtakeWhile, cleanStart]
  · rw [hsl] at hslashes hsplit
    obtain ⟨rfl, hrest⟩ := forall_mem_cons.1 hslashes
    refine ⟨[], 0x2F :: sl, nofun, hslashes, .inl rfl, ?_⟩
    rw [append_nil, ← clean_append fun b hb => by rw [hrest b hb]; decide, hsplit]

theorem splitScheme_trim (h : splitScheme (clean url) = some (scheme, rest)) :
    ∃ front j sl, (∀ b ∈ j, b ≤ 0x20) ∧ (∀ b ∈ sl, b = 0x2F) ∧ (j = [] ∨ sl = []) ∧
      splitScheme (cleanStart (trimSlashes url)) = some (scheme, front) ∧ front ++ sl = rest ++ j := by
  obtain ⟨j, sl, hj, hsl, hor, hclean⟩ := clean_trim url
  rcases sl with _ | ⟨c, sl⟩
  · rw [append_nil] at hclean
    refine ⟨rest ++ j, j, [], hj, hsl, .inr rfl, ?_, append_nil _⟩
    rw [hclean]
    exact splitScheme_append h j
  · obtain rfl : j = [] := hor.resolve_right (cons_ne_nil c sl)
    obtain rfl := hsl c mem_cons_self
    rw [append_nil] at hclean
    rw [← hclean] at h
    obtain ⟨front, hfront, rfl⟩ := splitScheme_slash h
    exact ⟨front, [], 0x2F :: sl, nofun, hsl, .inl rfl, hfront, (append_nil _).symm⟩

theorem parse_start (hx : ∀ b ∈ x, 0x20 < b) (hsplit : splitScheme (cleanStart url) = some (scheme, rest))
    (hdefault : defaultPort scheme = some default) (hbody : rest.dropWhile isSlash ≠ []) :
    parse P (url ++ 0x2F :: x) =
      (parseServer P default ((rest.dropWhile isSlash).takeWhile fun b => !endsAuthority b)).map fun server =>
        withTail scheme server (((rest.dropWhile isSlash).dropWhile fun b => !endsAuthority b) ++ 0x2F :: x) := by
  have hdrop : (rest ++ 0x2F :: x).dropWhile isSlash = rest.dropWhile isSlash ++ 0x2F :: x := by
    rw [List.dropWhile_append, if_neg (by rwa [List.isEmpty_iff])]
  rw [parse, clean_append hx, splitScheme_append hsplit, bind_some, hdefault, bind_some, parseRest, hdrop,
    takeWhile_append_stop (by decide), dropWhile_append_stop (by decide)]

end

/-- What becomes of an address that is lengthened: nothing behind a fragment; behind a query it is lengthened; else the path
goes on, up to a question mark. -/
def Extends (e : HttpUrl) (x : Bytes) (w : HttpUrl) : Prop :=
  match e.fragment, e.query with
  | some _, _ => w.path = e.path ∧ w.query = e.query
  | none, some q => w.query = some (q ++ percentEncode keptInQuery x)
  | none, none => w.path = below e.path.dropLast (cut 0x3F x).1 ∧ w.query = (cut 0x3F x).2.map (percentEncode keptInQuery)

section
variable {url x : Bytes} {u w : HttpUrl}

theorem defaultPort_of_extend (hx : ∀ b ∈ x, 0x20 < b)
    (hsplit : splitScheme (clean url) = some (scheme, rest)) (hw : parse P (trimSlashes url ++ 0x2F :: x) = some w) :
    defaultPort scheme ≠ none := by
  obtain ⟨front, j, sl, -, -, -, hstart, -⟩ := splitScheme_trim hsplit
  intro hnone
  rw [parse, clean_append hx, splitScheme_append hstart, bind_some, hnone] at hw
  cases hw

theorem withTail_extends (hx : (0x23 : UInt8) ∉ x) (scheme : Bytes) (server : Bytes × Option Nat) (t : Bytes) :
    Extends (withTail scheme server (t ++ [0x2F])) x (withTail scheme server (t ++ 0x2F :: x)) := by
  have hassoc : t ++ 0x2F :: x = t ++ [0x2F] ++ x := by simp
  unfold Extends withTail
  by_cases hsharp : (0x23 : UInt8) ∈ t
  · rw [cut_append_of_mem hsharp, cut_append_of_mem hsharp]
    obtain ⟨t₁, t₂, rfl, ht⟩ := eq_append_cons_of_mem hsharp
    rw [cut_append ht]
    exact ⟨rfl, rfl⟩
  have hsharp₁ : (0x23 : UInt8) ∉ t ++ [0x2F] := by simp [hsharp]
  have hsharp₂ : (0x23 : UInt8) ∉ t ++ 0x2F :: x := by simp [hsharp, hx]
  rw [cut_of_not_mem hsharp₁, cut_of_not_mem hsharp₂]
  by_cases hmark : (0x3F : UInt8) ∈ t
  · rw [hassoc, cut_append_of_mem (mem_append_left [0x2F] hmark)]
    obtain ⟨t₁, t₂, rfl, ht⟩ := eq_append_cons_of_mem hmark
    rw [append_assoc, cons_append, cut_append ht]
    exact congrArg some (percentEncode_append _ _)
  · have hmark₁ : (0x3F : UInt8) ∉ t ++ [0x2F] := by simp [hmark]
    rw [cut_of_not_mem hmark₁, hassoc, cut_append_of_not_mem hmark₁]
    refine ⟨?_, rfl⟩
    rw [append_assoc]
    exact segments_append t _

theorem parse_extend (hx : ∀ b ∈ x, 0x20 < b) (hsharp : (0x23 : UInt8) ∉ x) (hu : parse P url = some u)
    (hw : parse P (trimSlashes url ++ 0x2F :: x) = some w) :
    ∃ e, parse P (trimSlashes url ++ [0x2F]) = some e ∧ w.scheme = u.scheme ∧ w.host = u.host ∧ w.port = u.port ∧
      Extends e x w := by
  obtain ⟨⟨scheme, rest'⟩, hsplit, hu⟩ := bind_eq_some_iff.1 hu
  obtain ⟨default, hdefault, hu⟩ := bind_eq_some_iff.1 hu
  obtain ⟨server, hserver, rfl⟩ := map_eq_some_iff.1 hu
  have hempty : rest'.dropWhile isSlash ≠ [] := by
    intro hnil
    rw [hnil] at hserver
    cases hserver
  obtain ⟨rest, j, sl, hj, hsl, hor, hstart, hrest⟩ := splitScheme_trim hsplit
  obtain ⟨hbody, hsame⟩ : rest.dropWhile isSlash ≠ [] ∧
      (parseServer P default ((rest.dropWhile isSlash).takeWhile fun b => !endsAuthority b) = none ∨
        (rest.dropWhile isSlash).takeWhile (fun b => !endsAuthority b) =
          (rest'.dropWhile isSlash).takeWhile fun b => !endsAuthority b) := by
    rcases hor with rfl | rfl
    · rw [append_nil] at hrest
      subst hrest
      have hbody : rest.dropWhile isSlash ≠ [] := by
        intro hnil
        refine hempty (dropWhile_eq_nil_iff.2 fun b hb => ?_)
        rcases mem_append.1 hb with hb | hb
        · exact dropWhile_eq_nil_iff.1 hnil b hb
        · rw [hsl b hb]
          decide
      refine ⟨hbody, .inr ?_⟩
      rw [List.dropWhile_append, if_neg (by rwa [List.isEmpty_iff])]
      rcases sl with _ | ⟨c, sl⟩
      · rw [List.append_nil]
      · obtain rfl := hsl c List.mem_cons_self
        rw [takeWhile_append_stop (by decide)]
    · rw [List.append_nil] at hrest
      subst hrest
      have hdrop : (rest' ++ j).dropWhile isSlash = rest'.dropWhile isSlash ++ j := by
        rw [List.dropWhile_append, if_neg (by rwa [List.isEmpty_iff])]
      rw [hdrop]
      refine ⟨List.append_ne_nil_of_left_ne_nil hempty j, ?_⟩
      rw [List.takeWhile_append]
      split_ifs with hall
      · rcases eq_or_ne j [] with rfl | hne
        · rw [takeWhile_nil, append_nil]
          exact .inr (( takeWhile_prefix _).eq_of_length hall).symm
        have hkeep : j.takeWhile (fun b => !endsAuthority b) = j := by
          refine takeWhile_eq_self_iff.2 fun b hb => ?_
          have hlow := hj b hb
          rw [Bool.not_eq_true', endsAuthority, isSlash]
          simp only [Bool.or_eq_false_iff, decide_eq_false_iff_not]
          refine ⟨⟨⟨?_, ?_⟩, ?_⟩, ?_⟩ <;> (rintro rfl; revert hlow; decide)
        rw [hkeep]
        exact .inl (parseServer_junk hj hne _)
      · exact .inr rfl
  rw [parse_start hx hstart hdefault hbody] at hw
  obtain ⟨server', hserver', rfl⟩ := map_eq_some_iff.1 hw
  have heq : server' = server := by
    rcases hsame with hnone | hsame
    · rw [hnone] at hserver'
      cases hserver'
    · rw [hsame, hserver] at hserver'
      exact (some_inj.1 hserver').symm
  subst heq
  refine ⟨_, ?_, rfl, rfl, rfl, withTail_extends hsharp scheme server' _⟩
  rw [parse_start (fun _ hb => absurd hb not_mem_nil) hstart hdefault hbody, hserver', map_some]

end

/-! ## Addresses that are put together -/

theorem utf8_toString (n : Nat) : utf8 (toString n) ≠ [] ∧ decimal (utf8 (toString n)) = some n ∧
    ∀ b ∈ utf8 (toString n), 0x30 ≤ b ∧ b ≤ 0x39 := by
  have hdigit : ∀ c ∈ Nat.toDigits 10 n, 48 ≤ c.toNat ∧ c.toNat ≤ 57 := by
    intro c hc
    have h := Nat.isDigit_of_mem_toDigits (by decide) (by decide) hc
    rw [Char.isDigit, Bool.and_eq_true, decide_eq_true_eq, decide_eq_true_eq] at h
    exact ⟨UInt32.le_iff_toNat_le.1 h.1, UInt32.le_iff_toNat_le.1 h.2⟩
  have hrepr : (toString n).toList = Nat.toDigits 10 n := Nat.toList_repr
  have htext : utf8 (toString n) = (Nat.toDigits 10 n).map fun c => UInt8.ofNat c.toNat := by
    rw [utf8_of_ascii, hrepr]
    rw [hrepr]
    exact fun c hc => by have h := hdigit c hc; omega
  rw [htext]
  refine ⟨fun h => Nat.toDigits_ne_nil (map_eq_nil_iff.1 h), ?_, ?_⟩
  · have hid : (Nat.toDigits 10 n).map ((fun b : UInt8 => Char.ofNat b.toNat) ∘ fun c => UInt8.ofNat c.toNat) =
        (Nat.toDigits 10 n).map id := by
      refine map_congr_left fun c hc => ?_
      have h := hdigit c hc
      rw [Function.comp_apply, UInt8.toNat_ofNat', Nat.mod_eq_of_lt (by omega), Char.ofNat_toNat]
      rfl
    rw [decimal, List.map_map, hid, List.map_id, parseDigitChars_toDigits]
  · intro b hb
    obtain ⟨c, hc, rfl⟩ := mem_map.1 hb
    have h := hdigit c hc
    rw [UInt8.le_iff_toNat_le, UInt8.le_iff_toNat_le, UInt8.toNat_ofNat']
    change 48 ≤ _ ∧ _ ≤ 57
    omega

theorem portText_some (n : Nat) : portText (some n) = 0x3A :: utf8 (toString n) := by
  rw [portText, elim_some, utf8_append]
  rfl

section
variable {url label x s raw host : Bytes} {u w : HttpUrl}

theorem splitPort_open (ha : ∀ b ∈ a, b ∉ ([0x3A, 0x5B, 0x5D] : Bytes)) (inBrackets : Bool) (s : Bytes) :
    splitPort inBrackets (a ++ s) = (a ++ (splitPort inBrackets s).1, (splitPort inBrackets s).2) := by
  induction a with
  | nil => rfl
  | cons b a ih =>
    obtain ⟨hb, ha⟩ := forall_mem_cons.1 ha
    simp only [mem_cons, not_mem_nil, or_false, not_or] at hb
    rw [cons_append, splitPort, if_neg fun h => hb.1 h.1, if_neg hb.2.1, if_neg hb.2.2, ih ha]
    rfl

theorem splitPort_inside (ha : ∀ b ∈ a, b ∉ ([0x5B, 0x5D] : Bytes)) (s : Bytes) :
    splitPort true (a ++ s) = (a ++ (splitPort true s).1, (splitPort true s).2) := by
  induction a with
  | nil => rfl
  | cons b a ih =>
    obtain ⟨hb, ha⟩ := forall_mem_cons.1 ha
    simp only [mem_cons, not_mem_nil, or_false, not_or] at hb
    rw [cons_append, splitPort, if_neg (by simp), if_neg hb.1, if_neg hb.2, ih ha]
    rfl

theorem splitPort_host (h : P.parse raw = some host) (s : Bytes) :
    splitPort false (host ++ s) = (host ++ (splitPort false s).1, (splitPort false s).2) := by
  rcases (P.plain raw host h).2 with hopen | ⟨inner, rfl, hinner⟩
  · exact splitPort_open hopen false s
  · have hassoc : 0x5B :: inner ++ [0x5D] ++ s = 0x5B :: (inner ++ 0x5D :: s) := by simp
    rw [hassoc, splitPort, if_neg (by decide), if_pos rfl, splitPort_inside hinner, splitPort, if_neg (by decide),
      if_neg (by decide), if_pos rfl]
    simp

theorem splitPort_portText (port : Option Nat) : ∃ text, splitPort false (portText port) = ([], text) ∧
    ∀ default, (∀ p, port = some p → p ≠ default ∧ p < 65536) → portOf default text = some port := by
  rcases port with _ | n
  · exact ⟨none, rfl, fun _ _ => rfl⟩
  · obtain ⟨hne, hdecimal, -⟩ := utf8_toString n
    refine ⟨some (utf8 (toString n)), ?_, fun default hport => ?_⟩
    · rw [portText_some, splitPort, if_pos ⟨rfl, rfl⟩]
    · obtain ⟨hdefault, hlt⟩ := hport n rfl
      rw [portOf, if_neg hne, hdecimal, bind_some, if_pos hlt, if_neg hdefault]

theorem parse_parts (hu : parse P url = some u) : ∃ default raw, defaultPort u.scheme = some default ∧
    P.parse raw = some u.host ∧ ∀ p, u.port = some p → p ≠ default ∧ p < 65536 := by
  obtain ⟨⟨scheme, rest⟩, -, hu⟩ := bind_eq_some_iff.1 hu
  obtain ⟨default, hdefault, hu⟩ := bind_eq_some_iff.1 hu
  obtain ⟨server, hserver, rfl⟩ := map_eq_some_iff.1 hu
  unfold parseServer at hserver
  dsimp only at hserver
  split_ifs at hserver
  obtain ⟨host, hhost, hserver⟩ := bind_eq_some_iff.1 hserver
  obtain ⟨port, hport, rfl⟩ := map_eq_some_iff.1 hserver
  refine ⟨default, _, hdefault, hhost, ?_⟩
  rintro p hp
  obtain rfl : port = some p := hp
  unfold portOf at hport
  split at hport
  · cases hport
  split_ifs at hport
  · cases hport
  · obtain ⟨n, -, hport⟩ := bind_eq_some_iff.1 hport
    split_ifs at hport with hlt hne
    · cases hport
    · cases hport
      exact ⟨hne, hlt⟩

theorem defaultPort_cases (h : defaultPort scheme = some default) :
    scheme = utf8 "http" ∨ scheme = utf8 "https" := by
  unfold defaultPort at h
  split_ifs at h with h₁ h₂
  · exact .inl h₁
  · exact .inr h₂

theorem label_byte (h : (0x61 ≤ b ∧ b ≤ 0x7A) ∨ (0x30 ≤ b ∧ b ≤ 0x39) ∨ b = 0x2D ∨ b = 0x2E) :
    0x20 < b ∧ b ∉ ([0x2F, 0x5C, 0x3F, 0x23, 0x40] : Bytes) ∧ b ∉ ([0x3A, 0x5B, 0x5D] : Bytes) := by
  simp only [mem_cons, not_mem_nil, or_false, not_or]
  rcases h with ⟨hlo, hhi⟩ | ⟨hlo, hhi⟩ | rfl | rfl
  · refine ⟨UInt8.lt_of_lt_of_le (by decide) hlo, ⟨?_, ?_, ?_, ?_, ?_⟩, ?_, ?_, ?_⟩ <;> (rintro rfl; revert hlo hhi; decide)
  · refine ⟨UInt8.lt_of_lt_of_le (by decide) hlo, ⟨?_, ?_, ?_, ?_, ?_⟩, ?_, ?_, ?_⟩ <;> (rintro rfl; revert hlo hhi; decide)
  · decide
  · decide

theorem server_bytes (hhost : P.parse raw = some host) (port : Option Nat)
    (hlabel : ∀ b ∈ label, (0x61 ≤ b ∧ b ≤ 0x7A) ∨ (0x30 ≤ b ∧ b ≤ 0x39) ∨ b = 0x2D ∨ b = 0x2E) :
    ∀ b ∈ label ++ 0x2E :: host ++ portText port, 0x20 < b ∧ b ∉ ([0x2F, 0x5C, 0x3F, 0x23, 0x40] : Bytes) := by
  intro b hb
  rcases mem_append.1 hb with hb | hb
  · rcases mem_append.1 hb with hb | hb
    · exact (label_byte (hlabel b hb)).imp_right And.left
    · rcases mem_cons.1 hb with rfl | hb
      · decide
      · exact (P.plain raw host hhost).1 b hb
  · rcases port with _ | n
    · exact absurd hb not_mem_nil
    · rw [portText_some] at hb
      rcases mem_cons.1 hb with rfl | hb
      · decide
      · exact (label_byte (.inr (.inl ((utf8_toString n).2.2 b hb)))).imp_right And.left

theorem withTail_slash (hsharp : (0x23 : UInt8) ∉ x) (scheme : Bytes) (server : Bytes × Option Nat) :
    (withTail scheme server (0x2F :: x)).path = below [] (cut 0x3F x).1 ∧
      (withTail scheme server (0x2F :: x)).query = (cut 0x3F x).2.map (percentEncode keptInQuery) := by
  have hsharp' : (0x23 : UInt8) ∉ 0x2F :: x := by simp [hsharp]
  have hmark : cut 0x3F (0x2F :: x) = (0x2F :: (cut 0x3F x).1, (cut 0x3F x).2) :=
    cut_append_of_not_mem (a := [0x2F]) (by decide) x
  unfold withTail
  rw [cut_of_not_mem hsharp', hmark]
  exact ⟨segments_cons _, rfl⟩

theorem scheme_bytes {text : Bytes} (h : splitScheme text = some (scheme, rest)) :
    (∀ b ∈ scheme, (isSchemeByte b && lower b = b) = true) ∧ scheme.head?.any isAlpha = true := by
  unfold splitScheme at h
  rcases hdrop : text.dropWhile isSchemeByte with _ | ⟨c, tail⟩
  · rw [hdrop] at h
    cases h
  rw [hdrop] at h
  dsimp only at h
  split_ifs at h with hc
  cases h
  constructor
  · intro b hb
    obtain ⟨d, hd, rfl⟩ := mem_map.1 hb
    have hlower := forall_byte (p := fun b => !isSchemeByte b || (isSchemeByte (lower b) && lower (lower b) = lower b))
      (by decide +kernel) d
    have hscheme : isSchemeByte d = true := mem_takeWhile_imp hd
    rwa [hscheme, Bool.not_true, Bool.false_or] at hlower
  · rcases text with _ | ⟨b, text⟩
    · cases hdrop
    · have halpha := forall_byte (p := fun b => !isAlpha b || (isSchemeByte b && isAlpha (lower b))) (by decide +kernel) b
      have hb : isAlpha b = true := hc.2
      rw [hb, Bool.not_true, Bool.false_or, Bool.and_eq_true] at halpha
      rw [takeWhile_cons_of_pos halpha.1]
      exact halpha.2

theorem parse_otherScheme {text : Bytes} (h : splitScheme text = some (scheme, rest))
    (hnone : defaultPort scheme = none) (tail : Bytes) : parse P (scheme ++ 0x3A :: tail) = none := by
  obtain ⟨hbytes, halpha⟩ := scheme_bytes h
  have hscheme : ∀ b ∈ scheme, isSchemeByte b = true ∧ lower b = b := by
    intro b hb
    simpa using hbytes b hb
  have hvisible : ∀ b ∈ scheme, 0x20 < b := by
    intro b hb
    have hlow := forall_byte (p := fun b => !isSchemeByte b || decide (0x20 < b)) (by decide +kernel) b
    rw [(hscheme b hb).1, Bool.not_true, Bool.false_or] at hlow
    exact of_decide_eq_true hlow
  have hstart : (scheme ++ 0x3A :: tail).dropWhile isC0OrSpace = scheme ++ 0x3A :: tail := by
    rcases scheme with _ | ⟨b, scheme⟩
    · cases halpha
    · refine dropWhile_cons_of_neg fun hlow => ?_
      exact absurd (hvisible b mem_cons_self) (UInt8.not_lt.2 (of_decide_eq_true hlow))
  have hclean : clean (scheme ++ 0x3A :: tail) =
      scheme ++ 0x3A :: (tail.rdropWhile isC0OrSpace).filter fun b => !isTabOrNewline b := by
    rw [clean, hstart, rdropWhile_append (by decide), filter_append, filter_visible hvisible,
      filter_cons_of_pos (by decide)]
  have hhead : (scheme ++ 0x3A :: (tail.rdropWhile isC0OrSpace).filter fun b => !isTabOrNewline b).head?.any isAlpha = true := by
    rcases scheme with _ | ⟨b, scheme⟩
    · cases halpha
    · exact halpha
  have hlower : scheme.map lower = scheme := by
    conv_rhs => rw [← map_id scheme]
    exact map_congr_left fun b hb => (hscheme b hb).2
  rw [parse, hclean, splitScheme, dropWhile_append_stop (by decide), takeWhile_append_stop (by decide),
    dropWhile_eq_nil_iff.2 fun b hb => (hscheme b hb).1, takeWhile_eq_self_iff.2 fun b hb => (hscheme b hb).1]
  dsimp only [nil_append]
  rw [if_pos ⟨rfl, hhead⟩, bind_some, hlower, hnone, bind_none]

theorem parse_compose (hu : parse P url = some u)
    (hlabel : ∀ b ∈ label, (0x61 ≤ b ∧ b ≤ 0x7A) ∨ (0x30 ≤ b ∧ b ≤ 0x39) ∨ b = 0x2D ∨ b = 0x2E) (hx : ∀ b ∈ x, 0x20 < b)
    (hsharp : (0x23 : UInt8) ∉ x)
    (hw : parse P (u.scheme ++ utf8 "://" ++ (label ++ 0x2E :: u.host ++ portText u.port) ++ 0x2F :: x) = some w) :
    w.host = label ++ 0x2E :: u.host ∧ w.port = u.port ∧ w.path = below [] (cut 0x3F x).1 ∧
      w.query = (cut 0x3F x).2.map (percentEncode keptInQuery) := by
  obtain ⟨default, raw, hdefault, hhost, hport⟩ := parse_parts hu
  have hbytes := server_bytes hhost u.port hlabel
  generalize hserver : label ++ 0x2E :: u.host ++ portText u.port = server at hw hbytes
  have hne : server ≠ [] := by
    rw [← hserver]
    simp
  have hstart : ∀ scheme, scheme = utf8 "http" ∨ scheme = utf8 "https" → (∀ b ∈ scheme ++ utf8 "://", 0x20 < b) ∧
        splitScheme (scheme ++ utf8 "://" ++ server) = some (scheme, 0x2F :: 0x2F :: server) := by
    have hhttp : utf8 "http" = [0x68, 0x74, 0x74, 0x70] := by decide
    have hhttps : utf8 "https" = [0x68, 0x74, 0x74, 0x70, 0x73] := by decide
    have hmarks : utf8 "://" = [0x3A, 0x2F, 0x2F] := by decide
    rintro scheme (rfl | rfl)
    · rw [hhttp, hmarks]
      exact ⟨by simp, rfl⟩
    · rw [hhttps, hmarks]
      exact ⟨by simp, rfl⟩
  obtain ⟨hvisible, hsplit⟩ := hstart u.scheme (defaultPort_cases hdefault)
  have hclean : cleanStart (u.scheme ++ utf8 "://" ++ server) = u.scheme ++ utf8 "://" ++ server := by
    refine cleanStart_visible fun b hb => ?_
    exact (mem_append.1 hb).elim (hvisible b) fun hb => (hbytes b hb).1
  have hopen : ∀ b ∈ server, (!endsAuthority b) = true ∧ isSlash b = false ∧ b ≠ 0x40 := by
    intro b hb
    have h := (hbytes b hb).2
    simp only [mem_cons, not_mem_nil, or_false, not_or] at h
    simp [endsAuthority, isSlash, h]
  have hbody : (0x2F :: 0x2F :: server).dropWhile isSlash = server := by
    rw [dropWhile_cons_of_pos (by decide), dropWhile_cons_of_pos (by decide)]
    refine dropWhile_eq_self_iff.2 fun hpos => ?_
    rw [(hopen _ (getElem_mem hpos)).2.1]
    exact Bool.false_ne_true
  rw [parse_start hx (hclean ▸ hsplit) hdefault (by rwa [hbody]), hbody,
    takeWhile_eq_self_iff.2 fun b hb => (hopen b hb).1, dropWhile_eq_nil_iff.2 fun b hb => (hopen b hb).1] at hw
  obtain ⟨found, hfound, rfl⟩ := map_eq_some_iff.1 hw
  obtain ⟨text, htext, hportOf⟩ := splitPort_portText u.port
  have hlabelOpen : ∀ b ∈ label ++ [0x2E], b ∉ ([0x3A, 0x5B, 0x5D] : Bytes) := by
    intro b hb
    rcases mem_append.1 hb with hb | hb
    · exact (label_byte (hlabel b hb)).2.2
    · rw [mem_singleton.1 hb]
      decide
  have hcut : splitPort false server = (label ++ 0x2E :: u.host, text) := by
    have hassoc : server = label ++ [0x2E] ++ (u.host ++ portText u.port) := by
      rw [← hserver]
      simp
    rw [hassoc, splitPort_open hlabelOpen, splitPort_host hhost, htext]
    simp
  have huser : withoutUserInfo server = server :=
    rtakeWhile_eq_self_iff.2 fun b hb => decide_eq_true (hopen b hb).2.2
  rw [parseServer, huser, hcut, hportOf default hport] at hfound
  rw [if_neg (by simp)] at hfound
  obtain ⟨host', hhost', hfound⟩ := bind_eq_some_iff.1 hfound
  cases hfound
  exact ⟨P.labels raw u.host label host' hhost hlabel hhost', rfl, withTail_slash hsharp _ _⟩

end

end HttpUrl

end Lib
