import LetsFlutSsh.Lib.Fields

/-!
# Lines of a known-hosts file

* `isValidStandardBase64` : padded base64 over the standard alphabet (`visible_of_isValidStandardBase64`);
* `normaliseHostSpec`, `formatCanonical` : a host of a line in canonical form;
* `parseLine` : the entries of a line; `mem_parseLine` : what each of them is;
* `splitHostPort` : the canonical form taken apart (`splitHostPort_formatCanonical`);
* `Denotes` : what a host pattern stands for, and `denotes_of_split` : nothing else is read from it.

Texts are lists of characters.
-/

namespace LetsFlutSsh.Hosts
open Lib List

structure ParsedHostEntry where
  hostPort : List Char
  keyType : List Char
  keyBase64 : List Char

/-! ## Base64 -/

def base64Value (c : Char) : Option Nat :=
  let n := c.toNat
  if 65 ≤ n ∧ n ≤ 90 then some (n - 65)
  else if 97 ≤ n ∧ n ≤ 122 then some (n - 71)
  else if 48 ≤ n ∧ n ≤ 57 then some (n + 4)
  else if n = 43 then some 62
  else if n = 47 then some 63
  else none

/-- Whether the standard decoder accepts the text: whole groups, the padding at the end, no bits left over. -/
def isValidStandardBase64 : List Char → Bool
  | [] => true
  | [a, b, '=', '='] => (base64Value a).isSome && (base64Value b).any fun n => n % 16 = 0
  | [a, b, c, '='] => (base64Value a).isSome && (base64Value b).isSome && (base64Value c).any fun n => n % 4 = 0
  | a :: b :: c :: d :: rest =>
    (base64Value a).isSome && (base64Value b).isSome && (base64Value c).isSome && (base64Value d).isSome &&
      isValidStandardBase64 rest
  | _ => false

variable {c : Char}

theorem isWhitespace_of_ascii (h : 33 ≤ c.toNat) (h' : c.toNat < 0x85) : isWhitespace c = false := by
  simp only [isWhitespace, Bool.or_eq_false_iff, Bool.and_eq_false_iff, decide_eq_false_iff_not, beq_eq_false_iff_ne]
  omega

theorem isWhitespace_of_base64 (h : (base64Value c).isSome = true) : isWhitespace c = false := by
  unfold base64Value at h
  refine isWhitespace_of_ascii ?_ ?_ <;> (dsimp only at h; split_ifs at h <;> simp_all <;> omega)

theorem isWhitespace_of_any {p : Nat → Bool} (h : (base64Value c).any p = true) : isWhitespace c = false := by
  apply isWhitespace_of_base64
  rcases hv : base64Value c with _ | n
  · rw [hv] at h
    cases h
  · rfl

theorem visible_of_isValidStandardBase64 {cs : List Char} (h : isValidStandardBase64 cs = true) : Visible cs := by
  have heq : isWhitespace '=' = false := by decide
  fun_induction isValidStandardBase64 cs with
  | case1 => nofun
  | case2 a b =>
    rw [Bool.and_eq_true] at h
    simp only [Visible, forall_mem_cons]
    exact ⟨isWhitespace_of_base64 h.1, isWhitespace_of_any h.2, heq, heq, nofun⟩
  | case3 a b c =>
    rw [Bool.and_eq_true, Bool.and_eq_true] at h
    simp only [Visible, forall_mem_cons]
    exact ⟨isWhitespace_of_base64 h.1.1, isWhitespace_of_base64 h.1.2, isWhitespace_of_any h.2, heq, nofun⟩
  | case4 a b c d rest _ _ ih =>
    simp only [Bool.and_eq_true] at h
    simp only [Visible, forall_mem_cons]
    exact ⟨isWhitespace_of_base64 h.1.1.1.1, isWhitespace_of_base64 h.1.1.1.2, isWhitespace_of_base64 h.1.1.2,
      isWhitespace_of_base64 h.1.2, ih h.2⟩
  | case5 => cases h

/-! ## Hosts -/

def formatCanonical (host : List Char) (port : Nat) : List Char :=
  if ':' ∈ host then '[' :: host ++ ']' :: ':' :: Nat.toDigits 10 port else host ++ ':' :: Nat.toDigits 10 port

def withPort (host portStr : List Char) : Option (List Char) :=
  (parseUnsigned (2 ^ 32) portStr).bind fun port =>
    if 1 ≤ port ∧ port ≤ 65535 then some (formatCanonical host port) else none

def normaliseHostSpec (spec : List Char) : Option (List Char) :=
  let s := trim spec
  match s with
  | [] => none
  | '[' :: rest =>
    match splitOnce ']' rest with
    | none => none
    | some (host, tail) =>
      if host = [] then none
      else
        match tail with
        | [] => some (formatCanonical host 22)
        | ':' :: portStr => withPort host portStr
        | _ => none
  | _ =>
    -- IPv6 without brackets
    if s.count ':' > 1 then none
    else
      match splitOnce ':' s with
      | some (host, portStr) => if host = [] then none else withPort host portStr
      | none => some (formatCanonical s 22)

/-- The inner check of the port in `split_host_port`. -/
def checkedPort (host portStr : List Char) : Option (String × Int64) :=
  if host = [] then none
  else
    (parseSigned 64 portStr).bind fun port =>
      if 1 ≤ port ∧ port ≤ 65535 then some (String.ofList host, Int64.ofInt port) else none

def splitHostPort (spec : List Char) : Option (String × Int64) :=
  match spec with
  | '[' :: rest =>
    match splitOnce ']' rest with
    | some (host, ':' :: portStr) => checkedPort host portStr
    | _ => none
  | _ =>
    match rsplitOnce ':' spec with
    | some (host, portStr) => checkedPort host portStr
    | none => none

/-! ## Lines -/

def isMarker (word : List Char) : Bool := word.head? = some '@'

def hashedMark : List Char := ['|', '1', '|']

def parseLine (line : List Char) : List ParsedHostEntry :=
  let trimmed := trim line
  if trimmed = [] ∨ trimmed.head? = some '#' then []
  else
    match (splitWhitespace trimmed).dropWhile isMarker with
    | hostSpec :: keyType :: keyBase64 :: _ =>
      if hashedMark.isPrefixOf hostSpec then []
      else if keyBase64 = [] then []
      else if !isValidStandardBase64 keyBase64 then []
      else (hostSpec.splitOn ',').filterMap fun spec =>
        (normaliseHostSpec spec).map fun hostPort => ⟨hostPort, keyType, keyBase64⟩
    | _ => []

def isHashedHostsLine (line : List Char) : Bool :=
  let trimmed := trim line
  if trimmed = [] ∨ trimmed.head? = some '#' then false
  else trimmed.any isWhitespace && hashedMark.isPrefixOf (trimmed.takeWhile fun c => !isWhitespace c)

/-! ## What a host pattern stands for -/

/-- `host`, `host:port`, `[host]` and `[host]:port`. -/
inductive Denotes : List Char → List Char → Int64 → Prop
  | bare {host} : host.head? ≠ some '[' → ':' ∉ host → Denotes host host 22
  | withPort {host portStr : List Char} {port : Nat} : host.head? ≠ some '[' → ':' ∉ host →
      parseUnsigned (2 ^ 32) portStr = some port → Denotes (host ++ ':' :: portStr) host (Int64.ofInt port)
  | bracketed {host} : ']' ∉ host → Denotes ('[' :: (host ++ [']'])) host 22
  | bracketedPort {host portStr : List Char} {port : Nat} : ']' ∉ host → parseUnsigned (2 ^ 32) portStr = some port →
      Denotes ('[' :: (host ++ ']' :: ':' :: portStr)) host (Int64.ofInt port)

theorem not_mem_toDigits (hc : c.isDigit = false) (n : Nat) : c ∉ Nat.toDigits 10 n := by
  intro hmem
  rw [Nat.isDigit_of_mem_toDigits (by decide) (by decide) hmem] at hc
  cases hc

variable {host : List Char}

theorem checkedPort_toDigits {n : Nat} (hne : host ≠ []) (h1 : 1 ≤ n) (h2 : n ≤ 65535) :
    checkedPort host (Nat.toDigits 10 n) = some (String.ofList host, Int64.ofInt n) := by
  have hlt : n < 2 ^ (64 - 1) := by omega
  rw [checkedPort, if_neg hne, parseSigned_toDigits hlt, Option.bind_some, if_pos (by omega)]

theorem splitHostPort_formatCanonical {n : Nat} (hne : host ≠ []) (h1 : 1 ≤ n) (h2 : n ≤ 65535)
    (hclose : ']' ∈ host → ':' ∉ host ∧ host.head? ≠ some '[') :
    splitHostPort (formatCanonical host n) =
      if ':' ∈ host ∨ host.head? ≠ some '[' then some (String.ofList host, Int64.ofInt n) else none := by
  have hdigits := checkedPort_toDigits hne h1 h2
  unfold formatCanonical
  by_cases hcolon : ':' ∈ host
  · have hopen : ']' ∉ host := fun h => (hclose h).1 hcolon
    rw [if_pos hcolon, if_pos (.inl hcolon), cons_append, splitHostPort, splitOnce_append hopen]
    exact hdigits
  rw [if_neg hcolon]
  by_cases hhead : host.head? = some '['
  · have hopen : ']' ∉ host := fun h => (hclose h).2 hhead
    obtain ⟨rest, rfl⟩ : ∃ rest, host = '[' :: rest := by
      rcases host with _ | ⟨c, rest⟩
      · cases hhead
      · cases hhead
        exact ⟨rest, rfl⟩
    rw [if_neg (not_or.2 ⟨hcolon, not_not.2 hhead⟩), cons_append, splitHostPort, splitOnce_of_not_mem]
    simp only [mem_append, mem_cons, not_or] at hopen ⊢
    exact ⟨hopen.2, by decide, not_mem_toDigits (by decide) n⟩
  · rw [if_pos (.inr hhead), splitHostPort]
    · rw [rsplitOnce_append (not_mem_toDigits (by decide) n)]
      exact hdigits
    · intro rest heq
      rcases host with _ | ⟨c, host⟩
      · exact hne rfl
      · rw [cons_append, List.cons.injEq] at heq
        exact hhead (by rw [heq.1]; rfl)

theorem withPort_eq_some {portStr hp : List Char} (h : withPort host portStr = some hp) :
    ∃ n, parseUnsigned (2 ^ 32) portStr = some n ∧ 1 ≤ n ∧ n ≤ 65535 ∧ hp = formatCanonical host n := by
  obtain ⟨n, hn, hrange⟩ := Option.bind_eq_some_iff.1 h
  split at hrange
  · next hin =>
    cases hrange
    exact ⟨n, hn, hin.1, hin.2, rfl⟩
  · cases hrange

theorem denotes_of_split {spec hp : List Char} {host : String} {port : Int64} (hn : normaliseHostSpec spec = some hp)
    (hs : splitHostPort hp = some (host, port)) : Denotes (trim spec) host.toList port := by
  have hback : ∀ {name : List Char} {n : Nat}, name ≠ [] → 1 ≤ n → n ≤ 65535 →
      (']' ∈ name → ':' ∉ name ∧ name.head? ≠ some '[') → hp = formatCanonical name n →
      host.toList = name ∧ port = Int64.ofInt n := by
    rintro name n hne h1 h2 hclose rfl
    rw [splitHostPort_formatCanonical hne h1 h2 hclose] at hs
    split at hs
    · cases hs
      exact ⟨String.toList_ofList, rfl⟩
    · cases hs
  unfold normaliseHostSpec at hn
  dsimp only at hn
  split at hn
  · cases hn
  · next rest hrest =>
    rw [hrest]
    split at hn
    · cases hn
    next name tail hcut =>
    obtain ⟨rfl, hclose⟩ := eq_of_splitOnce hcut
    split at hn
    · cases hn
    next hne =>
    split at hn
    · cases hn
      obtain ⟨hhost, hport⟩ := hback hne (by decide) (by decide) (fun h => absurd h hclose) rfl
      rw [hhost, hport]
      exact .bracketed hclose
    · obtain ⟨n, hparse, h1, h2, heq⟩ := withPort_eq_some hn
      obtain ⟨hhost, hport⟩ := hback hne h1 h2 (fun h => absurd h hclose) heq
      rw [hhost, hport]
      exact .bracketedPort hclose hparse
    · cases hn
  · next hnil hopen =>
    have hhead : (trim spec).head? ≠ some '[' := by
      intro hhead
      rcases ht : trim spec with _ | ⟨c, rest⟩
      · exact hnil ht
      · rw [ht] at hhead
        cases hhead
        exact hopen rest ht
    split at hn
    · cases hn
    split at hn
    · next name portStr hcut =>
      obtain ⟨heq, hcolon⟩ := eq_of_splitOnce hcut
      split at hn
      · cases hn
      next hne =>
      have hhead' : name.head? ≠ some '[' := by
        rw [heq] at hhead
        rcases name with _ | ⟨c, name⟩
        · exact absurd rfl hne
        · exact hhead
      obtain ⟨n, hparse, h1, h2, hcanon⟩ := withPort_eq_some hn
      obtain ⟨hhost, hport⟩ := hback hne h1 h2 (fun _ => ⟨hcolon, hhead'⟩) hcanon
      rw [heq, hhost, hport]
      exact .withPort hhead' hcolon hparse
    · next hcut =>
      have hcolon : ':' ∉ trim spec := by
        intro hmem
        rw [splitOnce, if_pos hmem] at hcut
        cases hcut
      cases hn
      obtain ⟨hhost, hport⟩ := hback hnil (by decide) (by decide) (fun _ => ⟨hcolon, hhead⟩) rfl
      rw [hhost, hport]
      exact .bare hhead hcolon

end LetsFlutSsh.Hosts
