import LetsFlutSsh.Lib.FormQuery

/-!
# The parser of connect links

The operating system hands over a URI such as `letsflutssh://connect?host=h&user=u&port=22`:

* `ParsedUri.parse` : its scheme, host and query (`parse_connect_iff`);
* `percentDecode`, `ParsedUri.queryPairs` : the pairs of the query (`percentDecode_eq_some_iff`, `readPair_iff`);
* `containsControlChar` : the test for control characters, on bytes;
* `parseConnectUri` : the link.

A text is the list of its characters.
-/

namespace LetsFlutSsh.Deeplink
open Lib List Option

structure ConnectLink where
  host : List Char
  port : UInt16
  user : List Char
deriving DecidableEq

structure ParsedUri where
  scheme : List Char
  hostPart : Option (List Char)
  query : Option (List Char)

def isSchemeChar (c : Char) : Bool := c.isAlphanum || c = '+' || c = '-' || c = '.'

def endsHost (c : Char) : Bool := c = '/' || c = '?' || c = '#'

def splitHost (afterScheme : List Char) : Option (List Char) × List Char :=
  match afterScheme with
  | '/' :: '/' :: rest =>
    let trailing := rest.dropWhile fun c => !endsHost c
    let afterHost := match trailing with
      | '/' :: afterHost => afterHost
      | _ => trailing
    (some (rest.takeWhile fun c => !endsHost c), afterHost)
  | _ => (none, afterScheme)

def queryOf (rest : List Char) : Option (List Char) :=
  (splitOnce '?' rest).map fun p => p.2.takeWhile (· ≠ '#')

def ParsedUri.parse (input : List Char) : Option ParsedUri :=
  match splitOnce ':' input with
  | none => none
  | some (scheme, afterScheme) =>
    if scheme = [] then none
    else if !scheme.head?.any Char.isAlpha then none
    else if !scheme.all isSchemeChar then none
    else
      let (hostPart, rest) := splitHost afterScheme
      some { scheme, hostPart, query := queryOf rest }

def target : List Char := "letsflutssh://connect".toList

/-- Where the parser finds a query. -/
structure Splits (uri before query rest : List Char) : Prop where
  text : uri = target ++ (before ++ '?' :: (query ++ rest))
  /-- The host ends where `before` begins. -/
  ends : ∀ c ∈ before.head?, c = '/' ∨ c = '#'
  mark : '?' ∉ before
  hash : '#' ∉ query
  fragment : ∀ c ∈ rest.head?, c = '#'

variable {query : List Char}

theorem queryOf_eq_some_iff {rest : List Char} : queryOf rest = some query ↔
    ∃ before tail, rest = before ++ '?' :: (query ++ tail) ∧ '?' ∉ before ∧ '#' ∉ query ∧ ∀ c ∈ tail.head?, c = '#' := by
  unfold queryOf
  rw [map_eq_some_iff]
  constructor
  · rintro ⟨⟨before, afterQ⟩, hsplit, hquery⟩
    obtain ⟨rfl, hbefore⟩ := eq_of_splitOnce hsplit
    obtain ⟨htext, hall, hstop⟩ := cut_at_iff.1 ⟨hquery, rfl⟩
    refine ⟨before, afterQ.dropWhile (· ≠ '#'), by rw [← htext], hbefore, fun hmem => ?_, fun c hc => ?_⟩
    · simpa using hall _ hmem
    · simpa using hstop c hc
  · rintro ⟨before, tail, rfl, hbefore, hhash, htail⟩
    refine ⟨_, splitOnce_append hbefore _, (cut_at_iff.2 ⟨rfl, fun c hc => ?_, fun c hc => ?_⟩).1⟩
    · rw [decide_eq_true_eq]
      rintro rfl
      exact hhash hc
    · simpa using htail c hc

theorem queryOf_slash (rest : List Char) : queryOf ('/' :: rest) = queryOf rest := by
  unfold queryOf splitOnce
  rw [takeWhile_cons_of_pos (by decide), dropWhile_cons_of_pos (by decide)]
  simp only [mem_cons, show ('?' = '/') = False from by decide, false_or]
  split_ifs <;> rfl

theorem splitHost_connect {trailing : List Char} (hends : ∀ c ∈ trailing.head?, endsHost c = true) :
    (splitHost ("//connect".toList ++ trailing)).1 = some "connect".toList ∧
      queryOf (splitHost ("//connect".toList ++ trailing)).2 = queryOf trailing := by
  have hcut : ("connect".toList ++ trailing).takeWhile (fun c => !endsHost c) = "connect".toList ∧
      ("connect".toList ++ trailing).dropWhile (fun c => !endsHost c) = trailing :=
    cut_at_iff.2 ⟨rfl, all_eq_true.1 (by decide), fun c hc => by rw [hends c hc]; rfl⟩
  have hshape : "//connect".toList ++ trailing = '/' :: '/' :: ("connect".toList ++ trailing) := rfl
  rw [hshape, splitHost, hcut.1, hcut.2]
  refine ⟨rfl, ?_⟩
  split
  · exact (queryOf_slash _).symm
  · rfl

theorem eq_of_splitHost {afterScheme : List Char} (h : (splitHost afterScheme).1 = some "connect".toList) :
    ∃ trailing, afterScheme = "//connect".toList ++ trailing ∧ ∀ c ∈ trailing.head?, endsHost c = true := by
  fun_cases splitHost afterScheme with
  | case1 rest trailing afterHost =>
    rw [splitHost, Option.some.injEq] at h
    obtain ⟨htext, -, hstop⟩ := cut_at_iff.1 ⟨h, rfl⟩
    refine ⟨trailing, ?_, fun c hc => by simpa using hstop c hc⟩
    rw [htext]
    rfl
  | case2 rest hslashes =>
    rw [splitHost] at h
    · cases h
    · exact hslashes

variable {uri : List Char}

theorem parse_connect_iff :
    (∃ parts, ParsedUri.parse uri = some parts ∧ parts.scheme = "letsflutssh".toList ∧
      parts.hostPart = some "connect".toList ∧ parts.query = some query) ↔ ∃ before rest, Splits uri before query rest := by
  constructor
  · rintro ⟨parts, hparse, hscheme, hhost, hquery⟩
    unfold ParsedUri.parse at hparse
    split at hparse
    · cases hparse
    next scheme afterScheme hsplit =>
    obtain ⟨rfl, -⟩ := eq_of_splitOnce hsplit
    split_ifs at hparse
    cases hparse
    have hscheme' : scheme = "letsflutssh".toList := hscheme
    have hquery' : queryOf (splitHost afterScheme).2 = some query := hquery
    subst hscheme'
    obtain ⟨trailing, rfl, hends⟩ := eq_of_splitHost hhost
    rw [(splitHost_connect hends).2] at hquery'
    obtain ⟨before, tail, rfl, hmark, hhash, htail⟩ := queryOf_eq_some_iff.1 hquery'
    refine ⟨before, tail, rfl, fun c hc => ?_, hmark, hhash, htail⟩
    have hc' := hends c (by rw [mem_def] at hc ⊢; rw [head?_append, hc]; rfl)
    have hne : c ≠ '?' := by
      rintro rfl
      exact hmark (mem_of_mem_head? hc)
    simpa [endsHost, hne] using hc'
  · rintro ⟨before, rest, rfl, hends, hmark, hhash, hrest⟩
    have hends' : ∀ c ∈ (before ++ '?' :: (query ++ rest)).head?, endsHost c = true := by
      intro c hc
      rcases before with _ | ⟨b, before⟩
      · cases hc
        rfl
      · have hb : c = b := by simpa [eq_comm] using hc
        rcases hends c (by simp [hb]) with rfl | rfl <;> rfl
    obtain ⟨hhost, hquery⟩ := splitHost_connect hends'
    have hshape : target ++ (before ++ '?' :: (query ++ rest)) =
        "letsflutssh".toList ++ ':' :: ("//connect".toList ++ (before ++ '?' :: (query ++ rest))) := rfl
    refine ⟨⟨"letsflutssh".toList, some "connect".toList, some query⟩, ?_, rfl, rfl, rfl⟩
    rw [ParsedUri.parse, hshape, splitOnce_append (by decide)]
    dsimp only
    rw [if_neg (by decide), if_neg (by decide), if_neg (by decide), hhost, hquery,
      queryOf_eq_some_iff.2 ⟨before, rest, rfl, hmark, hhash, hrest⟩]

/-- The loop of `percent_decode`, at the bytes that are left. -/
def decodeFrom : Bytes → Option Bytes
  | [] => some []
  | b :: rest =>
    if b = plus then (decodeFrom rest).map (0x20 :: ·)
    else if b = percent then
      match rest with
      | hi :: lo :: rest => do
        let hi ← hexValue hi
        let lo ← hexValue lo
        (decodeFrom rest).map (UInt8.ofNat (16 * hi + lo) :: ·)
      | _ => none
    else (decodeFrom rest).map (b :: ·)

def percentDecode (s : List Char) : Option (List Char) :=
  ((decodeFrom (utf8 (String.ofList s))).bind fromUtf8).map String.toList

/-- The closure of `query_pairs`. -/
def readPair (pair : List Char) : Option (List Char × List Char) := do
  let (k, v) := (splitOnce '=' pair).getD (pair, [])
  let key ← percentDecode k
  let value ← percentDecode v
  some (key, value)

theorem decodeFrom_plus (rest : Bytes) : decodeFrom (plus :: rest) = (decodeFrom rest).map (0x20 :: ·) := by
  rw [decodeFrom.eq_def]
  exact if_pos rfl

theorem decodeFrom_byte {b : UInt8} (hplus : b ≠ plus) (hpercent : b ≠ percent) (rest : Bytes) :
    decodeFrom (b :: rest) = (decodeFrom rest).map (b :: ·) := by
  rw [decodeFrom.eq_def]
  dsimp only
  rw [if_neg hplus, if_neg hpercent]

theorem decodeFrom_eq_some_iff {raw bs : Bytes} : decodeFrom raw = some bs ↔ FormDecodes raw bs := by
  constructor
  · intro h
    fun_induction decodeFrom raw generalizing bs with
    | case1 =>
      cases h
      exact .nil
    | case2 rest ih =>
      obtain ⟨tail, htail, rfl⟩ := map_eq_some_iff.1 h
      exact .space (ih htail)
    | case3 hi lo rest _ ih =>
      obtain ⟨x, hx, h⟩ := bind_eq_some_iff.1 h
      obtain ⟨y, hy, h⟩ := bind_eq_some_iff.1 h
      obtain ⟨tail, htail, rfl⟩ := map_eq_some_iff.1 h
      exact .escape hx hy (ih htail)
    | case4 => cases h
    | case5 b rest hplus hpercent ih =>
      obtain ⟨tail, htail, rfl⟩ := map_eq_some_iff.1 h
      exact .byte hplus hpercent (ih htail)
  · intro h
    induction h with
    | nil => rfl
    | space rest ih => rw [decodeFrom_plus, ih, map_some]
    | escape hhi hlo rest ih =>
      rw [decodeFrom, if_neg (by decide), if_pos rfl, hhi, hlo, ih]
      rfl
    | byte hplus hpercent rest ih => rw [decodeFrom_byte hplus hpercent, ih, map_some]

theorem percentDecode_eq_some_iff {raw text : List Char} : percentDecode raw = some text ↔ Reads raw text := by
  unfold percentDecode Reads
  rw [← decodeFrom_eq_some_iff, map_eq_some_iff]
  constructor
  · rintro ⟨s, hs, rfl⟩
    obtain ⟨bs, hbs, hs⟩ := bind_eq_some_iff.1 hs
    rw [hbs, String.ofList_toList, fromUtf8_eq_some_iff.1 hs]
  · intro h
    exact ⟨String.ofList text, by rw [h, bind_some, fromUtf8_utf8], String.toList_ofList⟩

variable {v : List Char}

theorem readPair_iff {pair k : List Char} : readPair pair = some (k, v) ↔ IsPair pair k v := by
  unfold readPair IsPair
  constructor
  · intro h
    obtain ⟨key, hkey, h⟩ := bind_eq_some_iff.1 h
    obtain ⟨value, hvalue, h⟩ := bind_eq_some_iff.1 h
    cases h
    exact ⟨_, _, cut_iff.2 rfl, percentDecode_eq_some_iff.1 hkey, percentDecode_eq_some_iff.1 hvalue⟩
  · rintro ⟨rawKey, rawValue, hcut, hkey, hvalue⟩
    rw [cut_iff.1 hcut]
    dsimp only
    rw [percentDecode_eq_some_iff.2 hkey, percentDecode_eq_some_iff.2 hvalue]
    rfl

def ParsedUri.queryPairs (uri : ParsedUri) : List (List Char × List Char) :=
  (((uri.query.getD []).splitOn '&').filter (· ≠ [])).filterMap readPair

/-- The variables of the loop over the pairs. -/
structure Params where
  host : Option (List Char)
  user : Option (List Char)
  portRaw : Option (List Char)

def Params.set (p : Params) (kv : List Char × List Char) : Params :=
  if kv.1 = ['h', 'o', 's', 't'] then { p with host := some kv.2 }
  else if kv.1 = ['u', 's', 'e', 'r'] then { p with user := some kv.2 }
  else if kv.1 = ['p', 'o', 'r', 't'] then { p with portRaw := some kv.2 }
  else p

section

variable (p : Params) (kv : List Char × List Char)

@[simp] theorem Params.set_host : (p.set kv).host = if kv.1 = ['h', 'o', 's', 't'] then some kv.2 else p.host := by
  unfold Params.set
  split_ifs <;> rfl

@[simp] theorem Params.set_user : (p.set kv).user = if kv.1 = ['u', 's', 'e', 'r'] then some kv.2 else p.user := by
  unfold Params.set
  split_ifs with h₁ h₂ h₃
  · rw [h₁] at h₂
    cases h₂
  all_goals rfl

@[simp] theorem Params.set_portRaw : (p.set kv).portRaw = if kv.1 = ['p', 'o', 'r', 't'] then some kv.2 else p.portRaw := by
  unfold Params.set
  split_ifs with h₁ h₂ h₃ h₄
  · rw [h₁] at h₂
    cases h₂
  · rfl
  · rw [h₃] at h₄
    cases h₄
  all_goals rfl

end

def paramsOf (query : List Char) : Params :=
  (ParsedUri.queryPairs ⟨[], none, some query⟩).foldl Params.set ⟨none, none, none⟩

theorem proj_paramsOf {proj : Params → Option (List Char)} {key : List Char} (hkey : key ≠ [])
    (hstep : ∀ p kv, proj (Params.set p kv) = if kv.1 = key then some kv.2 else proj p)
    (hnone : proj ⟨none, none, none⟩ = none) :
    proj (paramsOf query) = some v ↔ Gives query key v := by
  unfold paramsOf ParsedUri.queryPairs
  rw [getD_some, filterMap_filter]
  refine foldl_gives (fun pair k w hk => ?_) hkey hstep hnone
  rw [← readPair_iff]
  by_cases hpair : pair = []
  · -- An empty pair has an empty key.
    subst hpair
    have hempty : readPair [] = some ([], []) := by decide
    rw [if_neg (by simp), hempty]
    constructor
    · nofun
    · intro h
      cases h
      exact absurd rfl hk
  · rw [if_pos (by simpa using hpair)]

theorem paramsOf_host_iff : (paramsOf query).host = some v ↔ Gives query ['h', 'o', 's', 't'] v :=
  proj_paramsOf (by simp) Params.set_host rfl

theorem paramsOf_user_iff : (paramsOf query).user = some v ↔ Gives query ['u', 's', 'e', 'r'] v :=
  proj_paramsOf (by simp) Params.set_user rfl

theorem paramsOf_portRaw_iff :
    (paramsOf query).portRaw = some v ↔ Gives query ['p', 'o', 'r', 't'] v :=
  proj_paramsOf (by simp) Params.set_portRaw rfl

def isControlByte (b : UInt8) : Bool := b.toNat < 0x20 || (0x7F ≤ b.toNat && b.toNat ≤ 0x9F)

def containsControlChar (s : List Char) : Bool := (utf8 (String.ofList s)).any isControlByte

def isRefused (limit : Nat) (s : List Char) : Bool :=
  limit < byteLength s || '/' ∈ s || '\\' ∈ s || containsControlChar s

def readPort : Option (List Char) → Option UInt16
  | none => some 22
  | some [] => some 22
  | some raw =>
    match parseUnsigned (2 ^ 32) raw with
    | some p => if 1 ≤ p ∧ p ≤ 65535 then some (UInt16.ofNat p) else none
    | none => none

def Params.link (p : Params) : Option ConnectLink :=
  let host := trim (p.host.getD [])
  let user := trim (p.user.getD [])
  if host = [] ∨ user = [] then none
  else if isRefused 253 host then none
  else if isRefused 256 user then none
  else (readPort p.portRaw).map fun port => { host, port, user }

def parseConnectUri (uri : List Char) : Option ConnectLink :=
  match ParsedUri.parse uri with
  | none => none
  | some parts =>
    if parts.scheme ≠ "letsflutssh".toList then none
    else if parts.hostPart ≠ some "connect".toList then none
    else (parts.queryPairs.foldl Params.set ⟨none, none, none⟩).link

example : parseConnectUri "letsflutssh://connect/p?host=a%2eb&user=u&port=2222".toList =
    some ⟨"a.b".toList, 2222, ['u']⟩ := by decide +kernel

theorem parseConnectUri_eq_some_iff {link : ConnectLink} : parseConnectUri uri = some link ↔
    ∃ query, (∃ before rest, Splits uri before query rest) ∧ (paramsOf query).link = some link := by
  unfold parseConnectUri
  simp only [← parse_connect_iff]
  rcases ParsedUri.parse uri with _ | ⟨scheme, hostPart, query⟩
  · simp
  simp only [Option.some.injEq, exists_eq_left']
  constructor
  · intro h
    split_ifs at h with hscheme hhost
    rcases query with _ | query
    · cases h
    · exact ⟨query, ⟨not_ne_iff.1 hscheme, not_ne_iff.1 hhost, rfl⟩, h⟩
  · rintro ⟨query, ⟨rfl, rfl, rfl⟩, h⟩
    rw [if_neg (by simp), if_neg (by simp)]
    exact h

theorem Splits.unique {before rest before' query' rest' : List Char} (h : Splits uri before query rest)
    (h' : Splits uri before' query' rest') : query = query' := by
  obtain ⟨parts, hparse, -, -, hquery⟩ := parse_connect_iff.2 ⟨before, rest, h⟩
  obtain ⟨parts', hparse', -, -, hquery'⟩ := parse_connect_iff.2 ⟨before', rest', h'⟩
  rw [hparse, Option.some.injEq] at hparse'
  rw [← hparse', hquery, Option.some.injEq] at hquery'
  exact hquery'

end LetsFlutSsh.Deeplink
