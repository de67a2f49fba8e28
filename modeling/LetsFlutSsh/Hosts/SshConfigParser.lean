import LetsFlutSsh.Lib.Bytes
import LetsFlutSsh.Lib.Fields
import Mathlib.Data.List.Infix

/-!
# The OpenSSH client configuration: lines and blocks

* `lexLine` : the keyword and the value of a line; `none` in `Except` stands for a slice inside a character;
* `expandIncludes` : the text with its `Include` lines replaced (`expandIncludes_includeFree`);
* `parseBlocks` : the `Host` blocks;
* `globMatches` : patterns; `Stands` : what they mean, `globMatches_stands`;
* `RawBlock.matches` : a pattern list; `matches_iff`.

Texts are lists of characters.
-/

namespace LetsFlutSsh.Hosts.SshConfig
open Lib List

/-! ## Lines -/

def normaliseLineEndings : List Char → List Char
  | [] => []
  | '\r' :: '\n' :: cs => '\n' :: normaliseLineEndings cs
  | '\r' :: cs => '\n' :: normaliseLineEndings cs
  | c :: cs => c :: normaliseLineEndings cs

theorem cr_not_mem_normaliseLineEndings (cs : List Char) : '\r' ∉ normaliseLineEndings cs := by
  fun_induction normaliseLineEndings cs with
  | case1 => exact not_mem_nil
  | case2 cs ih => simpa using ih
  | case3 cs _ ih => simpa using ih
  | case4 c cs _ hcr ih =>
    rw [mem_cons, not_or]
    exact ⟨fun h => hcr h.symm, ih⟩

theorem normaliseLineEndings_eq_self {cs : List Char} (h : '\r' ∉ cs) : normaliseLineEndings cs = cs := by
  fun_induction normaliseLineEndings cs with
  | case1 => rfl
  | case2 cs ih => simp at h
  | case3 cs _ ih => simp at h
  | case4 c cs _ _ ih => rw [ih fun hmem => h (mem_cons_of_mem c hmem)]

def stripCommentFrom (inQuotes : Bool) : List Char → List Char
  | [] => []
  | c :: cs =>
    let inQuotes := if c = '"' then !inQuotes else inQuotes
    if c = '#' ∧ inQuotes = false then [] else c :: stripCommentFrom inQuotes cs

def stripComment (line : List Char) : List Char := stripCommentFrom false line

def unquote (value : List Char) : List Char :=
  match value with
  | '"' :: rest => if rest.getLast? = some '"' then rest.dropLast else value
  | _ => value

def splitKeywordValue (line : List Char) : Except Panic (Option (List Char × List Char)) :=
  let isKeyword := fun c => c ≠ '=' && !isWhitespace c
  match line.dropWhile isKeyword with
  | [] => .ok none
  | sep :: rest =>
    -- The slice starts one byte after the separator.
    if sep.utf8Size ≠ 1 then .error .charBoundary
    else
      let keyword := trim (line.takeWhile isKeyword)
      let rest := match trim rest with
        | '=' :: stripped => trim stripped
        | rest => rest
      .ok (if keyword = [] ∨ rest = [] then none else some (keyword, unquote rest))

def splitHostPatternsFrom (buf : List Char) (inQuotes : Bool) : List Char → List (List Char)
  | [] => if buf = [] then [] else [buf]
  | c :: cs =>
    if c = '"' then splitHostPatternsFrom buf (!inQuotes) cs
    else if inQuotes = false ∧ (c = ' ' ∨ c = '\t') then
      if buf = [] then splitHostPatternsFrom [] inQuotes cs else buf :: splitHostPatternsFrom [] inQuotes cs
    else splitHostPatternsFrom (buf ++ [c]) inQuotes cs

def splitHostPatterns (value : List Char) : List (List Char) := splitHostPatternsFrom [] false value

abbrev Directive := List Char × List Char

def lexLine (rawLine : List Char) : Except Panic (Option Directive) :=
  let line := trim (stripComment rawLine)
  if line = [] then .ok none
  else (splitKeywordValue line).map (Option.map fun d => (d.1.map Char.toLower, d.2))

def directives (content : List Char) : Except Panic (List Directive) :=
  ((lines content).mapM lexLine).map List.reduceOption

namespace Kw

def host : List Char := ['h', 'o', 's', 't']
def match_ : List Char := ['m', 'a', 't', 'c', 'h']
def include_ : List Char := ['i', 'n', 'c', 'l', 'u', 'd', 'e']
def hostname : List Char := ['h', 'o', 's', 't', 'n', 'a', 'm', 'e']
def user : List Char := ['u', 's', 'e', 'r']
def port : List Char := ['p', 'o', 'r', 't']
def identityfile : List Char := ['i', 'd', 'e', 'n', 't', 'i', 't', 'y', 'f', 'i', 'l', 'e']
def preferredauthentications : List Char := ['p', 'r', 'e', 'f', 'e', 'r', 'r', 'e', 'd', 'a', 'u', 't', 'h', 'e', 'n', 't', 'i', 'c', 'a', 't', 'i', 'o', 'n', 's']

end Kw

/-! ## Includes -/

section Includes
variable {Path : Type} [DecidableEq Path] (resolve : List Char → List Path) (reader : Path → Option (List Char))

/-- One line, an `Include` replaced by what `expand` makes of its files. -/
def expandIncludeLine (expand : List Path → List Char → Except Panic (List Char × List Path))
    (s : List Char × List Path) (rawLine : List Char) : Except Panic (List Char × List Path) := do
  match ← lexLine rawLine with
  | some (kw, value) =>
    if kw = Kw.include_ then
      ((splitHostPatterns value).flatMap resolve).foldlM (fun (buf, visited) resolved => do
        if resolved ∈ visited then return (buf, visited)
        match reader resolved with
        | some included =>
          let (text, visited) ← expand (resolved :: visited) included
          return (buf ++ text ++ ['\n'], visited)
        | none => return (buf, resolved :: visited)) s
    else return (s.1 ++ (rawLine ++ ['\n']), s.2)
  | none => return (s.1 ++ (rawLine ++ ['\n']), s.2)

/-- `resolve` gives the paths of a token and `reader` their texts; both walks of the source are of this form. -/
def expandIncludes : Nat → List Path → List Char → Except Panic (List Char × List Path)
  | 0, visited, content => .ok (content, visited)
  | remaining + 1, visited, content =>
    (lines content).foldlM (expandIncludeLine resolve reader (expandIncludes remaining)) ([], visited)

/-- No line of the text is an `Include`. -/
def IncludeFree (content : List Char) : Prop :=
  ∀ l ∈ lines content, ∀ value, lexLine l ≠ .ok (some (Kw.include_, value))

instance (read : Except Panic (Option Directive)) : Decidable (∀ value, read ≠ .ok (some (Kw.include_, value))) :=
  match read with
  | .error _ => isTrue nofun
  | .ok none => isTrue nofun
  | .ok (some (kw, value)) =>
    if h : kw = Kw.include_ then isFalse fun hv => hv value (by rw [h])
    else isTrue fun _ hv => h (congrArg Prod.fst (Option.some.inj (Except.ok.inj hv)))

instance (content : List Char) : Decidable (IncludeFree content) :=
  inferInstanceAs (Decidable (∀ l ∈ lines content, ∀ value, lexLine l ≠ .ok (some (Kw.include_, value))))

theorem expandIncludes_includeFree {content : List Char} (h : IncludeFree content) (remaining : Nat)
    (visited : List Path) : expandIncludes resolve reader (remaining + 1) visited content =
      ((lines content).mapM lexLine).map fun _ => ((lines content).flatMap fun l => l ++ ['\n'], visited) := by
  rw [expandIncludes]
  generalize expandIncludes resolve reader remaining = expand
  suffices hgen : ∀ (pieces : List (List Char)) (buf : List Char),
      (∀ l ∈ pieces, ∀ value, lexLine l ≠ .ok (some (Kw.include_, value))) →
        pieces.foldlM (expandIncludeLine resolve reader expand) (buf, visited) =
          (pieces.mapM lexLine).map fun _ => (buf ++ pieces.flatMap fun l => l ++ ['\n'], visited) from
    hgen _ [] h
  intro pieces buf hpieces
  induction pieces generalizing buf with
  | nil =>
    rw [flatMap_nil, append_nil]
    rfl
  | cons l pieces ih =>
    rw [forall_mem_cons] at hpieces
    rw [foldlM_cons, mapM_cons, flatMap_cons, ← append_assoc]
    rcases hlex : lexLine l with e | d
    · rw [expandIncludeLine, hlex]
      rfl
    have hstep : expandIncludeLine resolve reader expand (buf, visited) l = .ok (buf ++ (l ++ ['\n']), visited) := by
      rw [expandIncludeLine, hlex]
      rcases d with _ | ⟨kw, value⟩
      · rfl
      · have hkw : kw ≠ Kw.include_ := by
          rintro rfl
          exact hpieces.1 value hlex
        exact if_neg hkw
    rw [hstep]
    change pieces.foldlM _ (buf ++ (l ++ ['\n']), visited) = _
    rw [ih _ hpieces.2]
    rcases pieces.mapM lexLine with e | ds <;> rfl

end Includes

/-! ## Blocks -/

inductive AuthType where
  | password
  | key
  deriving DecidableEq

def authMethod (part : List Char) : Option AuthType :=
  let name := (trim part).map Char.toLower
  if name = "publickey".toList then some .key
  else if name = "password".toList then some .password
  else if name = "keyboard-interactive".toList then some .password
  else none

def parsePreferredAuths (raw : List Char) : Option (List AuthType) :=
  let out := (raw.splitOn ',').foldl (fun out part =>
    match authMethod part with
    | some m => if m ∈ out then out else out ++ [m]
    | none => out) []
  if out = [] then none else some out

/-- The values that a block or an entry carries. -/
@[ext]
structure Settings where
  hostName : Option (List Char) := none
  user : Option (List Char) := none
  port : Option Nat := none
  identityFiles : List (List Char) := []
  preferredAuthTypes : Option (List AuthType) := none
  deriving DecidableEq

structure RawBlock extends Settings where
  orderIndex : Nat
  patterns : List (List Char)
  deriving DecidableEq

def Settings.set (s : Settings) (d : Directive) : Settings :=
  if d.1 = Kw.hostname ∧ s.hostName = none then { s with hostName := some d.2 }
  else if d.1 = Kw.user ∧ s.user = none then { s with user := some d.2 }
  else if d.1 = Kw.port ∧ s.port = none then { s with port := parseUnsigned 65536 d.2 }
  else if d.1 = Kw.identityfile then { s with identityFiles := s.identityFiles ++ [d.2] }
  else if d.1 = Kw.preferredauthentications ∧ s.preferredAuthTypes = none then
    { s with preferredAuthTypes := parsePreferredAuths d.2 }
  else s

/-- The loop of `parse_blocks`. -/
structure Loop where
  blocks : List RawBlock := []
  patterns : Option (List (List Char)) := none
  settings : Settings := {}

def Loop.flush (l : Loop) : Loop :=
  match l.patterns with
  | some patterns =>
    { blocks := l.blocks ++ [{ toSettings := l.settings, orderIndex := l.blocks.length, patterns }] }
  | none => l

def Loop.directive (l : Loop) (d : Directive) : Loop :=
  if d.1 = Kw.host then { l.flush with patterns := some (splitHostPatterns d.2) }
  else if l.patterns = none then l
  else { l with settings := l.settings.set d }

def parseBlocks (content : List Char) : Except Panic (List RawBlock) :=
  (directives content).map fun ds => (ds.foldl Loop.directive {}).flush.blocks

/-! ## Sections -/

def valueOf {α : Type} (kw : List Char) (read : List Char → Option α) (d : Directive) : Option α :=
  if d.1 = kw then read d.2 else none

/-- The first valid value of every field, and all the identity files. -/
def Settings.of (ds : List Directive) : Settings where
  hostName := ds.findSome? (valueOf Kw.hostname some)
  user := ds.findSome? (valueOf Kw.user some)
  port := ds.findSome? (valueOf Kw.port (parseUnsigned 65536))
  identityFiles := ds.filterMap (valueOf Kw.identityfile some)
  preferredAuthTypes := ds.findSome? (valueOf Kw.preferredauthentications parsePreferredAuths)

def Settings.fill (s t : Settings) : Settings where
  hostName := s.hostName.or t.hostName
  user := s.user.or t.user
  port := s.port.or t.port
  identityFiles := s.identityFiles ++ t.identityFiles
  preferredAuthTypes := s.preferredAuthTypes.or t.preferredAuthTypes

@[simp] theorem Settings.of_nil : Settings.of [] = {} := rfl

variable (ds : List Directive)

theorem Settings.of_append (ds' : List Directive) :
    Settings.of (ds ++ ds') = (Settings.of ds).fill (Settings.of ds') := by
  ext1 <;> simp [Settings.of, Settings.fill, findSome?_append]

variable (s : Settings)

theorem Settings.fill_assoc (t u : Settings) : (s.fill t).fill u = s.fill (t.fill u) := by
  ext1 <;> simp [Settings.fill, Option.or_assoc]

@[simp] theorem Settings.empty_fill : Settings.fill {} s = s := by
  ext1 <;> simp [Settings.fill]

@[simp] theorem Settings.fill_empty : s.fill {} = s := by
  ext1 <;> simp [Settings.fill]

theorem Settings.set_eq_fill (d : Directive) : s.set d = s.fill (Settings.of [d]) := by
  obtain ⟨kw, value⟩ := d
  have hsingle : ∀ {α : Type} (f : Directive → Option α), [(kw, value)].findSome? f = f (kw, value) := fun f => by
    rw [findSome?_cons, findSome?_nil]
    rcases f (kw, value) with _ | _ <;> rfl
  by_cases hhost : kw = Kw.hostname
  · subst hhost
    rcases hs : s.hostName <;> ext1 <;> simp +decide [Settings.set, Settings.fill, Settings.of, valueOf, hsingle, hs]
  by_cases huser : kw = Kw.user
  · subst huser
    rcases hs : s.user <;> ext1 <;> simp +decide [Settings.set, Settings.fill, Settings.of, valueOf, hsingle, hs]
  by_cases hport : kw = Kw.port
  · subst hport
    rcases hs : s.port <;> ext1 <;> simp +decide [Settings.set, Settings.fill, Settings.of, valueOf, hsingle, hs]
  by_cases hfile : kw = Kw.identityfile
  · subst hfile
    ext1 <;> simp +decide [Settings.set, Settings.fill, Settings.of, valueOf, hsingle]
  by_cases hauth : kw = Kw.preferredauthentications
  · subst hauth
    rcases hs : s.preferredAuthTypes <;> ext1 <;>
      simp +decide [Settings.set, Settings.fill, Settings.of, valueOf, hsingle, hs]
  ext1 <;> simp [Settings.set, Settings.fill, Settings.of, valueOf, hhost, huser, hport, hfile, hauth]

/-- A `Host` line and the directives up to the next one. -/
structure HostSection where
  patterns : List (List Char)
  settings : List Directive

/-- The directives before the first `Host` line, and the sections. -/
def sectionsOf : List Directive → List Directive × List HostSection
  | [] => ([], [])
  | d :: ds =>
    let (lead, sections) := sectionsOf ds
    if d.1 = Kw.host then ([], ⟨splitHostPatterns d.2, lead⟩ :: sections) else (d :: lead, sections)

def HostSection.block (s : HostSection) (i : Nat) : RawBlock where
  toSettings := Settings.of s.settings
  orderIndex := i
  patterns := s.patterns

theorem blocks_foldl_directive (blocks : List RawBlock) (patterns : List (List Char))
    (settings : Settings) : (ds.foldl Loop.directive ⟨blocks, some patterns, settings⟩).flush.blocks =
      blocks ++ ⟨settings.fill (Settings.of (sectionsOf ds).1), blocks.length, patterns⟩ ::
        ((sectionsOf ds).2.zipIdx (blocks.length + 1)).map fun s => s.1.block s.2 := by
  induction ds generalizing blocks patterns settings with
  | nil => simp [Loop.flush, sectionsOf]
  | cons d ds ih =>
    by_cases hd : d.1 = Kw.host
    · have hstep : Loop.directive ⟨blocks, some patterns, settings⟩ d =
          ⟨blocks ++ [⟨settings, blocks.length, patterns⟩], some (splitHostPatterns d.2), {}⟩ := by
        rw [Loop.directive, if_pos hd]
        rfl
      rw [foldl_cons, hstep, ih]
      simp [sectionsOf, hd, HostSection.block]
    · have hstep : Loop.directive ⟨blocks, some patterns, settings⟩ d = ⟨blocks, some patterns, settings.set d⟩ := by
        rw [Loop.directive, if_neg hd]
        rfl
      rw [foldl_cons, hstep, ih, Settings.set_eq_fill, Settings.fill_assoc, ← Settings.of_append]
      simp [sectionsOf, hd]

theorem blocks_directives :
    (ds.foldl Loop.directive {}).flush.blocks = (sectionsOf ds).2.zipIdx.map fun s => s.1.block s.2 := by
  induction ds with
  | nil => rfl
  | cons d ds ih =>
    by_cases hd : d.1 = Kw.host
    · have hstep : Loop.directive {} d = ⟨[], some (splitHostPatterns d.2), {}⟩ := by
        rw [Loop.directive, if_pos hd]
        rfl
      rw [foldl_cons, hstep, blocks_foldl_directive]
      simp [sectionsOf, hd, HostSection.block]
    · have hstep : Loop.directive {} d = {} := by
        rw [Loop.directive, if_neg hd]
        rfl
      rw [foldl_cons, hstep, ih]
      simp [sectionsOf, hd]

/-! ## Patterns -/

def isWildcardPattern (host : List Char) : Bool := '*' ∈ host || '?' ∈ host || host.head? = some '!'

def globAt : Bytes → Bytes → Bool
  | [], t => t = []
  | c :: p, t =>
    if c = 0x2A then t.tails.any fun rest => globAt p rest
    else match t with
      | [] => false
      | b :: t => (c = 0x3F || b = c) && globAt p t

def globMatches (pattern text : List Char) : Bool := globAt (asBytes pattern) (asBytes text)

/-- The loop of `RawBlock::matches`. -/
def matchesFrom (host : List Char) (positive : Bool) : List (List Char) → Bool
  | [] => positive
  | raw :: rest =>
    let (neg, pat) := match raw with
      | '!' :: pat => (true, pat)
      | _ => (false, raw)
    if !globMatches pat host then matchesFrom host positive rest
    else if neg then false
    else matchesFrom host true rest

def RawBlock.matches (b : RawBlock) (host : List Char) : Bool := matchesFrom host false b.patterns

theorem asBytes_injective : Function.Injective asBytes := by
  intro cs ds h
  have hcs : utf8 (String.ofList cs) = utf8 (String.ofList ds) := by
    rw [utf8_eq_flatMap, utf8_eq_flatMap, String.toList_ofList, String.toList_ofList]
    exact h
  exact String.ofList_injective (utf8_injective hcs)

/-- `*` stands for a run of characters, `?` for one, any other character for itself. -/
def Stands : List Char → List Char → Prop
  | [], text => text = []
  | '*' :: pattern, text => ∃ run rest, text = run ++ rest ∧ Stands pattern rest
  | c :: pattern, text => ∃ d rest, text = d :: rest ∧ (c = '?' ∨ c = d) ∧ Stands pattern rest

variable {text pattern : List Char} {c : Char}

theorem stands_cons (hc : c ≠ '*') :
    Stands (c :: pattern) text ↔ ∃ d rest, text = d :: rest ∧ (c = '?' ∨ c = d) ∧ Stands pattern rest := by
  rw [Stands]
  exact hc

/-- A `?` of the pattern comes to a character of the text that is not ASCII: what is before the one can stand for what
is before the other. -/
def MarkMeets (pattern text : List Char) : Prop :=
  ∃ before after pre c post, pattern = before ++ '?' :: after ∧ text = pre ++ c :: post ∧ 128 ≤ c.toNat ∧ Stands before pre

/-- A suffix of the bytes starts a character, or starts with a byte that continues one, of more than one byte. -/
theorem suffix_asBytes {u : Bytes} (h : u <:+ asBytes text) : (∃ rest, rest <:+ text ∧ u = asBytes rest) ∨
    ∃ b, u.head? = some b ∧ ¬b.IsUTF8FirstByte ∧ ∃ c ∈ text, 128 ≤ c.toNat := by
  induction text with
  | nil => exact .inl ⟨[], suffix_refl _, suffix_nil.1 h⟩
  | cons c text ih =>
    obtain ⟨pre, hpre⟩ := h
    rcases append_eq_append_iff.1 hpre with ⟨tail, hc, hu⟩ | ⟨front, -, hu⟩
    · rcases pre with _ | ⟨b₀, pre⟩
      · exact .inl ⟨c :: text, suffix_refl _, hpre⟩
      rcases tail with _ | ⟨b, tail⟩
      · exact .inl ⟨text, List.suffix_cons _ _, hu⟩
      · refine .inr ⟨b, by rw [hu]; rfl, ?_, c, mem_cons_self, ?_⟩
        · have hb : (String.utf8EncodeChar c)[pre.length + 1]? = some b := by rw [hc]; simp
          obtain ⟨hlt, rfl⟩ := List.getElem?_eq_some_iff.1 hb
          rw [UInt8.isUTF8FirstByte_getElem_utf8EncodeChar]
          omega
        · by_contra hascii
          have hone := Char.utf8Size_eq_one_iff.2 (Nat.le_of_lt_succ (Nat.not_le.1 hascii))
          have hlen := congrArg List.length hc
          rw [String.length_utf8EncodeChar, hone] at hlen
          simp at hlen
    · rcases ih ⟨front, hu.symm⟩ with ⟨rest, hrest, hu⟩ | ⟨b, hb, hcont, d, hd, hwide⟩
      · exact .inl ⟨rest, hrest.trans (suffix_cons _ _), hu⟩
      · exact .inr ⟨b, hb, hcont, d, mem_cons_of_mem _ hd, hwide⟩

theorem asBytes_of_ascii (h : ∀ c ∈ text, c.toNat < 128) :
    asBytes text = text.map fun c => UInt8.ofNat c.toNat := by
  have hutf8 := utf8_of_ascii (s := String.ofList text) (by rwa [String.toList_ofList])
  rwa [utf8_eq_flatMap, String.toList_ofList] at hutf8

/-- The bytes of a character at the front of the bytes of a text are its first character. -/
theorem eq_of_asBytes {t : Bytes} (h : asBytes text = String.utf8EncodeChar c ++ t) :
    ∃ rest, text = c :: rest ∧ t = asBytes rest := by
  rcases text with _ | ⟨d, rest⟩
  · exact absurd (append_eq_nil_iff.1 h.symm).1 String.utf8EncodeChar_ne_nil
  · have hdecode := congrArg (fun b : Bytes => b.toByteArray.utf8DecodeChar? 0) h
    simp only [asBytes_cons, toByteArray_append, ByteArray.utf8DecodeChar?_utf8EncodeChar_append] at hdecode
    obtain rfl : d = c := Option.some.inj hdecode
    exact ⟨rest, rfl, (append_cancel_left h).symm⟩

theorem forall_mem_utf8EncodeChar (hstar : c ≠ '*') (hmark : c ≠ '?') :
    ∀ b ∈ String.utf8EncodeChar c, b ≠ 0x2A ∧ b ≠ 0x3F := by
  intro b hb
  constructor
  · rintro rfl
    exact hstar (eq_of_mem_utf8EncodeChar (by decide) hb)
  · rintro rfl
    exact hmark (eq_of_mem_utf8EncodeChar (by decide) hb)

theorem globAt_star {p t : Bytes} : globAt (0x2A :: p) t = true ↔ ∃ v, v <:+ t ∧ globAt p v = true := by
  simp [globAt, mem_tails]

theorem globAt_mark {p t : Bytes} : globAt (0x3F :: p) t = true ↔ ∃ b v, t = b :: v ∧ globAt p v = true := by
  rcases t with _ | ⟨b, t⟩
  · simp [globAt]
  · simp [globAt, and_assoc]

theorem globAt_append {p : Bytes} (hp : ∀ b ∈ p, b ≠ 0x2A ∧ b ≠ 0x3F) {q t : Bytes} :
    globAt (p ++ q) t = true ↔ ∃ v, t = p ++ v ∧ globAt q v = true := by
  induction p generalizing t with
  | nil => simp
  | cons b p ih =>
    rw [forall_mem_cons] at hp
    rcases t with _ | ⟨b', t⟩
    · simp [globAt, hp.1.1]
    · simp [globAt, hp.1.1, hp.1.2, ih hp.2, eq_comm (a := b'), and_assoc]

theorem globMatches_literal (hstar : '*' ∉ pattern) (hmark : '?' ∉ pattern) (text : List Char) :
    globMatches pattern text = true ↔ pattern = text := by
  rw [globMatches, ← append_nil (asBytes pattern), globAt_append]
  · simp [globAt, asBytes_injective.eq_iff, eq_comm]
  · intro b hb
    obtain ⟨c, hc, hbc⟩ := mem_flatMap.1 hb
    exact forall_mem_utf8EncodeChar (fun h => hstar (h ▸ hc)) (fun h => hmark (h ▸ hc)) b hbc

theorem MarkMeets.star {run rest : List Char} (h : MarkMeets pattern rest) : MarkMeets ('*' :: pattern) (run ++ rest) := by
  obtain ⟨before, after, pre, c, post, rfl, rfl, hc, hstands⟩ := h
  exact ⟨'*' :: before, after, run ++ pre, c, post, rfl, (append_assoc ..).symm, hc, run, pre, rfl, hstands⟩

theorem MarkMeets.cons {d : Char} (hstar : c ≠ '*') (hcd : c = '?' ∨ c = d) (h : MarkMeets pattern text) :
    MarkMeets (c :: pattern) (d :: text) := by
  obtain ⟨before, after, pre, c', post, rfl, rfl, hc, hstands⟩ := h
  exact ⟨c :: before, after, d :: pre, c', post, rfl, rfl, hc, (stands_cons hstar).2 ⟨d, pre, rfl, hcd, hstands⟩⟩

/-- One character of the pattern other than `*`, met at the first character of the text. -/
theorem globAt_cons (hstar : c ≠ '*') (hok : c = '?' → ∀ d rest, text = d :: rest → d.toNat < 128) :
    globAt (asBytes (c :: pattern)) (asBytes text) = true ↔
      ∃ d rest, text = d :: rest ∧ (c = '?' ∨ c = d) ∧ globAt (asBytes pattern) (asBytes rest) = true := by
  rw [asBytes_cons]
  by_cases hmark : c = '?'
  · subst hmark
    refine globAt_mark.trans ?_
    rcases text with _ | ⟨d, rest⟩
    · simp [asBytes]
    · have hone : String.utf8EncodeChar d = [UInt8.ofNat d.toNat] := by
        simpa [asBytes] using (asBytes_of_ascii (by simpa using hok rfl d rest rfl) : asBytes [d] = _)
      simp [asBytes_cons, hone]
  · rw [globAt_append (forall_mem_utf8EncodeChar hstar hmark)]
    constructor
    · rintro ⟨v, htext, hglob⟩
      obtain ⟨rest, rfl, rfl⟩ := eq_of_asBytes htext
      exact ⟨c, rest, rfl, .inr rfl, hglob⟩
    · rintro ⟨d, rest, rfl, hcd, hglob⟩
      obtain rfl := hcd.resolve_left hmark
      exact ⟨_, rfl, hglob⟩

/-- What follows a `*` cannot start inside a character: a literal starts with a first byte, and a `?` would meet the character. -/
theorem stands_of_inside {v : Bytes} (ih : globAt (asBytes pattern) (asBytes text) = true → Stands pattern text)
    (hmeets : ¬MarkMeets ('*' :: pattern) text) (hv : v <:+ asBytes text) {b : UInt8} (hb : v.head? = some b)
    (hcont : ¬b.IsUTF8FirstByte) (hwide : ∃ d ∈ text, 128 ≤ d.toNat) (hglob : globAt (asBytes pattern) v = true) :
    Stands pattern text := by
  rcases pattern with _ | ⟨c, pattern⟩
  · rw [show v = [] by simpa [asBytes, globAt] using hglob] at hb
    cases hb
  by_cases hstar : c = '*'
  · subst hstar
    obtain ⟨w, hw, hrest⟩ := globAt_star.1 hglob
    exact ih (globAt_star.2 ⟨w, hw.trans hv, hrest⟩)
  by_cases hmark : c = '?'
  · subst hmark
    obtain ⟨d, hd, hwide⟩ := hwide
    obtain ⟨pre, post, rfl⟩ := append_of_mem hd
    exact absurd ⟨['*'], pattern, pre, d, post, rfl, rfl, hwide, pre, [], (append_nil _).symm, rfl⟩ hmeets
  · obtain ⟨w, rfl, -⟩ := (globAt_append (forall_mem_utf8EncodeChar hstar hmark)).1 hglob
    rw [List.head?_append_of_ne_nil _ String.utf8EncodeChar_ne_nil, List.head?_eq_getElem?] at hb
    obtain ⟨hlt, rfl⟩ := List.getElem?_eq_some_iff.1 hb
    exact absurd UInt8.isUTF8FirstByte_getElem_zero_utf8EncodeChar hcont

theorem globMatches_iff_stands (hmeets : ¬MarkMeets pattern text) : globMatches pattern text = true ↔ Stands pattern text := by
  unfold globMatches
  induction pattern generalizing text with
  | nil => exact decide_eq_true_iff.trans (asBytes_injective.eq_iff' rfl)
  | cons c pattern ih =>
    by_cases hstar : c = '*'
    · subst hstar
      constructor
      · intro h
        obtain ⟨v, hv, hglob⟩ := globAt_star.1 h
        rcases suffix_asBytes hv with ⟨rest, ⟨run, rfl⟩, rfl⟩ | ⟨b, hb, hcont, hwide⟩
        · exact ⟨run, rest, rfl, (ih fun hrest => hmeets hrest.star).1 hglob⟩
        · have hself : ¬MarkMeets pattern text := fun hrest => hmeets (hrest.star : MarkMeets _ ([] ++ text))
          exact ⟨[], text, rfl, stands_of_inside (ih hself).1 hmeets hv hb hcont hwide hglob⟩
      · rintro ⟨run, rest, rfl, hstands⟩
        refine globAt_star.2 ⟨asBytes rest, ?_, (ih fun hrest => hmeets hrest.star).2 hstands⟩
        rw [asBytes_append]
        exact suffix_append ..
    · rw [stands_cons hstar, globAt_cons hstar ?_]
      · refine exists_congr fun d => exists_congr fun rest => and_congr_right fun htext => and_congr_right fun hcd => ?_
        exact ih fun hrest => hmeets (htext ▸ hrest.cons hstar hcd)
      · rintro rfl d rest rfl
        by_contra hwide
        exact hmeets ⟨[], pattern, [], d, rest, rfl, rfl, Nat.le_of_not_lt hwide, rfl⟩

theorem MarkMeets.append (h : MarkMeets pattern text) (rest : List Char) : MarkMeets pattern (text ++ rest) := by
  obtain ⟨before, after, pre, c, post, rfl, rfl, hc, hstands⟩ := h
  exact ⟨before, after, pre, c, post ++ rest, rfl, by simp, hc, hstands⟩

/-- The first such `?`. -/
theorem MarkMeets.first (h : MarkMeets pattern text) : ∃ before after, pattern = before ++ '?' :: after ∧
    ¬MarkMeets before text ∧ ∃ pre c post, text = pre ++ c :: post ∧ 128 ≤ c.toNat ∧ Stands before pre := by
  induction hlen : pattern.length using Nat.strong_induction_on generalizing pattern with
  | h n ih =>
    obtain ⟨before, after, pre, c, post, rfl, htext, hc, hstands⟩ := h
    by_cases hagain : MarkMeets before text
    · obtain ⟨before', after', rfl, hfirst⟩ := ih _ (by simp [← hlen]) hagain rfl
      exact ⟨before', after' ++ '?' :: after, by simp, hfirst⟩
    · exact ⟨before, after, rfl, hagain, pre, c, post, htext, hc, hstands⟩

theorem globAt_both {p q u v : Bytes} (hp : globAt p u = true) (hq : globAt q v = true) :
    globAt (p ++ q) (u ++ v) = true := by
  induction p generalizing u with
  | nil => simpa [show u = [] by simpa [globAt] using hp] using hq
  | cons b p ih =>
    by_cases hstar : b = 0x2A
    · subst hstar
      obtain ⟨w, ⟨run, rfl⟩, hglob⟩ := globAt_star.1 hp
      exact globAt_star.2 ⟨w ++ v, ⟨run, (append_assoc ..).symm⟩, ih hglob⟩
    · rcases u with _ | ⟨b', u⟩
      · simp [globAt, hstar] at hp
      · simp only [globAt, hstar, if_false, Bool.and_eq_true, cons_append] at hp ⊢
        exact ⟨hp.1, ih hp.2⟩

theorem Stands.split {after : List Char} (h : Stands (pattern ++ after) text) :
    ∃ pre rest, text = pre ++ rest ∧ Stands pattern pre ∧ Stands after rest := by
  induction pattern generalizing text with
  | nil => exact ⟨[], text, rfl, rfl, h⟩
  | cons c pattern ih =>
    by_cases hstar : c = '*'
    · subst hstar
      obtain ⟨run, tail, rfl, htail⟩ := h
      obtain ⟨pre, rest, rfl, hpre, hrest⟩ := ih htail
      exact ⟨run ++ pre, rest, (append_assoc ..).symm, ⟨run, pre, rfl, hpre⟩, hrest⟩
    · obtain ⟨d, tail, rfl, hcd, htail⟩ := (stands_cons hstar).1 h
      obtain ⟨pre, rest, rfl, hpre, hrest⟩ := ih htail
      exact ⟨d :: pre, rest, rfl, (stands_cons hstar).2 ⟨d, pre, rfl, hcd, hpre⟩, hrest⟩

theorem stands_marks_iff {n : Nat} : Stands (List.replicate n '?') text ↔ text.length = n := by
  induction n generalizing text with
  | zero => exact length_eq_zero_iff.symm
  | succ n ih =>
    rw [replicate_succ, stands_cons (by decide)]
    rcases text with _ | ⟨d, rest⟩ <;> simp [ih]

theorem globAt_marks (t : Bytes) : globAt (asBytes (List.replicate t.length '?')) t = true := by
  induction t with
  | nil => rfl
  | cons b t ih => exact globAt_mark.2 ⟨b, t, rfl, ih⟩

theorem lt_length_asBytes (hmem : c ∈ text) (hc : 128 ≤ c.toNat) : text.length < (asBytes text).length := by
  obtain ⟨pre, post, rfl⟩ := append_of_mem hmem
  have hone : c.utf8Size ≠ 1 := fun hone => Nat.not_lt.2 hc (Nat.lt_succ_of_le (Char.utf8Size_eq_one_iff.1 hone))
  have hsize := Char.utf8Size_pos c
  have hpre := length_le_asBytes pre
  have hpost := length_le_asBytes post
  simp only [asBytes, flatMap_append, flatMap_cons, length_append, length_cons, String.length_utf8EncodeChar] at hpre hpost ⊢
  omega

/-- As many `?` as the shortest rest has bytes: the bytes match them, the characters are too few. -/
theorem exists_wrong_after {before pre post : List Char} (hclear : ¬MarkMeets before text) (htext : text = pre ++ c :: post)
    (hc : 128 ≤ c.toNat) (hstands : Stands before pre) :
    ∃ after, ¬(globMatches (before ++ '?' :: after) text = true ↔ Stands (before ++ '?' :: after) text) := by
  classical
  have hex : ∃ n pre rest, text = pre ++ rest ∧ Stands before pre ∧ pre.length = n := ⟨_, pre, c :: post, htext, hstands, rfl⟩
  obtain ⟨pre₀, rest, hsplit, hstands₀, hlen⟩ := Nat.find_spec hex
  have hmin : ∀ pre' rest', text = pre' ++ rest' → Stands before pre' → pre₀.length ≤ pre'.length := by
    intro pre' rest' htext' hstands'
    rw [hlen]
    exact Nat.find_min' hex ⟨pre', rest', htext', hstands', rfl⟩
  have hmem : c ∈ rest := by
    have hsuffix : c :: post <:+ rest := by
      refine suffix_of_suffix_length_le ⟨pre, htext.symm⟩ ⟨pre₀, hsplit.symm⟩ ?_
      have hlong := hmin pre _ htext hstands
      have hlens := congrArg List.length (htext.symm.trans hsplit)
      simp only [length_append] at hlens
      omega
    exact hsuffix.subset mem_cons_self
  have hbytes := lt_length_asBytes hmem hc
  obtain ⟨m, hm⟩ := Nat.exists_eq_add_one.2 (Nat.zero_lt_of_lt hbytes)
  refine ⟨List.replicate m '?', fun hiff => ?_⟩
  rw [← replicate_succ, ← hm] at hiff
  have hglob : globMatches (before ++ List.replicate (asBytes rest).length '?') text = true := by
    have hpre := (globMatches_iff_stands fun hmeets => hclear (hsplit ▸ hmeets.append rest)).2 hstands₀
    have hboth := globAt_both hpre (globAt_marks (asBytes rest))
    rwa [hsplit, globMatches, asBytes_append, asBytes_append]
  obtain ⟨pre', rest', htext', hpre', hrest'⟩ := (hiff.1 hglob).split
  rw [stands_marks_iff] at hrest'
  have hlong := hmin pre' rest' htext' hpre'
  have hlens := congrArg List.length (htext'.symm.trans hsplit)
  simp only [length_append] at hlens
  omega

/-- **Bytes and characters agree** on a pattern and a text unless a `?` comes to a character that is not ASCII; where one does,
some pattern that is the same up to that `?` is matched wrongly. -/
theorem globMatches_stands (pattern text : List Char) :
    (¬MarkMeets pattern text → (globMatches pattern text = true ↔ Stands pattern text)) ∧
      (MarkMeets pattern text → ∃ before after after', pattern = before ++ '?' :: after ∧
        ¬(globMatches (before ++ '?' :: after') text = true ↔ Stands (before ++ '?' :: after') text)) := by
  refine ⟨globMatches_iff_stands, fun h => ?_⟩
  obtain ⟨before, after, hpattern, hclear, pre, c, post, htext, hc, hstands⟩ := h.first
  obtain ⟨after', hwrong⟩ := exists_wrong_after hclear htext hc hstands
  exact ⟨before, after, after', hpattern, hwrong⟩

/-- The accent stands before the `?`, and in the pattern too. -/
theorem globMatches_stands_accented : globMatches ['é', '*', '-', '?'] ['é', 'l', '-', '1'] = true ∧
    Stands ['é', '*', '-', '?'] ['é', 'l', '-', '1'] := by
  have hmeets : ¬MarkMeets ['é', '*', '-', '?'] ['é', 'l', '-', '1'] := by
    rintro ⟨before, after, pre, c, post, hpattern, htext, hc, hstands⟩
    obtain ⟨rfl, rfl⟩ : before = ['é', '*', '-'] ∧ after = [] := by simpa [cons_eq_append_iff] using hpattern
    rcases pre with _ | ⟨d, pre⟩
    · obtain ⟨d, rest, hnil, -⟩ := (stands_cons (by decide)).1 hstands
      cases hnil
    · have hmem : c ∈ ['l', '-', '1'] := by
        rw [(List.cons.inj htext).2]
        exact mem_append_right _ mem_cons_self
      have hascii : ∀ c ∈ ['l', '-', '1'], c.toNat < 128 := by simp
      exact Nat.not_lt.2 hc (hascii c hmem)
  exact ⟨by decide, ((globMatches_stands _ _).1 hmeets).1 (by decide)⟩

theorem mark_misses_accented : globMatches ['?'] ['é'] = false ∧ Stands ['?'] ['é'] := ⟨by decide, stands_marks_iff (n := 1).2 rfl⟩

structure Matches (patterns : List (List Char)) (host : List Char) : Prop where
  positive : ∃ pat ∈ patterns, pat.head? ≠ some '!' ∧ globMatches pat host = true
  negative : ∀ pat, '!' :: pat ∈ patterns → globMatches pat host = false

theorem matchesFrom_iff {host : List Char} {positive : Bool} {patterns : List (List Char)} :
    matchesFrom host positive patterns = true ↔
      (positive = true ∨ ∃ pat ∈ patterns, pat.head? ≠ some '!' ∧ globMatches pat host = true) ∧
        ∀ pat, '!' :: pat ∈ patterns → globMatches pat host = false := by
  induction patterns generalizing positive with
  | nil => simp [matchesFrom]
  | cons raw rest ih =>
    have hcases : (∃ pat, raw = '!' :: pat) ∨ raw.head? ≠ some '!' := by
      rcases raw with _ | ⟨c, pat⟩
      · exact .inr nofun
      · by_cases hc : c = '!'
        · exact .inl ⟨pat, by rw [hc]⟩
        · exact .inr (by simpa using hc)
    rcases hcases with ⟨pat, rfl⟩ | hraw
    · rw [matchesFrom]
      rcases hglob : globMatches pat host with _ | _
      · simp only [Bool.not_false, if_true, ih]
        simp [hglob]
      · simp [hglob]
    · have hpat : ∀ pat, raw ≠ '!' :: pat := by
        rintro pat rfl
        exact hraw rfl
      have hneg : (∀ pat, '!' :: pat ∈ raw :: rest → globMatches pat host = false) ↔
          ∀ pat, '!' :: pat ∈ rest → globMatches pat host = false := by
        refine forall_congr' fun pat => imp_congr_left ?_
        rw [mem_cons, or_iff_right (Ne.symm (hpat pat))]
      rw [matchesFrom.eq_3 _ _ _ _ hpat, hneg]
      rcases hglob : globMatches raw host with _ | _
      · simp [ih, hglob]
      · simp [ih, hglob, hraw]

theorem matches_iff (b : RawBlock) (host : List Char) : b.matches host = true ↔ Matches b.patterns host := by
  rw [RawBlock.matches, matchesFrom_iff]
  simp only [Bool.false_eq_true, false_or]
  exact ⟨fun h => ⟨h.1, h.2⟩, fun h => ⟨h.positive, h.negative⟩⟩

end LetsFlutSsh.Hosts.SshConfig
