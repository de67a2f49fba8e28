import Mathlib.Data.List.Nodup
import LetsFlutSsh.Lib.Fields
import LetsFlutSsh.WebDav.Digest

/-!
# Challenges of a server

* `Param`, `header` : a challenge as a server may write it;
* `challengeOf` : what it says;
* `parse_header` : when it is read so.
-/

namespace LetsFlutSsh.WebDav
open Lib List

def isBlank (c : Char) : Bool := c = ' ' || c = '\t'
def isTokenChar (c : Char) : Bool := 32 < c.toNat && c.toNat < 127 && c ∉ "(),/:;<=>?@[\\]\x7b\x7d\"".toList

/-- A parameter: its name as it is spelled, its value and whether that is quoted, the blanks around its equals sign, and those
before and after the comma in front of it. -/
structure Param where
  name : List Char
  value : List Char
  quoted : Bool
  beforeEq : List Char
  afterEq : List Char
  beforeComma : List Char
  afterComma : List Char

namespace Param

def body (p : Param) : List Char := if p.quoted then '"' :: (p.value ++ ['"']) else p.value

def text (p : Param) : List Char := p.name ++ p.beforeEq ++ '=' :: (p.afterEq ++ p.body)

def key (p : Param) : String := String.ofList (asciiLower p.name)

/-- The parameter is written as the grammar has it, a quoted value without quotes and backslashes. -/
structure Legal (p : Param) : Prop where
  name : p.name ≠ [] ∧ ∀ c ∈ p.name, isTokenChar c = true
  value : if p.quoted then '"' ∉ p.value ∧ '\\' ∉ p.value else p.value ≠ [] ∧ ∀ c ∈ p.value, isTokenChar c = true
  blanks : ∀ c ∈ p.beforeEq ++ p.afterEq ++ p.beforeComma ++ p.afterComma, isBlank c = true

end Param

def moreParams (ps : List Param) : List Char := ps.flatMap fun p => p.beforeComma ++ ',' :: (p.afterComma ++ p.text)

def header (scheme : List Char) : List Param → List Char
  | [] => scheme
  | p :: ps => scheme ++ ' ' :: (p.afterComma ++ p.text ++ moreParams ps)

def given (ps : List Param) (name : String) : Option String := (ps.find? (·.key = name)).map fun p => String.ofList p.value

def challengeOf (ps : List Param) : DigestChallenge where
  realm := (given ps "realm").getD ""
  nonce := (given ps "nonce").getD ""
  qop := given ps "qop"
  opaqueText := given ps "opaque"
  algorithm := (given ps "algorithm").getD "MD5"
  stale := (given ps "stale").elim false fun v => asciiLower v.toList = "true".toList

/-- The scheme is spelled in one of two ways, and a quote follows its equals sign at once. -/
def Fits (scheme : List Char) (ps : List Param) : Prop :=
  ps ≠ [] ∧ (scheme = "Digest".toList ∨ scheme = "digest".toList) ∧ ∀ p ∈ ps, p.quoted = true → p.afterEq = []

/-! ## Characters -/

theorem blank_facts {c : Char} (h : isBlank c = true) :
    isSeparator c = true ∧ isKeyChar c = true ∧ isWhitespace c = true ∧ c ≠ ',' ∧ c ≠ '"' := by
  unfold isBlank at h
  rw [Bool.or_eq_true, decide_eq_true_eq, decide_eq_true_eq] at h
  rcases h with rfl | rfl <;> decide

theorem token_facts {c : Char} (h : isTokenChar c = true) :
    isSeparator c = false ∧ isKeyChar c = true ∧ isWhitespace c = false ∧ c ≠ ',' ∧ c ≠ '"' := by
  have hne : ∀ d, isTokenChar d = false → c ≠ d := by
    rintro d hd rfl
    rw [h] at hd
    cases hd
  have hvisible : isWhitespace c = false := by
    unfold isTokenChar at h
    unfold isWhitespace
    simp only [Bool.and_eq_true, decide_eq_true_eq] at h
    simp only [Bool.or_eq_false_iff, Bool.and_eq_false_iff, decide_eq_false_iff_not, beq_eq_false_iff_ne]
    omega
  refine ⟨?_, ?_, hvisible, hne _ (by decide), hne _ (by decide)⟩
  · simp [isSeparator, hne ' ' (by decide), hne '\t' (by decide), hne ',' (by decide)]
  · simp [isKeyChar, hne '=' (by decide), hne ',' (by decide)]

variable {cs : List Char}

theorem trim_padded {a b : List Char} (ha : ∀ c ∈ a, isBlank c = true) (hb : ∀ c ∈ b, isBlank c = true)
    (hcs : cs ≠ []) (hvisible : ∀ c ∈ cs, isWhitespace c = false) : trim (a ++ cs ++ b) = cs := by
  have hfront : (a ++ cs ++ b).dropWhile isWhitespace = cs ++ b := by
    obtain ⟨c, cs, rfl⟩ := exists_cons_of_ne_nil hcs
    rw [append_assoc, dropWhile_append_of_pos fun c hc => (blank_facts (ha c hc)).2.2.1, cons_append,
      dropWhile_cons_of_neg (by rw [hvisible c mem_cons_self]; exact Bool.false_ne_true)]
  have hback : b.rdropWhile isWhitespace = [] := rdropWhile_eq_nil_iff.2 fun c hc => (blank_facts (hb c hc)).2.2.1
  obtain ⟨front, last, rfl⟩ := (eq_nil_or_concat cs).resolve_left hcs
  rw [trim, hfront, concat_eq_append, append_assoc, singleton_append, rdropWhile_append (hvisible last (by simp)), hback]

theorem readQuoted_quoted {value : List Char} (hquote : '"' ∉ value) (hslash : '\\' ∉ value) (rest : List Char) :
    readQuoted false (value ++ '"' :: rest) = (value, rest) := by
  induction value with
  | nil => rfl
  | cons c value ih =>
    rw [mem_cons, not_or] at hquote hslash
    have hc : ¬(c = '"' ∧ false = false) := fun h => hquote.1 h.1.symm
    have hnot : (decide (c = '\\') && !false) = false := by rw [decide_eq_false (Ne.symm hslash.1), Bool.false_and]
    rw [cons_append, readQuoted, if_neg hc, hnot, ih hquote.2 hslash.2]

/-! ## One parameter -/

theorem readPairs_separators {seps : List Char} (h : ∀ c ∈ seps, isSeparator c = true) (n : Nat) (input : List Char) :
    readPairs n (seps ++ input) = readPairs n input := by
  cases n with
  | zero => rfl
  | succ n =>
    unfold readPairs
    rw [dropWhile_append_of_pos h]

variable {p : Param}

theorem readValue_param (h : p.Legal) (hfits : p.quoted = true → p.afterEq = []) {rest : List Char}
    (hrest : ∀ c ∈ rest.head?, c = ',') (gap : List Char) (hgap : ∀ c ∈ gap, isBlank c = true) :
    (readValue (p.afterEq ++ p.body ++ (gap ++ rest))).1 = p.value ∧
      ∃ seps, (∀ c ∈ seps, isSeparator c = true) ∧ (readValue (p.afterEq ++ p.body ++ (gap ++ rest))).2 = seps ++ rest := by
  have hvalue := h.value
  have hafter : ∀ c ∈ p.afterEq, isBlank c = true := fun c hc => h.blanks c (by simp [hc])
  unfold Param.body
  rcases hquoted : p.quoted
  · -- A token reaches up to the comma, with the blanks around it.
    rw [hquoted, if_neg Bool.false_ne_true] at hvalue
    obtain ⟨hne, htoken⟩ := hvalue
    have hcommas : ∀ c ∈ p.afterEq ++ p.value ++ gap, decide (c ≠ ',') = true := by
      intro c hc
      rw [mem_append, mem_append] at hc
      rcases hc with (hc | hc) | hc
      · exact decide_eq_true (blank_facts (hafter c hc)).2.2.2.1
      · exact decide_eq_true (token_facts (htoken c hc)).2.2.2.1
      · exact decide_eq_true (blank_facts (hgap c hc)).2.2.2.1
    have hquote : (p.afterEq ++ p.value ++ (gap ++ rest)).head? ≠ some '"' := by
      rcases hgapEq : p.afterEq with _ | ⟨c, cs⟩
      · obtain ⟨c, cs, hcs⟩ := exists_cons_of_ne_nil hne
        rw [hcs] at htoken ⊢
        exact fun heq => (token_facts (htoken c mem_cons_self)).2.2.2.2 (Option.some.inj heq)
      · rw [hgapEq] at hafter
        exact fun heq => (blank_facts (hafter c mem_cons_self)).2.2.2.2 (Option.some.inj heq)
    have htail : rest.takeWhile (fun c => decide (c ≠ ',')) = [] ∧ rest.dropWhile (fun c => decide (c ≠ ',')) = rest := by
      rcases rest with _ | ⟨c, rest⟩
      · exact ⟨rfl, rfl⟩
      · obtain rfl := hrest c rfl
        exact ⟨rfl, rfl⟩
    rw [if_neg Bool.false_ne_true, readValue, if_neg hquote, ← append_assoc, takeWhile_append_of_pos hcommas,
      dropWhile_append_of_pos hcommas, htail.1, htail.2, append_nil]
    exact ⟨trim_padded hafter hgap hne fun c hc => (token_facts (htoken c hc)).2.2.1, [], fun _ hc => absurd hc not_mem_nil, rfl⟩
  · rw [hquoted, if_pos rfl] at hvalue
    rw [if_pos rfl, hfits hquoted, nil_append, cons_append, readValue, head?_cons, if_pos rfl, tail_cons, append_assoc,
      singleton_append, readQuoted_quoted hvalue.1 hvalue.2]
    exact ⟨rfl, gap, fun c hc => (blank_facts (hgap c hc)).1, rfl⟩

def Param.pair (p : Param) : String × String := (p.key, String.ofList p.value)

theorem readPairs_param (h : p.Legal) (hfits : p.quoted = true → p.afterEq = []) {rest : List Char}
    (hrest : ∀ c ∈ rest.head?, c = ',') {gap : List Char} (hgap : ∀ c ∈ gap, isBlank c = true) (n : Nat) :
    readPairs (n + 1) (p.text ++ (gap ++ rest)) = p.pair :: readPairs n rest := by
  obtain ⟨hvalue, seps, hseps, hafter⟩ := readValue_param h hfits hrest gap hgap
  have hbefore : ∀ c ∈ p.beforeEq, isBlank c = true := fun c hc => h.blanks c (by simp [hc])
  have hinput : p.text ++ (gap ++ rest) = (p.name ++ p.beforeEq) ++ '=' :: (p.afterEq ++ p.body ++ (gap ++ rest)) := by
    simp [Param.text]
  have hkeys : ∀ c ∈ p.name ++ p.beforeEq, isKeyChar c = true := by
    intro c hc
    rcases mem_append.1 hc with hc | hc
    · exact (token_facts (h.name.2 c hc)).2.1
    · exact (blank_facts (hbefore c hc)).2.1
  have hstart : (p.text ++ (gap ++ rest)).dropWhile isSeparator = p.text ++ (gap ++ rest) := by
    obtain ⟨c, cs, hcs⟩ := exists_cons_of_ne_nil h.name.1
    have hc : isSeparator c = false := (token_facts (h.name.2 c (by rw [hcs]; exact mem_cons_self))).1
    rw [hinput, hcs]
    exact dropWhile_cons_of_neg (by rw [hc]; exact Bool.false_ne_true)
  have hkey : trim (p.name ++ p.beforeEq) = p.name := by
    have hpadded := trim_padded (a := []) nofun hbefore h.name.1 fun c hc => (token_facts (h.name.2 c hc)).2.2.1
    rwa [nil_append] at hpadded
  have hlower : asciiLower p.name ≠ [] := fun heq => h.name.1 (map_eq_nil_iff.1 heq)
  rw [readPairs]
  rw [hstart, hinput, takeWhile_append_of_pos hkeys, dropWhile_append_of_pos hkeys]
  have hmark : isKeyChar '=' = false := by decide
  rw [takeWhile_cons_of_neg (by rw [hmark]; exact Bool.false_ne_true), append_nil, hkey,
    dropWhile_cons_of_neg (by rw [hmark]; exact Bool.false_ne_true)]
  dsimp only
  rw [if_pos rfl, if_neg hlower, hvalue, hafter, readPairs_separators hseps]
  rfl

/-! ## Headers -/

variable {ps : List Param}

theorem moreParams_start (h : ∀ p ∈ ps, p.Legal) :
    ∃ gap rest, moreParams ps = gap ++ rest ∧ (∀ c ∈ gap, isBlank c = true) ∧ ∀ c ∈ rest.head?, c = ',' := by
  rcases ps with _ | ⟨p, ps⟩
  · exact ⟨[], [], rfl, nofun, nofun⟩
  · refine ⟨p.beforeComma, ',' :: (p.afterComma ++ p.text) ++ moreParams ps, ?_, fun c hc => ?_, ?_⟩
    · rw [moreParams, flatMap_cons, append_assoc]
      rfl
    · exact (h p mem_cons_self).blanks c (by simp [hc])
    · rintro c ⟨⟩
      rfl

theorem readPairs_cons (h : ∀ q ∈ p :: ps, q.Legal)
    (hfits : p.quoted = true → p.afterEq = []) (n : Nat) :
    readPairs (n + 1) (p.text ++ moreParams ps) = p.pair :: readPairs n (moreParams ps) := by
  rw [forall_mem_cons] at h
  obtain ⟨gap, rest, hmore, hgap, hrest⟩ := moreParams_start h.2
  rw [hmore, readPairs_param h.1 hfits hrest hgap, readPairs_separators fun c hc => (blank_facts (hgap c hc)).1]

theorem readPairs_more (h : ∀ p ∈ ps, p.Legal) (hfits : ∀ p ∈ ps, p.quoted = true → p.afterEq = [])
    (n : Nat) : readPairs (n + ps.length) (moreParams ps) = ps.map Param.pair := by
  induction ps with
  | nil => cases n <;> rfl
  | cons p ps ih =>
    have hseps : ∀ c ∈ p.beforeComma ++ ',' :: p.afterComma, isSeparator c = true := by
      intro c hc
      rw [mem_append, mem_cons] at hc
      rcases hc with hc | rfl | hc
      · exact (blank_facts ((h p mem_cons_self).blanks c (by simp [hc]))).1
      · rfl
      · exact (blank_facts ((h p mem_cons_self).blanks c (by simp [hc]))).1
    have hinput : moreParams (p :: ps) = (p.beforeComma ++ ',' :: p.afterComma) ++ (p.text ++ moreParams ps) := by
      simp [moreParams]
    have hlength : n + (p :: ps).length = n + ps.length + 1 := rfl
    rw [hinput, readPairs_separators hseps, hlength, readPairs_cons h (hfits p mem_cons_self),
      ih (fun q hq => h q (mem_cons_of_mem p hq)) fun q hq => hfits q (mem_cons_of_mem p hq)]
    rfl

def EndsVisible (cs : List Char) : Prop := ∃ front d, cs = front ++ [d] ∧ isWhitespace d = false

theorem EndsVisible.append (h : EndsVisible cs) (before : List Char) : EndsVisible (before ++ cs) := by
  obtain ⟨front, d, rfl, hd⟩ := h
  exact ⟨before ++ front, d, (append_assoc ..).symm, hd⟩

theorem endsVisible_text (h : p.Legal) : EndsVisible p.text := by
  have hvalue := h.value
  have hbody : EndsVisible p.body := by
    unfold Param.body
    split_ifs with hquoted
    · exact ⟨'"' :: p.value, '"', rfl, by decide⟩
    · rw [if_neg hquoted] at hvalue
      obtain ⟨front, d, hd⟩ := (eq_nil_or_concat p.value).resolve_left hvalue.1
      rw [concat_eq_append] at hd
      exact ⟨front, d, hd, (token_facts (hvalue.2 d (by simp [hd]))).2.2.1⟩
  exact ((hbody.append p.afterEq).append ['=']).append (p.name ++ p.beforeEq)

theorem endsVisible_more (h : ∀ p ∈ ps, p.Legal) (hcs : EndsVisible cs) :
    EndsVisible (cs ++ moreParams ps) := by
  induction ps generalizing cs with
  | nil => rwa [moreParams, flatMap_nil, append_nil]
  | cons p ps ih =>
    rw [forall_mem_cons] at h
    have hstart : EndsVisible (cs ++ (p.beforeComma ++ ',' :: (p.afterComma ++ p.text))) :=
      ((((endsVisible_text h.1).append p.afterComma).append [',']).append p.beforeComma).append cs
    have hrest := ih h.2 hstart
    rwa [append_assoc] at hrest

theorem find?_reverse_of_unique {α : Type} {test : α → Bool} {l : List α}
    (h : ∀ a ∈ l, ∀ b ∈ l, test a = true → test b = true → a = b) : l.reverse.find? test = l.find? test := by
  rcases hfind : l.find? test with _ | a
  · rw [find?_eq_none] at hfind ⊢
    exact fun b hb => hfind b (mem_reverse.1 hb)
  · have ha := mem_of_find?_eq_some hfind
    obtain ⟨b, hb⟩ := Option.isSome_iff_exists.1 (find?_isSome.2 ⟨a, mem_reverse.2 ha, find?_some hfind⟩)
    rw [hb, h b (mem_reverse.1 (mem_of_find?_eq_some hb)) a ha (find?_some hb) (find?_some hfind)]

theorem pairValue_pairs (h : (ps.map Param.key).Nodup) (name : String) :
    pairValue (ps.map Param.pair) name = given ps name := by
  have hunique : ∀ p ∈ ps, ∀ q ∈ ps, decide (p.key = name) = true → decide (q.key = name) = true → p = q :=
    fun p hp q hq hpn hqn => inj_on_of_nodup_map h hp hq ((of_decide_eq_true hpn).trans (of_decide_eq_true hqn).symm)
  rw [pairValue, given, ← map_reverse, find?_map, Option.map_map]
  have hfind : ps.reverse.find? ((fun x => decide (x.1 = name)) ∘ Param.pair) = ps.find? (·.key = name) :=
    find?_reverse_of_unique hunique
  rw [hfind]
  rfl

theorem scheme_stripped {scheme : List Char} (h : scheme = "Digest".toList ∨ scheme = "digest".toList) (rest : List Char) :
    ("Digest ".toList.isPrefixOf (scheme ++ ' ' :: rest) || "digest ".toList.isPrefixOf (scheme ++ ' ' :: rest)) = true ∧
      (scheme ++ ' ' :: rest).drop 7 = rest ∧ Visible scheme ∧ scheme ≠ [] := by
  rcases h with rfl | rfl
  · exact ⟨rfl, rfl, by decide, by decide⟩
  · exact ⟨rfl, rfl, by decide, by decide⟩

/-- **Challenges are read as they are written**, where the header fits. No header is sliced within a character, and each is
read to its end in as many rounds as it has bytes. -/
theorem parse_header (scheme : List Char) (ps : List Param) : ((∀ p ∈ ps, p.Legal) → (ps.map Param.key).Nodup →
      Fits scheme ps → DigestChallenge.parse (String.ofList (header scheme ps)) = .ok (some (challengeOf ps))) ∧
      (∀ headerValue, ∃ c, DigestChallenge.parse headerValue = .ok c) ∧
      ∀ input rounds, (asBytes input).length ≤ rounds →
        parseAuthPairs input (asBytes input) rounds 0 = parseAuthPairs input (asBytes input) (asBytes input).length 0 := by
  refine ⟨fun hlegal hdistinct hfits => ?_, fun headerValue => ?_, fun input rounds hle => ?_⟩
  case refine_2 =>
    unfold DigestChallenge.parse
    dsimp only
    split_ifs
    · rw [parseAuthPairs_start (Nat.le_refl _)]
      exact ⟨_, rfl⟩
    · exact ⟨_, rfl⟩
  case refine_3 => rw [parseAuthPairs_start hle, parseAuthPairs_start (Nat.le_refl _)]
  obtain ⟨hne, hscheme, hquotes⟩ := hfits
  obtain ⟨p, ps, rfl⟩ := exists_cons_of_ne_nil hne
  have hrest := (forall_mem_cons.1 hlegal).2
  obtain ⟨hstripped, hdrop, hvisible, hnonempty⟩ := scheme_stripped hscheme (p.afterComma ++ p.text ++ moreParams ps)
  have htrim : trim (header scheme (p :: ps)) = header scheme (p :: ps) := by
    obtain ⟨front, d, hend, hd⟩ := endsVisible_more hrest ((endsVisible_text (hlegal p mem_cons_self)).append p.afterComma)
    have hbetween := trim_between hvisible (b := [d]) (fun c hc => by rwa [mem_singleton.1 hc]) hnonempty nofun (' ' :: front)
    rwa [append_assoc, cons_append, ← hend] at hbetween
  have hpairs : readPairs (p.afterComma ++ p.text ++ moreParams ps).length (p.afterComma ++ p.text ++ moreParams ps) =
      (p :: ps).map Param.pair := by
    have hseps : ∀ c ∈ p.afterComma, isSeparator c = true := fun c hc =>
      (blank_facts ((hlegal p mem_cons_self).blanks c (by simp [hc]))).1
    rw [← readPairs_of_le (Nat.le_add_right _ (ps.length + 1)), ← Nat.add_assoc, append_assoc,
      readPairs_separators hseps, readPairs_cons hlegal (hquotes p mem_cons_self),
      readPairs_more hrest fun q hq => hquotes q (mem_cons_of_mem p hq)]
    rfl
  have htext : (String.ofList (header scheme (p :: ps))).toList = header scheme (p :: ps) := String.toList_ofList
  rw [DigestChallenge.parse, htext, htrim, header, hdrop]
  dsimp only
  rw [if_pos hstripped, parseAuthPairs_start (Nat.le_refl _), hpairs]
  simp only [Except.map, pairValue_pairs hdistinct]
  rfl

/-! ## Two headers -/

def realmParam (afterEq : List Char) : Param where
  name := "Realm".toList
  value := "a, b".toList
  quoted := true
  beforeEq := [' ']
  afterEq
  beforeComma := []
  afterComma := []

theorem legal_realm {afterEq : List Char} (h : ∀ c ∈ afterEq, isBlank c = true) : (realmParam afterEq).Legal := by
  refine ⟨⟨(by decide : "Realm".toList ≠ []), all_eq_true.1 rfl⟩,
    (by decide : '"' ∉ "a, b".toList ∧ '\\' ∉ "a, b".toList), fun c hc => ?_⟩
  rw [realmParam, append_nil, append_nil, mem_append, mem_singleton] at hc
  rcases hc with rfl | hc
  · rfl
  · exact h c hc

theorem parse_header_realm : DigestChallenge.parse "Digest Realm =\"a, b\"" = .ok (some (challengeOf [realmParam []])) := by
  have hparse := (parse_header "Digest".toList [realmParam []]).1 (fun p hp => by
    rw [mem_singleton.1 hp]
    exact legal_realm nofun) (nodup_singleton _) ⟨nofun, .inl rfl, fun p hp _ => by rw [mem_singleton.1 hp]; rfl⟩
  exact hparse

/-- **A scheme in capitals, and a blank in front of a quote**: the first header is no challenge, and the realm of the second is
cut at the comma, its quote included. -/
theorem spellings_are_misread : (realmParam []).Legal ∧ (realmParam [' ']).Legal ∧
      (DigestChallenge.parse (String.ofList (header "DIGEST".toList [realmParam []]))).map (·.isNone) = .ok true ∧
      (DigestChallenge.parse (String.ofList (header "Digest".toList [realmParam [' ']]))).map (·.map (·.realm)) =
        .ok (some "\"a") ∧
      (challengeOf [realmParam [' ']]).realm = "a, b" :=
  ⟨legal_realm nofun, legal_realm (all_eq_true.1 rfl), by decide +kernel, by decide +kernel, by decide +kernel⟩

end LetsFlutSsh.WebDav
