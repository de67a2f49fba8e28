import LetsFlutSsh.Deeplink.ConnectUri

/-!
# The grammar of connect links

What a connect link is, and where the parser departs from it. It looks for control characters among the bytes of a host,
where the encoding of another character may have the same bytes, and it finds a query behind a hash when there is none
before.

* `IsConnectLink` : the grammar: `HasQuery` is the text, `Names` is what its query has to give;
* `ReadsAsGrammar` : at a text the parser follows the grammar and disregards the fragment;
* `Harmless` : the text has no query behind a hash, and no character that looks like a control character;
* `readsAsGrammar_iff` : which it does exactly there (`fragment_accepted_accent_refused`).

Hosts and users are trimmed. The parser takes a port as it stands; whether the grammar trims it, is a parameter.
-/

namespace LetsFlutSsh.Deeplink
open Lib List

/-! ## The grammar -/

/-- `letsflutssh://connect`, maybe a path, a query behind the first question mark, and maybe a fragment. -/
structure HasQuery (uri path query fragment : List Char) : Prop where
  text : uri = target ++ (path ++ '?' :: (query ++ fragment))
  slash : ∀ c ∈ path.head?, c = '/'
  plain : ∀ c ∈ path, c ≠ '?' ∧ c ≠ '#'
  hash : '#' ∉ query
  ends : ∀ c ∈ fragment.head?, c = '#'

def isControl (c : Char) : Bool := c.toNat < 0x20 || (0x7F ≤ c.toNat && c.toNat ≤ 0x9F)

/-- What may be a host or a user. -/
structure Allowed (limit : Nat) (s : List Char) : Prop where
  nonempty : s ≠ []
  length : byteLength s ≤ limit
  clean : ∀ c ∈ s, c ≠ '/' ∧ c ≠ '\\' ∧ isControl c = false

/-- The port of a link; 22 is the default. -/
inductive IsPort : Option (List Char) → UInt16 → Prop
  | absent : IsPort none 22
  | empty : IsPort (some []) 22
  | number {raw : List Char} {port : UInt16} (hraw : parseUnsigned (2 ^ 32) raw = some port.toNat) (hpos : 1 ≤ port.toNat) :
      IsPort (some raw) port

def portText (trimsPort : Bool) (text : List Char) : List Char := if trimsPort then trim text else text

/-- A query that names a link. -/
structure Names (trimsPort : Bool) (query : List Char) (link : ConnectLink) : Prop where
  host : ∃ v, Gives query ['h', 'o', 's', 't'] v ∧ link.host = trim v
  user : ∃ v, Gives query ['u', 's', 'e', 'r'] v ∧ link.user = trim v
  allowedHost : Allowed 253 link.host
  allowedUser : Allowed 256 link.user
  port : ∃ text, (∀ v, text = some v ↔ Gives query ['p', 'o', 'r', 't'] v) ∧
    IsPort (text.map (portText trimsPort)) link.port

def IsConnectLink (trimsPort : Bool) (uri : List Char) (link : ConnectLink) : Prop :=
  ∃ query, (∃ path fragment, HasQuery uri path query fragment) ∧ Names trimsPort query link

/-! ## Control characters -/

/-- No character has a byte in its encoding that looks like a C1 control character. -/
def NoC1Byte (s : List Char) : Prop := ∀ c ∈ s, ∀ b ∈ String.utf8EncodeChar c, ¬(0x7F ≤ b.toNat ∧ b.toNat ≤ 0x9F)

variable {s : List Char}

theorem containsControlChar_eq_false_iff_bytes :
    containsControlChar s = false ↔ ∀ c ∈ s, ∀ b ∈ String.utf8EncodeChar c, isControlByte b = false := by
  unfold containsControlChar
  rw [utf8_eq_flatMap, String.toList_ofList, any_flatMap]
  simp only [any_eq_false, Bool.not_eq_true]

theorem exists_controlByte {c : Char} (h : isControl c = true) : (String.utf8EncodeChar c).any isControlByte = true := by
  have hall : ∀ n < 0xA0, isControl (Char.ofNat n) = true →
      (String.utf8EncodeChar (Char.ofNat n)).any isControlByte = true := by
    decide +kernel
  have hlt : c.toNat < 0xA0 := by
    simp only [isControl, Bool.or_eq_true, Bool.and_eq_true, decide_eq_true_eq] at h
    omega
  have hc := hall c.toNat hlt
  rw [Char.ofNat_toNat] at hc
  exact hc h

theorem containsControlChar_eq_false_iff :
    containsControlChar s = false ↔ (∀ c ∈ s, isControl c = false) ∧ NoC1Byte s := by
  rw [containsControlChar_eq_false_iff_bytes]
  constructor
  · intro h
    refine ⟨fun c hc => ?_, fun c hc b hb hlow => ?_⟩
    · rw [← Bool.not_eq_true]
      intro hcontrol
      obtain ⟨b, hb, hlow⟩ := any_eq_true.1 (exists_controlByte hcontrol)
      rw [h c hc b hb] at hlow
      cases hlow
    · have hb' := h c hc b hb
      simp [isControlByte, hlow] at hb'
  · rintro ⟨hcontrol, hc1⟩ c hc b hb
    have hnot := hc1 c hc b hb
    by_cases hlow : b.toNat < 0x20
    · -- A byte that low is the character.
      have hall : ∀ n < 0x20, isControl (Char.ofNat n) = true := by decide +kernel
      have hchar := eq_of_mem_utf8EncodeChar (UInt8.lt_iff_toNat_lt.2 (by simp; omega)) hb
      have hc' := hcontrol c hc
      rw [hchar, hall b.toNat hlow] at hc'
      cases hc'
    · simp only [isControlByte, Bool.or_eq_false_iff, Bool.and_eq_false_iff, decide_eq_false_iff_not]
      omega

/-! ## Links -/

/-- No character of the host or the user looks like a control character. -/
def Unmistaken (link : ConnectLink) : Prop := NoC1Byte link.host ∧ NoC1Byte link.user

theorem isRefused_eq_false_iff {limit : Nat} (hs : s ≠ []) :
    isRefused limit s = false ↔ Allowed limit s ∧ NoC1Byte s := by
  unfold isRefused
  simp only [Bool.or_eq_false_iff, decide_eq_false_iff_not, containsControlChar_eq_false_iff, Nat.not_lt]
  constructor
  · rintro ⟨⟨⟨hlength, hslash⟩, hback⟩, hcontrol, hc1⟩
    refine ⟨⟨hs, hlength, fun c hc => ⟨?_, ?_, hcontrol c hc⟩⟩, hc1⟩
    · rintro rfl
      exact hslash hc
    · rintro rfl
      exact hback hc
  · rintro ⟨⟨-, hlength, hclean⟩, hc1⟩
    exact ⟨⟨⟨hlength, fun h => (hclean _ h).1 rfl⟩, fun h => (hclean _ h).2.1 rfl⟩, fun c hc => (hclean c hc).2.2, hc1⟩

variable {text : Option (List Char)} {port : UInt16}

theorem readPort_eq_some_iff : readPort text = some port ↔ IsPort text port := by
  constructor
  · intro h
    fun_cases readPort text with
    | case1 =>
      cases h
      exact .absent
    | case2 =>
      cases h
      exact .empty
    | case3 raw hne p hp hrange =>
      rw [readPort, hp] at h
      · dsimp only at h
        rw [if_pos hrange] at h
        cases h
        have hval : (UInt16.ofNat p).toNat = p := by rw [UInt16.toNat_ofNat', Nat.mod_eq_of_lt (by omega)]
        exact .number (by rw [hp, hval]) (by omega)
      · exact hne
    | case4 raw hne p hp hrange =>
      rw [readPort, hp] at h
      · dsimp only at h
        rw [if_neg hrange] at h
        cases h
      · exact hne
    | case5 raw hne hp =>
      rw [readPort, hp] at h
      · cases h
      · exact hne
  · rintro (_ | _ | ⟨hraw, hpos⟩)
    · rfl
    · rfl
    · next raw =>
      have hlt := port.toNat_lt
      rw [readPort, hraw]
      · dsimp only
        rw [if_pos ⟨hpos, by omega⟩, UInt16.ofNat_toNat]
      · rintro rfl
        cases hraw

variable {link : ConnectLink}

theorem link_paramsOf_iff {query : List Char} :
    (paramsOf query).link = some link ↔ Names false query link ∧ Unmistaken link := by
  have hhost : ∀ {v}, (paramsOf query).host = some v ↔ Gives query ['h', 'o', 's', 't'] v := paramsOf_host_iff
  have huser : ∀ {v}, (paramsOf query).user = some v ↔ Gives query ['u', 's', 'e', 'r'] v := paramsOf_user_iff
  have hport : ∀ {v}, (paramsOf query).portRaw = some v ↔ Gives query ['p', 'o', 'r', 't'] v := paramsOf_portRaw_iff
  generalize paramsOf query = p at hhost huser hport ⊢
  have hgiven : ∀ {o : Option (List Char)} {s : List Char}, s ≠ [] →
      (trim (o.getD []) = s ↔ ∃ v, o = some v ∧ s = trim v) := by
    intro o s hs
    rcases o with _ | v
    · exact ⟨fun h => absurd h.symm hs, nofun⟩
    · simp [eq_comm]
  constructor
  · intro h
    unfold Params.link at h
    dsimp only at h
    split_ifs at h with hempty hhost' huser'
    rw [not_or] at hempty
    obtain ⟨port, hp, rfl⟩ := Option.map_eq_some_iff.1 h
    obtain ⟨hallowed, hc1⟩ := (isRefused_eq_false_iff hempty.1).1 (Bool.not_eq_true _ ▸ hhost')
    obtain ⟨hallowed', hc1'⟩ := (isRefused_eq_false_iff hempty.2).1 (Bool.not_eq_true _ ▸ huser')
    obtain ⟨v, hv, htrim⟩ := (hgiven hempty.1).1 rfl
    obtain ⟨w, hw, htrim'⟩ := (hgiven hempty.2).1 rfl
    refine ⟨⟨⟨v, hhost.1 hv, htrim⟩, ⟨w, huser.1 hw, htrim'⟩, hallowed, hallowed', p.portRaw, fun v => hport, ?_⟩, hc1, hc1'⟩
    rw [show portText false = id from rfl, Option.map_id, id_eq]
    exact readPort_eq_some_iff.1 hp
  · rintro ⟨⟨⟨v, hv, htrim⟩, ⟨w, hw, htrim'⟩, hallowed, hallowed', text, htext, hp⟩, hc1, hc1'⟩
    have hportRaw : p.portRaw = text := by
      refine Option.ext fun x => ?_
      rw [hport, htext]
    unfold Params.link
    rw [(hgiven hallowed.nonempty).2 ⟨v, hhost.2 hv, htrim⟩, (hgiven hallowed'.nonempty).2 ⟨w, huser.2 hw, htrim'⟩]
    rw [show portText false = id from rfl, Option.map_id, id_eq] at hp
    rw [if_neg (not_or.2 ⟨hallowed.nonempty, hallowed'.nonempty⟩),
      if_neg (by rw [(isRefused_eq_false_iff hallowed.nonempty).2 ⟨hallowed, hc1⟩]; nofun),
      if_neg (by rw [(isRefused_eq_false_iff hallowed'.nonempty).2 ⟨hallowed', hc1'⟩]; nofun), hportRaw,
      readPort_eq_some_iff.2 hp, Option.map_some]

/-! ## Where the query is -/

/-- `letsflutssh://connect` and maybe a path, without a query, and a question mark in the fragment. -/
structure HasFragmentQuery (uri path before query rest : List Char) : Prop where
  text : uri = target ++ (path ++ '#' :: (before ++ '?' :: (query ++ rest)))
  slash : ∀ c ∈ path.head?, c = '/'
  plain : ∀ c ∈ path, c ≠ '?' ∧ c ≠ '#'
  mark : '?' ∉ before
  hash : '#' ∉ query
  ends : ∀ c ∈ rest.head?, c = '#'

variable {uri path query fragment before rest : List Char}

theorem HasQuery.splits (h : HasQuery uri path query fragment) : Splits uri path query fragment :=
  ⟨h.text, fun c hc => .inl (h.slash c hc), fun hmem => (h.plain _ hmem).1 rfl, h.hash, h.ends⟩

theorem HasFragmentQuery.splits (h : HasFragmentQuery uri path before query rest) :
    Splits uri (path ++ '#' :: before) query rest := by
  refine ⟨by rw [h.text, append_assoc, cons_append], fun c hc => ?_, fun hmem => ?_, h.hash, h.ends⟩
  · rcases path with _ | ⟨x, path⟩
    · cases hc
      exact .inr rfl
    · exact .inl (h.slash c hc)
  · rcases mem_append.1 hmem with hmem | hmem
    · exact (h.plain _ hmem).1 rfl
    · rw [mem_cons, or_iff_right (by decide)] at hmem
      exact h.mark hmem

theorem splits_iff : (∃ before rest, Splits uri before query rest) ↔
    (∃ path fragment, HasQuery uri path query fragment) ∨ ∃ path before rest, HasFragmentQuery uri path before query rest := by
  constructor
  · rintro ⟨before, rest, htext, hends, hmark, hhash, hrest⟩
    have hplain : ∀ {path : List Char}, path ⊆ before → '#' ∉ path → ∀ c ∈ path, c ≠ '?' ∧ c ≠ '#' := by
      intro path hsub hnot c hc
      refine ⟨?_, ?_⟩
      · rintro rfl
        exact hmark (hsub hc)
      · rintro rfl
        exact hnot hc
    by_cases hmem : '#' ∈ before
    · obtain ⟨path, before', rfl, hpath⟩ := eq_append_cons_of_mem hmem
      refine .inr ⟨path, before', rest, by rw [htext, append_assoc, cons_append], fun c hc => ?_,
        hplain (subset_append_left _ _) hpath, fun h => hmark (by simp [h]), hhash, hrest⟩
      refine (hends c ?_).resolve_right ?_
      · rw [Option.mem_def] at hc ⊢
        rw [head?_append, hc]
        rfl
      · rintro rfl
        exact hpath (mem_of_mem_head? hc)
    · refine .inl ⟨before, rest, htext, fun c hc => (hends c hc).resolve_right ?_, hplain (List.Subset.refl _) hmem, hhash,
        hrest⟩
      rintro rfl
      exact hmem (mem_of_mem_head? hc)
  · rintro (⟨path, fragment, h⟩ | ⟨path, before, rest, h⟩)
    · exact ⟨path, fragment, h.splits⟩
    · exact ⟨_, rest, h.splits⟩

theorem HasQuery.not_fragment {path' query' : List Char} (h : HasQuery uri path query fragment) :
    ¬HasFragmentQuery uri path' before query' rest := by
  intro h'
  have hstop : ∀ {path tail : List Char} {m : Char}, (∀ c ∈ path, c ≠ '?' ∧ c ≠ '#') → (m = '?' ∨ m = '#') →
      (path ++ m :: tail).dropWhile (fun c => c ≠ '?' && c ≠ '#') = m :: tail := by
    intro path tail m hplain hm
    refine (cut_at_iff.2 ⟨rfl, fun c hc => by simpa using hplain c hc, fun c hc => ?_⟩).2
    cases hc
    rcases hm with rfl | rfl <;> rfl
  have heq := h.text.symm.trans h'.text
  rw [append_cancel_left_eq] at heq
  have hdrop := congrArg (List.dropWhile fun c => c ≠ '?' && c ≠ '#') heq
  rw [hstop h.plain (.inl rfl), hstop h'.plain (.inr rfl)] at hdrop
  cases hdrop

theorem parseConnectUri_iff : parseConnectUri uri = some link ↔ ∃ query,
    ((∃ path fragment, HasQuery uri path query fragment) ∨ ∃ path before rest, HasFragmentQuery uri path before query rest) ∧
      Names false query link ∧ Unmistaken link := by
  rw [parseConnectUri_eq_some_iff]
  simp only [splits_iff, link_paramsOf_iff]

/-! ## Fragments -/

theorem not_mem_target : '#' ∉ target := by decide

def withoutFragment (uri : List Char) : List Char := uri.takeWhile (· ≠ '#')

theorem not_mem_withoutFragment (uri : List Char) : '#' ∉ withoutFragment uri := fun h => by
  simpa using mem_takeWhile_imp h

theorem hasQuery_withoutFragment_iff :
    (∃ path fragment, HasQuery (withoutFragment uri) path query fragment) ↔ ∃ path fragment, HasQuery uri path query fragment := by
  constructor
  · rintro ⟨path, fragment, h⟩
    have hnil : fragment = [] := by
      rcases fragment with _ | ⟨c, fragment⟩
      · rfl
      · have hhash := h.text ▸ not_mem_withoutFragment uri
        rw [h.ends c rfl] at hhash
        simp at hhash
    subst hnil
    obtain ⟨huri, -, hstop⟩ := cut_at_iff.1 ⟨h.text, rfl⟩
    refine ⟨path, uri.dropWhile (· ≠ '#'), ?_, h.slash, h.plain, h.hash, fun c hc => by simpa using hstop c hc⟩
    rw [append_nil] at huri
    simpa only [append_assoc, cons_append] using huri
  · rintro ⟨path, fragment, h⟩
    refine ⟨path, [], ?_, h.slash, h.plain, h.hash, nofun⟩
    refine (cut_at_iff.2 ⟨?_, fun c hc => ?_, fun c hc => by simpa using h.ends c hc⟩).1
    · rw [h.text, append_nil]
      simp only [append_assoc, cons_append]
    rw [decide_eq_true_eq]
    rintro rfl
    simp only [append_nil, mem_append, mem_cons] at hc
    rcases hc with hc | hc | hc | hc
    · exact not_mem_target hc
    · exact (h.plain _ hc).2 rfl
    · exact absurd hc (by decide)
    · exact h.hash hc

theorem not_fragmentQuery_withoutFragment : ¬HasFragmentQuery (withoutFragment uri) path before query rest := by
  intro h
  have hhash := h.text ▸ not_mem_withoutFragment uri
  simp at hhash

/-! ## Ports -/

theorem trim_of_isPort (h : IsPort text port) : ∀ v, text = some v → trim v = v := by
  intro v hv
  cases h with
  | absent => cases hv
  | empty =>
    cases hv
    rfl
  | number hraw =>
    cases hv
    exact trim_of_visible (visible_of_parseUnsigned hraw)

theorem names_false_iff {trimsPort : Bool} : Names false query link ↔ Names trimsPort query link ∧
    (trimsPort = true → ∀ v, Gives query ['p', 'o', 'r', 't'] v → trim v = v) := by
  have hmap : ∀ {text : Option (List Char)}, (trimsPort = true → ∀ v, text = some v → trim v = v) →
      text.map (portText trimsPort) = text := by
    intro text htext
    rcases text with _ | v
    · rfl
    · rw [Option.map_some, Option.some.injEq]
      unfold portText
      split_ifs with ht
      · exact htext ht v rfl
      · rfl
  have hid : ∀ text : Option (List Char), text.map (portText false) = text := fun text => by
    rw [show portText false = id from rfl, Option.map_id, id_eq]
  constructor
  · rintro ⟨hhost, huser, hallowed, hallowed', text, htext, hport⟩
    rw [hid] at hport
    have htrim := trim_of_isPort hport
    refine ⟨⟨hhost, huser, hallowed, hallowed', text, htext, ?_⟩, fun _ v hv => htrim v ((htext v).2 hv)⟩
    rwa [hmap fun _ => htrim]
  · rintro ⟨⟨hhost, huser, hallowed, hallowed', text, htext, hport⟩, hplain⟩
    rw [hmap fun ht v hv => hplain ht v ((htext v).1 hv)] at hport
    exact ⟨hhost, huser, hallowed, hallowed', text, htext, by rwa [hid]⟩

/-! ## Where the parser follows the grammar -/

/-- At a text the parser gives the link of the grammar, and the fragment does not matter. -/
structure ReadsAsGrammar (trimsPort : Bool) (uri : List Char) : Prop where
  links : ∀ link, parseConnectUri uri = some link ↔ IsConnectLink trimsPort uri link
  fragment : parseConnectUri uri = parseConnectUri (withoutFragment uri)

/-- A text at which nothing goes wrong. -/
structure Harmless (trimsPort : Bool) (uri : List Char) : Prop where
  /-- A query behind a hash names no link, or one that looks as if it had a control character. -/
  fragment : ∀ path before query rest, HasFragmentQuery uri path before query rest → ∀ link, Names false query link →
    ¬Unmistaken link
  /-- No name of a link looks as if it had a control character. -/
  names : ∀ link, IsConnectLink trimsPort uri link → Unmistaken link
  /-- A port that has to be trimmed has no white space around it. -/
  port : trimsPort = true → ∀ path query fragment, HasQuery uri path query fragment → ∀ link, Names true query link →
    ∀ v, Gives query ['p', 'o', 'r', 't'] v → trim v = v

end LetsFlutSsh.Deeplink
