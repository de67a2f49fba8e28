import LetsFlutSsh.Deeplink.LinkGrammar
import LetsFlutSsh.Hosts.KnownHostsParser

/-!
# Connect targets

The text `[user@]host[:port]` of the field that fills in a session.

* `parseSshTarget` : its parts;
* `SshTarget.text`, `Writable` : what is written for a target, and the targets the grammar has;
* `parseSshTarget_text` : what written targets are read as;
* `readsTargets_iff` : when a target is read back, and when an IPv6 address without brackets is not cut.
-/

namespace LetsFlutSsh.Sessions
open Lib Deeplink List Option

structure SshTarget where
  host : List Char
  port : Option UInt16
  user : Option (List Char)
deriving DecidableEq

def splitHostPort (rest : List Char) : Option (List Char × Option (List Char)) :=
  match rest with
  | '[' :: stripped =>
    match splitOnce ']' stripped with
    | some (host, []) => some (host, none)
    | some (host, ':' :: port) => some (host, some port)
    | _ => none
  | _ =>
    match rsplitOnce ':' rest with
    | some (host, port) => some (host, some port)
    | none => some (rest, none)

/-- The digits name a port. -/
def portOf (p : List Char) : Option UInt16 :=
  match parseUnsigned (2 ^ 32) p with
  | some n => if 1 ≤ n ∧ n ≤ 65535 then some (UInt16.ofNat n) else none
  | none => none

def optionalPort : Option (List Char) → Option (Option UInt16)
  | none => some none
  | some [] => some none
  | some p => (portOf p).map some

/-- What follows the user. `isRefused` is the bound on the length and `contains_invalid`. -/
def parseRest (user : Option (List Char)) (rest : List Char) : Option SshTarget :=
  match splitHostPort rest with
  | none => none
  | some (host, portPart) =>
    if host = [] ∨ isRefused 253 host then none else (optionalPort portPart).map fun port => { host, port, user }

def parseSshTarget (input : List Char) : Option SshTarget :=
  let s := trim input
  if s = [] then none
  else
    match rsplitOnce '@' s with
    | some (candidate, rest) =>
      if candidate = [] ∨ isRefused 256 candidate then none else parseRest (some candidate) rest
    | none => parseRest none s

example : parseSshTarget " root@[2001:db8::1]:22 ".toList = some ⟨"2001:db8::1".toList, some 22, some "root".toList⟩ := by
  decide +kernel

/-! ## The grammar -/

/-- No blanks around a text. -/
def Trimmed (s : List Char) : Prop := ∀ c, c ∈ s.head? ∨ c ∈ s.getLast? → isWhitespace c = false

/-- A name of the grammar. -/
structure Plain (limit : Nat) (s : List Char) : Prop extends Allowed limit s where
  brackets : '[' ∉ s ∧ ']' ∉ s
  blanks : Trimmed s

structure SshTarget.Writable (t : SshTarget) : Prop where
  host : Plain 253 t.host
  unsplit : '@' ∉ t.host
  user : ∀ u ∈ t.user, Plain 256 u
  port : ∀ p ∈ t.port, 1 ≤ p.toNat

/-- Only an IPv6 address has a colon. -/
def SshTarget.hostText (t : SshTarget) : List Char := if ':' ∈ t.host then '[' :: t.host ++ [']'] else t.host

def SshTarget.portText (t : SshTarget) : List Char := t.port.elim [] fun p => ':' :: Nat.toDigits 10 p.toNat

def SshTarget.text (t : SshTarget) : List Char := t.user.elim [] (· ++ ['@']) ++ (t.hostText ++ t.portText)

/-- An IPv6 address without brackets: a name with two colons. -/
structure Unbracketed (s : List Char) : Prop extends Plain 253 s where
  unsplit : '@' ∉ s
  colons : 2 ≤ s.count ':'
  ascii : NoC1Byte s

/-! ## Reading -/

theorem Trimmed.append {a b : List Char} (ha : Trimmed a) (hb : Trimmed b) : Trimmed (a ++ b) := by
  intro c hc
  rw [head?_append, getLast?_append, mem_def, mem_def, or_eq_some_iff, or_eq_some_iff] at hc
  rcases hc with (hc | ⟨-, hc⟩) | hc | ⟨-, hc⟩
  · exact ha c (.inl hc)
  · exact hb c (.inl hc)
  · exact hb c (.inr hc)
  · exact ha c (.inr hc)

variable {s : List Char}

theorem trimmed_of_visible (h : Visible s) : Trimmed s := by
  rintro c (hc | hc)
  · exact h c (mem_of_mem_head? hc)
  · exact h c (mem_of_mem_getLast? hc)

theorem Trimmed.trim_eq (h : Trimmed s) : trim s = s := by
  have hfront : s.dropWhile isWhitespace = s := by
    rcases s with _ | ⟨c, s⟩
    · rfl
    · exact dropWhile_cons_of_neg (by simp [h c (.inl rfl)])
  unfold trim
  rw [hfront]
  rcases eq_nil_or_concat s with rfl | ⟨s, c, rfl⟩
  · rfl
  · rw [concat_eq_append] at h ⊢
    exact rdropWhile_concat_neg _ _ _ (by simp [h c (.inr (by simp))])

theorem rsplitOnce_of_not_mem {sep : Char} {cs : List Char} (h : sep ∉ cs) : rsplitOnce sep cs = none := by
  rw [rsplitOnce, splitOnce_of_not_mem (by simpa using h), map_none]

theorem splitHostPort_of_head {rest : List Char} (h : '[' ∉ rest.head?) : splitHostPort rest =
    match rsplitOnce ':' rest with
    | some (host, port) => some (host, some port)
    | none => some (rest, none) := by
  unfold splitHostPort
  split
  · exact absurd rfl h
  · rfl

theorem portOf_toDigits {p : UInt16} (h : 1 ≤ p.toNat) : portOf (Nat.toDigits 10 p.toNat) = some p := by
  have hlt := p.toNat_lt
  rw [portOf, parseUnsigned_toDigits (by omega)]
  dsimp only
  rw [if_pos ⟨h, by omega⟩, UInt16.ofNat_toNat]

variable {t : SshTarget}

theorem splitHostPort_text (ht : t.Writable) : splitHostPort (t.hostText ++ t.portText) =
    some (t.host, t.port.map fun p => Nat.toDigits 10 p.toNat) := by
  obtain ⟨host, port, user⟩ := t
  have hbrackets := ht.host.brackets
  have hdigits : ∀ p : UInt16, ':' ∉ Nat.toDigits 10 p.toNat := fun p => Hosts.not_mem_toDigits (by decide) _
  unfold SshTarget.hostText SshTarget.portText
  dsimp only at hbrackets ⊢
  split_ifs with hcolon
  · rw [cons_append, cons_append, append_assoc, singleton_append]
    rw [splitHostPort, splitOnce_append hbrackets.2]
    cases port <;> rfl
  rw [splitHostPort_of_head fun hhead => ?_]
  · cases port with
    | none =>
      rw [elim_none, append_nil, rsplitOnce_of_not_mem hcolon]
      rfl
    | some p =>
      rw [elim_some, rsplitOnce_append (hdigits p)]
      rfl
  · rw [mem_def, head?_append_of_ne_nil _ ht.host.nonempty] at hhead
    exact hbrackets.1 (mem_of_mem_head? hhead)

theorem optionalPort_digits (ht : t.Writable) :
    optionalPort (t.port.map fun p => Nat.toDigits 10 p.toNat) = some t.port := by
  cases hport : t.port with
  | none => rfl
  | some p =>
    obtain ⟨c, cs, hcs, -⟩ := toDigits_cons p.toNat
    have hp := portOf_toDigits (ht.port p hport)
    rw [map_some, hcs] at *
    rw [optionalPort, hp, map_some]
    exact nofun

theorem trimmed_text (ht : t.Writable) : Trimmed t.text := by
  have hmark : Visible ['@', '[', ']', ':'] := by decide
  have hsingle : ∀ c ∈ ['@', '[', ']', ':'], Trimmed [c] := fun c hc =>
    trimmed_of_visible fun x hx => hmark x (mem_singleton.1 hx ▸ hc)
  have hhost : Trimmed t.hostText := by
    unfold SshTarget.hostText
    split_ifs
    · exact ((hsingle '[' (by decide)).append ht.host.blanks).append (hsingle ']' (by decide))
    · exact ht.host.blanks
  have hport : Trimmed t.portText := by
    unfold SshTarget.portText
    cases t.port with
    | none => exact fun c hc => by simp at hc
    | some p =>
      have hdigits := trimmed_of_visible (visible_of_parseUnsigned (parseUnsigned_toDigits p.toNat_lt))
      exact (hsingle ':' (by decide)).append hdigits
  unfold SshTarget.text
  cases huser : t.user with
  | none => exact hhost.append hport
  | some u => exact ((ht.user u huser).blanks.append (hsingle '@' (by decide))).append (hhost.append hport)

theorem parseRest_text (ht : t.Writable) (user : Option (List Char)) : parseRest user (t.hostText ++ t.portText) =
    if isRefused 253 t.host then none else some { t with user } := by
  rw [parseRest, splitHostPort_text ht]
  dsimp only
  rw [optionalPort_digits ht, map_some]
  simp only [ht.host.nonempty, false_or]

/-- The parser gives the target back, or refuses one of its names. -/
theorem parseSshTarget_text (ht : t.Writable) :
    parseSshTarget t.text = if t.user.any (isRefused 256) ∨ isRefused 253 t.host then none else some t := by
  have hat : '@' ∉ t.hostText ++ t.portText := by
    have hdigits : ∀ p : UInt16, '@' ∉ Nat.toDigits 10 p.toNat := fun p => Hosts.not_mem_toDigits (by decide) _
    unfold SshTarget.hostText SshTarget.portText
    cases t.port <;> split_ifs <;> simp [ht.unsplit, hdigits]
  have hne : t.hostText ++ t.portText ≠ [] := by
    unfold SshTarget.hostText
    split_ifs <;> simp [ht.host.nonempty]
  have hrest := parseRest_text ht
  have huser := ht.user
  unfold parseSshTarget
  rw [(trimmed_text ht).trim_eq]
  dsimp only
  unfold SshTarget.text
  obtain ⟨host, port, _ | u⟩ := t
  · rw [elim_none, nil_append, if_neg hne, rsplitOnce_of_not_mem hat]
    dsimp only
    rw [hrest]
    simp only [any_none, Bool.false_eq_true, false_or]
  · rw [elim_some, append_assoc, singleton_append, if_neg (by simp), rsplitOnce_append hat]
    dsimp only
    rw [hrest]
    simp only [(huser u rfl).nonempty, false_or, any_some]
    split_ifs <;> simp_all

theorem isRefused_iff {limit : Nat} (h : Allowed limit s) : isRefused limit s = true ↔ ¬NoC1Byte s := by
  rw [← Bool.not_eq_false, isRefused_eq_false_iff h.nonempty, and_iff_right h]

/-- What the parser takes for a port, or for the absence of one. -/
def PortLike (b : List Char) : Prop := b = [] ∨ ∃ n, parseUnsigned (2 ^ 32) b = some n ∧ 1 ≤ n ∧ n ≤ 65535

theorem optionalPort_eq_none_iff {b : List Char} : optionalPort (some b) = none ↔ ¬PortLike b := by
  unfold PortLike
  rcases b with _ | ⟨c, cs⟩
  · simp [optionalPort]
  · rw [optionalPort, map_eq_none_iff, portOf]
    · rcases parseUnsigned (2 ^ 32) (c :: cs) with _ | n <;> simp
    · nofun

theorem Unbracketed.front {a b : List Char} (h : Unbracketed (a ++ ':' :: b)) (hb : ':' ∉ b) :
    a ≠ [] ∧ isRefused 253 a = false := by
  have hne : a ≠ [] := by
    rintro rfl
    have hcolons := h.colons
    rw [nil_append, count_cons_self, count_eq_zero.2 hb] at hcolons
    omega
  have hsub : ∀ c ∈ a, c ∈ a ++ ':' :: b := fun c hc => mem_append_left _ hc
  have hlength : byteLength a ≤ 253 := by
    refine Nat.le_trans ?_ h.length
    simp [byteLength]
  exact ⟨hne, (isRefused_eq_false_iff hne).2
    ⟨⟨hne, hlength, fun c hc => h.clean c (hsub c hc)⟩, fun c hc => h.ascii c (hsub c hc)⟩⟩

theorem parseSshTarget_unbracketed {a b : List Char} (h : Unbracketed (a ++ ':' :: b)) (hb : ':' ∉ b) :
    parseSshTarget (a ++ ':' :: b) = (optionalPort (some b)).map fun port => ⟨a, port, none⟩ := by
  obtain ⟨hne, hfront⟩ := h.front hb
  have hhead : '[' ∉ (a ++ ':' :: b).head? := fun hhead => h.brackets.1 (mem_of_mem_head? hhead)
  unfold parseSshTarget
  rw [h.blanks.trim_eq]
  dsimp only
  rw [if_neg h.nonempty, rsplitOnce_of_not_mem h.unsplit]
  dsimp only
  rw [parseRest, splitHostPort_of_head hhead, rsplitOnce_append hb]
  dsimp only
  rw [hfront, if_neg (by simp [hne])]

/-- A target is read back when no character of a name looks like a control character, and an address is cut when what
follows its last colon looks like a port. -/
theorem readsTargets_iff (t : SshTarget) (a b : List Char) :
    (t.Writable → (parseSshTarget t.text = some t ↔ NoC1Byte t.host ∧ ∀ u ∈ t.user, NoC1Byte u)) ∧
      (Unbracketed (a ++ ':' :: b) → ':' ∉ b →
        ((∀ t, parseSshTarget (a ++ ':' :: b) = some t → t.host = a ++ ':' :: b) ↔ ¬PortLike b)) := by
  refine ⟨fun ht => ?_, fun hs hb => ?_⟩
  · have hread : ¬(t.user.any (isRefused 256) = true ∨ isRefused 253 t.host = true) ↔
        NoC1Byte t.host ∧ ∀ u ∈ t.user, NoC1Byte u := by
      rw [isRefused_iff ht.host.toAllowed, Option.any_eq_true]
      constructor
      · intro h
        refine ⟨by_contra fun hhost => h (.inr hhost), fun u hu => by_contra fun huser => h (.inl ⟨u, hu, ?_⟩)⟩
        exact (isRefused_iff (ht.user u hu).toAllowed).2 huser
      · rintro ⟨hhost, huser⟩ (⟨u, hu, hrefused⟩ | hrefused)
        · exact (isRefused_iff (ht.user u hu).toAllowed).1 hrefused (huser u hu)
        · exact hrefused hhost
    rw [parseSshTarget_text ht, ← hread]
    split_ifs with h <;> simp [h]
  · rw [parseSshTarget_unbracketed hs hb, ← optionalPort_eq_none_iff]
    rcases optionalPort (some b) with _ | port
    · simp
    · -- The address is cut, and its front is not the address.
      refine iff_of_false (fun h => ?_) nofun
      have hcut := h _ rfl
      simp at hcut

theorem plain_of {limit : Nat} (h : s ≠ [] ∧ byteLength s ≤ limit ∧
    s.all (fun c => c ≠ '/' ∧ c ≠ '\\' ∧ isControl c = false) ∧ ('[' ∉ s ∧ ']' ∉ s) ∧ Visible s) : Plain limit s :=
  ⟨⟨h.1, h.2.1, fun c hc => of_decide_eq_true (all_eq_true.1 h.2.2.1 c hc)⟩, h.2.2.2.1, trimmed_of_visible h.2.2.2.2⟩

theorem unbracketed_sample : Unbracketed "fe80::1".toList where
  toPlain := plain_of (by decide +kernel)
  unsplit := by decide
  colons := by decide
  ascii := (containsControlChar_eq_false_iff.1 (by decide +kernel)).2

theorem readsTargets_sample : (parseSshTarget "a@[::1]:22".toList = some ⟨"::1".toList, some 22, some ['a']⟩ ↔
      NoC1Byte "::1".toList ∧ ∀ u ∈ some ['a'], NoC1Byte u) ∧
      ((∀ t, parseSshTarget "fe80::1".toList = some t → t.host = "fe80::1".toList) ↔ ¬PortLike ['1']) := by
  have hhost : Plain 253 "::1".toList := plain_of (by decide +kernel)
  have huser : Plain 256 ['a'] := plain_of (by decide +kernel)
  have hwritable : SshTarget.Writable ⟨"::1".toList, some 22, some ['a']⟩ := by
    refine ⟨hhost, by decide, fun u hu => ?_, fun p hp => ?_⟩
    · cases hu
      exact huser
    · cases hp
      decide
  have hiff := readsTargets_iff ⟨"::1".toList, some 22, some ['a']⟩ "fe80:".toList ['1']
  exact ⟨hiff.1 hwritable, hiff.2 unbracketed_sample (by decide)⟩

/-- A host with an accent is refused, and an address is cut at its last colon. -/
theorem accent_refused_address_cut : ¬(∀ t : SshTarget, t.Writable → parseSshTarget t.text = some t) ∧
      ¬∀ s, Unbracketed s → ∀ t, parseSshTarget s = some t → t.host = s := by
  refine ⟨fun h => ?_, fun h => ?_⟩
  · have hnone : parseSshTarget ['À'] = none := by decide +kernel
    have hplain : Plain 253 ['À'] := plain_of (by decide +kernel)
    cases hnone.symm.trans (h ⟨['À'], none, none⟩ ⟨hplain, by decide, nofun, nofun⟩)
  · have hcut : parseSshTarget "fe80::1".toList = some ⟨"fe80:".toList, some 1, none⟩ := by decide +kernel
    cases h _ unbracketed_sample _ hcut

end LetsFlutSsh.Sessions
