import LetsFlutSsh.Lib.Fields

/-!
# Web addresses: the host that a client connects to

For an address that begins with `https://`, after the URL standard:

* `cleanUrl`, `authorityOf`, `withoutUserInfo`, `splitPort` : the text of the host;
* `DomainParser` : the last step, from that text to the host, as the standard describes it;
* `clientHost` : the host (`clientHost_plain`).
-/

namespace Lib
open List

/-! ## Cutting the text -/

def isTabOrNewline (c : Char) : Bool := c = '\t' || c = '\n' || c = '\r'
def isC0OrSpace (c : Char) : Bool := c.toNat ≤ 32

/-- The parser trims control characters and spaces and drops tabs and line ends. -/
def cleanUrl (url : List Char) : List Char :=
  ((url.dropWhile isC0OrSpace).rdropWhile isC0OrSpace).filter fun c => !isTabOrNewline c

def isSlash (c : Char) : Bool := c = '/' || c = '\\'

def endsAuthority (c : Char) : Bool := isSlash c || c = '?' || c = '#'

/-- What stands before the path; more slashes than two do not count. -/
def authorityOf (rest : List Char) : List Char := (rest.dropWhile isSlash).takeWhile fun c => !endsAuthority c

def withoutUserInfo (authority : List Char) : List Char :=
  match rsplitOnce '@' authority with
  | some (_, rest) => rest
  | none => authority

/-- The host and the port, apart at the first colon outside of brackets. -/
def splitPort (inBrackets : Bool) : List Char → List Char × Option (List Char)
  | [] => ([], none)
  | c :: cs =>
    if c = ':' ∧ inBrackets = false then ([], some cs)
    else
      let r := splitPort (if c = '[' then true else if c = ']' then false else inBrackets) cs
      (c :: r.1, r.2)

def validPort : Option (List Char) → Bool
  | none => true
  | some port => port = [] || (parseDigitChars port).any fun n => n < 65536

/-! ## Hosts -/

def PlainDomain (d : List Char) : Prop := d ≠ [] ∧ ∀ c ∈ d, ('a' ≤ c ∧ c ≤ 'z') ∨ c = '.'

instance (d : List Char) : Decidable (PlainDomain d) :=
  have := List.decidableBAll (fun c => ('a' ≤ c ∧ c ≤ 'z') ∨ c = '.') d
  inferInstanceAs (Decidable (_ ∧ _))

/-- Domains (percent decoding and the mapping to ASCII, label by label) and IPv6 addresses. -/
structure DomainParser where
  domain : List Char → Option (List Char)
  ipv6 : List Char → Option (List Char)
  plain : ∀ d, PlainDomain d → domain d = some d
  /-- The last labels stay what they are. -/
  suffix : ∀ raw host d, PlainDomain d → '.' :: d <:+ raw → domain raw = some host → '.' :: d <:+ host

def DomainParser.verbatim : DomainParser where
  domain := some
  ipv6 := some
  plain := fun _ _ => rfl
  suffix := fun _ _ _ _ hraw hhost => Option.some.inj hhost ▸ hraw

def isIpv6Char (c : Char) : Bool := c.isDigit || ('a' ≤ c && c ≤ 'f') || ('A' ≤ c && c ≤ 'F') || c = ':' || c = '.'

def DomainParser.parseHost (P : DomainParser) (raw : List Char) : Option (List Char) :=
  if '[' ∈ raw then
    match raw with
    | '[' :: rest => if rest.getLast? = some ']' ∧ rest.dropLast.all isIpv6Char then P.ipv6 rest.dropLast else none
    | _ => none
  else P.domain raw

/-- The host of an address that begins with `https://`. -/
def clientHost (P : DomainParser) (url : List Char) : Option (List Char) :=
  let hp := splitPort false (withoutUserInfo (authorityOf ((cleanUrl url).drop 8)))
  if hp.1 = [] ∨ validPort hp.2 = false then none else P.parseHost hp.1

/-! ## Plain addresses -/

variable {h s : List Char}

theorem takeWhile_filter_subset {p q : Char → Bool} (hpq : ∀ c, q c = false → p c = true) (cs : List Char) :
    (cs.filter q).takeWhile p ⊆ cs.takeWhile p := by
  induction cs with
  | nil => exact List.Subset.refl []
  | cons c cs ih =>
    by_cases hq : q c = true
    · rw [filter_cons_of_pos hq, takeWhile_cons, takeWhile_cons]
      split
      · exact cons_subset_cons c ih
      · exact List.Subset.refl []
    · rw [filter_cons_of_neg hq, takeWhile_cons_of_pos (hpq c (Bool.not_eq_true _ ▸ hq))]
      exact List.Subset.trans ih (subset_cons_self c _)

theorem takeWhile_mono {p : Char → Bool} {cs ds : List Char} (h : cs <+: ds) : cs.takeWhile p <+: ds.takeWhile p := by
  obtain ⟨tail, rfl⟩ := h
  rw [takeWhile_append]
  split
  · next hall =>
    rw [takeWhile_eq_self_iff.2 (takeWhile_eq_self_iff.1 ( takeWhile_prefix p |>.eq_of_length hall))]
    exact prefix_append cs _
  · exact prefix_rfl

theorem splitPort_append {inBrackets : Bool} (hcolon : ':' ∉ h) (hbracket : '[' ∉ h) (hin : inBrackets = false) :
    splitPort inBrackets (h ++ s) = (h ++ (splitPort false s).1, (splitPort false s).2) := by
  subst hin
  induction h with
  | nil => rfl
  | cons c h ih =>
    rw [mem_cons, not_or] at hcolon hbracket
    rw [cons_append, splitPort, if_neg fun hc => hcolon.1 hc.1.symm, if_neg (Ne.symm hbracket.1)]
    simp only [ite_self]
    rw [ih hcolon.2 hbracket.2]
    rfl

theorem prefix_splitPort (hcolon : ':' ∉ h) (inBrackets : Bool) : h <+: (splitPort inBrackets (h ++ s)).1 := by
  induction h generalizing inBrackets with
  | nil => exact nil_prefix
  | cons c h ih =>
    rw [mem_cons, not_or] at hcolon
    rw [cons_append, splitPort, if_neg fun hc => hcolon.1 hc.1.symm]
    exact (cons_prefix_cons).2 ⟨rfl, ih hcolon.2 _⟩

theorem withoutUserInfo_append (hs : '@' ∉ s) : ∃ v, v <:+ h ∧ withoutUserInfo (h ++ s) = v ++ s := by
  by_cases hat : '@' ∈ h
  · obtain ⟨a, b, rfl, hb⟩ : ∃ a b, h = a ++ '@' :: b ∧ '@' ∉ b := by
      obtain ⟨b, a, hrev, hb⟩ := eq_append_cons_of_mem (mem_reverse.2 hat)
      refine ⟨a.reverse, b.reverse, ?_, by simpa using hb⟩
      rw [← reverse_reverse h, hrev]
      simp
    refine ⟨b, ⟨a ++ ['@'], by simp⟩, ?_⟩
    rw [withoutUserInfo, append_assoc, cons_append, rsplitOnce_append (by simp [hb, hs])]
  · refine ⟨h, suffix_rfl, ?_⟩
    have hnone : rsplitOnce '@' (h ++ s) = none := by
      rw [rsplitOnce, splitOnce_of_not_mem (by simp [hat, hs]), Option.map_none]
    rw [withoutUserInfo, hnone]

/-! ## The host of a plain address -/

/-- What ends the host for a reader that knows no user information. -/
def endsHost (c : Char) : Bool := c = '/' || c = '?' || c = '#' || c = ':'

/-- The text behind `https://` up to the first of `/`, `?`, `#` and `:`. -/
def plainHost (rest : List Char) : List Char := rest.takeWhile fun c => !endsHost c

def behindHost (rest : List Char) : List Char := rest.dropWhile fun c => !endsHost c

def PlainAuthority (rest : List Char) : Prop :=
  '\\' ∉ plainHost rest ∧ '@' ∉ (behindHost rest).takeWhile fun c => !endsAuthority c

instance (rest : List Char) : Decidable (PlainAuthority rest) := inferInstanceAs (Decidable (_ ∧ _))

theorem behindHost_cases (rest : List Char) : behindHost rest = [] ∨ ∃ c tail, behindHost rest = c :: tail ∧ endsHost c = true := by
  rcases h : behindHost rest with _ | ⟨c, tail⟩
  · exact .inl rfl
  · have hhead := head?_dropWhile_not (fun c => !endsHost c) rest
    rw [behindHost] at h
    rw [h] at hhead
    exact .inr ⟨c, tail, rfl, by simpa using hhead⟩

def httpsScheme : List Char := ['h', 't', 't', 'p', 's', ':', '/', '/']

variable {P : DomainParser} {rest u d host : List Char} {c : Char}

theorem isC0OrSpace_of_plain (h : ('a' ≤ c ∧ c ≤ 'z') ∨ c = '.') : isC0OrSpace c = false := by
  rcases h with ⟨h, -⟩ | rfl
  · have hle : ('a' : Char).toNat ≤ c.toNat := h
    have ha : ('a' : Char).toNat = 97 := rfl
    simp only [isC0OrSpace, decide_eq_false_iff_not]
    omega
  · decide

theorem not_isTabOrNewline (h : isC0OrSpace c = false) : isTabOrNewline c = false := by
  rw [← Bool.not_eq_true] at h ⊢
  intro htab
  simp only [isTabOrNewline, Bool.or_eq_true, decide_eq_true_eq] at htab
  rcases htab with (rfl | rfl) | rfl <;> exact h rfl

theorem cleanUrl_plain (hd : PlainDomain s) (hhost : plainHost rest = u ++ s) :
    cleanUrl (httpsScheme ++ rest) = httpsScheme ++ ((u.filter fun c => !isTabOrNewline c) ++ s ++
      ((behindHost rest).rdropWhile isC0OrSpace).filter fun c => !isTabOrNewline c) := by
  obtain ⟨hne, hchars⟩ := hd
  have hclean : ∀ c ∈ s, isC0OrSpace c = false := fun c hc => isC0OrSpace_of_plain (hchars c hc)
  have hrest : rest = u ++ s ++ behindHost rest := by
    rw [← hhost]
    exact takeWhile_append_dropWhile.symm
  have hfilter : s.filter (fun c => !isTabOrNewline c) = s :=
    filter_eq_self.2 fun c hc => by rw [not_isTabOrNewline (hclean c hc), Bool.not_false]
  obtain ⟨s', c, rfl⟩ := (eq_nil_or_concat' s).resolve_left hne
  have htrim : (httpsScheme ++ rest).rdropWhile isC0OrSpace =
      httpsScheme ++ (u ++ (s' ++ [c]) ++ (behindHost rest).rdropWhile isC0OrSpace) := by
    have hsplit : httpsScheme ++ rest = (httpsScheme ++ (u ++ s')) ++ c :: behindHost rest := by
      conv_lhs => rw [hrest]
      simp
    rw [hsplit, rdropWhile_append (hclean c (by simp))]
    simp
  have hstart : (httpsScheme ++ rest).dropWhile isC0OrSpace = httpsScheme ++ rest := dropWhile_cons_of_neg (by decide)
  rw [cleanUrl, hstart, htrim, filter_append, filter_append, filter_append, hfilter]
  rfl

theorem not_endsAuthority (hplain : PlainAuthority rest) (hc : c ∈ plainHost rest) : endsAuthority c = false := by
  have hend : endsHost c = false := by simpa using mem_takeWhile_imp hc
  simp only [endsHost, Bool.or_eq_false_iff, decide_eq_false_iff_not] at hend
  have hback : c ≠ '\\' := fun h => hplain.1 (h ▸ hc)
  simp [endsAuthority, isSlash, hend, hback]

theorem authorityOf_plain (hplain : PlainAuthority rest) (hd : PlainDomain s) (hhost : plainHost rest = u ++ s) :
    ∃ v x, v ⊆ u ∧ '@' ∉ x ∧ (x = [] ∨ ∃ port, x = ':' :: port) ∧
      authorityOf ((cleanUrl (httpsScheme ++ rest)).drop 8) = v ++ s ++ x := by
  have hsub : (u.filter fun c => !isTabOrNewline c) ++ s ⊆ plainHost rest := by
    rw [hhost]
    exact append_subset.2 ⟨List.Subset.trans (filter_subset_self _) (subset_append_left u s), subset_append_right u s⟩
  refine ⟨u.filter fun c => !isTabOrNewline c, (((behindHost rest).rdropWhile isC0OrSpace).filter fun c =>
    !isTabOrNewline c).takeWhile fun c => !endsAuthority c, filter_subset_self _, ?_, ?_, ?_⟩
  · refine fun hat => hplain.2 ?_
    refine (takeWhile_mono ( rdropWhile_prefix isC0OrSpace _)).subset (takeWhile_filter_subset (fun c hc => ?_) _ hat)
    rw [Bool.not_eq_false', isTabOrNewline] at hc
    simp only [Bool.or_eq_true, decide_eq_true_eq] at hc
    rcases hc with (rfl | rfl) | rfl <;> rfl
  · rcases behindHost_cases rest with hnil | ⟨c, tail, hbehind, hc⟩
    · rw [hnil]
      exact .inl rfl
    have hkeep : isC0OrSpace c = false := by
      simp only [endsHost, Bool.or_eq_true, decide_eq_true_eq] at hc
      rcases hc with ((rfl | rfl) | rfl) | rfl <;> decide
    rw [hbehind, ← nil_append (c :: tail), rdropWhile_append hkeep, nil_append,
      filter_cons_of_pos (by rw [not_isTabOrNewline hkeep, Bool.not_false])]
    by_cases hcolon : c = ':'
    · rw [hcolon, takeWhile_cons_of_pos (by decide)]
      exact .inr ⟨_, rfl⟩
    · have hend : endsAuthority c = true := by
        simp only [endsHost, hcolon, decide_false, Bool.or_false] at hc
        simp only [endsAuthority, isSlash]
        grind
      rw [takeWhile_cons_of_neg (by simp [hend])]
      exact .inl rfl
  · have hdrop : ∀ cs : List Char, (httpsScheme ++ cs).drop 8 = cs := fun _ => rfl
    have hend : ∀ c ∈ (u.filter fun c => !isTabOrNewline c) ++ s, endsAuthority c = false :=
      fun c hc => not_endsAuthority hplain (hsub hc)
    have hslash : ∀ cs : List Char, (((u.filter fun c => !isTabOrNewline c) ++ s) ++ cs).dropWhile isSlash =
        ((u.filter fun c => !isTabOrNewline c) ++ s) ++ cs := fun cs => by
      obtain ⟨c, cs', hcons⟩ := exists_cons_of_ne_nil (append_ne_nil_of_right_ne_nil
        (u.filter fun c => !isTabOrNewline c) hd.1)
      have hc := hend c (hcons ▸ mem_cons_self)
      simp only [endsAuthority, Bool.or_eq_false_iff] at hc
      rw [hcons, cons_append, dropWhile_cons_of_neg (by simp [hc])]
    rw [cleanUrl_plain hd hhost, hdrop, authorityOf, hslash,
      takeWhile_append_of_pos fun c hc => by rw [hend c hc, Bool.not_false]]

theorem not_isIpv6Char (h : 'g' ≤ c ∧ c ≤ 'z') : isIpv6Char c = false := by
  obtain ⟨hlo, -⟩ := h
  have hcolon : c ≠ ':' := by rintro rfl; revert hlo; decide
  have hdot : c ≠ '.' := by rintro rfl; revert hlo; decide
  simp only [isIpv6Char, Char.isDigit, hcolon, hdot, Bool.or_eq_false_iff, Bool.and_eq_false_iff, decide_eq_false_iff_not,
    Char.le_def, UInt32.le_iff_toNat_le, ge_iff_le, not_false_eq_true, and_true]
  change 103 ≤ c.val.toNat at hlo
  have h9 : ('9' : Char).val.toNat = 57 := rfl
  have hf : ('f' : Char).val.toNat = 102 := rfl
  have hF : ('F' : Char).val.toNat = 70 := rfl
  omega

theorem parseHost_bracket {raw : List Char} (hraw : '[' ∈ raw) (hc : c ∈ raw) (hletter : 'g' ≤ c ∧ c ≤ 'z') :
    P.parseHost raw = none := by
  unfold DomainParser.parseHost
  rw [if_pos hraw]
  split
  · next rest =>
    refine if_neg ?_
    rintro ⟨hlast, hall⟩
    have hmem : c ∈ rest := by
      refine (mem_cons.1 hc).resolve_left ?_
      rintro rfl
      revert hletter
      decide
    rw [← dropLast_append_getLast? _ hlast, mem_append, mem_singleton] at hmem
    rcases hmem with hmem | rfl
    · exact absurd (all_eq_true.1 hall c hmem) (by rw [not_isIpv6Char hletter]; exact Bool.false_ne_true)
    · revert hletter
      decide
  · rfl

theorem clientHost_plain (hplain : PlainAuthority rest) (hd : PlainDomain d) (hletter : ∃ c ∈ d, 'g' ≤ c ∧ c ≤ 'z')
    (hhost : clientHost P (httpsScheme ++ rest) = some host) :
    (plainHost rest = d → host = d) ∧ ('.' :: d <:+ plainHost rest → '.' :: d <:+ host) := by
  have hraw : ∀ u s, PlainDomain s → (∃ c ∈ s, 'g' ≤ c ∧ c ≤ 'z') → plainHost rest = u ++ s →
      ∃ v, (u = [] → v = []) ∧ P.domain (v ++ s) = some host := by
    intro u s hs hletter hus
    obtain ⟨v, x, hv, hat, hx, hauth⟩ := authorityOf_plain hplain hs hus
    have hclean : ∀ c ∈ s, c ≠ '@' := fun c hc heq => absurd (hs.2 c hc) (heq ▸ by decide)
    obtain ⟨v', hsuffix, huser⟩ : ∃ v', v' <:+ v ∧ withoutUserInfo (v ++ (s ++ x)) = v' ++ (s ++ x) :=
      withoutUserInfo_append fun hmem => (mem_append.1 hmem).elim (fun h => hclean '@' h rfl) hat
    have hcolon : ':' ∉ v' ++ s := fun hmem => by
      have hin : ':' ∈ plainHost rest := by
        rw [hus]
        exact (mem_append.1 hmem).elim (fun h => mem_append_left s (hv (hsuffix.subset h))) (mem_append_right u)
      exact absurd (mem_takeWhile_imp hin) (by decide)
    rw [clientHost, hauth, append_assoc, huser, ← append_assoc] at hhost
    split at hhost
    · cases hhost
    obtain ⟨c, hc, hletter⟩ := hletter
    have hpre := prefix_splitPort (s := x) hcolon false
    have hbracket : '[' ∉ v' ++ s := fun hmem => by
      rw [parseHost_bracket (hpre.subset hmem) (hpre.subset (mem_append_right v' hc)) hletter] at hhost
      cases hhost
    refine ⟨v', fun hu => ?_, ?_⟩
    · subst hu
      exact suffix_nil.1 (subset_nil.1 hv ▸ hsuffix)
    · have hport : (splitPort false (v' ++ s ++ x)).1 = v' ++ s := by
        rw [splitPort_append hcolon hbracket rfl]
        rcases hx with rfl | ⟨port, rfl⟩ <;> simp [splitPort]
      rw [hport] at hhost
      unfold DomainParser.parseHost at hhost
      rwa [if_neg hbracket] at hhost
  constructor
  · intro heq
    obtain ⟨v, hv, hdomain⟩ := hraw [] d hd hletter heq
    rw [hv rfl, nil_append, P.plain d hd] at hdomain
    exact (Option.some.inj hdomain).symm
  · rintro ⟨u, hu⟩
    obtain ⟨c, hc, hletter⟩ := hletter
    have hdot : PlainDomain ('.' :: d) := ⟨cons_ne_nil '.' d, forall_mem_cons.2 ⟨.inr rfl, hd.2⟩⟩
    obtain ⟨v, -, hdomain⟩ := hraw u ('.' :: d) hdot ⟨c, mem_cons_of_mem _ hc, hletter⟩ hu.symm
    exact P.suffix _ _ d hd (suffix_append v _) hdomain

end Lib
