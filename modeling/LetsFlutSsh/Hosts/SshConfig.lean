import LetsFlutSsh.Hosts.SshConfigParser
import Mathlib.Data.List.ReduceOption

/-!
# The OpenSSH client configuration: hosts

* `resolveEntry`, `parseExpanded`, `parseOpensshConfig` : the importer;
* `opensshSettings` : the values that OpenSSH takes, first value wins;
* `Separate` : the `Host` lines for which the two agree, whatever values the blocks set (`firstValueWins_iff`).
-/

namespace LetsFlutSsh.Hosts.SshConfig
open Lib List Function

structure HostEntry extends Settings where
  host : List Char
  deriving DecidableEq

abbrev BlockRef := RawBlock × Nat

def ordered (own : BlockRef) (wildcards : List BlockRef) : List BlockRef :=
  let ordered := if wildcards.any fun b => b.2 = own.2 then wildcards else wildcards ++ [own]
  ordered.mergeSort fun a b => a.1.orderIndex ≤ b.1.orderIndex

def resolveEntry (host : List Char) (own : BlockRef) (wildcards : List BlockRef) : HostEntry :=
  { toSettings := (ordered own wildcards).foldl (fun acc block =>
      let isOwn := block.2 = own.2
      if ¬ isOwn ∧ block.1.matches host = false then acc else acc.fill block.1.toSettings) {}
    host }

def isWildcardBlock (patterns : List (List Char)) : Bool :=
  let anyConcrete := patterns.any fun pat => !isWildcardPattern pat
  !anyConcrete || patterns.any isWildcardPattern

def parseExpanded (expanded : List Char) : Except Panic (List HostEntry) :=
  (parseBlocks expanded).map fun blocks =>
    let wildcardBlocks := blocks.zipIdx.filter fun b => isWildcardBlock b.1.patterns
    let concrete := blocks.zipIdx.flatMap fun b =>
      (b.1.patterns.filter fun pat => !isWildcardPattern pat).map fun pat => (b, pat)
    concrete.map fun c => resolveEntry c.2 c.1 wildcardBlocks

def parseOpensshConfig {Path : Type} [DecidableEq Path] (resolve : List Char → List Path)
    (reader : Path → Option (List Char)) (maxIncludeDepth : Nat) (content : List Char) :
    Except Panic (List HostEntry) := do
  let (expanded, _) ← expandIncludes resolve reader maxIncludeDepth [] (normaliseLineEndings content)
  parseExpanded expanded

/-! ## The blocks consulted -/

/-- Whether the block at place `j` is read for a host of the block at place `i`. -/
def Consulted (i : Nat) (host : List Char) (patterns : List (List Char)) (j : Nat) : Prop :=
  j = i ∨ isWildcardBlock patterns = true ∧ Matches patterns host

instance (patterns : List (List Char)) (host : List Char) : Decidable (Matches patterns host) :=
  decidable_of_iff (RawBlock.matches { orderIndex := 0, patterns } host = true) (matches_iff _ host)

instance (i : Nat) (host : List Char) (patterns : List (List Char)) (j : Nat) :
    Decidable (Consulted i host patterns j) := inferInstanceAs (Decidable (_ ∨ _))

variable {sections : List HostSection} {i : Nat} {host : List Char}
variable {Path : Type} [DecidableEq Path] {resolve : List Char → List Path} {reader : Path → Option (List Char)}

def refs (sections : List HostSection) : List BlockRef :=
  sections.zipIdx.map fun s => (s.1.block s.2, s.2)

theorem refs_eq (sections : List HostSection) : (sections.zipIdx.map fun s => s.1.block s.2).zipIdx = refs sections :=
  ext_getElem (by simp [refs]) fun n hn hn' => by simp [refs]

variable {content : List Char} {b : BlockRef}

theorem mem_refs : b ∈ refs sections ↔ ∃ s, sections[b.2]? = some s ∧ b.1 = s.block b.2 := by
  obtain ⟨block, place⟩ := b
  simp only [refs, mem_map, Prod.exists, mk_mem_zipIdx_iff_getElem?, Prod.mk.injEq]
  constructor
  · rintro ⟨s, _, hs, rfl, rfl⟩
    exact ⟨s, hs, rfl⟩
  · rintro ⟨s, hs, rfl⟩
    exact ⟨s, place, hs, rfl, rfl⟩

theorem orderIndex_of_mem (h : b ∈ refs sections) : b.1.orderIndex = b.2 := by
  obtain ⟨s, -, hblock⟩ := mem_refs.1 h
  rw [hblock]
  rfl

theorem eq_of_place {a : BlockRef} (ha : a ∈ refs sections) (hb : b ∈ refs sections) (h : a.2 = b.2) : a = b := by
  obtain ⟨s, hs, hblock⟩ := mem_refs.1 ha
  obtain ⟨s', hs', hblock'⟩ := mem_refs.1 hb
  rw [h, hs'] at hs
  cases hs
  exact Prod.ext (by rw [hblock, hblock', h]) h

theorem pairwise_refs (sections : List HostSection) :
    (refs sections).Pairwise fun a b => a.1.orderIndex < b.1.orderIndex := by
  have hplaces : (sections.zipIdx.map Prod.snd).Pairwise (· < ·) := by
    rw [zipIdx_map_snd]
    exact pairwise_lt_range'
  exact pairwise_map.2 (pairwise_map.1 hplaces)

theorem ordered_eq {own : BlockRef} (hown : own ∈ refs sections) (p : BlockRef → Bool) :
    ordered own ((refs sections).filter p) = (refs sections).filter fun b => p b || b.2 = own.2 := by
  have hnodup : (refs sections).Nodup := (pairwise_refs sections).imp fun h => by
    rintro rfl
    exact lt_irrefl _ h
  have hperm : (if ((refs sections).filter p).any fun b => b.2 = own.2 then (refs sections).filter p
      else (refs sections).filter p ++ [own]).Perm ((refs sections).filter fun b => p b || b.2 = own.2) := by
    have hplace : ∀ b ∈ refs sections, b.2 = own.2 ↔ b = own := fun b hb =>
      ⟨eq_of_place hb hown, fun h => by rw [h]⟩
    split
    · next hany =>
      obtain ⟨b, hb, hbown⟩ := any_eq_true.1 hany
      obtain ⟨hmem, hp⟩ := mem_filter.1 hb
      obtain rfl := (hplace b hmem).1 (by simpa using hbown)
      refine .of_eq (filter_congr fun a ha => ?_)
      by_cases hab : a = b <;> simp [hplace a ha, hab, hp]
    · next hany =>
      have hp : p own = false := by
        rw [← Bool.not_eq_true]
        exact fun hp => hany (any_eq_true.2 ⟨own, mem_filter.2 ⟨hown, hp⟩, by simp⟩)
      refine (perm_ext_iff_of_nodup ?_ (hnodup.filter _)).2 fun b => ?_
      · refine nodup_append.2 ⟨hnodup.filter _, pairwise_singleton _ own, fun a ha b hb hab => ?_⟩
        obtain rfl : a = own := hab.trans (mem_singleton.1 hb)
        exact Bool.false_ne_true (hp.symm.trans (mem_filter.1 ha).2)
      rw [mem_append, mem_filter, mem_filter, mem_singleton, Bool.or_eq_true,
        decide_eq_true_eq]
      constructor
      · rintro (⟨hb, hpb⟩ | rfl)
        · exact ⟨hb, .inl hpb⟩
        · exact ⟨hown, .inr rfl⟩
      · rintro ⟨hb, hpb | hpb⟩
        · exact .inl ⟨hb, hpb⟩
        · exact .inr ((hplace b hb).1 hpb)
  have hsorted : (ordered own ((refs sections).filter p)).Pairwise fun a b => a.1.orderIndex ≤ b.1.orderIndex := by
    refine (pairwise_mergeSort ?_ ?_ _).imp of_decide_eq_true
    · simp only [decide_eq_true_eq]
      exact fun a b c => le_trans
    · simp only [Bool.or_eq_true, decide_eq_true_eq]
      exact fun a b => le_total _ _
  refine ((mergeSort_perm _ _).trans hperm).eq_of_pairwise (fun a b ha hb hab hba => ?_) hsorted
    (((pairwise_refs sections).imp le_of_lt).filter _)
  have ha' : a ∈ refs sections := (mem_filter.1 (hperm.subset (mem_mergeSort.1 ha))).1
  have hb' : b ∈ refs sections := (mem_filter.1 hb).1
  have hidx := le_antisymm hab hba
  rw [orderIndex_of_mem ha', orderIndex_of_mem hb'] at hidx
  exact eq_of_place ha' hb' hidx

theorem foldl_fill (skip : BlockRef → Prop) [DecidablePred skip] (pieces : List (HostSection × Nat)) (acc : Settings) :
    (pieces.map fun s => (s.1.block s.2, s.2)).foldl
      (fun acc (b : BlockRef) => if skip b then acc else acc.fill b.1.toSettings) acc =
      acc.fill (Settings.of ((pieces.filter fun s => ¬ skip (s.1.block s.2, s.2)).flatMap fun s => s.1.settings)) := by
  induction pieces generalizing acc with
  | nil => simp
  | cons s pieces ih =>
    rw [map_cons, foldl_cons]
    by_cases hs : skip (s.1.block s.2, s.2)
    · rw [if_pos hs, ih, filter_cons_of_neg (by simp [hs])]
    · rw [if_neg hs, ih, filter_cons_of_pos (by simp [hs]), flatMap_cons, Settings.of_append, Settings.fill_assoc]
      rfl

def consultedDirectives (sections : List HostSection) (i : Nat) (host : List Char) : List Directive :=
  (sections.zipIdx.filter fun s => decide (Consulted i host s.1.patterns s.2)).flatMap fun s => s.1.settings

theorem resolveEntry_settings {own : BlockRef} (hown : own ∈ refs sections) (host : List Char) :
    (resolveEntry host own ((refs sections).filter fun b => isWildcardBlock b.1.patterns)).toSettings =
      Settings.of (consultedDirectives sections own.2 host) := by
  rw [resolveEntry, ordered_eq hown]
  dsimp only
  rw [refs, filter_map, foldl_fill fun b : BlockRef => ¬ b.2 = own.2 ∧ b.1.matches host = false, Settings.empty_fill,
    filter_filter, consultedDirectives]
  congr 2
  refine filter_congr fun s _ => ?_
  rw [Bool.eq_iff_iff]
  simp only [comp_apply, Bool.and_eq_true, Bool.or_eq_true, decide_eq_true_eq, not_and_or, not_not,
    Bool.not_eq_false, matches_iff, HostSection.block]
  rw [Consulted]
  tauto

variable {ds : List Directive}

theorem entries_eq (h : directives content = .ok ds) :
    ∃ entries, parseExpanded content = .ok entries ∧ ∀ e, e ∈ entries ↔ ∃ i s, (sectionsOf ds).2[i]? = some s ∧
      e.host ∈ s.patterns ∧ isWildcardPattern e.host = false ∧
        e.toSettings = Settings.of (consultedDirectives (sectionsOf ds).2 i e.host) := by
  rw [parseExpanded, parseBlocks, h]
  refine ⟨_, rfl, fun e => ?_⟩
  dsimp only
  rw [blocks_directives, refs_eq]
  simp only [mem_map, mem_flatMap, mem_filter]
  constructor
  · rintro ⟨_, ⟨own, hown, pat, ⟨hpat, hconcrete⟩, rfl⟩, rfl⟩
    obtain ⟨s, hs, hblock⟩ := mem_refs.1 hown
    refine ⟨own.2, s, hs, ?_, (Bool.not_eq_true' _).mp hconcrete, resolveEntry_settings hown pat⟩
    rw [hblock] at hpat
    exact hpat
  · rintro ⟨i, s, hs, hpat, hconcrete, hsettings⟩
    have hown : (s.block i, i) ∈ refs (sectionsOf ds).2 := mem_refs.2 ⟨s, hs, rfl⟩
    refine ⟨_, ⟨_, hown, e.host, ⟨hpat, (Bool.not_eq_true' _).mpr hconcrete⟩, rfl⟩, ?_⟩
    obtain ⟨settings, host⟩ := e
    exact congrArg (HostEntry.mk · host) ((resolveEntry_settings hown host).trans hsettings.symm)

theorem parseExpanded_congr {content' : List Char} (h : lines content = lines content') :
    parseExpanded content = parseExpanded content' := by
  rw [parseExpanded, parseExpanded, parseBlocks, parseBlocks, directives, directives, h]

theorem parseOpensshConfig_includeFree (h : IncludeFree (normaliseLineEndings content))
    (maxIncludeDepth : Nat) : parseOpensshConfig resolve reader maxIncludeDepth content =
      parseExpanded (normaliseLineEndings content) := by
  rcases maxIncludeDepth with _ | remaining
  · rfl
  rw [parseOpensshConfig, expandIncludes_includeFree resolve reader h]
  have hlines : lines ((lines (normaliseLineEndings content)).flatMap fun l => l ++ ['\n']) =
      lines (normaliseLineEndings content) := by
    refine lines_flatMap fun l hl => ?_
    obtain ⟨hn, hsub⟩ := mem_lines hl
    exact ⟨hn, fun hr => cr_not_mem_normaliseLineEndings content (hsub _ hr)⟩
  rw [← parseExpanded_congr hlines]
  rcases hlex : (lines (normaliseLineEndings content)).mapM lexLine with e | ds
  · rw [parseExpanded, parseBlocks, directives, hlines, hlex]
    rfl
  · rfl

/-! ## First value wins -/

/-- The directives of the `Host` block proper, which a `Match` line ends. -/
def HostSection.own (s : HostSection) : List Directive := s.settings.takeWhile fun d => d.1 ≠ Kw.match_

def matchingDirectives (sections : List HostSection) (host : List Char) : List Directive :=
  (sections.filter fun s => decide (Matches s.patterns host)).flatMap HostSection.own

/-- The values that OpenSSH takes from the blocks: the first valid ones, and all the identity files. -/
def opensshSettings (sections : List HostSection) (host : List Char) : Settings :=
  Settings.of (matchingDirectives sections host)

variable (resolve reader) in
/-- Every entry of the importer has the values that OpenSSH takes. -/
def FirstValueWins (maxIncludeDepth : Nat) (content : List Char) : Prop :=
  ∃ ds entries, directives (normaliseLineEndings content) = .ok ds ∧
    parseOpensshConfig resolve reader maxIncludeDepth content = .ok entries ∧
    ∀ e ∈ entries, e.toSettings = opensshSettings (sectionsOf ds).2 e.host

/-- A value comes from the directive. -/
def sets (d : Directive) : Bool := Settings.of [d] ≠ {}

theorem of_filter_sets (ds : List Directive) : Settings.of (ds.filter sets) = Settings.of ds := by
  induction ds with
  | nil => rfl
  | cons d ds ih =>
    have hcons : ∀ ds, Settings.of (d :: ds) = (Settings.of [d]).fill (Settings.of ds) := fun ds => Settings.of_append [d] ds
    by_cases hd : Settings.of [d] = {}
    · rw [filter_cons_of_neg (by simp [sets, hd]), ih, hcons ds, hd, Settings.empty_fill]
    · rw [filter_cons_of_pos (by simp [sets, hd]), hcons, ih, ← hcons]

/-! ## Separate blocks -/

/-- A `Host` line: its patterns, and whether values are set under it, before a `Match` line and after one. -/
structure Head where
  patterns : List (List Char)
  own : Bool
  late : Bool
  deriving DecidableEq

def HostSection.late (s : HostSection) : List Directive := s.settings.dropWhile fun d => d.1 ≠ Kw.match_

def HostSection.head (s : HostSection) : Head where
  patterns := s.patterns
  own := s.own.any sets
  late := s.late.any sets

def hostLines (content : List Char) : Except Panic (List Head) :=
  (directives content).map fun ds => (sectionsOf ds).2.map HostSection.head

/-- The `Host` line at place `i` names the host. -/
def Listed (heads : List Head) (i : Nat) (host : List Char) : Prop :=
  ∃ h, heads[i]? = some h ∧ host ∈ h.patterns ∧ isWildcardPattern host = false

/-- The importer takes what a block sets exactly if the block matches, and nothing that is set under a `Match` line. -/
def Agrees (sections : List HostSection) (i : Nat) (host : List Char) : Prop :=
  ∀ j s, sections[j]? = some s → (s.head.own = true → (Consulted i host s.patterns j ↔ Matches s.patterns host)) ∧
    (s.head.late = true → ¬ Consulted i host s.patterns j)

theorem consulted_eq (h : Agrees sections i host) :
    Settings.of (consultedDirectives sections i host) = opensshSettings sections host := by
  have hfst : sections = sections.zipIdx.map Prod.fst := (zipIdx_map_fst 0 sections).symm
  have hguard : ∀ {p : HostSection × Nat → Prop} [DecidablePred p] (f : HostSection × Nat → List Directive)
      (l : List (HostSection × Nat)), ((l.filter fun s => decide (p s)).flatMap f).filter sets =
        l.flatMap fun s => if p s then (f s).filter sets else [] := by
    intro p _ f l
    induction l with
    | nil => rfl
    | cons s l ih =>
      by_cases hs : p s
      · rw [filter_cons_of_pos (by simp [hs]), flatMap_cons, filter_append, ih, flatMap_cons, if_pos hs]
      · rw [filter_cons_of_neg (by simp [hs]), ih, flatMap_cons, if_neg hs, nil_append]
  rw [opensshSettings, ← of_filter_sets, ← of_filter_sets (matchingDirectives sections host)]
  rw [matchingDirectives, consultedDirectives]
  conv_rhs => rw [hfst]
  rw [filter_map, flatMap_map, hguard]
  have hright := hguard (p := fun s => Matches s.1.patterns host) (fun s => s.1.own) sections.zipIdx
  refine congrArg Settings.of (Eq.trans (flatMap_congr fun s hs => ?_) hright.symm)
  obtain ⟨hown, hlate⟩ := h s.2 s.1 (mem_zipIdx_iff_getElem?.1 hs)
  have hsplit : s.1.settings.filter sets = s.1.own.filter sets ++ s.1.late.filter sets := by
    rw [← filter_append]
    exact congrArg _ (takeWhile_append_dropWhile).symm
  have hnone : ∀ ds : List Directive, ds.any sets = false → ds.filter sets = [] := fun ds hds =>
    filter_eq_nil_iff.2 fun d hd => by simpa using any_eq_false.1 hds d hd
  have howned : s.1.own.filter sets = [] ∨ (Consulted i host s.1.patterns s.2 ↔ Matches s.1.patterns host) := by
    rcases hany : s.1.own.any sets
    · exact .inl (hnone _ hany)
    · exact .inr (hown hany)
  have hlater : s.1.late.filter sets = [] ∨ ¬ Consulted i host s.1.patterns s.2 := by
    rcases hany : s.1.late.any sets
    · exact .inl (hnone _ hany)
    · exact .inr (hlate hany)
  rw [hsplit]
  rcases howned with hempty | hiff
  · rw [hempty, nil_append]
    rcases hlater with hempty' | hnot
    · simp [hempty']
    · simp [hnot]
  · rcases hlater with hempty' | hnot
    · simp only [hempty', append_nil, hiff]
    · rw [if_neg hnot, if_neg (hiff.not.1 hnot)]

/-- Of two lines that name a host, those that set values have wildcards. -/
def Apart (g h : Head) : Prop := ∀ host ∈ g.patterns, host ∈ h.patterns → isWildcardPattern host = false →
  (g.own = true → g.patterns.any isWildcardPattern = true) ∧ (h.own = true → h.patterns.any isWildcardPattern = true)

instance (g h : Head) : Decidable (Apart g h) := inferInstanceAs (Decidable (∀ host ∈ g.patterns, _))

/-- Where values are set under a line, a host that it names is matched by it, and other lines that name the host have
wildcards. Values are set after a `Match` line only under a line that neither names nor matches a named host. -/
structure Separate (heads : List Head) : Prop where
  admitted : ∀ h ∈ heads, h.own = true → ∀ host ∈ h.patterns, isWildcardPattern host = false → Matches h.patterns host
  alone : heads.Pairwise Apart
  uncut : ∀ g ∈ heads, ∀ host ∈ g.patterns, isWildcardPattern host = false → ∀ h ∈ heads, h.late = true →
    host ∉ h.patterns ∧ ¬ Matches h.patterns host

theorem Apart.symm {g h : Head} (hgh : Apart g h) : Apart h g :=
  fun host hh hg hconcrete => (hgh host hg hh hconcrete).symm

variable {heads : List Head}

theorem Separate.apart (hsep : Separate heads) {i j : Nat} (hij : i ≠ j) {g h : Head}
    (hg : heads[i]? = some g) (hh : heads[j]? = some h) : Apart g h := by
  obtain ⟨hi, rfl⟩ := List.getElem?_eq_some_iff.1 hg
  obtain ⟨hj, rfl⟩ := List.getElem?_eq_some_iff.1 hh
  have hpair := List.pairwise_iff_getElem.1 hsep.alone
  rcases lt_or_gt_of_ne hij with hlt | hlt
  · exact hpair i j hi hj hlt
  · exact (hpair j i hj hi hlt).symm

theorem globMatches_concrete {pat : List Char} (h : isWildcardPattern pat = false) (host : List Char) :
    pat.head? ≠ some '!' ∧ (globMatches pat host = true ↔ pat = host) := by
  simp only [isWildcardPattern, Bool.or_eq_false_iff, decide_eq_false_iff_not] at h
  exact ⟨h.2, globMatches_literal h.1.1 h.1.2 host⟩

variable {patterns : List (List Char)} {s : HostSection} {ws : List Written}

theorem matches_of_listed (hmem : host ∈ patterns) (h : isWildcardPattern host = false) :
    Matches patterns host ↔ ∀ pat, '!' :: pat ∈ patterns → globMatches pat host = false := by
  obtain ⟨hhead, hglob⟩ := globMatches_concrete h host
  exact ⟨fun hm => hm.negative, fun hneg => ⟨⟨host, hmem, hhead, hglob.2 rfl⟩, hneg⟩⟩

theorem isWildcardBlock_eq_false :
    isWildcardBlock patterns = false ↔ patterns ≠ [] ∧ ∀ pat ∈ patterns, isWildcardPattern pat = false := by
  rw [isWildcardBlock, Bool.or_eq_false_iff, Bool.not_eq_false', any_eq_true, any_eq_false]
  constructor
  · rintro ⟨⟨pat, hpat, -⟩, hall⟩
    exact ⟨ne_nil_of_mem hpat, fun p hp => by simpa using hall p hp⟩
  · rintro ⟨hne, hall⟩
    obtain ⟨pat, hpat⟩ := exists_mem_of_ne_nil patterns hne
    exact ⟨⟨pat, hpat, by rw [hall pat hpat]; rfl⟩, fun p hp => by simp [hall p hp]⟩

theorem matches_of_concrete (h : ∀ pat ∈ patterns, isWildcardPattern pat = false) :
    Matches patterns host ↔ host ∈ patterns := by
  constructor
  · rintro ⟨⟨pat, hpat, -, hglob⟩, -⟩
    rw [← (globMatches_concrete (h pat hpat) host).2.1 hglob]
    exact hpat
  · intro hmem
    refine (matches_of_listed hmem (h host hmem)).2 fun pat hpat => ?_
    exact absurd rfl (globMatches_concrete (h _ hpat) host).1

theorem separate_iff : Separate (sections.map HostSection.head) ↔
    ∀ i host, Listed (sections.map HostSection.head) i host → Agrees sections i host := by
  have hhead : ∀ (j : Nat) (s : HostSection), sections[j]? = some s → (sections.map HostSection.head)[j]? = some s.head := fun j s hs => by
    rw [getElem?_map, hs]
    rfl
  have hsome : ∀ (j : Nat) (h : Head), (sections.map HostSection.head)[j]? = some h → ∃ s, sections[j]? = some s ∧ s.head = h :=
    fun j h hj => by rwa [getElem?_map, Option.map_eq_some_iff] at hj
  constructor
  · rintro hsep i host ⟨g, hg, hmem, hconcrete⟩ j s hs
    have hgmem : g ∈ sections.map HostSection.head := mem_of_getElem? hg
    have hlate : s.head.late = true → ¬ Consulted i host s.patterns j := by
      intro hlate hc
      obtain ⟨hnot, hmiss⟩ := hsep.uncut g hgmem host hmem hconcrete _ (mem_of_getElem? (hhead j s hs)) hlate
      rcases hc with rfl | hc
      · obtain rfl := Option.some.inj (hg.symm.trans (hhead _ s hs))
        exact hnot hmem
      · exact hmiss hc.2
    by_cases hji : j = i
    · subst hji
      obtain rfl := Option.some.inj (hg.symm.trans (hhead j s hs))
      exact ⟨fun hown => ⟨fun _ => hsep.admitted _ hgmem hown host hmem hconcrete, fun _ => .inl rfl⟩, hlate⟩
    · refine ⟨fun hown => ⟨fun hc => (hc.resolve_left hji).2, fun hm => .inr ⟨?_, hm⟩⟩, hlate⟩
      by_contra hwild
      obtain ⟨-, hall⟩ := isWildcardBlock_eq_false.1 (Bool.not_eq_true _ ▸ hwild)
      have hapart := hsep.apart (Ne.symm hji) hg (hhead j s hs) host hmem ((matches_of_concrete hall).1 hm) hconcrete
      obtain ⟨pat, hpat, hw⟩ := any_eq_true.1 (hapart.2 hown)
      exact Bool.false_ne_true ((hall pat hpat).symm.trans hw)
  · intro hagree
    have hlisted : ∀ (i : Nat) (s : HostSection), sections[i]? = some s → ∀ host ∈ s.patterns,
        isWildcardPattern host = false → Agrees sections i host := fun i s hs host hmem hconcrete =>
      hagree i host ⟨s.head, hhead i s hs, hmem, hconcrete⟩
    -- A line that names a host of an earlier or later line is read for it only if it has a wildcard.
    have hwild : ∀ (i j : Nat) (s u : HostSection), sections[i]? = some s → sections[j]? = some u → j ≠ i →
        ∀ host ∈ s.patterns, host ∈ u.patterns → isWildcardPattern host = false → u.head.own = true →
          u.patterns.any isWildcardPattern = true := by
      intro i j s u hs hu hji host hmem hmem' hconcrete hown
      by_contra hnone
      have hall : ∀ pat ∈ u.patterns, isWildcardPattern pat = false := fun pat hpat => by
        rw [← Bool.not_eq_true]
        exact fun hw => hnone (any_eq_true.2 ⟨pat, hpat, hw⟩)
      have hc := ((hlisted i s hs host hmem hconcrete j u hu).1 hown).2 ((matches_of_concrete hall).2 hmem')
      have hblock : isWildcardBlock u.patterns = false :=
        isWildcardBlock_eq_false.2 ⟨ne_nil_of_mem hmem', hall⟩
      exact hji (hc.resolve_right fun hw => Bool.false_ne_true (hblock.symm.trans hw.1))
    refine ⟨fun h hh hown host hmem hconcrete => ?_, ?_, fun g hg host hmem hconcrete h hh hlate => ?_⟩
    · obtain ⟨i, hi⟩ := mem_iff_getElem?.1 hh
      obtain ⟨s, hs, rfl⟩ := hsome i h hi
      exact ((hlisted i s hs host hmem hconcrete i s hs).1 hown).1 (.inl rfl)
    · refine pairwise_iff_getElem.2 fun i j hi hj hlt host hmem hmem' hconcrete => ?_
      obtain ⟨s, hs, hshead⟩ := hsome i _ (getElem?_eq_getElem hi)
      obtain ⟨u, hu, huhead⟩ := hsome j _ (getElem?_eq_getElem hj)
      rw [← hshead] at hmem ⊢
      rw [← huhead] at hmem' ⊢
      exact ⟨hwild j i u s hu hs hlt.ne host hmem' hmem hconcrete, hwild i j s u hs hu hlt.ne' host hmem hmem' hconcrete⟩
    · obtain ⟨i, hi⟩ := mem_iff_getElem?.1 hg
      obtain ⟨s, hs, rfl⟩ := hsome i g hi
      obtain ⟨j, hj⟩ := mem_iff_getElem?.1 hh
      obtain ⟨u, hu, rfl⟩ := hsome j h hj
      have hnot : host ∉ u.patterns := fun hmem' => (hlisted j u hu host hmem' hconcrete j u hu).2 hlate (.inl rfl)
      refine ⟨hnot, fun hm => (hlisted i s hs host hmem hconcrete j u hu).2 hlate (.inr ⟨?_, hm⟩)⟩
      by_contra hwild'
      obtain ⟨-, hall⟩ := isWildcardBlock_eq_false.1 (Bool.not_eq_true _ ▸ hwild')
      exact hnot ((matches_of_concrete hall).1 hm)

/-! ## Texts with the same `Host` lines -/

abbrev Written := List Char × Directive

/-- The line is one line, and it is read so. -/
structure Written.Reads (w : Written) : Prop where
  newline : '\n' ∉ w.1
  cr : '\r' ∉ w.1
  lex : lexLine w.1 = .ok (some w.2)

def textOf (ws : List Written) : List Char := ws.flatMap fun w => w.1 ++ ['\n']

section

variable (h : ∀ w ∈ ws, w.Reads)
include h

theorem lines_textOf : lines (textOf ws) = ws.map Prod.fst := by
  rw [textOf, ← flatMap_map Prod.fst fun l => l ++ ['\n']]
  refine lines_flatMap fun l hl => ?_
  obtain ⟨w, hw, rfl⟩ := mem_map.1 hl
  exact ⟨(h w hw).newline, (h w hw).cr⟩

theorem directives_textOf : directives (textOf ws) = .ok (ws.map Prod.snd) := by
  have hlex : (ws.map Prod.fst).mapM lexLine = .ok (ws.map fun w => some w.2) := by
    induction ws with
    | nil => rfl
    | cons w ws ih =>
      rw [forall_mem_cons] at h
      rw [map_cons, mapM_cons, h.1.lex, ih h.2]
      rfl
  rw [directives, lines_textOf h, hlex]
  change Except.ok (List.reduceOption _) = _
  rw [← comp_def some Prod.snd, ← map_map, List.reduceOption, filterMap_map, id_comp, filterMap_some]

theorem normaliseLineEndings_textOf : normaliseLineEndings (textOf ws) = textOf ws := by
  refine normaliseLineEndings_eq_self fun hmem => ?_
  obtain ⟨w, hw, hcr⟩ := mem_flatMap.1 hmem
  rcases mem_append.1 hcr with hcr | hcr
  · exact (h w hw).cr hcr
  · cases mem_singleton.1 hcr

theorem includeFree_textOf (hkw : ∀ w ∈ ws, w.2.1 ≠ Kw.include_) : IncludeFree (textOf ws) := by
  intro l hl value hlex
  rw [lines_textOf h] at hl
  obtain ⟨w, hw, rfl⟩ := mem_map.1 hl
  rw [(h w hw).lex] at hlex
  exact hkw w hw (congrArg Prod.fst (Option.some.inj (Except.ok.inj hlex)))

end

theorem mem_of_mapM {α β ε : Type} {f : α → Except ε β} {xs : List α} {ys : List β} (h : xs.mapM f = .ok ys) {y : β}
    (hy : y ∈ ys) : ∃ x ∈ xs, f x = .ok y := by
  induction xs generalizing ys with
  | nil =>
    cases h
    cases hy
  | cons x xs ih =>
    rw [mapM_cons] at h
    rcases hx : f x with e | z
    · rw [hx] at h
      cases h
    rcases hxs : xs.mapM f with e | zs
    · rw [hx, hxs] at h
      cases h
    · rw [hx, hxs] at h
      cases h
      rcases mem_cons.1 hy with rfl | hy
      · exact ⟨x, mem_cons_self, hx⟩
      · obtain ⟨x', hx', hfx⟩ := ih hxs hy
        exact ⟨x', mem_cons_of_mem x hx', hfx⟩

theorem exists_host (hs : s ∈ (sectionsOf ds).2) :
    ∃ d ∈ ds, d.1 = Kw.host ∧ splitHostPatterns d.2 = s.patterns := by
  induction ds with
  | nil => cases hs
  | cons d ds ih =>
    by_cases hd : d.1 = Kw.host
    · simp only [sectionsOf, hd, if_true, mem_cons] at hs
      rcases hs with rfl | hs
      · exact ⟨d, mem_cons_self, hd, rfl⟩
      · obtain ⟨d', hd', hhost⟩ := ih hs
        exact ⟨d', mem_cons_of_mem d hd', hhost⟩
    · simp only [sectionsOf, hd, if_false] at hs
      obtain ⟨d', hd', hhost⟩ := ih hs
      exact ⟨d', mem_cons_of_mem d hd', hhost⟩

theorem exists_written (h : directives content = .ok ds)
    (hcr : '\r' ∉ content) (hs : s ∈ (sectionsOf ds).2) :
    ∃ w : Written, w.Reads ∧ w.2.1 = Kw.host ∧ splitHostPatterns w.2.2 = s.patterns := by
  obtain ⟨d, hd, hhost, hsplit⟩ := exists_host hs
  rcases hm : (lines content).mapM lexLine with e | lexed
  · rw [directives, hm] at h
    cases h
  · rw [directives, hm] at h
    obtain rfl : lexed.reduceOption = ds := Except.ok.inj h
    obtain ⟨l, hl, hlex⟩ := mem_of_mapM hm (reduceOption_mem_iff.1 hd)
    obtain ⟨hn, hsub⟩ := mem_lines hl
    exact ⟨(l, d), ⟨hn, fun hr => hcr (hsub _ hr), hlex⟩, hhost, hsplit⟩

theorem sectionsOf_flatMap (parts : List (Directive × List Directive))
    (h : ∀ p ∈ parts, p.1.1 = Kw.host ∧ ∀ d ∈ p.2, d.1 ≠ Kw.host) :
    sectionsOf (parts.flatMap fun p => p.1 :: p.2) = ([], parts.map fun p => ⟨splitHostPatterns p.1.2, p.2⟩) := by
  have happend : ∀ (ds rest : List Directive), (∀ d ∈ ds, d.1 ≠ Kw.host) →
      sectionsOf (ds ++ rest) = (ds ++ (sectionsOf rest).1, (sectionsOf rest).2) := by
    intro ds rest hds
    induction ds with
    | nil => rfl
    | cons d ds ih =>
      rw [forall_mem_cons] at hds
      rw [cons_append, sectionsOf, ih hds.2]
      exact if_neg hds.1
  induction parts with
  | nil => rfl
  | cons p parts ih =>
    rw [forall_mem_cons] at h
    rw [flatMap_cons, cons_append, sectionsOf, happend _ _ h.1.2, ih h.2]
    refine (if_pos h.1.1).trans ?_
    simp

def userLine : Written := (['U', 's', 'e', 'r', ' ', 'x'], (Kw.user, ['x']))

def matchLine : Written := (['M', 'a', 't', 'c', 'h', ' ', 'x'], (Kw.match_, ['x']))

def portLine : Written := (['P', 'o', 'r', 't', ' ', '1'], (Kw.port, ['1']))

/-- What stands under the `Host` line at place `n`: a value before a `Match` line and one after it, where there were any. At
the place `j` one of them is a user. -/
def under (j : Nat) (late : Bool) (h : Head) (n : Nat) : List Written :=
  (if h.own = true then [if n = j ∧ late = false then userLine else portLine] else []) ++
    (if h.late = true then [matchLine, if n = j ∧ late = true then userLine else portLine] else [])

/-- Sections with these heads, and no value but a user in one of them. -/
def probe (j : Nat) (late : Bool) (heads : List Head) : List HostSection :=
  heads.zipIdx.map fun h => ⟨h.1.patterns, (under j late h.1 h.2).map Prod.snd⟩

variable {j : Nat} {late : Bool}

variable {h : Head}

theorem mem_under {n : Nat} {w : Written} (hw : w ∈ under j late h n) : w = userLine ∨ w = portLine ∨ w = matchLine := by
  have hvalue : ∀ p : Prop, [Decidable p] → (if p then userLine else portLine) = userLine ∨
      (if p then userLine else portLine) = portLine := fun p _ => by
    split
    · exact .inl rfl
    · exact .inr rfl
  rw [under, mem_append] at hw
  rcases hw with hw | hw <;> split at hw
  · rw [mem_singleton.1 hw]
    exact (hvalue _).imp_right .inl
  · cases hw
  · rw [mem_cons, mem_singleton] at hw
    rcases hw with rfl | rfl
    · exact .inr (.inr rfl)
    · exact (hvalue _).imp_right .inl
  · cases hw

/-- The two parts of what stands there. -/
theorem parts_under (j : Nat) (late : Bool) (h : Head) (n : Nat) : (⟨h.patterns, (under j late h n).map Prod.snd⟩ : HostSection).own =
      (if h.own = true then [(if n = j ∧ late = false then userLine else portLine).2] else []) ∧
    (⟨h.patterns, (under j late h n).map Prod.snd⟩ : HostSection).late =
      if h.late = true then [matchLine.2, (if n = j ∧ late = true then userLine else portLine).2] else [] := by
  have hvalue : ∀ p : Prop, [Decidable p] → (if p then userLine else portLine).2.1 ≠ Kw.match_ := fun p _ => by
    split <;> decide
  have hmatch : matchLine.2.1 = Kw.match_ := rfl
  unfold HostSection.own HostSection.late under
  rcases h.own <;> rcases h.late <;> simp [hvalue, hmatch]

theorem getElem?_probe (n : Nat) : (probe j late heads)[n]? =
    heads[n]?.map fun h => ⟨h.patterns, (under j late h n).map Prod.snd⟩ := by
  simp [probe, getElem?_map, getElem?_zipIdx, Option.map_map, comp_def]

theorem map_head_probe : (probe j late heads).map HostSection.head = heads := by
  refine ext_getElem? fun n => ?_
  rw [getElem?_map, getElem?_probe, Option.map_map]
  rcases heads[n]? with _ | h
  · rfl
  · have hvalue : ∀ p : Prop, [Decidable p] → sets (if p then userLine else portLine).2 = true := fun p _ => by
      split <;> decide
    have hmatch : sets matchLine.2 = false := by decide
    obtain ⟨hown, hlate⟩ := parts_under j late h n
    change some (Head.mk h.patterns (List.any _ _) (List.any _ _)) = _
    rw [hown, hlate]
    obtain ⟨patterns, own, late⟩ := h
    cases own <;> cases late <;> simp [hvalue, hmatch]

theorem exists_probe (h : directives content = .ok ds)
    (hcr : '\r' ∉ content) (j : Nat) (late : Bool) : ∃ content' ds', normaliseLineEndings content' = content' ∧
      IncludeFree content' ∧ directives content' = .ok ds' ∧ hostLines content' = hostLines content ∧
      (sectionsOf ds').2 = probe j late ((sectionsOf ds).2.map HostSection.head) := by
  have hlines : ∀ h : Head, ∃ w : Written, h ∈ (sectionsOf ds).2.map HostSection.head →
      w.Reads ∧ w.2.1 = Kw.host ∧ splitHostPatterns w.2.2 = h.patterns := fun head => by
    by_cases hmem : head ∈ (sectionsOf ds).2.map HostSection.head
    · obtain ⟨s, hs, rfl⟩ := mem_map.1 hmem
      obtain ⟨w, hw⟩ := exists_written h hcr hs
      exact ⟨w, fun _ => hw⟩
    · exact ⟨userLine, fun hin => absurd hin hmem⟩
  choose line hline using hlines
  set heads := (sectionsOf ds).2.map HostSection.head with hheads
  let ws := heads.zipIdx.flatMap fun h => line h.1 :: under j late h.1 h.2
  have hws : ∀ w ∈ ws, (∃ h ∈ heads, w = line h) ∨ w = userLine ∨ w = portLine ∨ w = matchLine := fun w hw => by
    obtain ⟨h, hh, hw⟩ := mem_flatMap.1 hw
    rcases mem_cons.1 hw with rfl | hw
    · exact .inl ⟨h.1, fst_mem_of_mem_zipIdx hh, rfl⟩
    · exact .inr (mem_under hw)
  have hreads : ∀ w ∈ ws, w.Reads := fun w hw => by
    rcases hws w hw with ⟨h, hh, rfl⟩ | rfl | rfl | rfl
    · exact (hline h hh).1
    · exact ⟨by decide, by decide, by decide⟩
    · exact ⟨by decide, by decide, by decide⟩
    · exact ⟨by decide, by decide, by decide⟩
  have hkw : ∀ w ∈ ws, w.2.1 ≠ Kw.include_ := fun w hw => by
    rcases hws w hw with ⟨h, hh, rfl⟩ | rfl | rfl | rfl
    · rw [(hline h hh).2.1]
      decide
    · decide
    · decide
    · decide
  have hsections : (sectionsOf (ws.map Prod.snd)).2 = probe j late heads := by
    let parts := heads.zipIdx.map fun h => ((line h.1).2, (under j late h.1 h.2).map Prod.snd)
    have hparts : ws.map Prod.snd = parts.flatMap fun p => p.1 :: p.2 := by
      simp only [ws, parts, map_flatMap, flatMap_map, map_cons]
    rw [hparts, sectionsOf_flatMap]
    · rw [probe, map_map]
      refine map_congr_left fun h hh => ?_
      rw [comp_apply, (hline h.1 (fst_mem_of_mem_zipIdx hh)).2.2]
    · intro p hp
      obtain ⟨h, hh, rfl⟩ := mem_map.1 hp
      refine ⟨(hline h.1 (fst_mem_of_mem_zipIdx hh)).2.1, fun d hd => ?_⟩
      obtain ⟨w, hw, rfl⟩ := mem_map.1 hd
      rcases mem_under hw with rfl | rfl | rfl <;> decide
  refine ⟨textOf ws, ws.map Prod.snd, normaliseLineEndings_textOf hreads, includeFree_textOf hreads hkw,
    directives_textOf hreads, ?_, hsections⟩
  rw [hostLines, hostLines, directives_textOf hreads, h]
  change Except.ok ((sectionsOf _).2.map HostSection.head) = Except.ok heads
  rw [hsections, map_head_probe]

theorem isSome_user : (Settings.of ds).user.isSome = true ↔ ∃ d ∈ ds, d.1 = Kw.user := by
  simp [Settings.of, valueOf, isSome_findSome?]

theorem mem_consultedDirectives {d : Directive} : d ∈ consultedDirectives sections i host ↔
    ∃ (n : Nat) (s : HostSection), sections[n]? = some s ∧ Consulted i host s.patterns n ∧ d ∈ s.settings := by
  simp only [consultedDirectives, mem_flatMap, mem_filter, decide_eq_true_eq, Prod.exists, mk_mem_zipIdx_iff_getElem?]
  exact ⟨fun ⟨s, n, ⟨hs, hc⟩, hd⟩ => ⟨n, s, hs, hc, hd⟩, fun ⟨n, s, hs, hc, hd⟩ => ⟨s, n, ⟨hs, hc⟩, hd⟩⟩

theorem mem_matchingDirectives {d : Directive} : d ∈ matchingDirectives sections host ↔
    ∃ (n : Nat) (s : HostSection), sections[n]? = some s ∧ Matches s.patterns host ∧ d ∈ s.own := by
  simp only [matchingDirectives, mem_flatMap, mem_filter, decide_eq_true_eq]
  constructor
  · rintro ⟨s, ⟨hs, hm⟩, hd⟩
    obtain ⟨n, hn⟩ := mem_iff_getElem?.1 hs
    exact ⟨n, s, hn, hm, hd⟩
  · rintro ⟨n, s, hn, hm, hd⟩
    exact ⟨s, ⟨mem_iff_getElem?.2 ⟨n, hn⟩, hm⟩, hd⟩

/-- The user is at one place. -/
theorem eq_of_user {n : Nat} {w : Written} (hw : w ∈ under j late h n) (huser : w.2.1 = Kw.user) : n = j := by
  by_contra hn
  rcases hown : h.own <;> rcases hlate : h.late <;> simp [under, hn, hown, hlate] at hw
  all_goals rcases hw with rfl | rfl | rfl
  all_goals exact absurd huser (by decide)

theorem user_consulted (hh : heads[j]? = some h) (hset : (if late then h.late else h.own) = true) :
    (Settings.of (consultedDirectives (probe j late heads) i host)).user.isSome = true ↔ Consulted i host h.patterns j := by
  rw [isSome_user]
  simp only [mem_consultedDirectives, getElem?_probe]
  constructor
  · rintro ⟨d, ⟨n, s, hs, hc, hd⟩, hkw⟩
    obtain ⟨h', hh', rfl⟩ := Option.map_eq_some_iff.1 hs
    obtain ⟨w, hw, rfl⟩ := mem_map.1 hd
    obtain rfl := eq_of_user hw hkw
    obtain rfl := Option.some.inj (hh'.symm.trans hh)
    exact hc
  · intro hc
    refine ⟨userLine.2, ⟨j, _, by rw [hh]; rfl, hc, mem_map_of_mem ?_⟩, rfl⟩
    rcases late <;> simp_all [under]

theorem user_matching (hh : heads[j]? = some h) (hset : (if late then h.late else h.own) = true) :
    (opensshSettings (probe j late heads) host).user.isSome = true ↔ Matches h.patterns host ∧ late = false := by
  rw [opensshSettings, isSome_user]
  simp only [mem_matchingDirectives, getElem?_probe]
  constructor
  · rintro ⟨d, ⟨n, s, hs, hm, hd⟩, hkw⟩
    obtain ⟨h', hh', rfl⟩ := Option.map_eq_some_iff.1 hs
    obtain ⟨w, hw, rfl⟩ := mem_map.1 (takeWhile_subset _ hd)
    obtain rfl := eq_of_user hw hkw
    obtain rfl := Option.some.inj (hh'.symm.trans hh)
    refine ⟨hm, Bool.not_eq_true _ ▸ ?_⟩
    rintro rfl
    rw [(parts_under _ _ _ _).1] at hd
    split at hd
    · rw [if_neg (by simp), mem_singleton] at hd
      rw [hd] at hkw
      exact absurd hkw (by decide)
    · cases hd
  · rintro ⟨hm, rfl⟩
    refine ⟨userLine.2, ⟨j, _, by rw [hh]; rfl, hm, ?_⟩, rfl⟩
    have hown : h.own = true := hset
    rw [(parts_under _ _ _ _).1, if_pos hown, if_pos ⟨rfl, rfl⟩]
    exact mem_singleton_self _

/-! ## When the first value wins -/

theorem firstValueWins_of_agrees (hfree : IncludeFree (normaliseLineEndings content))
    (hds : directives (normaliseLineEndings content) = .ok ds)
    (h : ∀ i host, Listed ((sectionsOf ds).2.map HostSection.head) i host → Agrees (sectionsOf ds).2 i host)
    (maxIncludeDepth : Nat) : FirstValueWins resolve reader maxIncludeDepth content := by
  obtain ⟨entries, hparse, hentries⟩ := entries_eq hds
  refine ⟨ds, entries, hds, by rw [parseOpensshConfig_includeFree hfree, hparse], fun e he => ?_⟩
  obtain ⟨i, s, hs, hmem, hconcrete, hsettings⟩ := (hentries e).1 he
  have hlisted : Listed ((sectionsOf ds).2.map HostSection.head) i e.host :=
    ⟨s.head, by rw [getElem?_map, hs]; rfl, hmem, hconcrete⟩
  rw [hsettings, consulted_eq (h i e.host hlisted)]

theorem consulted_iff_of_firstValueWins {maxIncludeDepth : Nat} (hds : directives (normaliseLineEndings content) = .ok ds)
    (h : ∀ content', IncludeFree (normaliseLineEndings content') →
      hostLines (normaliseLineEndings content') = hostLines (normaliseLineEndings content) →
      FirstValueWins resolve reader maxIncludeDepth content')
    (hlisted : Listed ((sectionsOf ds).2.map HostSection.head) i host) {head : Head}
    (hhead : ((sectionsOf ds).2.map HostSection.head)[j]? = some head) (late : Bool)
    (hset : (if late then head.late else head.own) = true) :
    Consulted i host head.patterns j ↔ Matches head.patterns host ∧ late = false := by
  obtain ⟨content', ds', hnorm, hfree, hds', hlines, hsections⟩ :=
    exists_probe hds (cr_not_mem_normaliseLineEndings content) j late
  rw [← hnorm] at hfree hds' hlines
  obtain ⟨ds'', entries, hds'', hparse, hfollow⟩ := h content' hfree hlines
  obtain rfl := Except.ok.inj (hds'.symm.trans hds'')
  obtain ⟨entries', hparse', hentries⟩ := entries_eq hds'
  rw [parseOpensshConfig_includeFree hfree, hparse'] at hparse
  obtain rfl := Except.ok.inj hparse
  obtain ⟨own, hown, hmem, hconcrete⟩ := hlisted
  rw [hsections] at hentries hfollow
  have hentry := (hentries ⟨Settings.of (consultedDirectives (probe j late _) i host), host⟩).2
    ⟨i, _, by rw [getElem?_probe, hown]; rfl, hmem, hconcrete, rfl⟩
  rw [← user_consulted hhead hset, ← user_matching hhead hset, ← hfollow _ hentry]

/-- No line makes the importer slice inside of a character, and the `Host` lines are separate. -/
def SeparateLines (content : List Char) : Prop :=
  ∃ heads, hostLines (normaliseLineEndings content) = .ok heads ∧ Separate heads

/-- **First value wins** in every configuration with separate lines. Where the lines are not separate, the importer misreads
some configuration with the same ones, which differs in the values alone. -/
theorem firstValueWins_iff (resolve : List Char → List Path) (reader : Path → Option (List Char))
    (maxIncludeDepth : Nat) {content : List Char} (hfree : IncludeFree (normaliseLineEndings content)) :
    (SeparateLines content → FirstValueWins resolve reader maxIncludeDepth content) ∧
    (¬ SeparateLines content → ∃ content', IncludeFree (normaliseLineEndings content') ∧
      hostLines (normaliseLineEndings content') = hostLines (normaliseLineEndings content) ∧
      ¬ FirstValueWins resolve reader maxIncludeDepth content') := by
  constructor
  · rintro ⟨heads, hheads, hsep⟩
    rcases hds : directives (normaliseLineEndings content) with e | ds
    · rw [hostLines, hds] at hheads
      cases hheads
    · rw [hostLines, hds] at hheads
      obtain rfl : (sectionsOf ds).2.map HostSection.head = heads := Except.ok.inj hheads
      exact firstValueWins_of_agrees hfree hds (separate_iff.1 hsep) maxIncludeDepth
  · intro hnot
    by_contra hall
    push Not at hall
    obtain ⟨ds, -, hds, -⟩ := hall content hfree rfl
    refine hnot ⟨(sectionsOf ds).2.map HostSection.head, by rw [hostLines, hds]; rfl, ?_⟩
    refine separate_iff.2 fun i host hlisted j s hs => ?_
    have hhead : ((sectionsOf ds).2.map HostSection.head)[j]? = some s.head := by
      rw [getElem?_map, hs]
      rfl
    refine ⟨fun hown => ?_, fun hlate hc => ?_⟩
    · exact (consulted_iff_of_firstValueWins hds hall hlisted hhead false hown).trans (and_iff_left rfl)
    · exact Bool.noConfusion ((consulted_iff_of_firstValueWins hds hall hlisted hhead true hlate).1 hc).2

/-- A `Match` line under which nothing is set that the importer reads. -/
def sampleConfig : List Char :=
  "Host web db\n  Port 2222\nHost * !db\n  User deploy\n  IdentityFile k\nMatch all\n  ForwardAgent yes\n".toList

theorem firstValueWins_sample : FirstValueWins (fun _ => []) (fun _ : List Char => none) 8 sampleConfig :=
  (firstValueWins_iff (fun _ => []) (fun _ : List Char => none) 8 (by decide +kernel)).1
    ⟨[⟨["web".toList, "db".toList], true, false⟩, ⟨["*".toList, "!db".toList], true, false⟩], by decide +kernel,
      ⟨by decide +kernel, by decide +kernel, fun _ _ _ _ _ h hh hlate => by
        have hnone : h.late = false := by
          rcases mem_cons.1 hh with rfl | hh
          · rfl
          · rw [mem_singleton.1 hh]
        rw [hnone] at hlate
        cases hlate⟩⟩

/-- A host with two blocks: each entry takes the values of its own block only. -/
theorem firstValueWins_repeated : ¬ ∀ (resolve : List Char → List (List Char)) (reader : List Char → Option (List Char))
    (maxIncludeDepth : Nat) (content : List Char), IncludeFree (normaliseLineEndings content) →
      FirstValueWins resolve reader maxIncludeDepth content := by
  intro h
  have hfree : IncludeFree (normaliseLineEndings "Host a\n  User x\nHost a\n  Port 22\n".toList) := by decide +kernel
  obtain ⟨ds, entries, hds, hparse, hfollow⟩ := h (fun _ => []) (fun _ => none) 8 _ hfree
  obtain rfl : [(Kw.host, ['a']), (Kw.user, ['x']), (Kw.host, ['a']), (Kw.port, ['2', '2'])] = ds :=
    Except.ok.inj (Eq.trans (by decide +kernel) hds)
  obtain ⟨entries', hparse', hentries⟩ := entries_eq hds
  rw [parseOpensshConfig_includeFree hfree, hparse'] at hparse
  obtain rfl := Except.ok.inj hparse
  have hentry := hfollow _ ((hentries ⟨Settings.of (consultedDirectives _ 0 ['a']), ['a']⟩).2
    ⟨0, _, rfl, by decide +kernel, by decide +kernel, rfl⟩)
  exact absurd (congrArg Settings.port hentry) (by decide +kernel)

end LetsFlutSsh.Hosts.SshConfig
