import LetsFlutSsh.Hosts.SshConfigIncludes

/-!
# The OpenSSH client configuration: blocks across included files

OpenSSH reads an included file inside of the block that includes it, and comes back to that block after it. The importer
splices the file in and reads the text that comes of it in one go.

* `Place`, `nestedBlocks` : the block of every directive that the importer takes a value from, as OpenSSH reads files; blocks
  are numbered in the order of their `Host` lines;
* `readInto` : the block that the importer reads every directive into (`blockSettings_eq` : the blocks hold just these);
* `undisturbed` : no such directive of a block comes after a `Host` line of a file that the block includes;
* `hasBareCr` : a carriage return that ends no line of an included file (`lines_normalise_iff`);
* `KeepsContext` : an `Include` keeps the block, and its file is split into lines like the main file
  (`keepsContext_iff`, `outerBlock_captured`).
-/

namespace LetsFlutSsh.Hosts.SshConfig
open Lib List

/-! ## Line endings -/

def hasBareCr : List Char → Bool
  | [] => false
  | '\r' :: '\n' :: cs => hasBareCr cs
  | '\r' :: _ => true
  | _ :: cs => hasBareCr cs

theorem linesFrom_normalise {cs : List Char} (h : hasBareCr cs = false) {read : List Char} (hread : '\r' ∉ read) :
    linesFrom read cs = linesFrom read (normaliseLineEndings cs) := by
  have hstrip : ∀ {l : List Char}, '\r' ∉ l → stripCr l = l := fun hl =>
    if_neg fun hlast => hl (mem_of_getLast? hlast)
  fun_induction hasBareCr cs generalizing read with
  | case1 => rfl
  | case2 cs ih =>
    have hcr : linesFrom read ('\r' :: '\n' :: cs) = stripCr (read ++ ['\r']) :: linesFrom [] cs := by
      simp [linesFrom]
    have hlf : linesFrom read (normaliseLineEndings ('\r' :: '\n' :: cs)) =
        stripCr read :: linesFrom [] (normaliseLineEndings cs) := by
      simp [normaliseLineEndings, linesFrom]
    rw [hcr, hlf, ih h not_mem_nil, hstrip hread]
    simp [stripCr]
  | case3 cs hnext => cases h
  | case4 c cs hcrlf hcr ih =>
    have hnorm : normaliseLineEndings (c :: cs) = c :: normaliseLineEndings cs := by
      rw [normaliseLineEndings]
      · exact hcrlf
      · exact hcr
    rw [hnorm, linesFrom, linesFrom]
    split
    · rw [ih h not_mem_nil]
    · refine ih h fun hmem => ?_
      rcases mem_append.1 hmem with hmem | hmem
      · exact hread hmem
      · exact hcr (mem_singleton.1 hmem).symm

theorem exists_line_of_read {read : List Char} (h : '\r' ∈ read.dropLast) (cs : List Char) :
    ∃ l ∈ linesFrom read cs, '\r' ∈ l := by
  induction cs generalizing read with
  | nil =>
    have hne : read ≠ [] := by
      rintro rfl
      cases h
    exact ⟨read, by simp [linesFrom, hne], dropLast_subset read h⟩
  | cons c cs ih =>
    rw [linesFrom]
    split
    · refine ⟨stripCr read, mem_cons_self, ?_⟩
      unfold stripCr
      split
      · exact h
      · exact dropLast_subset read h
    · apply ih
      rw [dropLast_concat]
      exact dropLast_subset read h

theorem exists_line_of_bareCr {cs : List Char} (h : hasBareCr cs = true) (read : List Char) :
    ∃ l ∈ linesFrom read cs, '\r' ∈ l := by
  fun_induction hasBareCr cs generalizing read with
  | case1 => cases h
  | case2 cs ih =>
    obtain ⟨l, hl, hcr⟩ := ih h []
    exact ⟨l, by simp [linesFrom, hl], hcr⟩
  | case3 cs hnext =>
    cases cs with
    | nil => exact ⟨read ++ ['\r'], by simp [linesFrom], by simp⟩
    | cons c cs =>
      have hc : c ≠ '\n' := by
        rintro rfl
        exact hnext cs rfl
      have hstep : linesFrom read ('\r' :: c :: cs) = linesFrom (read ++ ['\r'] ++ [c]) cs := by
        simp [linesFrom, hc]
      rw [hstep]
      apply exists_line_of_read
      rw [dropLast_concat]
      simp
  | case4 c cs hcrlf hcr ih =>
    rw [linesFrom]
    split
    · obtain ⟨l, hl, hmem⟩ := ih h []
      exact ⟨l, mem_cons_of_mem _ hl, hmem⟩
    · exact ih h _

theorem lines_normalise_iff (cs : List Char) : lines cs = lines (normaliseLineEndings cs) ↔ hasBareCr cs = false := by
  constructor
  · intro heq
    rw [← Bool.not_eq_true]
    intro h
    obtain ⟨l, hl, hcr⟩ := exists_line_of_bareCr h []
    rw [show linesFrom [] cs = lines cs from rfl, heq] at hl
    exact cr_not_mem_normaliseLineEndings cs ((mem_lines hl).2 _ hcr)
  · exact fun h => linesFrom_normalise h not_mem_nil

/-! ## Places and blocks -/

/-- Where a reader of nested files stands. -/
structure Place where
  /-- The `Host` lines so far, in all files. -/
  hosts : Nat := 0
  /-- The block of the file that is read. -/
  block : Option Nat := none
  /-- The blocks of the files around it. -/
  outer : List (Option Nat) := []

def Place.directive (p : Place) (d : Directive) : Place :=
  if d.1 = Kw.host then { p with hosts := p.hosts + 1, block := some p.hosts } else p

/-- An included file begins in the block that includes it, and that block goes on after it. -/
def Place.mark (p : Place) : Item → Place
  | .line _ => p
  | .enter _ => { p with outer := p.block :: p.outer }
  | .leave =>
    match p.outer with
    | [] => p
    | block :: outer => { p with block, outer }

/-- `parse_blocks` has an arm for the keyword. -/
def hasValue (d : Directive) : Bool :=
  [Kw.hostname, Kw.user, Kw.port, Kw.identityfile, Kw.preferredauthentications].contains d.1

/-- The block that a value belongs to. -/
def Place.blockOf (p : Place) (d : Directive) : Option Nat := if hasValue d then (p.directive d).block else none

def itemDirective : Item → Option Directive
  | .line rawLine => (lexLine rawLine).toOption.join
  | _ => none

def nestedBlocks : Place → List Item → List (Option Nat)
  | _, [] => []
  | p, item :: items =>
    match itemDirective item with
    | some d => p.blockOf d :: nestedBlocks (p.directive d) items
    | none => nestedBlocks (p.mark item) items

/-- The block that `parse_blocks` builds when it has read a directive, for every directive. -/
def readInto : Loop → List Directive → List (Option Nat)
  | _, [] => []
  | l, d :: ds => ((l.directive d).patterns.map fun _ => (l.directive d).blocks.length) :: readInto (l.directive d) ds

/-- A directive with a value of a block comes before any `Host` line of a file that the block includes: the `Host` line of the
block is the last one so far. -/
def undisturbed : Place → List Item → Bool
  | _, [] => true
  | p, item :: items =>
    match itemDirective item with
    | some d =>
      (p.blockOf d).all (fun k => (p.directive d).hosts = k + 1) && undisturbed (p.directive d) items
    | none => undisturbed (p.mark item) items

/-- Where the first list names a block, the second names the same. -/
def Agree (as bs : List (Option Nat)) : Prop := ∀ i k : Nat, as[i]? = some (some k) → bs[i]? = some (some k)

theorem agree_cons {a b : Option Nat} {as bs : List (Option Nat)} :
    Agree (a :: as) (b :: bs) ↔ (∀ k, a = some k → b = some k) ∧ Agree as bs := by
  constructor
  · intro h
    refine ⟨fun k hk => ?_, fun i k hik => h (i + 1) k hik⟩
    have hzero := h 0 k (by simp [hk])
    simpa using hzero
  · rintro ⟨hhead, htail⟩ i k hik
    cases i with
    | zero => simp [hhead k (by simpa using hik)]
    | succ i => exact htail i k hik

/-- The two readers have seen the same `Host` lines. -/
def Synced (p : Place) (l : Loop) : Prop := p.hosts = l.flush.blocks.length ∧ (l.patterns = none → l.blocks = [])

variable {l : Loop}

theorem flush_some {patterns : List (List Char)} (h : l.patterns = some patterns) :
    l.flush.blocks.length = l.blocks.length + 1 := by
  simp [Loop.flush, h]

theorem flush_none (h : l.patterns = none) : l.flush = l := by
  simp [Loop.flush, h]

section

variable {p : Place} {l : Loop} (h : Synced p l)
include h

theorem Synced.directive (d : Directive) : Synced (p.directive d) (l.directive d) := by
  unfold Place.directive Loop.directive
  split
  · refine ⟨?_, nofun⟩
    rw [flush_some rfl]
    exact congrArg (· + 1) h.1
  split
  · exact h
  · next hopen =>
    obtain ⟨patterns, hpatterns⟩ := Option.ne_none_iff_exists'.1 hopen
    refine ⟨?_, fun hnone => absurd hnone hopen⟩
    rw [h.1, flush_some hpatterns]
    exact (flush_some (l := { l with settings := l.settings.set d }) hpatterns).symm

theorem Synced.built_iff (block : Option Nat) :
    (∀ k, block = some k → (l.patterns.map fun _ => l.blocks.length) = some k) ↔
      block.all (fun k => p.hosts = k + 1) = true := by
  have hall : block.all (fun k => p.hosts = k + 1) = true ↔ ∀ k, block = some k → p.hosts = k + 1 := by
    cases block <;> simp
  rw [hall]
  refine forall_congr' fun k => imp_congr_right fun _ => ?_
  obtain ⟨hhosts, hempty⟩ := h
  cases hpatterns : l.patterns with
  | none =>
    rw [flush_none hpatterns, hempty hpatterns] at hhosts
    simp [hhosts]
  | some patterns =>
    rw [flush_some hpatterns] at hhosts
    simp only [Option.map_some, Option.some.injEq]
    omega

theorem agree_iff (items : List Item) :
    Agree (nestedBlocks p items) (readInto l (items.filterMap itemDirective)) ↔ undisturbed p items = true := by
  induction items generalizing p l with
  | nil => exact iff_of_true nofun rfl
  | cons item items ih =>
    cases hitem : itemDirective item with
    | none =>
      rw [filterMap_cons_none hitem, nestedBlocks, undisturbed, hitem]
      refine ih ?_
      cases item with
      | line rawLine => exact h
      | enter included => exact h
      | leave =>
        simp only [Place.mark]
        split <;> exact h
    | some d =>
      rw [filterMap_cons_some hitem, nestedBlocks, undisturbed, hitem, readInto, agree_cons, ih (h.directive d),
        (h.directive d).built_iff (p.blockOf d), Bool.and_eq_true]

end

theorem lexLines_items {items : List Item} {ds : List Directive} (h : lexLines (itemLines items) = .ok ds) :
    items.filterMap itemDirective = ds := by
  induction items generalizing ds with
  | nil =>
    cases h
    rfl
  | cons item items ih =>
    cases item with
    | enter included => exact ih h
    | leave => exact ih h
    | line rawLine =>
      rw [show itemLines (.line rawLine :: items) = rawLine :: itemLines items from rfl, lexLines_cons] at h
      cases hlex : lexLine rawLine with
      | error e =>
        rw [hlex] at h
        cases h
      | ok d =>
        rw [hlex] at h
        cases hrest : lexLines (itemLines items) with
        | error e =>
          rw [hrest] at h
          cases h
        | ok es =>
          rw [hrest] at h
          cases h
          have hitem : itemDirective (.line rawLine) = d := by
            simp [itemDirective, hlex, Except.toOption]
          cases d with
          | none => rw [filterMap_cons_none hitem, ih hrest]; rfl
          | some d => rw [filterMap_cons_some hitem, ih hrest]; rfl

/-! ## What the blocks hold -/

/-- The directives that are read into a block, after its `Host` line. -/
def readIntoBlock (k : Nat) (l : Loop) (ds : List Directive) : List Directive :=
  ((ds.zip (readInto l ds)).filter fun e => e.2 = some k && e.1.1 ≠ Kw.host).map Prod.fst

/-- The settings of a block that is built, or under construction. -/
def settingsAt (l : Loop) (k : Nat) : Settings := (l.flush.blocks[k]?.map RawBlock.toSettings).getD {}

/-- Before the first `Host` line nothing is kept. -/
def Loop.Fresh (l : Loop) : Prop := l.patterns = none → l = {}

theorem Loop.Fresh.directive (h : l.Fresh) (d : Directive) : (l.directive d).Fresh := by
  unfold Loop.directive
  split
  · exact nofun
  · split
    · exact h
    · next hopen => exact fun hnone => absurd hnone hopen

theorem settingsAt_some {patterns : List (List Char)} (h : l.patterns = some patterns) (k : Nat) :
    settingsAt l k = if k = l.blocks.length then l.settings else (l.blocks[k]?.map RawBlock.toSettings).getD {} := by
  unfold settingsAt Loop.flush
  rw [h]
  dsimp only
  split
  · next hk => simp [hk]
  next hk =>
  rw [getElem?_append]
  split
  · rfl
  · next hlt =>
    have hnone : l.blocks[k]? = none := getElem?_eq_none (by omega)
    have hend : k - l.blocks.length ≠ 0 := by omega
    simp [hnone, hend]

theorem settings_flush (h : l.Fresh) : l.flush.settings = {} := by
  cases hpatterns : l.patterns with
  | none => rw [h hpatterns]; rfl
  | some patterns => simp [Loop.flush, hpatterns]

theorem settingsAt_directive (h : l.Fresh) (d : Directive) (k : Nat) :
    settingsAt (l.directive d) k = (settingsAt l k).fill
      (Settings.of (if ((l.directive d).patterns.map fun _ => (l.directive d).blocks.length) = some k ∧ d.1 ≠ Kw.host
        then [d] else [])) := by
  by_cases hhost : d.1 = Kw.host
  · -- the new block is empty
    rw [if_neg fun hcontra => hcontra.2 hhost, Settings.of_nil, Settings.fill_empty, Loop.directive, if_pos hhost,
      settingsAt_some rfl]
    split
    · next hk =>
      have hnone : l.flush.blocks[k]? = none := getElem?_eq_none (by rw [hk])
      simp [settingsAt, hnone, settings_flush h]
    · rfl
  · cases hpatterns : l.patterns with
    | none =>
      have hstep : l.directive d = l := by simp [Loop.directive, hhost, hpatterns]
      simp [hstep, hpatterns]
    | some patterns =>
      have hstep : l.directive d = { l with settings := l.settings.set d } := by simp [Loop.directive, hhost, hpatterns]
      have hset := settingsAt_some (l := { l with settings := l.settings.set d }) hpatterns k
      rw [hstep, hset, settingsAt_some hpatterns]
      simp only [hpatterns, Option.map_some, Option.some.injEq, ne_eq, hhost, not_false_eq_true, and_true]
      by_cases hk : k = l.blocks.length
      · simp [hk, Settings.set_eq_fill]
      · simp [hk, Ne.symm hk]

theorem blockSettings_eq (ds : List Directive) {k : Nat} {block : RawBlock}
    (hblock : (ds.foldl Loop.directive {}).flush.blocks[k]? = some block) :
    block.toSettings = Settings.of (readIntoBlock k {} ds) := by
  suffices hgen : ∀ l : Loop, l.Fresh → (ds.foldl Loop.directive l).flush.blocks[k]? = some block →
      block.toSettings = (settingsAt l k).fill (Settings.of (readIntoBlock k l ds)) by
    rw [hgen {} (fun _ => rfl) hblock]
    simp [settingsAt, Loop.flush]
  clear hblock
  induction ds with
  | nil =>
    intro l _ hblock
    rw [foldl_nil] at hblock
    simp [settingsAt, hblock, readIntoBlock]
  | cons d ds ih =>
    intro l hl hblock
    have hsplit : readIntoBlock k l (d :: ds) =
        (if ((l.directive d).patterns.map fun _ => (l.directive d).blocks.length) = some k ∧ d.1 ≠ Kw.host
          then [d] else []) ++ readIntoBlock k (l.directive d) ds := by
      rw [readIntoBlock, readInto, zip_cons_cons, filter_cons]
      simp only [Bool.and_eq_true, decide_eq_true_eq]
      split <;> rfl
    rw [ih (l.directive d) (hl.directive d) hblock, settingsAt_directive hl, Settings.fill_assoc, ← Settings.of_append,
      hsplit]

/-! ## What an `Include` should keep -/

section Main
variable {Path : Type} [DecidableEq Path] (resolve : List Char → List Path) (reader : Path → Option (List Char))
variable (maxIncludeDepth : Nat) (content : List Char)

/-- The lines that are read of a text, with the included files marked. -/
def itemsRead : List Item := (walk resolve reader maxIncludeDepth [] (normaliseLineEndings content)).1

/-- Every value of a block is read into it, whatever the files that are included before it hold, and these files are split into
lines like the main file. -/
structure KeepsContext : Prop where
  attributed : ∃ expanded ds, expandIncludes resolve reader maxIncludeDepth [] (normaliseLineEndings content) = .ok expanded ∧
    directives expanded.1 = .ok ds ∧
    Agree (nestedBlocks {} (itemsRead resolve reader maxIncludeDepth content)) (readInto {} ds)
  split : ∀ included, .enter included ∈ itemsRead resolve reader maxIncludeDepth content →
    lines included = lines (normaliseLineEndings included)

/-- **When an `Include` keeps its block.** -/
theorem keepsContext_iff : KeepsContext resolve reader maxIncludeDepth content ↔
    (∀ l ∈ linesRead resolve reader maxIncludeDepth content, OneByteSeparator l) ∧
      undisturbed {} (itemsRead resolve reader maxIncludeDepth content) = true ∧
      ∀ included, .enter included ∈ itemsRead resolve reader maxIncludeDepth content → hasBareCr included = false := by
  have hfollows : Follows (expandIncludes resolve reader maxIncludeDepth [] (normaliseLineEndings content))
      (walk resolve reader maxIncludeDepth [] (normaliseLineEndings content)) := expandIncludes_follows _ _ _
  have hsplit : (∀ included, .enter included ∈ itemsRead resolve reader maxIncludeDepth content →
      lines included = lines (normaliseLineEndings included)) ↔
        ∀ included, .enter included ∈ itemsRead resolve reader maxIncludeDepth content → hasBareCr included = false :=
    forall_congr' fun included => imp_congr_right fun _ => lines_normalise_iff included
  constructor
  · rintro ⟨⟨expanded, ds, hexpand, hds, hagree⟩, hlines⟩
    rw [hexpand] at hfollows
    have hlex : lexLines (linesRead resolve reader maxIncludeDepth content) = .ok ds := hfollows.2.symm.trans hds
    refine ⟨(lexLines_ok_iff _).1 ⟨ds, hlex⟩, ?_, hsplit.1 hlines⟩
    rw [← lexLines_items hlex] at hagree
    exact (agree_iff ⟨rfl, fun _ => rfl⟩ _).1 hagree
  · rintro ⟨hread, hundisturbed, hcr⟩
    obtain ⟨ds, hlex⟩ := (lexLines_ok_iff _).2 hread
    refine ⟨?_, hsplit.2 hcr⟩
    cases hexpand : expandIncludes resolve reader maxIncludeDepth [] (normaliseLineEndings content) with
    | error e =>
      rw [hexpand] at hfollows
      have herror : lexLines (linesRead resolve reader maxIncludeDepth content) = .error e := hfollows
      rw [hlex] at herror
      cases herror
    | ok expanded =>
      rw [hexpand] at hfollows
      refine ⟨expanded, ds, rfl, hfollows.2.trans hlex, ?_⟩
      rw [← lexLines_items hlex]
      exact (agree_iff ⟨rfl, fun _ => rfl⟩ _).2 hundisturbed

end Main

/-! ## An included file with a block of its own -/

def innerBlock (path : List Char) : Option (List Char) :=
  if path = "inner".toList then some "Host inner\n  HostName 10.0.0.2\n".toList else none

def outerBlock : List Char := "Host outer\nInclude inner\nUser deploy\n".toList

/-- The user is read into the included block. -/
theorem outerBlock_captured : ¬KeepsContext (fun token => [token]) innerBlock 8 outerBlock := by
  rw [keepsContext_iff]
  rintro ⟨-, hundisturbed, -⟩
  have hdisturbed : undisturbed {} (itemsRead (fun token => [token]) innerBlock 8 outerBlock) = false := by
    decide +kernel
  exact Bool.false_ne_true (hdisturbed.symm.trans hundisturbed)

end LetsFlutSsh.Hosts.SshConfig
