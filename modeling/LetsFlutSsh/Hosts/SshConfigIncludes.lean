import LetsFlutSsh.Hosts.SshConfig
import LetsFlutSsh.Lib.Run

/-!
# The OpenSSH client configuration: the lines that are read

The importer replaces the `Include` lines first and reads the lines of the text that comes of it. Here the same walk is
written down line by line, with a mark where an included file begins and where it ends.

* `OneByteSeparator` : the slice after the separator of a line falls on a character boundary (`lexLine_ok_iff`);
* `Item`, `walk` : the lines in the order in which they are read;
* `parseOpensshConfig_ok_iff` : when the importer returns (`noBreakSpace_panics`).
-/

namespace LetsFlutSsh.Hosts.SshConfig
open Lib List

/-! ## The separator of a line -/

def isSeparator (c : Char) : Bool := c = '=' || isWhitespace c

/-- The character that ends the keyword of a line, if there is one, is one byte long. -/
def OneByteSeparator (rawLine : List Char) : Prop :=
  ∀ sep, (trim (stripComment rawLine)).find? isSeparator = some sep → sep.utf8Size = 1

instance (rawLine : List Char) : Decidable (OneByteSeparator rawLine) :=
  match h : (trim (stripComment rawLine)).find? isSeparator with
  | none => isTrue fun sep hsep => by simp [h] at hsep
  | some sep => decidable_of_iff (sep.utf8Size = 1) (by simp [OneByteSeparator, h])

theorem splitKeywordValue_ok_iff (line : List Char) :
    (∃ d, splitKeywordValue line = .ok d) ↔ ∀ sep, line.find? isSeparator = some sep → sep.utf8Size = 1 := by
  have hkeyword : (fun c => decide (c ≠ '=') && !isWhitespace c) = fun c => !isSeparator c := by
    funext c
    simp [isSeparator]
  have hfind : line.find? isSeparator = (line.dropWhile fun c => decide (c ≠ '=') && !isWhitespace c).head? := by
    rw [hkeyword]
    exact find?_eq_head?_dropWhile_not isSeparator line
  rw [hfind, splitKeywordValue]
  cases line.dropWhile fun c => decide (c ≠ '=') && !isWhitespace c with
  | nil => simp
  | cons sep rest =>
    dsimp only
    split
    · next hsize => simp [hsize]
    · next hsize => simpa using hsize

theorem lexLine_ok_iff (rawLine : List Char) : (∃ d, lexLine rawLine = .ok d) ↔ OneByteSeparator rawLine := by
  rw [OneByteSeparator, ← splitKeywordValue_ok_iff, lexLine]
  split
  · next hempty =>
    rw [hempty]
    exact iff_of_true ⟨none, rfl⟩ ⟨none, rfl⟩
  · cases splitKeywordValue (trim (stripComment rawLine)) with
    | error e => simp [Except.map]
    | ok d => simp [Except.map]

/-! ## Lines and their directives -/

def lexLines (ls : List (List Char)) : Except Panic (List Directive) := (ls.mapM lexLine).map List.reduceOption

theorem directives_eq (content : List Char) : directives content = lexLines (lines content) := rfl

@[simp] theorem lexLines_nil : lexLines [] = .ok [] := rfl

theorem lexLines_cons (l : List Char) (ls : List (List Char)) :
    lexLines (l :: ls) = (lexLine l).bind fun d => (lexLines ls).map fun ds => d.toList ++ ds := by
  rw [lexLines, lexLines, mapM_cons]
  cases lexLine l with
  | error e => rfl
  | ok d =>
    cases ls.mapM lexLine with
    | error e => rfl
    | ok ds => cases d <;> rfl

theorem lexLines_append (ls ms : List (List Char)) :
    lexLines (ls ++ ms) = (lexLines ls).bind fun ds => (lexLines ms).map fun es => ds ++ es := by
  induction ls with
  | nil => cases h : lexLines ms <;> simp [h, Except.bind, Except.map]
  | cons l ls ih =>
    rw [cons_append, lexLines_cons, lexLines_cons, ih]
    cases lexLine l with
    | error e => rfl
    | ok d =>
      cases lexLines ls with
      | error e => rfl
      | ok ds => cases lexLines ms <;> simp [Except.bind, Except.map]

variable {e : Panic}

theorem lexLines_append_error {ls : List (List Char)} (h : lexLines ls = .error e) (ms : List (List Char)) :
    lexLines (ls ++ ms) = .error e := by
  rw [lexLines_append, h]
  rfl

theorem lexLines_append_error_right {ms : List (List Char)} (h : lexLines ms = .error e)
    (ls : List (List Char)) : lexLines (ls ++ ms) = .error e := by
  rw [lexLines_append, h]
  cases lexLines ls with
  | error e' => cases e; cases e'; rfl
  | ok ds => rfl

theorem lexLines_ok_iff (ls : List (List Char)) : (∃ ds, lexLines ls = .ok ds) ↔ ∀ l ∈ ls, OneByteSeparator l := by
  induction ls with
  | nil => simp
  | cons l ls ih =>
    rw [forall_mem_cons, ← ih, ← lexLine_ok_iff, lexLines_cons]
    cases lexLine l with
    | error e => simp [Except.bind]
    | ok d => cases lexLines ls <;> simp [Except.bind, Except.map]

/-! ## A carriage return at the end of a line -/

theorem stripCommentFrom_cr (inQuotes : Bool) (line : List Char) :
    stripCommentFrom inQuotes (line ++ ['\r']) = stripCommentFrom inQuotes line ∨
      stripCommentFrom inQuotes (line ++ ['\r']) = stripCommentFrom inQuotes line ++ ['\r'] := by
  induction line generalizing inQuotes with
  | nil => exact Or.inr (by simp [stripCommentFrom])
  | cons c line ih =>
    simp only [cons_append, stripCommentFrom]
    generalize (if c = '"' then !inQuotes else inQuotes) = quoted
    split
    · exact Or.inl rfl
    · rcases ih quoted with h | h
      · exact Or.inl (by rw [h])
      · exact Or.inr (by rw [h, cons_append])

theorem trim_cr (cs : List Char) : trim (cs ++ ['\r']) = trim cs := by
  unfold trim
  rw [dropWhile_append]
  split
  · next hempty => rw [isEmpty_iff.1 hempty]; decide
  · exact rdropWhile_concat_pos _ _ _ (by decide)

theorem lexLine_stripCr (line : List Char) : lexLine (stripCr line) = lexLine line := by
  unfold stripCr
  split
  · next hlast =>
    obtain ⟨front, rfl⟩ := getLast?_eq_some_iff.1 hlast
    rw [dropLast_concat]
    unfold lexLine stripComment
    rcases stripCommentFrom_cr false front with h | h
    · rw [h]
    · rw [h, trim_cr]
  · rfl

theorem directives_append {front : List Char} (h : Closed front) (rest : List Char) :
    directives (front ++ rest) = (directives front).bind fun ds => (directives rest).map fun es => ds ++ es := by
  rw [directives_eq, lines_append h, lexLines_append]
  rfl

theorem directives_line {line : List Char} (h : '\n' ∉ line) : directives (line ++ ['\n']) = lexLines [line] := by
  rw [directives_eq, lines_concat h, lexLines_cons, lexLine_stripCr, lexLines_cons]

theorem directives_newline (text : List Char) : directives (text ++ ['\n']) = directives text := by
  obtain ⟨front, line, rfl, hfront, hline⟩ := exists_closed text
  rw [append_assoc, directives_append hfront, directives_append hfront, directives_line hline, directives_eq line,
    lines_open hline]
  split
  · next hempty => rw [hempty]; rfl
  · rfl

/-! ## The walk over the lines -/

/-- What the importer comes to: a line that it copies, and where an included file begins and ends. -/
inductive Item where
  | line (rawLine : List Char)
  | enter (included : List Char)
  | leave

def itemLines (items : List Item) : List (List Char) :=
  items.filterMap fun
    | .line rawLine => some rawLine
    | _ => none

def includeValue (rawLine : List Char) : Option (List Char) :=
  match lexLine rawLine with
  | .ok (some (kw, value)) => if kw = Kw.include_ then some value else none
  | _ => none

section Walk
variable {Path : Type} [DecidableEq Path] (resolve : List Char → List Path) (reader : Path → Option (List Char))

/-- One path of an `Include` line. -/
def walkPath (walkFile : List Path → List Char → List Item × List Path) (s : List Item × List Path) (resolved : Path) :
    List Item × List Path :=
  if resolved ∈ s.2 then s
  else
    match reader resolved with
    | some included =>
      let sub := walkFile (resolved :: s.2) included
      (s.1 ++ (.enter included :: sub.1 ++ [.leave]), sub.2)
    | none => (s.1, resolved :: s.2)

def walkLine (walkFile : List Path → List Char → List Item × List Path) (s : List Item × List Path) (rawLine : List Char) :
    List Item × List Path :=
  match includeValue rawLine with
  | none => (s.1 ++ [.line rawLine], s.2)
  | some value => ((splitHostPatterns value).flatMap resolve).foldl (walkPath reader walkFile) s

/-- `expand_includes`, with marks for the files. A line that cannot be sliced is copied. -/
def walk : Nat → List Path → List Char → List Item × List Path
  | 0, visited, content => ((lines content).map .line, visited)
  | remaining + 1, visited, content => (lines content).foldl (walkLine resolve reader (walk remaining)) ([], visited)

end Walk

theorem itemLines_append (a b : List Item) : itemLines (a ++ b) = itemLines a ++ itemLines b := filterMap_append

theorem itemLines_map_line (ls : List (List Char)) : itemLines (ls.map .line) = ls := by
  induction ls with
  | nil => rfl
  | cons l ls ih => exact congrArg (l :: ·) ih

theorem itemLines_file (included : List Char) (items : List Item) :
    itemLines (.enter included :: items ++ [.leave]) = itemLines items := by
  rw [itemLines_append]
  exact append_nil _

variable {rawLine : List Char}

section Follows
variable {Path : Type}

/-- An expanded text beside the walk: both have seen the same paths, and the text has the directives of the lines; when
the expansion fails, one of the lines cannot be read. -/
def Follows : Except Panic (List Char × List Path) → List Item × List Path → Prop
  | .ok s, w => s.2 = w.2 ∧ directives s.1 = lexLines (itemLines w.1)
  | .error e, w => lexLines (itemLines w.1) = .error e

def FollowsLines : Except Panic (List Char × List Path) → List Item × List Path → Prop
  | .ok s, w => s.2 = w.2 ∧ directives s.1 = lexLines (itemLines w.1) ∧ Closed s.1
  | .error e, w => lexLines (itemLines w.1) = .error e

theorem FollowsLines.follows {r : Except Panic (List Char × List Path)} {w : List Item × List Path}
    (h : FollowsLines r w) : Follows r w := by
  cases r with
  | error e => exact h
  | ok s => exact ⟨h.1, h.2.1⟩

theorem FollowsLines.error_append {w w' : List Item × List Path} (h : FollowsLines (.error e) w)
    (hmore : ∃ more, w'.1 = w.1 ++ more) : FollowsLines (.error e) w' := by
  obtain ⟨more, hmore⟩ := hmore
  show lexLines (itemLines w'.1) = .error e
  rw [hmore, itemLines_append]
  exact lexLines_append_error h _

variable [DecidableEq Path] {resolve : List Char → List Path} {reader : Path → Option (List Char)}
variable {expand : List Path → List Char → Except Panic (List Char × List Path)}
variable {walkFile : List Path → List Char → List Item × List Path}

theorem walkPath_extends (w : List Item × List Path) (resolved : Path) :
    ∃ more, (walkPath reader walkFile w resolved).1 = w.1 ++ more := by
  unfold walkPath
  split
  · exact ⟨[], by simp⟩
  · split
    · exact ⟨_, rfl⟩
    · exact ⟨[], by simp⟩

theorem walkLine_extends (w : List Item × List Path) (rawLine : List Char) :
    ∃ more, (walkLine resolve reader walkFile w rawLine).1 = w.1 ++ more := by
  unfold walkLine
  split
  · exact ⟨_, rfl⟩
  next value _ =>
  apply foldl_invariant (I := fun s : List Item × List Path => ∃ more, s.1 = w.1 ++ more)
  · rintro s resolved - ⟨more, hmore⟩
    have hpath : ∃ more', (walkPath reader walkFile s resolved).1 = s.1 ++ more' := walkPath_extends s resolved
    obtain ⟨more', hmore'⟩ := hpath
    exact ⟨more ++ more', by rw [hmore', hmore, append_assoc]⟩
  · exact ⟨[], by simp⟩

variable (reader expand) in
/-- One path of an `Include` line, in the expansion. -/
def expandPath (s : List Char × List Path) (resolved : Path) : Except Panic (List Char × List Path) := do
  if resolved ∈ s.2 then return (s.1, s.2)
  match reader resolved with
  | some included =>
    let (text, visited) ← expand (resolved :: s.2) included
    return (s.1 ++ text ++ ['\n'], visited)
  | none => return (s.1, resolved :: s.2)

theorem expandPath_follows (hfile : ∀ visited included, Follows (expand visited included) (walkFile visited included))
    {s : List Char × List Path} {w : List Item × List Path} (h : FollowsLines (.ok s) w) (resolved : Path) :
    FollowsLines (expandPath reader expand s resolved) (walkPath reader walkFile w resolved) := by
  obtain ⟨buf, visited⟩ := s
  obtain ⟨items, visited'⟩ := w
  obtain ⟨rfl, hread, hclosed⟩ := h
  unfold expandPath walkPath
  split
  · exact ⟨rfl, hread, hclosed⟩
  cases reader resolved with
  | none => exact ⟨rfl, hread, hclosed⟩
  | some included =>
    have hsub := hfile (resolved :: visited) included
    dsimp only
    cases hexpand : expand (resolved :: visited) included with
    | error e =>
      rw [hexpand] at hsub
      show lexLines (itemLines (items ++ _)) = .error e
      rw [itemLines_append, itemLines_file]
      exact lexLines_append_error_right hsub _
    | ok r =>
      rw [hexpand] at hsub
      obtain ⟨hvisited, hdirectives⟩ := hsub
      refine ⟨hvisited, ?_, closed_concat _⟩
      rw [append_assoc, directives_append hclosed, directives_newline, hread, hdirectives, itemLines_append,
        itemLines_file, lexLines_append]

theorem expandIncludeLine_copied {d : Option Directive} (hlex : lexLine rawLine = .ok d)
    (hvalue : includeValue rawLine = none) (s : List Char × List Path) :
    expandIncludeLine resolve reader expand s rawLine = .ok (s.1 ++ (rawLine ++ ['\n']), s.2) := by
  rw [includeValue, hlex] at hvalue
  rw [expandIncludeLine, hlex]
  cases d with
  | none => rfl
  | some d =>
    dsimp only at hvalue
    split at hvalue
    · cases hvalue
    · next hkw => exact if_neg hkw

theorem expandIncludeLine_included {value : List Char} (hvalue : includeValue rawLine = some value)
    (s : List Char × List Path) : expandIncludeLine resolve reader expand s rawLine =
      ((splitHostPatterns value).flatMap resolve).foldlM (expandPath reader expand) s := by
  unfold includeValue at hvalue
  split at hvalue
  · next kw value' hlex =>
    split at hvalue
    · next hkw =>
      cases hvalue
      rw [expandIncludeLine, hlex]
      exact if_pos hkw
    · cases hvalue
  · cases hvalue

theorem expandIncludeLine_follows (hfile : ∀ visited included, Follows (expand visited included) (walkFile visited included))
    {s : List Char × List Path} {w : List Item × List Path} (h : FollowsLines (.ok s) w)
    (hline : '\n' ∉ rawLine) :
    FollowsLines (expandIncludeLine resolve reader expand s rawLine) (walkLine resolve reader walkFile w rawLine) := by
  unfold walkLine
  cases hvalue : includeValue rawLine with
  | some value =>
    rw [expandIncludeLine_included hvalue]
    exact foldlM_simulates (fun s w resolved _ hs => expandPath_follows hfile hs resolved)
      (fun e w resolved he => he.error_append (walkPath_extends w resolved)) h
  | none =>
    obtain ⟨hvisited, hread, hclosed⟩ := h
    cases hlex : lexLine rawLine with
    | error e =>
      rw [expandIncludeLine, hlex]
      show lexLines (itemLines (w.1 ++ [.line rawLine])) = .error e
      rw [itemLines_append]
      refine lexLines_append_error_right ?_ _
      show lexLines [rawLine] = .error e
      rw [lexLines_cons, hlex]
      rfl
    | ok d =>
      rw [expandIncludeLine_copied hlex hvalue]
      refine ⟨hvisited, ?_, ?_⟩
      · rw [directives_append hclosed, directives_line hline, hread, itemLines_append, lexLines_append]
        rfl
      · rw [← append_assoc]
        exact closed_concat _

theorem expandIncludes_follows (remaining : Nat) (visited : List Path) (content : List Char) :
    Follows (expandIncludes resolve reader remaining visited content) (walk resolve reader remaining visited content) := by
  induction remaining generalizing visited content with
  | zero =>
    refine ⟨rfl, ?_⟩
    rw [walk, itemLines_map_line]
    exact directives_eq content
  | succ remaining ih =>
    apply FollowsLines.follows
    rw [expandIncludes, walk]
    refine foldlM_simulates (R := FollowsLines) (fun s w rawLine hline hs => ?_)
      (fun e w rawLine he => he.error_append (walkLine_extends w rawLine)) ⟨rfl, rfl, closed_nil⟩
    exact expandIncludeLine_follows ih hs (mem_lines hline).1

/-! ## When the importer returns -/

/-- The lines that are read of a text: those of the text itself and those of the files that it includes. -/
def linesRead (resolve : List Char → List Path) (reader : Path → Option (List Char)) (maxIncludeDepth : Nat)
    (content : List Char) : List (List Char) :=
  itemLines (walk resolve reader maxIncludeDepth [] (normaliseLineEndings content)).1

/-- **The importer returns a list exactly when the separator of every line that it reads is one byte long.** -/
theorem parseOpensshConfig_ok_iff (resolve : List Char → List Path) (reader : Path → Option (List Char))
    (maxIncludeDepth : Nat) (content : List Char) :
    (∃ entries, parseOpensshConfig resolve reader maxIncludeDepth content = .ok entries) ↔
      ∀ l ∈ linesRead resolve reader maxIncludeDepth content, OneByteSeparator l := by
  rw [linesRead, ← lexLines_ok_iff, parseOpensshConfig]
  have hfollows : Follows (expandIncludes resolve reader maxIncludeDepth [] (normaliseLineEndings content))
      (walk resolve reader maxIncludeDepth [] (normaliseLineEndings content)) := expandIncludes_follows _ _ _
  cases hexpand : expandIncludes resolve reader maxIncludeDepth [] (normaliseLineEndings content) with
  | error e =>
    rw [hexpand] at hfollows
    rw [show lexLines _ = _ from hfollows]
    exact iff_of_false (by rintro ⟨_, ⟨⟩⟩) (by rintro ⟨_, ⟨⟩⟩)
  | ok r =>
    rw [hexpand] at hfollows
    rw [← hfollows.2]
    show (∃ entries, parseExpanded r.1 = .ok entries) ↔ _
    rw [parseExpanded, parseBlocks]
    cases directives r.1 with
    | error e => exact iff_of_false (by rintro ⟨_, ⟨⟩⟩) (by rintro ⟨_, ⟨⟩⟩)
    | ok ds => exact iff_of_true ⟨_, rfl⟩ ⟨_, rfl⟩

/-- A `Host` line and a `User` line with a no-break space after the keyword. -/
def noBreakSpace : List Char := "Host prod\n  User\u00A0deploy\n".toList

/-- The slice after the keyword falls inside of that character. -/
theorem noBreakSpace_panics :
    parseOpensshConfig (fun _ => ([] : List Unit)) (fun _ => none) 8 noBreakSpace = .error .charBoundary := by
  decide +kernel

end Follows

end LetsFlutSsh.Hosts.SshConfig
