import LetsFlutSsh.Lib.Text

/-!
# Snippet templates

A template is its characters; a context gives values to names.

* `scan` : the pieces that the loop meets;
* `render`, `fillUnresolved` : the two passes;
* `left` : the pieces of what the first pass makes;
* `Apart` : no two braces meet in it that would open a token;
* `fill_iff` : when the second pass reads what the first one left, and the two are one.
-/

namespace LetsFlutSsh.Terminal.SnippetTemplate
open Lib List

abbrev Chars := List Char

abbrev Context := Chars → Option Chars

/-- `find_close`: what stands before the first `}}` and behind it. -/
def findClose : Chars → Option (Chars × Chars)
  | [] => none
  | c :: rest =>
    if c = '}' ∧ rest.head? = some '}' then some ([], rest.tail)
    else (findClose rest).map fun found => (c :: found.1, found.2)

/-- What a pass of the loop meets: a character, an escape, a token with what is between its braces, or a token that does not
end. -/
inductive Piece where
  | char (c : Char)
  | escape
  | token (raw : Chars)
  | tail (text : Chars)

def open2 : Chars := ['{', '{']

def close2 : Chars := ['}', '}']

def scan : Nat → Chars → List Piece
  | _, [] => []
  | 0, _ :: _ => []
  | rounds + 1, c :: rest =>
    if c = '{' ∧ rest.head? = some '{' then
      if rest.tail.take 2 = open2 then .escape :: scan rounds (rest.drop 3)
      else
        match findClose rest.tail with
        | none => [.tail (c :: rest)]
        | some (raw, after) => .token raw :: scan rounds after
    else .char c :: scan rounds rest

def Piece.text : Piece → Chars
  | .char c => [c]
  | .escape => open2 ++ open2
  | .token raw => open2 ++ raw ++ close2
  | .tail text => text

/-- What is pushed for a piece: a name without value keeps its token. -/
def Piece.render (context : Context) : Piece → Chars
  | .char c => [c]
  | .escape => open2
  | .token raw => if trim raw = [] then open2 ++ raw ++ close2 else (context (trim raw)).getD (open2 ++ raw ++ close2)
  | .tail text => text

def Piece.unknown (context : Context) : Piece → Option Chars
  | .token raw => if trim raw ≠ [] ∧ context (trim raw) = none then some (trim raw) else none
  | _ => none

local instance : LawfulBEq Chars := inferInstance

def record (seen : List Chars) (name : Chars) : List Chars := if name ∈ seen then seen else seen ++ [name]

structure RenderedSnippet where
  rendered : Chars
  unresolved : List Chars

def pieces (template : Chars) : List Piece := scan template.length template

def render (template : Chars) (context : Context) : RenderedSnippet where
  rendered := (pieces template).flatMap (·.render context)
  unresolved := ((pieces template).filterMap (·.unknown context)).foldl record []

def fillUnresolved (partiallyRendered : Chars) (values : Context) : Chars := (render partiallyRendered values).rendered

def flat (ps : List Piece) : Chars := ps.flatMap Piece.text

def Apart : List Piece → Prop
  | [] => True
  | .char c :: ps => (c = '{' → (flat ps).head? ≠ some '{') ∧ Apart ps
  | _ :: ps => Apart ps

/-- The tokens are such as the loop finds, and one that does not end is the last piece. -/
def Formed : List Piece → Prop
  | [] => True
  | .token raw :: ps =>
    (∀ rest, (raw ++ close2 ++ rest).take 2 ≠ open2 ∧ findClose (raw ++ close2 ++ rest) = some (raw, rest)) ∧ Formed ps
  | .tail text :: ps => ps = [] ∧ ∃ rest, text = open2 ++ rest ∧ rest.take 2 ≠ open2 ∧ findClose rest = none
  | _ :: ps => Formed ps

theorem findClose_some {text raw after : Chars} (h : findClose text = some (raw, after)) :
    text = raw ++ close2 ++ after ∧ ∀ rest, findClose (raw ++ close2 ++ rest) = some (raw, rest) := by
  induction text generalizing raw with
  | nil => cases h
  | cons c text ih =>
    rw [findClose] at h
    split_ifs at h with hclose
    · obtain ⟨rfl, hhead⟩ := hclose
      obtain ⟨t, rfl⟩ := head?_eq_some_iff.1 hhead
      cases h
      exact ⟨rfl, fun _ => rfl⟩
    · obtain ⟨⟨raw', after'⟩, hfound, hpair⟩ := Option.map_eq_some_iff.1 h
      cases hpair
      obtain ⟨rfl, hrest⟩ := ih hfound
      refine ⟨rfl, fun rest => ?_⟩
      have hhead : (raw' ++ close2 ++ rest).head? = (raw' ++ close2 ++ after').head? := by
        rcases raw' with _ | ⟨d, raw'⟩ <;> rfl
      rw [cons_append, cons_append, findClose, hhead, if_neg hclose, hrest]
      rfl

theorem scan_flat {ps : List Piece} (hapart : Apart ps) (hformed : Formed ps) {rounds : Nat} (h : (flat ps).length ≤ rounds) :
    scan rounds (flat ps) = ps := by
  induction ps generalizing rounds with
  | nil => cases rounds <;> rfl
  | cons p ps ih =>
    have hflat : flat (p :: ps) = p.text ++ flat ps := flatMap_cons
    rw [hflat] at h ⊢
    rcases rounds with _ | rounds
    · cases p with
      | tail text =>
        obtain ⟨-, rest, rfl, -, -⟩ := hformed
        cases h
      | _ => cases h
    cases p with
    | char c =>
      have hnot : ¬(c = '{' ∧ (flat ps).head? = some '{') := fun hc => hapart.1 hc.1 hc.2
      show scan (rounds + 1) (c :: flat ps) = _
      rw [scan, if_neg hnot, ih hapart.2 hformed (Nat.le_of_succ_le_succ h)]
    | escape =>
      have hlength : (flat ps).length ≤ rounds := by
        simp only [Piece.text, open2, length_append, length_cons, length_nil] at h
        omega
      show Piece.escape :: scan rounds (flat ps) = _
      rw [ih hapart hformed hlength]
    | token raw =>
      obtain ⟨hopen, hclose⟩ := hformed.1 (flat ps)
      have hlength : (flat ps).length ≤ rounds := by
        simp only [Piece.text, length_append, open2, length_cons] at h
        omega
      have htext : Piece.text (.token raw) ++ flat ps = '{' :: '{' :: (raw ++ close2 ++ flat ps) := by
        simp [Piece.text, open2]
      rw [htext, scan, if_pos ⟨rfl, rfl⟩, tail_cons, if_neg hopen, hclose]
      dsimp only
      rw [ih hapart hformed.2 hlength]
    | tail text =>
      obtain ⟨rfl, rest, rfl, hopen, hclose⟩ := hformed
      show scan (rounds + 1) ('{' :: '{' :: (rest ++ [])) = _
      rw [append_nil, scan, if_pos ⟨rfl, rfl⟩, tail_cons, if_neg hopen, hclose]
      rfl

theorem flat_scan {rounds : Nat} {text : Chars} (h : text.length ≤ rounds) :
    flat (scan rounds text) = text ∧ Apart (scan rounds text) ∧ Formed (scan rounds text) := by
  induction rounds generalizing text with
  | zero =>
    obtain rfl := eq_nil_of_length_eq_zero (Nat.le_zero.1 h)
    exact ⟨rfl, trivial, trivial⟩
  | succ rounds ih =>
    rcases text with _ | ⟨c, rest⟩
    · exact ⟨rfl, trivial, trivial⟩
    have hrest : rest.length ≤ rounds := Nat.le_of_succ_le_succ h
    rw [scan]
    split_ifs with hstart hescape
    · obtain ⟨rfl, hhead⟩ := hstart
      obtain ⟨rest, rfl⟩ := head?_eq_some_iff.1 hhead
      rw [tail_cons] at hescape
      obtain ⟨a, b, rest, rfl⟩ : ∃ a b r, rest = a :: b :: r := by
        rcases rest with _ | ⟨a, _ | ⟨b, r⟩⟩
        · cases hescape
        · cases hescape
        · exact ⟨a, b, r, rfl⟩
      cases hescape
      have hshort : rest.length ≤ rounds := by
        simp only [length_cons] at hrest
        omega
      obtain ⟨hflat, hapart, hformed⟩ := ih hshort
      exact ⟨congrArg (open2 ++ open2 ++ ·) hflat, hapart, hformed⟩
    · obtain ⟨rfl, hhead⟩ := hstart
      obtain ⟨rest, rfl⟩ := head?_eq_some_iff.1 hhead
      rw [tail_cons] at hescape ⊢
      rcases hclose : findClose rest with _ | ⟨raw, after⟩
      · exact ⟨append_nil _, trivial, rfl, rest, rfl, hescape, hclose⟩
      obtain ⟨rfl, hall⟩ := findClose_some hclose
      have hshort : after.length ≤ rounds := by
        simp only [length_cons, length_append] at hrest
        omega
      obtain ⟨hflat, hapart, hformed⟩ := ih hshort
      refine ⟨?_, hapart, fun r => ⟨?_, hall r⟩, hformed⟩
      · show open2 ++ raw ++ close2 ++ flat (scan rounds after) = _
        rw [hflat]
        simp [open2]
      · have htake : ∀ r, (raw ++ close2 ++ r).take 2 = (raw ++ close2).take 2 := fun r =>
          take_append_of_le_length (by simp [close2])
        rwa [htake, ← htake after]
    · obtain ⟨hflat, hapart, hformed⟩ := ih hrest
      exact ⟨congrArg (c :: ·) hflat, ⟨fun hc hhead => hstart ⟨hc, by rwa [hflat] at hhead⟩, hapart⟩, hformed⟩

/-- What the first pass leaves of a piece: what it pushes as characters, and a token without value. -/
def Piece.leave (context : Context) : Piece → List Piece
  | .char c => [.char c]
  | .escape => [.char '{', .char '{']
  | .token raw =>
    if trim raw = [] then [.token raw] else (context (trim raw)).elim [.token raw] fun value => value.map .char
  | .tail text => [.tail text]

def left (template : Chars) (context : Context) : List Piece := (pieces template).flatMap (·.leave context)

theorem flatMap_chars {f : Piece → Chars} (hf : ∀ c, f (.char c) = [c]) (value : Chars) : (value.map .char).flatMap f = value := by
  induction value with
  | nil => rfl
  | cons c value ih => rw [map_cons, flatMap_cons, hf, ih, singleton_append]

theorem flat_left (template : Chars) (context : Context) : flat (left template context) = (render template context).rendered := by
  unfold flat left render
  rw [flatMap_assoc]
  congr 1
  funext p
  cases p with
  | token raw =>
    rw [Piece.leave, Piece.render]
    split_ifs
    · exact append_nil _
    · rcases context (trim raw) with _ | value
      · exact append_nil _
      · exact flatMap_chars (fun _ => rfl) value
  | tail text => exact append_nil text
  | _ => rfl

theorem render_left (template : Chars) (context values : Context) :
    (left template context).flatMap (·.render values) = (render template fun n => (context n).or (values n)).rendered := by
  unfold left render
  rw [flatMap_assoc]
  congr 1
  funext p
  cases p with
  | token raw =>
    rw [Piece.leave, Piece.render]
    split_ifs with hempty
    · rw [flatMap_singleton, Piece.render, if_pos hempty]
    · rcases context (trim raw) with _ | value
      · rw [Option.elim_none, flatMap_singleton, Piece.render, if_neg hempty, Option.none_or]
      · exact flatMap_chars (fun _ => rfl) value
  | tail text => exact append_nil text
  | _ => rfl

theorem formed_leave {ps : List Piece} (h : Formed ps) (context : Context) : Formed (ps.flatMap (·.leave context)) := by
  have hchars : ∀ (value : Chars) {qs : List Piece}, Formed qs → Formed (value.map .char ++ qs) := by
    intro value qs hqs
    induction value with
    | nil => exact hqs
    | cons c value ih => exact ih
  induction ps with
  | nil => trivial
  | cons p ps ih =>
    rw [flatMap_cons]
    cases p with
    | token raw =>
      rw [Piece.leave]
      split_ifs
      · exact ⟨h.1, ih h.2⟩
      · rcases context (trim raw) with _ | value
        · exact ⟨h.1, ih h.2⟩
        · exact hchars value (ih h.2)
    | tail text =>
      obtain ⟨rfl, htail⟩ := h
      exact ⟨rfl, htail⟩
    | _ => exact ih h

theorem foldl_record (names : List Chars) : (∀ name, name ∈ names.foldl record [] ↔ name ∈ names) ∧
    (names.foldl record []).Pairwise fun a b => names.idxOf a < names.idxOf b := by
  induction names using List.reverseRecOn with
  | nil => exact ⟨fun _ => Iff.rfl, .nil⟩
  | append_singleton names x ih =>
    obtain ⟨hmem, hpairs⟩ := ih
    have hpairs' : (names.foldl record []).Pairwise fun a b => (names ++ [x]).idxOf a < (names ++ [x]).idxOf b := by
      refine hpairs.imp_of_mem fun ha hb hlt => ?_
      rwa [idxOf_append_of_mem ((hmem _).1 ha), idxOf_append_of_mem ((hmem _).1 hb)]
    rw [foldl_append, foldl_cons, foldl_nil, record]
    split_ifs with hx
    · refine ⟨fun name => ?_, hpairs'⟩
      rw [hmem, mem_append, mem_singleton]
      exact ⟨.inl, fun h => h.elim id fun heq => heq ▸ (hmem x).1 hx⟩
    · refine ⟨fun name => by rw [mem_append, mem_append, hmem], pairwise_append.2 ⟨hpairs', pairwise_singleton _ _, ?_⟩⟩
      intro a ha b hb
      obtain rfl := mem_singleton.1 hb
      rw [idxOf_append_of_mem ((hmem a).1 ha), idxOf_append_of_notMem fun h => hx ((hmem b).2 h)]
      exact Nat.lt_add_right _ (idxOf_lt_length_of_mem ((hmem a).1 ha))

/-- **When the two passes are one**: the second pass reads just what the first one left, and gives what one pass with both
contexts gives, when no braces meet. The unknown names are listed once, in the order of their first occurrence, in any case. -/
theorem fill_iff (template : Chars) (context : Context) :
    ((pieces (render template context).rendered = left template context ∧
        ∀ values, fillUnresolved (render template context).rendered values =
          (render template fun n => (context n).or (values n)).rendered) ↔
      Apart (left template context)) ∧
      (∀ name, name ∈ (render template context).unresolved ↔ name ∈ (pieces template).filterMap (·.unknown context)) ∧
      (render template context).unresolved.Pairwise fun a b =>
        ((pieces template).filterMap (·.unknown context)).idxOf a < ((pieces template).filterMap (·.unknown context)).idxOf b := by
  refine ⟨⟨fun h => ?_, fun hapart => ?_⟩, foldl_record _⟩
  · rw [← h.1]
    exact (flat_scan (Nat.le_refl _)).2.1
  have hformed := formed_leave (flat_scan (Nat.le_refl template.length)).2.2 context
  have hread : pieces (render template context).rendered = left template context := by
    rw [pieces, ← flat_left]
    exact scan_flat hapart hformed (Nat.le_refl _)
  refine ⟨hread, fun values => ?_⟩
  rw [fillUnresolved, render, hread]
  exact render_left template context values

def tokenY : Chars := "\x7b\x7by\x7d\x7d".toList

def xGivesToken (name : Chars) : Option Chars := if name = ['x'] then some tokenY else none

def yGivesOne (name : Chars) : Option Chars := if name = ['y'] then some ['1'] else none

/-- **A value and an escape are scanned again**: a token that comes from a value is filled in, and so is one behind an escape. -/
theorem rescanned : (fillUnresolved (render "\x7b\x7bx\x7d\x7d".toList xGivesToken).rendered yGivesOne = ['1'] ∧
      (render "\x7b\x7bx\x7d\x7d".toList fun n => (xGivesToken n).or (yGivesOne n)).rendered = tokenY) ∧
      fillUnresolved (render (open2 ++ tokenY ++ tokenY) fun _ => none).rendered yGivesOne = ['1', '1'] ∧
      (render (open2 ++ tokenY ++ tokenY) yGivesOne).rendered = tokenY ++ ['1'] := by
  decide +kernel

end LetsFlutSsh.Terminal.SnippetTemplate
