import Mathlib.Tactic.Common

/-!
# Entity tags

The validators of conditional HTTP requests, on the characters of a header:

* `EntityTag`: a weak or strong tag with its quoted text; `EntityTag.header` writes it;
* `entityTags`: the tags listed in a header;
* `ifMatch`: the precondition of an update (strong comparison);
* `ifNoneMatch`: the precondition of a read (weak comparison).

`entityTags_quoted` reads one quoted tag off the front of a header.
-/

namespace Lib
open List

/-- A character a tag may hold between its quotes: visible ASCII, not a quote. -/
def isTagChar (c : Char) : Bool := c.toNat == 0x21 || (0x23 ≤ c.toNat && c.toNat ≤ 0x7E)

structure EntityTag where
  weak : Bool
  text : List Char
  valid : text.all isTagChar = true

variable (t : EntityTag)

namespace EntityTag

def header (t : EntityTag) : List Char := (if t.weak then ['W', '/'] else []) ++ '"' :: (t.text ++ ['"'])

theorem quote_notMem : '"' ∉ t.text := by
  intro h
  exact absurd (all_eq_true.mp t.valid _ h) (by decide)

end EntityTag

/-- The tags of a header: `seen` are the characters since the last quote, in reverse, and `inside`
says whether that quote opened a tag, and which kind. -/
def entityTags (seen : List Char) (inside : Option Bool) : List Char → List (Bool × List Char)
  | [] => []
  | c :: cs =>
    if c = '"' then
      match inside with
      | none => entityTags [] (some (seen.take 2 == ['/', 'W'])) cs
      | some weak => (weak, seen.reverse) :: entityTags [] none cs
    else entityTags (c :: seen) inside cs

def headerTags (h : List Char) : List (Bool × List Char) := entityTags [] none h

theorem entityTags_append (seen : List Char) (inside : Option Bool) {cs : List Char} (h : '"' ∉ cs) (rest : List Char) :
    entityTags seen inside (cs ++ rest) = entityTags (cs.reverse ++ seen) inside rest := by
  induction cs generalizing seen with
  | nil => rfl
  | cons c cs ih =>
    have hc : c ≠ '"' := fun e => h (e ▸ mem_cons_self)
    have hstep : entityTags seen inside (c :: (cs ++ rest)) = entityTags (c :: seen) inside (cs ++ rest) := by
      rcases inside with _ | weak
      · rw [entityTags, if_neg hc]
      · rw [entityTags, if_neg hc]
    rw [cons_append, hstep, ih _ fun e => h (mem_cons_of_mem c e), reverse_cons, append_assoc]
    rfl

theorem entityTags_quoted (seen : List Char) {cs : List Char} (h : '"' ∉ cs) (rest : List Char) :
    entityTags seen none ('"' :: (cs ++ '"' :: rest)) = (seen.take 2 == ['/', 'W'], cs) :: entityTags [] none rest := by
  rw [entityTags, if_pos rfl, entityTags_append _ _ h, entityTags, if_pos rfl, append_nil, reverse_reverse]

/-- `If-Match`: the stored version has one of the tags, by strong comparison. -/
def ifMatch (h : List Char) (current : Option EntityTag) : Bool :=
  current.any fun t => !t.weak && decide ((false, t.text) ∈ headerTags h)

/-- `If-None-Match`: the stored version has none of the tags, by weak comparison. -/
def ifNoneMatch (h : List Char) (current : Option EntityTag) : Bool :=
  current.all fun t => decide (t.text ∉ (headerTags h).map Prod.snd)

theorem ifMatch_iff (h : List Char) :
    ifMatch h (some t) = true ↔ t.weak = false ∧ (false, t.text) ∈ headerTags h := by
  simp [ifMatch]

theorem ifNoneMatch_eq_false_iff (h : List Char) :
    ifNoneMatch h (some t) = false ↔ t.text ∈ (headerTags h).map Prod.snd := by
  unfold ifNoneMatch
  rw [Option.all_some, decide_eq_false_iff_not, not_not]

end Lib
