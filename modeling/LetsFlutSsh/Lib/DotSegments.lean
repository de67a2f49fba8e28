import LetsFlutSsh.Lib.Percent

/-!
# Dot segments

* `DotRules` : which segments of a path go up, and which go nowhere;
* `removeDots` : the segments that are left of a path, behind those that stand before it;
* `climb` : how far a path goes up beyond its start, and what is left of it (`removeDots_eq`);
* `pathText` : a path as text.
-/

namespace Lib
open List

/-! ## Removal -/

/-- The segments that go up, those that go nowhere, and the segment that a dot at the end of a path leaves. -/
structure DotRules (α : Type) where
  up : α → Bool
  here : α → Bool
  empty : α

namespace DotRules

variable {α β : Type} (R : DotRules α)

def isDot (seg : α) : Bool := R.up seg || R.here seg

def enter (path : List α) (seg : α) : List α :=
  if R.up seg then path.dropLast else if R.here seg then path else path ++ [seg]

def ending (segs : List α) : List α := if segs.getLast?.any R.isDot then [R.empty] else []

/-- The segments that are left, behind those of `path`. -/
def removeDots (path segs : List α) : List α := segs.foldl R.enter path ++ R.ending segs

/-- One segment further, where what stands before is counted only as it is taken away. -/
def climbStep (s : Nat × List α) (seg : α) : Nat × List α :=
  if R.up seg then
    match s.2 with
    | [] => (s.1 + 1, [])
    | _ :: _ => (s.1, s.2.dropLast)
  else if R.here seg then s
  else (s.1, s.2 ++ [seg])

/-- How many segments of what stands before a path takes away, and what is left of the path. -/
def climb (segs : List α) : Nat × List α :=
  let s := segs.foldl R.climbStep (0, [])
  (s.1, s.2 ++ R.ending segs)

variable {R} {base segs xs ys : List α} {y : α}

theorem foldl_enter (base segs : List α) : segs.foldl R.enter base =
    base.take (base.length - (segs.foldl R.climbStep (0, [])).1) ++ (segs.foldl R.climbStep (0, [])).2 := by
  induction segs using List.reverseRecOn with
  | nil => simp
  | append_singleton segs seg ih =>
    rw [foldl_append, foldl_append, foldl_cons, foldl_nil, foldl_cons, foldl_nil, ih]
    generalize segs.foldl R.climbStep (0, []) = s
    obtain ⟨n, left⟩ := s
    unfold enter climbStep
    split_ifs with hup hhere
    · rcases left with _ | ⟨x, left⟩
      · dsimp only
        rw [append_nil, append_nil, dropLast_eq_take, take_take, length_take]
        congr 1
        omega
      · rw [dropLast_append_of_ne_nil (cons_ne_nil x left)]
    · rfl
    · rw [append_assoc]

theorem removeDots_eq (base segs : List α) :
    R.removeDots base segs = base.take (base.length - (R.climb segs).1) ++ (R.climb segs).2 := by
  rw [removeDots, foldl_enter, climb, append_assoc]

theorem ending_append (xs : List α) (h : ys ≠ []) : R.ending (xs ++ ys) = R.ending ys := by
  unfold ending
  rw [getLast?_append_of_ne_nil xs h]

theorem removeDots_append (base xs : List α) (h : ys ≠ []) :
    R.removeDots base (xs ++ ys) = R.removeDots (xs.foldl R.enter base) ys := by
  rw [removeDots, removeDots, foldl_append, ending_append xs h]

/-! ## Paths without dots -/

section

variable (h : ∀ x ∈ segs, R.isDot x = false)
include h

theorem ending_of_plain : R.ending segs = [] := by
  refine if_neg ?_
  rcases hlast : segs.getLast? with _ | x
  · exact Bool.false_ne_true
  · rw [Option.any_some, h x (mem_of_getLast? hlast)]
    exact Bool.false_ne_true

theorem foldl_climbStep_of_plain (s : Nat × List α) : segs.foldl R.climbStep s = (s.1, s.2 ++ segs) := by
  induction segs generalizing s with
  | nil => rw [append_nil]; rfl
  | cons x segs ih =>
    obtain ⟨hx, hsegs⟩ := forall_mem_cons.1 h
    rw [isDot, Bool.or_eq_false_iff] at hx
    rw [foldl_cons, ih hsegs, climbStep, hx.1, hx.2, if_neg Bool.false_ne_true, if_neg Bool.false_ne_true, append_assoc]
    rfl

theorem climb_of_plain : R.climb segs = (0, segs) := by
  rw [climb, foldl_climbStep_of_plain h, ending_of_plain h]
  simp

theorem foldl_enter_of_plain (base : List α) : segs.foldl R.enter base = base ++ segs := by
  rw [foldl_enter, foldl_climbStep_of_plain h]
  simp

end

theorem mem_climb : ∀ x ∈ (R.climb segs).2, (x ∈ segs ∧ R.isDot x = false) ∨ x = R.empty := by
  have hfold : ∀ x ∈ (segs.foldl R.climbStep (0, [])).2, x ∈ segs ∧ R.isDot x = false := by
    induction segs using List.reverseRecOn with
    | nil => exact fun _ hx => absurd hx not_mem_nil
    | append_singleton segs seg ih =>
      rw [foldl_append, foldl_cons, foldl_nil]
      generalize segs.foldl R.climbStep (0, []) = s at ih
      obtain ⟨n, left⟩ := s
      have hold : ∀ x ∈ left, x ∈ segs ++ [seg] ∧ R.isDot x = false := fun x hx =>
        (ih x hx).imp_left fun hmem => mem_append_left [seg] hmem
      unfold climbStep
      split_ifs with hup hhere
      · rcases left with _ | ⟨y, left⟩
        · exact hold
        · exact fun x hx => hold x (dropLast_subset _ hx)
      · exact hold
      · intro x hx
        rcases mem_append.1 hx with hx | hx
        · exact hold x hx
        · rw [Bool.not_eq_true] at hup hhere
          rw [mem_singleton.1 hx, isDot, hup, hhere]
          exact ⟨mem_append_right segs (mem_singleton_self seg), rfl⟩
  intro x hx
  rcases mem_append.1 hx with hx | hx
  · exact .inl (hfold x hx)
  · unfold ending at hx
    split_ifs at hx
    · exact .inr (mem_singleton.1 hx)
    · exact absurd hx not_mem_nil

theorem climb_plain (hempty : R.isDot R.empty = false) : ∀ x ∈ (R.climb segs).2, R.isDot x = false := by
  intro x hx
  rcases mem_climb x hx with ⟨-, hplain⟩ | rfl
  · exact hplain
  · exact hempty

theorem not_climb_append (hy : R.isDot y = false) (hempty : R.isDot R.empty = false) (xs : List α) {left : List α} :
    (R.climb (xs ++ y :: left)).2 ≠ left := by
  intro heq
  have hleft : ∀ x ∈ y :: left, R.isDot x = false := by
    refine forall_mem_cons.2 ⟨hy, fun x hx => ?_⟩
    rw [← heq] at hx
    exact climb_plain hempty x hx
  have hlength := congrArg List.length heq
  rw [climb] at hlength
  rw [foldl_append, foldl_climbStep_of_plain hleft, ending_append xs (cons_ne_nil y left), ending_of_plain hleft] at hlength
  simp only [length_append, length_cons, length_nil] at hlength
  omega

/-! ## Segments written in another way -/

variable {Q : DotRules β} {f : α → β}

theorem climb_map (hup : ∀ x, Q.up (f x) = R.up x) (hhere : ∀ x, Q.here (f x) = R.here x) (hempty : Q.empty = f R.empty)
    (segs : List α) : Q.climb (segs.map f) = ((R.climb segs).1, (R.climb segs).2.map f) := by
  have hfold : (segs.map f).foldl Q.climbStep (0, []) =
      ((segs.foldl R.climbStep (0, [])).1, (segs.foldl R.climbStep (0, [])).2.map f) := by
    induction segs using List.reverseRecOn with
    | nil => rfl
    | append_singleton segs seg ih =>
      rw [map_append, map_singleton, foldl_append, foldl_append, ih, foldl_cons, foldl_nil, foldl_cons, foldl_nil]
      generalize segs.foldl R.climbStep (0, []) = s
      obtain ⟨n, left⟩ := s
      unfold climbStep
      rw [hup, hhere]
      split_ifs
      · rcases left with _ | ⟨x, left⟩
        · rfl
        · rw [map_dropLast, map_cons]
      · rfl
      · rw [map_append, map_singleton]
  have hending : Q.ending (segs.map f) = (R.ending segs).map f := by
    have hdot : ∀ x, Q.isDot (f x) = R.isDot x := fun x => by rw [isDot, isDot, hup, hhere]
    unfold ending
    rw [getLast?_map, hempty]
    rcases segs.getLast? with _ | x
    · rfl
    · simp only [Option.map_some, Option.any_some, hdot]
      split_ifs <;> rfl
  rw [climb, climb, hfold, hending]
  rw [map_append]

end DotRules

/-! ## Paths as text -/

def pathText (segs : List Bytes) : Bytes := segs.flatMap fun seg => 0x2F :: seg

variable (segs : List Bytes)

theorem pathText_cons (seg : Bytes) : pathText (seg :: segs) = 0x2F :: (seg ++ pathText segs) := by
  rw [pathText, flatMap_cons, cons_append]
  rfl

theorem pathText_splitOn (text : Bytes) : pathText (text.splitOn 0x2F) = 0x2F :: text := by
  have hjoin : ∀ segs : List Bytes, segs ≠ [] → pathText segs = 0x2F :: [(0x2F : UInt8)].intercalate segs := by
    intro segs
    induction segs with
    | nil => exact fun h => absurd rfl h
    | cons seg segs ih =>
      intro _
      rw [pathText_cons]
      rcases segs with _ | ⟨next, segs⟩
      · simp [pathText]
      · rw [ih (cons_ne_nil next segs), intercalate_cons_cons, append_assoc]
        rfl
  rw [hjoin _ (splitOn_ne_nil _ text), intercalate_splitOn]

theorem splitOn_pathText :
    (pathText segs).splitOn 0x2F = [] :: segs.flatMap fun seg => seg.splitOn 0x2F := by
  have hpiece : ∀ (x : Bytes) (segs : List Bytes),
      (x ++ pathText segs).splitOn 0x2F = x.splitOn 0x2F ++ segs.flatMap fun seg => seg.splitOn 0x2F := by
    intro x segs
    induction segs generalizing x with
    | nil => simp [pathText]
    | cons seg segs ih => rw [pathText_cons, splitOn_append_cons_self, ih, flatMap_cons]
  rcases segs with _ | ⟨seg, segs⟩
  · rfl
  · rw [pathText_cons, ← nil_append (0x2F :: _), splitOn_append_cons_self, hpiece, flatMap_cons]
    rfl

theorem flatMap_splitOn_of_slashFree {segs : List Bytes} (h : ∀ seg ∈ segs, (0x2F : UInt8) ∉ seg) :
    (segs.flatMap fun seg => seg.splitOn 0x2F) = segs := by
  induction segs with
  | nil => rfl
  | cons seg segs ih =>
    obtain ⟨hseg, hsegs⟩ := forall_mem_cons.1 h
    rw [flatMap_cons, ih hsegs, splitOn_eq_singleton hseg]
    rfl

theorem percentDecode_pathText : percentDecode (pathText segs) = pathText (segs.map percentDecode) := by
  have hpiece : ∀ (x : Bytes) (segs : List Bytes),
      percentDecode (x ++ pathText segs) = percentDecode x ++ pathText (segs.map percentDecode) := by
    intro x segs
    induction segs generalizing x with
    | nil => simp [pathText]
    | cons seg segs ih => rw [pathText_cons, percentDecode_append (by decide) (by decide), ih, map_cons, pathText_cons]
  exact hpiece [] segs

end Lib
