import Mathlib.Data.List.DropRight

/-!
# Paths, resolved lexically

* `segments` : the segments of a path text, for any set of separators;
* `resolve` : the names from the root down, with `.` and `..` worked off, and `Inside`;
* `Climbs` : a relative path that leaves the directory it starts from on its way (`inside_join`, `not_mem_of_climbsFrom`).
-/

namespace Lib
open List

abbrev PathText := List Char

section Resolve
variable (isSep : Char → Bool)

def segments (path : PathText) : List PathText := path.splitOnP isSep

def isRooted : PathText → Bool
  | [] => false
  | c :: _ => isSep c

def enter (stack : List PathText) (seg : PathText) : List PathText :=
  if seg = [] ∨ seg = ['.'] then stack else if seg = ['.', '.'] then stack.dropLast else stack ++ [seg]

/-- The names of the directory that the path denotes, from the current directory. -/
def resolve (cwd : List PathText) (path : PathText) : List PathText :=
  (segments isSep path).foldl enter (if isRooted isSep path then [] else cwd)

/-- The second path denotes the directory of the first or something below it. -/
def Inside (cwd : List PathText) (dir path : PathText) : Prop := resolve isSep cwd dir <+: resolve isSep cwd path

/-- Whether the segments leave the directory `depth` levels above. -/
def climbsFrom (depth : Nat) : List PathText → Bool
  | [] => false
  | seg :: rest =>
    if seg = [] ∨ seg = ['.'] then climbsFrom depth rest
    else if seg = ['.', '.'] then depth = 0 || climbsFrom (depth - 1) rest
    else climbsFrom (depth + 1) rest

/-- At some point on the way there are more `..` than names. -/
def Climbs (path : PathText) : Prop := climbsFrom 0 (segments isSep path) = true

instance (path : PathText) : Decidable (Climbs isSep path) := inferInstanceAs (Decidable (_ = true))

end Resolve

variable {isSep : Char → Bool} {base ext segs : List PathText} {c : Char}

theorem segments_append (hc : isSep c = true) (a b : PathText) :
    segments isSep (a ++ c :: b) = segments isSep a ++ segments isSep b := by
  induction a with
  | nil => simp [segments, splitOnP_cons_eq_if_modifyHead, hc]
  | cons d a ih =>
    simp only [segments] at ih ⊢
    rw [cons_append, splitOnP_cons_eq_if_modifyHead, splitOnP_cons_eq_if_modifyHead, ih]
    split
    · rfl
    · obtain ⟨first, rest, hsplit⟩ := exists_cons_of_ne_nil (splitOnP_ne_nil isSep a)
      rw [hsplit]
      rfl

variable (stack : List PathText)

@[simp] theorem enter_nil : enter stack [] = stack := if_pos (.inl rfl)

variable (path : PathText)

theorem foldl_enter_rdropWhile {p : Char → Bool} (hp : ∀ c, p c = true → isSep c = true) :
    (segments isSep (path.rdropWhile p)).foldl enter stack = (segments isSep path).foldl enter stack := by
  induction path using List.reverseRecOn with
  | nil => rfl
  | append_singleton path c ih =>
    by_cases hc : p c = true
    · rw [rdropWhile_concat_pos _ _ _ hc, ih, segments_append (hp c hc), foldl_append]
      simp [segments]
    · rw [rdropWhile_concat_neg _ _ _ hc]

theorem prefix_foldl_enter (h : climbsFrom ext.length segs = false) : base <+: segs.foldl enter (base ++ ext) := by
  induction segs generalizing ext with
  | nil => exact prefix_append base ext
  | cons seg segs ih =>
    rw [climbsFrom] at h
    rw [foldl_cons, enter]
    split at h
    · next hskip =>
      rw [if_pos hskip]
      exact ih h
    next hskip =>
    rw [if_neg hskip]
    split at h
    · next hup =>
      rw [if_pos hup]
      rcases eq_nil_or_concat ext with rfl | ⟨ext, name, rfl⟩
      · cases h
      · rw [length_concat, Bool.or_eq_false_iff] at h
        rw [concat_eq_append, ← append_assoc, dropLast_concat]
        exact ih h.2
    · next hup =>
      rw [if_neg hup, append_assoc]
      refine ih ?_
      rw [length_append, length_singleton]
      exact h

theorem climbsFrom_of_not_mem (h : ['.', '.'] ∉ segs) (depth : Nat) : climbsFrom depth segs = false := by
  induction segs generalizing depth with
  | nil => rfl
  | cons seg segs ih =>
    rw [mem_cons, not_or] at h
    rw [climbsFrom, if_neg (Ne.symm h.1)]
    split
    · exact ih h.2 depth
    · exact ih h.2 (depth + 1)

theorem isRooted_append {dir : PathText} (hdir : dir ≠ []) (rel : PathText) :
    isRooted isSep (dir ++ rel) = isRooted isSep dir := by
  obtain ⟨c, rest, rfl⟩ := exists_cons_of_ne_nil hdir
  rfl

variable {cwd : List PathText}

theorem inside_join {dir rel : PathText} (hc : isSep c = true) (hdir : dir ≠ [])
    (hrel : ¬ Climbs isSep rel) : Inside isSep cwd dir (dir ++ c :: rel) := by
  have hclimbs : climbsFrom ([] : List PathText).length (segments isSep rel) = false := by simpa [Climbs] using hrel
  rw [Inside, resolve, resolve, isRooted_append hdir, segments_append hc, foldl_append]
  simpa using prefix_foldl_enter hclimbs

theorem inside_append {dir rel : PathText} (hdir : dir.getLast?.any isSep = true)
    (hrel : ¬ Climbs isSep rel) : Inside isSep cwd dir (dir ++ rel) := by
  rcases eq_nil_or_concat dir with rfl | ⟨dir, c, rfl⟩
  · cases hdir
  rw [concat_eq_append, getLast?_concat, Option.any_some] at hdir
  have hclimbs : climbsFrom ([] : List PathText).length (segments isSep rel) = false := by simpa [Climbs] using hrel
  have hroot : isRooted isSep (dir ++ [c] ++ rel) = isRooted isSep (dir ++ [c]) := isRooted_append (by simp) rel
  have hempty : segments isSep ([] : PathText) = [[]] := rfl
  rw [concat_eq_append, Inside, resolve, resolve, hroot, append_assoc, singleton_append,
    segments_append hdir, segments_append hdir, foldl_append, foldl_append, hempty, foldl_cons, enter_nil]
  simpa using prefix_foldl_enter hclimbs

theorem segments_intercalate {names : List PathText} (hc : isSep c = true) (hne : names ≠ [])
    (h : ∀ name ∈ names, ∀ d ∈ name, isSep d = false) : segments isSep ([c].intercalate names) = names := by
  induction names with
  | nil => exact absurd rfl hne
  | cons name names ih =>
    rw [forall_mem_cons] at h
    have hname : segments isSep name = [name] := by
      apply splitOnP_eq_singleton
      intro d hd
      simpa using h.1 d hd
    by_cases hlast : names = []
    · rw [hlast, intercalate_singleton, hname]
    · rw [intercalate_cons_of_ne_nil hlast, append_assoc, singleton_append, segments_append hc, hname, ih hlast h.2]
      rfl

theorem not_mem_foldl_enter {name : PathText} {stack : List PathText} (h : name ∉ stack) (hsegs : name ∉ segs) :
    name ∉ segs.foldl enter stack := by
  induction segs generalizing stack with
  | nil => exact h
  | cons seg segs ih =>
    rw [mem_cons, not_or] at hsegs
    refine ih ?_ hsegs.2
    unfold enter
    split_ifs
    · exact h
    · exact fun hmem => h (dropLast_subset stack hmem)
    · simp [h, hsegs.1]

theorem not_mem_of_climbsFrom {name : PathText} (h : climbsFrom ext.length segs = true) (hext : name ∉ ext)
    (hsegs : name ∉ segs) : name ∉ segs.foldl enter (name :: ext) := by
  induction segs generalizing ext with
  | nil => cases h
  | cons seg segs ih =>
    have hrest : name ∉ segs := fun hmem => hsegs (mem_cons_of_mem seg hmem)
    rw [climbsFrom] at h
    rw [foldl_cons, enter]
    split at h
    · next hskip =>
      rw [if_pos hskip]
      exact ih h hext hrest
    next hskip =>
    rw [if_neg hskip]
    split at h
    · next hup =>
      rw [if_pos hup]
      rcases eq_nil_or_concat ext with rfl | ⟨ext, last, rfl⟩
      · exact not_mem_foldl_enter (by simp) hrest
      · rw [length_concat, Bool.or_eq_true, decide_eq_true_eq, or_iff_right (Nat.succ_ne_zero _)] at h
        rw [concat_eq_append] at hext ⊢
        rw [← cons_append, dropLast_concat]
        exact ih h (fun hmem => hext (mem_append_left _ hmem)) hrest
    · next hup =>
      rw [if_neg hup, cons_append]
      refine ih ?_ ?_ hrest
      · rw [length_append, length_singleton]
        exact h
      · rw [mem_append, mem_singleton, not_or]
        exact ⟨hext, fun heq => hsegs (heq ▸ mem_cons_self)⟩

theorem length_of_mem_segments {path seg : PathText} (h : seg ∈ segments isSep path) : seg.length ≤ path.length := by
  induction path generalizing seg with
  | nil =>
    rw [segments, splitOnP_nil, mem_singleton] at h
    rw [h]
  | cons c path ih =>
    obtain ⟨first, rest, hsplit⟩ := exists_cons_of_ne_nil (splitOnP_ne_nil isSep path)
    rw [segments, splitOnP_cons_eq_if_modifyHead, hsplit] at h
    rw [segments, hsplit] at ih
    rw [length_cons]
    split at h
    · rcases mem_cons.1 h with rfl | h
      · exact Nat.zero_le _
      · exact (ih h).trans (Nat.le_succ _)
    · rw [modifyHead_cons] at h
      rcases mem_cons.1 h with rfl | h
      · exact Nat.succ_le_succ (ih mem_cons_self)
      · exact (ih (mem_cons_of_mem first h)).trans (Nat.le_succ _)

def freshName (path : PathText) : PathText := List.replicate (path.length + 1) 'x'

theorem freshName_not_mem : freshName path ∉ segments isSep path := fun h => by
  have hlen := length_of_mem_segments h
  rw [freshName, length_replicate] at hlen
  omega

theorem enter_freshName :
    enter stack (freshName path) = stack ++ [freshName path] := by
  have hne : ∀ seg : PathText, 'x' ∉ seg → freshName path ≠ seg := fun seg hseg h => by
    rw [← h] at hseg
    exact hseg mem_cons_self
  rw [enter, if_neg (not_or.2 ⟨hne _ (by simp), hne _ (by simp)⟩), if_neg (hne _ (by simp))]

theorem segments_freshName (h : isSep 'x' = false) : segments isSep (freshName path) = [freshName path] :=
  splitOnP_eq_singleton fun c hc => by rw [eq_of_mem_replicate hc, h]

end Lib
