import Mathlib.Data.List.Sort
import Mathlib.Data.String.Basic

/-!
# Paths of names joined by slashes

* `joinPath`, `splitPath`: names to path text and back, for lists of slash-free names that are not empty;
* `renameNames`: a list of names with a leading part replaced (`renamePath_joinPath`);
* `sortDedup`: the sorted list of the members of a list.
-/

namespace Lib
open List

def joinPath (names : List String) : String := "/".intercalate names

/-- `path.split('/')`. -/
def splitPath (path : String) : List String := (path.toList.splitOn '/').map String.ofList

def SlashFree (name : String) : Prop := '/' ∉ name.toList

instance (name : String) : Decidable (SlashFree name) := inferInstanceAs (Decidable ('/' ∉ name.toList))

theorem splitPath_ne_nil (path : String) : splitPath path ≠ [] := by
  unfold splitPath
  rw [Ne, map_eq_nil_iff]
  exact splitOnP_ne_nil (· == '/') path.toList

theorem not_mem_of_mem_splitOn {α : Type} [DecidableEq α] {a : α} {xs piece : List α} (h : piece ∈ xs.splitOn a) :
    a ∉ piece := by
  rw [splitOn_eq_splitOnP] at h
  induction xs generalizing piece with
  | nil =>
    rw [splitOnP_nil, mem_singleton] at h
    simp [h]
  | cons x xs ih =>
    rw [splitOnP_cons_eq_if_modifyHead] at h
    by_cases hx : x = a
    · rw [if_pos (by simp [hx]), mem_cons] at h
      rcases h with rfl | h
      · exact not_mem_nil
      · exact ih h
    · rw [if_neg (by simp [hx])] at h
      obtain ⟨first, rest, hsplit⟩ := exists_cons_of_ne_nil (splitOnP_ne_nil (· == a) xs)
      rw [hsplit] at h ih
      rw [modifyHead_cons, mem_cons] at h
      rcases h with rfl | h
      · rw [mem_cons, not_or]
        exact ⟨Ne.symm hx, ih mem_cons_self⟩
      · exact ih (mem_cons_of_mem first h)

theorem slashFree_of_mem_splitPath {path name : String} (h : name ∈ splitPath path) : SlashFree name := by
  obtain ⟨cs, hcs, rfl⟩ := mem_map.mp h
  rw [SlashFree, String.toList_ofList]
  exact not_mem_of_mem_splitOn hcs

theorem toList_under (old rest : String) : (old ++ "/" ++ rest).toList = (old ++ "/").toList ++ rest.toList :=
  String.toList_append

theorem toList_joinPath (names : List String) : (joinPath names).toList = ['/'].intercalate (names.map String.toList) := by
  rw [joinPath, String.toList_intercalate]
  rfl

theorem joinPath_splitPath (path : String) : joinPath (splitPath path) = path := by
  apply String.toList_injective
  rw [toList_joinPath, splitPath, map_map]
  have hid : String.toList ∘ String.ofList = id := by
    funext cs
    exact String.toList_ofList
  rw [hid, map_id, intercalate_splitOn]

variable {names : List String}

theorem splitPath_joinPath (hne : names ≠ []) (hfree : ∀ n ∈ names, SlashFree n) :
    splitPath (joinPath names) = names := by
  rw [splitPath, toList_joinPath, splitOn_intercalate, map_map]
  · have hid : String.ofList ∘ String.toList = id := by
      funext s
      exact String.ofList_toList
    rw [hid, map_id]
  · intro cs hcs
    obtain ⟨n, hn, rfl⟩ := mem_map.mp hcs
    exact hfree n hn
  · rwa [Ne, map_eq_nil_iff]

theorem joinPath_inj {xs ys : List String} (hx : xs ≠ []) (hy : ys ≠ []) (hxs : ∀ n ∈ xs, SlashFree n)
    (hys : ∀ n ∈ ys, SlashFree n) (h : joinPath xs = joinPath ys) : xs = ys := by
  rw [← splitPath_joinPath hx hxs, h, splitPath_joinPath hy hys]

theorem joinPath_append {xs ys : List String} (hx : xs ≠ []) (hy : ys ≠ []) :
    joinPath (xs ++ ys) = joinPath xs ++ "/" ++ joinPath ys :=
  String.intercalate_append_of_ne_nil hx hy

/-- The text starts with `old/`. -/
def startsUnder (old path : String) : Bool := (old ++ "/").toList.isPrefixOf path.toList

theorem startsUnder_iff {old : String} (hne : names ≠ []) (hfree : ∀ n ∈ names, SlashFree n) :
    startsUnder old (joinPath names) = true ↔ ∃ rest, rest ≠ [] ∧ names = splitPath old ++ rest := by
  rw [startsUnder, isPrefixOf_iff_prefix]
  constructor
  · rintro ⟨cs, hcs⟩
    refine ⟨splitPath (String.ofList cs), splitPath_ne_nil _, ?_⟩
    refine joinPath_inj hne (by simp [splitPath_ne_nil]) hfree ?_ ?_
    · intro n hn
      rcases mem_append.mp hn with hn | hn <;> exact slashFree_of_mem_splitPath hn
    · rw [joinPath_append (splitPath_ne_nil _) (splitPath_ne_nil _), joinPath_splitPath, joinPath_splitPath]
      apply String.toList_injective
      rw [← hcs, toList_under, String.toList_ofList]
  · rintro ⟨rest, hrest, rfl⟩
    rw [joinPath_append (splitPath_ne_nil _) hrest, joinPath_splitPath, toList_under]
    exact prefix_append _ _

/-- The names with the leading `old` replaced by `new`. -/
def renameNames (old new names : List String) : List String :=
  if old <+: names then new ++ names.drop old.length else names

/-- The path with the leading `old` replaced by `new`, at a slash. -/
def renamePath (old new path : String) : String :=
  if path = old then new
  else if startsUnder old path then
    new ++ "/" ++ String.ofList (path.toList.drop (old ++ "/").toList.length)
  else path

theorem renamePath_joinPath (old new : String) (hne : names ≠ []) (hfree : ∀ n ∈ names, SlashFree n) :
    renamePath old new (joinPath names) = joinPath (renameNames (splitPath old) (splitPath new) names) := by
  unfold renamePath
  by_cases hself : joinPath names = old
  · have hsplit : splitPath old = names := by rw [← hself, splitPath_joinPath hne hfree]
    rw [if_pos hself, renameNames, hsplit, if_pos prefix_rfl, drop_length, append_nil, joinPath_splitPath]
  rw [if_neg hself]
  by_cases hunder : startsUnder old (joinPath names) = true
  · obtain ⟨rest, hrest, rfl⟩ := (startsUnder_iff hne hfree).mp hunder
    rw [if_pos hunder, renameNames, if_pos (prefix_append _ _), drop_left,
      joinPath_append (splitPath_ne_nil new) hrest, joinPath_splitPath]
    rw [joinPath_append (splitPath_ne_nil old) hrest, joinPath_splitPath, toList_under, drop_left, String.ofList_toList]
  · rw [if_neg hunder, renameNames, if_neg]
    rintro ⟨rest, rfl⟩
    rcases rest with _ | ⟨n, rest⟩
    · exact hself (by rw [append_nil, joinPath_splitPath])
    · exact hunder ((startsUnder_iff hne hfree).mpr ⟨n :: rest, by simp, rfl⟩)

section Sorted

variable {α : Type} [LinearOrder α]

/-- `Vec::dedup`: of equal neighbours one is kept. -/
def dedupAdjacent : List α → List α
  | [] => []
  | [a] => [a]
  | a :: b :: l => if a = b then dedupAdjacent (b :: l) else a :: dedupAdjacent (b :: l)

/-- `sort` and then `dedup`. -/
def sortDedup (l : List α) : List α := dedupAdjacent (l.insertionSort (· ≤ ·))

theorem mem_dedupAdjacent (l : List α) (x : α) : x ∈ dedupAdjacent l ↔ x ∈ l := by
  fun_induction dedupAdjacent l with
  | case1 => rfl
  | case2 a => rfl
  | case3 b l ih =>
    rw [ih]
    simp
  | case4 a b l hne ih => simp only [mem_cons, ih]

@[simp] theorem mem_sortDedup (l : List α) (x : α) : x ∈ sortDedup l ↔ x ∈ l := by
  rw [sortDedup, mem_dedupAdjacent, mem_insertionSort]

end Sorted

end Lib
