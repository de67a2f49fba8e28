import LetsFlutSsh.Lib.Forest
import LetsFlutSsh.Lib.SlashPath
import LetsFlutSsh.Db.FolderTree

/-!
# Path texts of folders

* `buildFolderPath`: the path of a folder as the user sees it, with a mark where the walk up does not
  end at a root;
* `findFolderIdByPath`: the first folder, by id, that shows as a path;
* `allFolderPaths`: the sorted set of the paths;
* `renamePathsCascade`: a rename on such a set;
* `Sound`: folder trees where a path text names one folder.
-/

namespace LetsFlutSsh.Folders
open Lib Lib.Forest List

variable {Text : Type}

inductive WalkEnd
  | root
  | orphaned
  | cycle

/-- The loop of `build_folder_path`: how the walk ends and the names it met, from the folder up. Every
turn but the last meets a folder for the first time, so the fuel lasts when it exceeds the folders. -/
def climb (db : Db Text) : Nat → List String → Option String → WalkEnd × List String
  | _, _, none => (.root, [])
  | 0, _, some _ => (.cycle, [])
  | fuel + 1, visited, some id =>
    if id ∈ visited then (.cycle, [])
    else
      match db.folders.get id with
      | none => (.orphaned, [])
      | some row =>
        let above := climb db fuel (id :: visited) row.parentId
        (above.1, row.name :: above.2)

def walkText : WalkEnd → String → String
  | .root, path => path
  | .orphaned, path => "(orphaned)/" ++ path
  | .cycle, path => "(cycle)/" ++ path

/-- `build_folder_path`; the empty id stands for the root. -/
def buildFolderPath (db : Db Text) (folderId : String) : String :=
  if folderId = "" then ""
  else
    let walk := climb db (db.folders.rows.length + 2) [] (some folderId)
    walkText walk.1 (joinPath walk.2.reverse)

def folderMap (db : Db Text) : List (String × FolderRow) := db.folders.rows.insertionSort fun a b => a.1 ≤ b.1

def findFolderIdByPath (path : String) (db : Db Text) : Option String :=
  if path = "" then none
  else ((folderMap db).find? fun e => buildFolderPath db e.1 = path).map Prod.fst

def allFolderPaths (db : Db Text) : List String := sortDedup ((folderMap db).map fun e => buildFolderPath db e.1)

def renamePathsCascade (paths : List String) (oldPath newPath : String) : List String :=
  if oldPath = "" ∨ newPath = "" ∨ oldPath = newPath then sortDedup paths
  else sortDedup (paths.map (renamePath oldPath newPath))

theorem mem_allFolderPaths (db : Db Text) (p : String) :
    p ∈ allFolderPaths db ↔ ∃ id, (db.folders.get id).isSome ∧ buildFolderPath db id = p := by
  unfold allFolderPaths folderMap
  rw [mem_sortDedup, mem_map]
  constructor
  · rintro ⟨⟨id, row⟩, hmem, rfl⟩
    rw [mem_insertionSort, Table.mem_rows_iff] at hmem
    exact ⟨id, by rw [hmem]; rfl, rfl⟩
  · rintro ⟨id, hid, rfl⟩
    obtain ⟨row, hrow⟩ := Option.isSome_iff_exists.mp hid
    refine ⟨(id, row), ?_, rfl⟩
    rwa [mem_insertionSort, Table.mem_rows_iff]

variable {db : Db Text} {id : String} {names : List String}

variable {path : String}

theorem findFolderIdByPath_some (h : findFolderIdByPath path db = some id) :
    (db.folders.get id).isSome ∧ buildFolderPath db id = path := by
  unfold findFolderIdByPath folderMap at h
  split_ifs at h with hpath
  obtain ⟨⟨id', row⟩, hfind, rfl⟩ := Option.map_eq_some_iff.mp h
  have hmem := mem_of_find?_eq_some hfind
  have hp := find?_some hfind
  rw [mem_insertionSort, Table.mem_rows_iff] at hmem
  rw [decide_eq_true_eq] at hp
  exact ⟨by rw [hmem]; rfl, hp⟩

theorem findFolderIdByPath_none (hpath : path ≠ "")
    (h : findFolderIdByPath path db = none) (hid : (db.folders.get id).isSome) :
    buildFolderPath db id ≠ path := by
  obtain ⟨row, hrow⟩ := Option.isSome_iff_exists.mp hid
  rw [findFolderIdByPath, if_neg hpath, Option.map_eq_none_iff, find?_eq_none] at h
  have hnot := h (id, row) (by rwa [folderMap, mem_insertionSort, Table.mem_rows_iff])
  simpa using hnot

variable {seen : List String}

theorem Chain.not_mem (hc : Chain db (some id) names)
    (hseen : ∀ s ∈ seen, ∃ names', Chain db (some s) names' ∧ names.length < names'.length) :
    id ∉ seen := by
  intro hmem
  obtain ⟨names', hc', hlen⟩ := hseen id hmem
  rw [hc.unique hc'] at hlen
  exact lt_irrefl _ hlen

variable {x : Option String}

theorem climb_of_chain (hc : Chain db x names)
    {fuel : Nat} (hfuel : names.length ≤ fuel)
    (hseen : ∀ s ∈ seen, ∃ names', Chain db (some s) names' ∧ names.length < names'.length) :
    climb db fuel seen x = (.root, names.reverse) := by
  induction hc generalizing fuel seen with
  | root => cases fuel <;> rfl
  | @child id row names hrow hparent ih =>
    have hself : Chain db (some id) (names ++ [row.name]) := .child hrow hparent
    have hnot : id ∉ seen := hself.not_mem hseen
    rw [length_append, length_singleton] at hfuel hseen
    obtain ⟨n, rfl⟩ : ∃ n, fuel = n + 1 := ⟨fuel - 1, by omega⟩
    have hwalk : climb db n (id :: seen) row.parentId = (.root, names.reverse) := by
      refine ih (by omega) fun s hs => ?_
      rcases mem_cons.mp hs with rfl | hs
      · exact ⟨_, hself, by simp⟩
      · obtain ⟨names', hc', hlen⟩ := hseen s hs
        exact ⟨names', hc', by omega⟩
    rw [climb, if_neg hnot]
    simp only [hrow, hwalk, reverse_append, reverse_singleton, singleton_append]

theorem Chain.length_le (hc : Chain db x names) : names.length ≤ db.folders.rows.length + 1 := by
  have hle := unseen_nil_le db
  have hwalk : namesUp db (db.folders.rows.length + 1) [] x = names.reverse := by
    rw [namesUp_fuel db x (by omega) (show unseen db [] < db.folders.rows.length + 1 + names.length by omega),
      namesUp_of_chain hc (by omega) (by simp)]
  have hfuel : ∀ fuel seen y, (namesUp db fuel seen y).length ≤ fuel := by
    intro fuel
    induction fuel with
    | zero =>
      intro seen y
      rfl
    | succ n ih =>
      intro seen y
      rcases y with _ | id
      · exact Nat.zero_le _
      unfold namesUp
      rcases db.folders.get id with _ | row
      · exact Nat.zero_le _
      split_ifs
      · exact Nat.zero_le _
      · rw [length_cons]
        exact Nat.succ_le_succ (ih _ _)
  have hlen := hfuel (db.folders.rows.length + 1) [] x
  rwa [hwalk, length_reverse] at hlen

theorem buildFolderPath_of_chain (hid : id ≠ "")
    (hc : Chain db (some id) names) : buildFolderPath db id = joinPath names := by
  have hlen := hc.length_le
  rw [buildFolderPath, if_neg hid, climb_of_chain hc (by omega) (by simp)]
  show joinPath names.reverse.reverse = joinPath names
  rw [reverse_reverse]

end LetsFlutSsh.Folders
