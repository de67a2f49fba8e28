import LetsFlutSsh.Db.FolderRename
import LetsFlutSsh.Db.FolderReuse

/-!
# Finding a folder by its path

* `NamedForest` : a forest with names of its own for the folders of one parent, none of them empty;
* `pathTurn` / `pathTurns` : the loop of `build_folder_path` turn by turn. It ends over any parents, in
  at most one turn more than there are folders (`pathTurns_end`);
* `folderPath_inverts` : lookup and creation by the path of a folder answer that folder.
-/

namespace LetsFlutSsh.Folders
open Lib Lib.Forest List

variable {Text : Type}

/-- A forest whose siblings have names of their own, neither empty nor with a slash. -/
structure NamedForest (db : Db Text) : Prop where
  forest : IsForest db
  names : ∀ id row, db.folders.get id = some row → row.name ≠ "" ∧ SlashFree row.name
  unique : UniqueSiblings db

theorem resolve_append (rows : List (String × FolderRow)) (x : Option String) (xs ys : List String) :
    resolve rows x (xs ++ ys) = (resolve rows x xs).bind fun y => resolve rows y ys := by
  induction xs generalizing x with
  | nil => rfl
  | cons seg segs ih =>
    show (byParent rows x seg).bind _ = ((byParent rows x seg).bind _).bind _
    rw [Option.bind_assoc]
    congr 1
    funext id
    exact ih (some id)

variable {db : Db Text} {id : String}

theorem UniqueSiblings.byParent_listAll (h : UniqueSiblings db) {row : FolderRow}
    (hrow : db.folders.get id = some row) : byParent (listAll db) row.parentId row.name = some id := by
  have hmem : ∀ {a : String} {r : FolderRow}, (a, r) ∈ listAll db ↔ db.folders.get a = some r := by
    intro a r
    rw [listAll, mem_mergeSort, Table.mem_rows_iff]
  rcases hfound : byParent (listAll db) row.parentId row.name with _ | a
  · have hnone := named_of_byParent_none hfound
    have hin : (id, row) ∈ named row.parentId row.name (listAll db) :=
      mem_filter.2 ⟨hmem.2 hrow, decide_eq_true ⟨rfl, rfl⟩⟩
    rw [hnone] at hin
    cases hin
  · obtain ⟨r, hr, hparent, hname⟩ := byParent_mem hfound
    rw [h a id r row (hmem.1 hr) hrow hparent hname]

variable {names : List String}

theorem UniqueSiblings.resolve_of_chain (h : UniqueSiblings db) {x : Option String}
    (hc : Chain db x names) : resolve (listAll db) none names = some x := by
  induction hc with
  | root => rfl
  | @child id row names hrow _ ih =>
    rw [resolve_append, ih, Option.bind_some]
    show (byParent (listAll db) row.parentId row.name).bind _ = _
    rw [h.byParent_listAll hrow]
    rfl

/-- The variables of the loop of `build_folder_path`. -/
structure PathWalk where
  parts : List String
  visited : List String
  current : Option String

/-- One turn of the loop: the text to return, or the variables of the next turn. -/
def pathTurn (db : Db Text) (w : PathWalk) : String ⊕ PathWalk :=
  match w.current with
  | none => .inl (joinPath w.parts.reverse)
  | some id =>
    if id ∈ w.visited then .inl ("(cycle)/" ++ joinPath w.parts.reverse)
    else
      match db.folders.get id with
      | some row => .inr ⟨w.parts ++ [row.name], id :: w.visited, row.parentId⟩
      | none => .inl ("(orphaned)/" ++ joinPath w.parts.reverse)

def pathTurns (db : Db Text) : Nat → PathWalk → Option String
  | 0, _ => none
  | n + 1, w =>
    match pathTurn db w with
    | .inl text => some text
    | .inr next => pathTurns db n next

/-- `build_folder_path` as its loop: the text returned within so many turns. -/
def buildFolderPathTurns (db : Db Text) (turns : Nat) (folderId : String) : Option String :=
  if folderId = "" then some "" else pathTurns db turns ⟨[], [], some folderId⟩

theorem pathTurns_eq (db : Db Text) {n : Nat} (fuel : Nat) {w : PathWalk} (hn : unseen db w.visited < n)
    (hfuel : unseen db w.visited < fuel) : pathTurns db n w = some (walkText (climb db fuel w.visited w.current).1
        (joinPath (w.parts ++ (climb db fuel w.visited w.current).2).reverse)) := by
  induction n generalizing fuel w with
  | zero => omega
  | succ n ih =>
    obtain ⟨fuel, rfl⟩ : ∃ k, fuel = k + 1 := ⟨fuel - 1, by omega⟩
    obtain ⟨parts, visited, current⟩ := w
    dsimp only at hn hfuel ⊢
    rcases current with _ | id
    · rw [climb, append_nil]
      rfl
    by_cases hseen : id ∈ visited
    · rw [climb, if_pos hseen, append_nil]
      simp only [pathTurns, pathTurn, if_pos hseen]
      rfl
    rcases hrow : db.folders.get id with _ | row
    · rw [climb, if_neg hseen]
      simp only [pathTurns, pathTurn, if_neg hseen, hrow, append_nil]
      rfl
    · have hless := unseen_cons_lt db ((db.folders.mem_keys_iff id).2 (by rw [hrow]; rfl)) hseen
      have hnext := ih fuel (w := ⟨parts ++ [row.name], id :: visited, row.parentId⟩)
        (show unseen db (id :: visited) < n by omega) (show unseen db (id :: visited) < fuel by omega)
      rw [climb, if_neg hseen]
      simp only [pathTurns, pathTurn, if_neg hseen, hrow, hnext, append_assoc, singleton_append]

theorem pathTurns_end (db : Db Text) (folderId : String) :
    buildFolderPathTurns db (db.folders.rows.length + 1) folderId = some (buildFolderPath db folderId) := by
  have hle := unseen_nil_le db
  unfold buildFolderPathTurns buildFolderPath
  split_ifs
  · rfl
  · rw [pathTurns_eq db (db.folders.rows.length + 2) (by dsimp only; omega) (by dsimp only; omega)]
    rfl

theorem NamedForest.joinPath_ne (h : NamedForest db)
    (hc : Chain db (some id) names) : segments (joinPath names) = names ∧ joinPath names ≠ "" := by
  have hsegs := segments_joinPath (hc.forall_names fun a r hr => (h.names a r hr).2)
    (hc.forall_names fun a r hr => (h.names a r hr).1)
  refine ⟨hsegs, fun hempty => hc.ne_nil ?_⟩
  rw [hempty] at hsegs
  exact hsegs.symm

theorem NamedForest.find_buildFolderPath (h : NamedForest db) (hid : id ≠ "")
    (hc : Chain db (some id) names) :
    findFolderIdByPath (buildFolderPath db id) db = some id := by
  have hpath := buildFolderPath_of_chain hid hc
  have hne := (h.joinPath_ne hc).2
  rcases hfind : findFolderIdByPath (buildFolderPath db id) db with _ | a
  · rw [hpath] at hfind
    exact absurd hpath (findFolderIdByPath_none hne hfind hc.isSome)
  obtain ⟨ha, hbuild⟩ := findFolderIdByPath_some hfind
  have hne' : a ≠ "" := by
    rintro rfl
    rw [hpath] at hbuild
    exact hne hbuild.symm
  obtain ⟨names', hc'⟩ := h.forest.rooted a ha
  rw [buildFolderPath_of_chain hne' hc', hpath] at hbuild
  have hslash : ∀ {x : Option String} {ns : List String}, Chain db x ns → ∀ n ∈ ns, SlashFree n :=
    fun hx => hx.forall_names fun b r hr => (h.names b r hr).2
  obtain rfl := joinPath_inj hc'.ne_nil hc.ne_nil (hslash hc') (hslash hc) hbuild
  exact h.unique.chain_inj hc' hc

/-- **Path lookup inverts path building** for every folder with an id; the empty id stands for the root. Building a path
ends over any parents. -/
theorem folderPath_inverts : (∀ db : Db Text, NamedForest db → ∀ id, id ≠ "" → (db.folders.get id).isSome →
      findFolderIdByPath (buildFolderPath db id) db = some id ∧ ∀ (mint : List String → String) (now : Int64),
          ensureFolderPath mint db (buildFolderPath db id) now = (db, .ok (some id))) ∧
      ∀ (db : Db Text) (id : String), ∃ turns ≤ db.folders.rows.length + 1,
        buildFolderPathTurns db turns id = some (buildFolderPath db id) := by
  refine ⟨fun db h id hid hsome => ?_, fun db id => ⟨_, Nat.le_refl _, pathTurns_end db id⟩⟩
  obtain ⟨names, hc⟩ := h.forest.rooted id hsome
  refine ⟨h.find_buildFolderPath hid hc, fun mint now => ?_⟩
  obtain ⟨hsegs, hne⟩ := h.joinPath_ne hc
  rw [buildFolderPath_of_chain hid hc]
  refine ensureFolderPath_of_resolve mint now hne ?_
  rw [hsegs, h.unique.resolve_of_chain hc]

theorem namedForest_sampleTree : NamedForest sampleTree := by
  refine ⟨named_sampleTree.forest, fun id row hrow => ?_, named_sampleTree.unique⟩
  rw [(get_sampleTree hrow).2]
  decide

theorem folderPath_inverts_sample : findFolderIdByPath (buildFolderPath sampleTree "k1") sampleTree = some "k1" ∧
      ensureFolderPath longerId sampleTree (buildFolderPath sampleTree "k1") 9 = (sampleTree, .ok (some "k1")) :=
  have h := folderPath_inverts.1 sampleTree namedForest_sampleTree "k1" (by decide) (by decide +kernel)
  ⟨h.1, h.2 longerId 9⟩

def unnamedTree : Db Unit := { Db.empty with folders := Table.empty.set "" ⟨"infra", none, 0, false, 5⟩ }

theorem get_unnamedTree {row : FolderRow} (h : unnamedTree.folders.get id = some row) :
    id = "" ∧ row = ⟨"infra", none, 0, false, 5⟩ := by
  unfold unnamedTree at h
  rw [Table.get_set] at h
  split_ifs at h with hid
  · cases h
    exact ⟨hid, rfl⟩
  · cases h

/-- A folder with the empty id has the root's path, where nothing is found. -/
theorem empty_id_is_root : NamedForest unnamedTree ∧ (unnamedTree.folders.get "").isSome ∧
    findFolderIdByPath (buildFolderPath unnamedTree "") unnamedTree ≠ some "" := by
  have hsound : Sound unnamedTree := sound_empty.set (by rintro _ ⟨⟩)
  refine ⟨⟨hsound.isForest, fun id row hrow => ?_, fun a b ra rb hra hrb _ _ => ?_⟩, by decide, by decide⟩
  · rw [(get_unnamedTree hrow).2]
    decide
  · rw [(get_unnamedTree hra).1, (get_unnamedTree hrb).1]

end LetsFlutSsh.Folders
