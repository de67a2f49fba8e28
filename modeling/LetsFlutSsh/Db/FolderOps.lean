import LetsFlutSsh.Lib.Run
import LetsFlutSsh.Db.FolderPath

/-!
# Operations on the folder tree

Besides `upsert` and `ensureFolderPath`:

* `delete`, `deleteRecursive`: a folder, or a folder with everything below it; what refers to a deleted
  folder is cleared (`ON DELETE SET NULL`, `ON DELETE CASCADE`);
* `updateNameParent`: rename and move, refused under the folder itself or its descendants;
* `renamePathCascade`: the same by path texts, in one transaction;
* `Op`, `step`: a program of folder operations;
* `IsForest`: no folder is its own ancestor, so every walk up ends at a root.

`Folders.upsert` moves a folder without a guard. `forest_iff_upserts` says that it is the only operation
that makes a cycle, and when.
-/

namespace LetsFlutSsh.Folders
open Lib Lib.Forest List Option Function

variable {Text : Type}

/-- The parent of a folder; a folder that does not exist has none. -/
def parentOf (db : Db Text) (id : String) : Option String := (db.folders.get id).bind FolderRow.parentId

/-! ## Deleting -/

/-- Delete the folders that are `gone`: their subfolders move to the root, their sessions lose the
folder, and their tag links go. -/
def dropFolders (db : Db Text) (gone : String → Bool) : Db Text :=
  { db with
    folders := (db.folders.dropKeys gone).map fun row => { row with parentId := row.parentId.filter (!gone ·) }
    sessions := db.sessions.map fun p => { p with folderId := p.folderId.filter (!gone ·) }
    folderTags := db.folderTags.filter fun e => !gone e.1 }

def delete (db : Db Text) (id : String) : Db Text × Nat :=
  (dropFolders db (· = id), if (db.folders.get id).isSome then 1 else 0)

/-- One round of the recursive query: the folders whose parent was found, as far as they are new. -/
def growDescendants (db : Db Text) (found : List String) : List String :=
  found ++ db.folders.keys.filter fun id => id ∉ found && (parentOf db id).any (· ∈ found)

/-- `WITH RECURSIVE descendants`: rounds until nothing is new; there is at most one per folder. -/
def descendants (db : Db Text) (id : String) : List String :=
  (growDescendants db)^[db.folders.rows.length] (if (db.folders.get id).isSome then [id] else [])

def deleteRecursive (db : Db Text) (id : String) : Db Text × Nat :=
  (dropFolders db (· ∈ descendants db id), (descendants db id).length)

/-! ## Moving -/

/-- The hop cap of `is_descendant_of`. -/
def maxHops : Nat := 65536

/-- The loop of `is_descendant_of` with the hops left. -/
def isDescendantOf (db : Db Text) (ancestor : String) : Nat → Option String → Except String Bool
  | _, none => .ok false
  | 0, some _ =>
    .error ("io: folders is_descendant_of: traversal hop cap exceeded — " ++
      "likely a pre-existing cycle in the parent_id chain")
  | hops + 1, some id =>
    if id = ancestor then .ok true else isDescendantOf db ancestor hops (parentOf db id)

/-- The `UPDATE` of `update_name_parent`. -/
def setNameParent (db : Db Text) (id name : String) (parentId : Option String) : Except String (Db Text × Nat) :=
  match db.folders.get id with
  | none => .ok (db, 0)
  | some row =>
    if parentId.all fun f => (db.folders.get f).isSome then
      .ok ({ db with folders := db.folders.set id { row with name := name, parentId := parentId } }, 1)
    else .error (dbError "folders update_name_parent" fkFailed)

def updateNameParent (db : Db Text) (id name : String) (parentId : Option String) : Except String (Db Text × Nat) :=
  match parentId with
  | none => setNameParent db id name none
  | some target =>
    if target = id then
      .error (dbError "folders update_name_parent" ("cycle — parent_id == id (" ++ id ++ ")"))
    else
      match isDescendantOf db id maxHops (some target) with
      | .error e => .error e
      | .ok true =>
        .error (dbError "folders update_name_parent"
          ("cycle — refused to move " ++ id ++ " under its own descendant " ++ target))
      | .ok false => setNameParent db id name (some target)

/-- The part of `rename_path_cascade` after the folder was found; nothing is kept of a failure. -/
def moveTo (mint : List String → String) (db : Db Text) (id newPath : String) (nowMs : Int64) :
    Except String (Db Text × Nat) :=
  match (segments newPath).getLast? with
  | none => .error (dbError "folders rename_path_cascade" ("empty new_path after split: " ++ newPath))
  | some newName =>
    match ensureFolderPath mint db (joinPath (segments newPath).dropLast) nowMs with
    | (_, .error e) => .error e
    | (db', .ok newParentId) => updateNameParent db' id newName newParentId

def renamePathCascade (mint : List String → String) (db : Db Text) (oldPath newPath : String) (nowMs : Int64) :
    Except String (Db Text × Nat) :=
  if oldPath = "" ∨ newPath = "" ∨ oldPath = newPath then .ok (db, 0)
  else if startsUnder oldPath newPath then
    .error (dbError "folders rename_path_cascade"
      ("refused to move " ++ oldPath ++ " under its own descendant " ++ newPath))
  else
    match findFolderIdByPath oldPath db with
    | none => .ok (db, 0)
    | some id => moveTo mint db id newPath nowMs

/-! ## Programs -/

inductive Op
  | ensureFolderPath (path : String) (nowMs : Int64)
  | updateNameParent (id name : String) (parentId : Option String)
  | renamePathCascade (oldPath newPath : String) (nowMs : Int64)
  | delete (id : String)
  | deleteRecursive (id : String)
  | upsert (id : String) (row : FolderRow)

def kept (db : Db Text) : Except String (Db Text × Nat) → Db Text
  | .error _ => db
  | .ok (db', _) => db'

def perform (mint : List String → String) (db : Db Text) : Op → Db Text
  | .ensureFolderPath path nowMs => (ensureFolderPath mint db path nowMs).1
  | .updateNameParent id name parentId => kept db (updateNameParent db id name parentId)
  | .renamePathCascade oldPath newPath nowMs => kept db (renamePathCascade mint db oldPath newPath nowMs)
  | .delete id => (delete db id).1
  | .deleteRecursive id => (deleteRecursive db id).1
  | .upsert id row =>
    match upsert db id row with
    | .error _ => db
    | .ok db' => db'

def step (mint : List String → String) (db : Db Text) (op : Op) : Option (Db Text) := some (perform mint db op)

/-! ## Parents -/

def ParentsOk (db : Db Text) : Prop :=
  ∀ id row, db.folders.get id = some row → ∀ f, row.parentId = some f → (db.folders.get f).isSome

variable {db db' : Db Text} {id f : String} {row : FolderRow} {n : Nat} {mint : List String → String} {nowMs : Int64}

theorem parentOf_eq_some (h : parentOf db id = some f) : ∃ row, db.folders.get id = some row ∧ row.parentId = some f :=
  bind_eq_some_iff.mp h

theorem ParentsOk.under_isSome (h : ParentsOk db) (hf : (db.folders.get f).isSome)
    (hunder : Under (parentOf db) f id) : (db.folders.get id).isSome := by
  induction hunder using Relation.ReflTransGen.head_induction_on with
  | refl => exact hf
  | head hup _ ih =>
    obtain ⟨row, hrow, hparent⟩ := parentOf_eq_some hup
    exact ih (h _ row hrow _ hparent)

theorem parentOf_set (db : Db Text) (id : String) (row : FolderRow) :
    parentOf { db with folders := db.folders.set id row } = update (parentOf db) id row.parentId := by
  funext a
  unfold parentOf
  rw [update_apply, Table.get_set]
  split_ifs with h
  · rfl
  · rfl

theorem ParentsOk.set (h : ParentsOk db) (hrow : ∀ f, row.parentId = some f → f = id ∨ (db.folders.get f).isSome) :
    ParentsOk { db with folders := db.folders.set id row } := by
  have hmono : ∀ f, f = id ∨ (db.folders.get f).isSome → ((db.folders.set id row).get f).isSome := by
    intro f hf
    rw [Table.get_set]
    split_ifs with hid
    · rfl
    · exact hf.resolve_left hid
  intro a r hr f hf
  apply hmono
  rw [Table.get_set] at hr
  split_ifs at hr with ha
  · cases hr
    exact hrow f hf
  · exact .inr (h a r hr f hf)

theorem updateNameParent_ok {name : String} {parentId : Option String}
    (h : updateNameParent db id name parentId = .ok (db', n)) :
    (db.folders.get id = none ∧ db' = db ∧ n = 0) ∨
    (∃ row, db.folders.get id = some row ∧ n = 1 ∧
      (∀ f, parentId = some f → (db.folders.get f).isSome ∧ isDescendantOf db id maxHops (some f) = .ok false) ∧
      db' = { db with folders := db.folders.set id { row with name := name, parentId := parentId } }) := by
  have hset : ∀ p, setNameParent db id name p = .ok (db', n) → (db.folders.get id = none ∧ db' = db ∧ n = 0) ∨
      (∃ row, db.folders.get id = some row ∧ n = 1 ∧ (∀ f, p = some f → (db.folders.get f).isSome) ∧
        db' = { db with folders := db.folders.set id { row with name := name, parentId := p } }) := by
    intro p hp
    unfold setNameParent at hp
    rcases hrow : db.folders.get id with _ | row
    · rw [hrow] at hp
      cases hp
      exact .inl ⟨rfl, rfl, rfl⟩
    · rw [hrow] at hp
      split_ifs at hp with hok
      cases hp
      refine .inr ⟨row, rfl, rfl, fun f hf => ?_, rfl⟩
      rw [hf, all_some] at hok
      exact hok
  rcases parentId with _ | target
  · rcases hset none h with hnone | ⟨row, hrow, hn, -, hdb⟩
    · exact .inl hnone
    · exact .inr ⟨row, hrow, hn, by rintro f ⟨⟩, hdb⟩
  unfold updateNameParent at h
  dsimp only at h
  split_ifs at h with hself
  rcases hdesc : isDescendantOf db id maxHops (some target) with e | b
  · rw [hdesc] at h
    cases h
  rw [hdesc] at h
  rcases b with _ | _
  · rcases hset (some target) h with hnone | ⟨row, hrow, hn, hsome, hdb⟩
    · exact .inl hnone
    · refine .inr ⟨row, hrow, hn, ?_, hdb⟩
      rintro _ ⟨⟩
      exact ⟨hsome target rfl, hdesc⟩
  · cases h

theorem renamePathCascade_ok {oldPath newPath : String}
    (h : renamePathCascade mint db oldPath newPath nowMs = .ok (db', n)) :
    (db' = db ∧ n = 0 ∧ (oldPath = "" ∨ newPath = "" ∨ oldPath = newPath ∨ findFolderIdByPath oldPath db = none)) ∨
    (∃ id name db₁ parentId, oldPath ≠ "" ∧ findFolderIdByPath oldPath db = some id ∧
      (segments newPath).getLast? = some name ∧
      ensureFolderPath mint db (joinPath (segments newPath).dropLast) nowMs = (db₁, .ok parentId) ∧
      updateNameParent db₁ id name parentId = .ok (db', n)) := by
  unfold renamePathCascade at h
  split_ifs at h with hsame hunder
  · cases h
    refine .inl ⟨rfl, rfl, ?_⟩
    rcases hsame with h | h | h
    · exact .inl h
    · exact .inr (.inl h)
    · exact .inr (.inr (.inl h))
  · rcases hfind : findFolderIdByPath oldPath db with _ | id
    · rw [hfind] at h
      cases h
      exact .inl ⟨rfl, rfl, .inr (.inr (.inr rfl))⟩
    rw [hfind] at h
    dsimp only [moveTo] at h
    rcases hlast : (segments newPath).getLast? with _ | name
    · rw [hlast] at h
      cases h
    · rw [hlast] at h
      rcases hens : ensureFolderPath mint db (joinPath (segments newPath).dropLast) nowMs with ⟨db₁, e | p⟩
      · rw [hens] at h
        cases h
      · rw [hens] at h
        refine .inr ⟨id, name, db₁, p, fun hold => hsame (.inl hold), rfl, rfl, rfl, h⟩

theorem not_under_of_isDescendantOf {ancestor : String} {hops : Nat}
    (h : isDescendantOf db ancestor hops (some id) = .ok false) : ¬ Under (parentOf db) id ancestor := by
  induction hops generalizing id with
  | zero => cases h
  | succ hops ih =>
    unfold isDescendantOf at h
    split_ifs at h with hself
    · cases h
    intro hunder
    rcases hunder.cases with rfl | ⟨f, hup, hrest⟩
    · exact hself rfl
    · rw [hup] at h
      exact ih h hrest

/-! ## What every operation keeps -/

def NameFree (db : Db Text) (row : FolderRow) : Prop :=
  ∀ a r, db.folders.get a = some r → r.parentId = row.parentId → r.name ≠ row.name

theorem nameFree_of_byParent {rows : List (String × FolderRow)} {parent : Option String}
    {seg : String} (hrows : ∀ a r, db.folders.get a = some r → (a, r) ∈ rows) (h : byParent rows parent seg = none)
    (nowMs : Int64) : NameFree db ⟨seg, parent, 0, false, nowMs⟩ := by
  intro a r hr hparent hname
  rw [byParent, map_eq_none_iff, find?_eq_none] at h
  exact h (a, r) (mem_reverse.mpr (hrows a r hr)) (decide_eq_true ⟨hparent, hname⟩)

theorem ensureFolderPath_invariant (hmint : ∀ used, mint used ∉ used) {I : Db Text → Prop} {path : String}
    (hI : ∀ (db : Db Text) (row : FolderRow), I db → db.folders.get (mint db.folders.keys) = none →
      (∀ f, row.parentId = some f → (db.folders.get f).isSome) → NameFree db row → row.name ∈ segments path →
      I { db with folders := db.folders.set (mint db.folders.keys) row })
    {db : Db Text} (h : I db) : I (ensureFolderPath mint db path nowMs).1 := by
  have hloop : ∀ (listed : List (String × FolderRow)) (segs : List String) (db : Db Text)
      (made : List (String × FolderRow)) (parent : Option String), (∀ s ∈ segs, s ∈ segments path) → I db →
      (∀ a r, (a, r) ∈ listed ++ made ↔ db.folders.get a = some r) →
      (∀ f, parent = some f → (db.folders.get f).isSome) →
      I (ensureSegments mint listed nowMs db made parent segs).1 := by
    intro listed segs
    induction segs with
    | nil =>
      intro db made parent _ h _ _
      exact h
    | cons seg segs ih =>
      intro db made parent hsegs h hrows hparent
      have hrest : ∀ s ∈ segs, s ∈ segments path := fun s hs => hsegs s (mem_cons_of_mem seg hs)
      unfold ensureSegments
      rcases hby : byParent (listed ++ made) parent seg with _ | id
      · dsimp only
        obtain ⟨db₁, hup, hgrow, hget⟩ :=
          upsert_fresh db ⟨seg, parent, 0, false, nowMs⟩ (hmint db.folders.keys) hparent
        have hfresh : db.folders.get (mint db.folders.keys) = none := by
          rw [← not_isSome_iff_eq_none, ← Table.mem_keys_iff]
          exact hmint _
        have hfree := nameFree_of_byParent (fun a r => (hrows a r).mpr) hby nowMs
        have hI₁ := hI db _ h hfresh hparent hfree (hsegs seg mem_cons_self)
        have hdb := (upsert_ok hup).2
        rw [hup]
        refine ih db₁ _ _ hrest (hdb ▸ hI₁) (fun a r => ?_) ?_
        · rw [← append_assoc, mem_append, mem_singleton, hrows, hdb, Table.get_set, Prod.mk.injEq]
          split_ifs with ha
          · rw [ha, hfresh]
            simp [eq_comm]
          · simp [ha]
        · rintro _ ⟨⟩
          rw [hget]
          rfl
      · obtain ⟨row, hmem, -, -⟩ := byParent_mem hby
        refine ih db made (some id) hrest h hrows ?_
        rintro _ ⟨⟩
        rw [(hrows _ _).mp hmem]
        rfl
  unfold ensureFolderPath
  split_ifs
  · exact h
  · refine hloop _ _ _ _ _ (fun _ hs => hs) h (fun a r => ?_) (by rintro _ ⟨⟩)
    rw [append_nil, listAll, mem_mergeSort]
    exact db.folders.mem_rows_iff a r

theorem get_dropFolders {gone : String → Bool} (h : (dropFolders db gone).folders.get id = some row) :
    gone id = false ∧ ∃ old, db.folders.get id = some old ∧
      row = { old with parentId := old.parentId.filter (!gone ·) } := by
  unfold dropFolders at h
  rw [Table.get_map, Table.get_dropKeys] at h
  split_ifs at h with hgone
  · cases h
  · obtain ⟨old, hold, rfl⟩ := map_eq_some_iff.mp h
    exact ⟨by simpa using hgone, old, hold, rfl⟩

theorem ParentsOk.dropFolders (h : ParentsOk db) (gone : String → Bool) : ParentsOk (dropFolders db gone) := by
  intro id row hrow f hf
  obtain ⟨-, old, hold, rfl⟩ := get_dropFolders hrow
  obtain ⟨hparent, hkept⟩ := filter_eq_some_iff.mp hf
  have hsome := h id old hold f hparent
  unfold Folders.dropFolders
  rw [Table.get_map, Table.get_dropKeys, if_neg (by simpa using hkept), isSome_map]
  exact hsome

theorem rooted_dropFolders (h : Rooted (parentOf db)) (gone : String → Bool) : Rooted (parentOf (dropFolders db gone)) := by
  refine h.sub fun a b hab => ?_
  obtain ⟨row, hrow, hb⟩ := parentOf_eq_some hab
  obtain ⟨-, old, hold, rfl⟩ := get_dropFolders hrow
  rw [parentOf, hold]
  exact (filter_eq_some_iff.mp hb).1

/-- The parent pointers lead to folders and to roots. -/
structure Sound (db : Db Text) : Prop where
  parents : ParentsOk db
  rooted : Rooted (parentOf db)

theorem sound_empty : Sound (Db.empty : Db Text) := by
  refine ⟨fun id row hrow => ?_, ⟨fun id => Acc.intro id fun f hup => ?_⟩⟩
  · cases hrow
  · cases hup

theorem Sound.dropFolders (h : Sound db) (gone : String → Bool) : Sound (dropFolders db gone) :=
  ⟨h.parents.dropFolders gone, rooted_dropFolders h.rooted gone⟩

theorem Sound.set (h : Sound db)
    (hrow : ∀ f, row.parentId = some f → (db.folders.get f).isSome ∧ ¬ Under (parentOf db) f id) :
    Sound { db with folders := db.folders.set id row } := by
  refine ⟨h.parents.set fun f hf => .inr (hrow f hf).1, ?_⟩
  rw [parentOf_set]
  exact h.rooted.update fun f hf => (hrow f hf).2

theorem Sound.ensureFolderPath (hmint : ∀ used, mint used ∉ used)
    (h : Sound db) (path : String) (nowMs : Int64) : Sound (ensureFolderPath mint db path nowMs).1 := by
  refine ensureFolderPath_invariant hmint (I := Sound) ?_ h
  intro db row hsound hnew hparent _ _
  refine hsound.set fun f hf => ⟨hparent f hf, fun hunder => ?_⟩
  have hsome := hsound.parents.under_isSome (hparent f hf) hunder
  rw [hnew] at hsome
  cases hsome

theorem Sound.updateNameParent (h : Sound db) {name : String} {parentId : Option String}
    (hok : updateNameParent db id name parentId = .ok (db', n)) : Sound db' := by
  rcases updateNameParent_ok hok with ⟨-, rfl, -⟩ | ⟨row, -, -, hparent, rfl⟩
  · exact h
  · exact h.set fun f hf => ⟨(hparent f hf).1, not_under_of_isDescendantOf (hparent f hf).2⟩

theorem Sound.renamePathCascade (hmint : ∀ used, mint used ∉ used) (h : Sound db) {oldPath newPath : String}
    (hok : renamePathCascade mint db oldPath newPath nowMs = .ok (db', n)) : Sound db' := by
  rcases renamePathCascade_ok hok with ⟨rfl, -⟩ | ⟨id, name, db₁, p, -, -, -, hens, hup⟩
  · exact h
  · have hens₁ := h.ensureFolderPath hmint (joinPath (segments newPath).dropLast) nowMs
    rw [hens] at hens₁
    exact hens₁.updateNameParent hup

/-! ## Forests -/

/-- No folder is its own proper ancestor, and the walk up from every folder ends at a root. -/
structure IsForest (db : Db Text) : Prop where
  acyclic : Acyclic (parentOf db)
  rooted : ∀ id, (db.folders.get id).isSome → ∃ names, Chain db (some id) names

theorem Sound.chain (h : Sound db) (hid : (db.folders.get id).isSome) : ∃ names, Chain db (some id) names := by
  induction id using h.rooted.induction with
  | h id ih =>
    obtain ⟨row, hrow⟩ := isSome_iff_exists.mp hid
    rcases hparent : row.parentId with _ | f
    · exact ⟨[] ++ [row.name], .child hrow (hparent ▸ .root)⟩
    · have hup : parentOf db id = some f := by
        rw [parentOf, hrow]
        exact hparent
      obtain ⟨names, hc⟩ := ih f hup (h.parents id row hrow f hparent)
      exact ⟨names ++ [row.name], .child hrow (hparent ▸ hc)⟩

theorem Sound.isForest (h : Sound db) : IsForest db := ⟨h.rooted.acyclic, fun _ => h.chain⟩

theorem Chain.acc {x : Option String} {names : List String} (hc : Chain db x names)
    (hx : x = some id) : Acc (fun b a => Up (parentOf db) a b) id := by
  induction hc generalizing id with
  | root => cases hx
  | @child id' row names hrow _ ih =>
    obtain rfl := Option.some.inj hx
    refine Acc.intro _ fun f hup => ih ?_
    rw [Up, parentOf, hrow] at hup
    exact hup

theorem IsForest.sound (h : IsForest db) (hparents : ParentsOk db) : Sound db := by
  refine ⟨hparents, ⟨fun id => ?_⟩⟩
  rcases hrow : db.folders.get id with _ | row
  · refine Acc.intro id fun f hup => ?_
    rw [Up, parentOf, hrow] at hup
    cases hup
  · obtain ⟨names, hc⟩ := h.rooted id (by rw [hrow]; rfl)
    exact hc.acc rfl

/-- An `upsert` hangs the folder under one that is not the folder itself nor below it. -/
def NoLoop (db : Db Text) : Op → Prop
  | .upsert id row => ∀ f, row.parentId = some f → ¬ Under (parentOf db) f id
  | _ => True

theorem parentsOk_perform (hmint : ∀ used, mint used ∉ used)
    (h : ParentsOk db) (op : Op) : ParentsOk (perform mint db op) := by
  have hupdate : ∀ {db : Db Text} {id name parentId db' n}, ParentsOk db →
      updateNameParent db id name parentId = .ok (db', n) → ParentsOk db' := by
    intro db id name parentId db' n h hok
    rcases updateNameParent_ok hok with ⟨-, rfl, -⟩ | ⟨row, -, -, hparent, rfl⟩
    · exact h
    · exact h.set fun f hf => .inr (hparent f hf).1
  have hensure : ∀ path nowMs, ParentsOk (ensureFolderPath mint db path nowMs).1 := by
    refine fun path nowMs => ensureFolderPath_invariant hmint (I := ParentsOk) ?_ h
    exact fun db row hdb _ hparent _ _ => hdb.set fun f hf => .inr (hparent f hf)
  cases op with
  | ensureFolderPath path nowMs => exact hensure path nowMs
  | updateNameParent id name parentId =>
    show ParentsOk (kept db (updateNameParent db id name parentId))
    rcases hok : updateNameParent db id name parentId with e | ⟨db', n⟩
    · exact h
    · exact hupdate h hok
  | renamePathCascade oldPath newPath nowMs =>
    show ParentsOk (kept db (renamePathCascade mint db oldPath newPath nowMs))
    rcases hok : renamePathCascade mint db oldPath newPath nowMs with e | ⟨db', n⟩
    · exact h
    · rcases renamePathCascade_ok hok with ⟨rfl, -⟩ | ⟨id, name, db₁, p, -, -, -, hens, hup⟩
      · exact h
      · have hens₁ := hensure (joinPath (segments newPath).dropLast) nowMs
        rw [hens] at hens₁
        exact hupdate hens₁ hup
  | delete id => exact h.dropFolders _
  | deleteRecursive id => exact h.dropFolders _
  | upsert id row =>
    dsimp only [perform]
    rcases hok : upsert db id row with e | db'
    · exact h
    · obtain ⟨hrow, rfl⟩ := upsert_ok hok
      exact h.set hrow

theorem sound_perform_iff (hmint : ∀ used, mint used ∉ used)
    (h : Sound db) (op : Op) : Sound (perform mint db op) ↔ NoLoop db op := by
  cases op with
  | ensureFolderPath path nowMs => exact iff_of_true (h.ensureFolderPath hmint path nowMs) trivial
  | updateNameParent id name parentId =>
    refine iff_of_true ?_ trivial
    show Sound (kept db (updateNameParent db id name parentId))
    rcases hok : updateNameParent db id name parentId with e | ⟨db', n⟩
    · exact h
    · exact h.updateNameParent hok
  | renamePathCascade oldPath newPath nowMs =>
    refine iff_of_true ?_ trivial
    show Sound (kept db (renamePathCascade mint db oldPath newPath nowMs))
    rcases hok : renamePathCascade mint db oldPath newPath nowMs with e | ⟨db', n⟩
    · exact h
    · exact h.renamePathCascade hmint hok
  | delete id => exact iff_of_true (h.dropFolders _) trivial
  | deleteRecursive id => exact iff_of_true (h.dropFolders _) trivial
  | upsert id row =>
    dsimp only [perform, NoLoop]
    rcases hok : upsert db id row with e | db'
    · -- A refused parent is no folder, so nothing is below it.
      refine iff_of_true h fun f hf hunder => ?_
      have hno : ¬ (f = id ∨ (db.folders.get f).isSome) := by
        intro hyes
        rw [upsert, if_pos] at hok
        · cases hok
        · rw [hf, all_some, Bool.or_eq_true, decide_eq_true_eq]
          exact hyes
      rcases hunder.cases with hself | ⟨g, hup, -⟩
      · exact hno (.inl hself)
      · obtain ⟨frow, hfrow, -⟩ := parentOf_eq_some hup
        exact hno (.inr (by rw [hfrow]; rfl))
    · obtain ⟨hrow, rfl⟩ := upsert_ok hok
      have hiff : Sound { db with folders := db.folders.set id row } ↔ Rooted (update (parentOf db) id row.parentId) := by
        rw [← parentOf_set]
        exact ⟨Sound.rooted, fun hr => ⟨h.parents.set hrow, hr⟩⟩
      rw [hiff, rooted_update_iff h.rooted]

/-- **Folder programs.** From an empty database the folders are a forest after every operation exactly
when no `upsert` hangs a folder under itself or under a folder below it. -/
theorem forest_iff_upserts (mint : List String → String) (hmint : ∀ used, mint used ∉ used) (ops : List Op) :
    (∀ pre, pre <+: ops → ∀ u : Db Text, run (step mint) Db.empty pre = some u → IsForest u) ↔
      Along (step mint) NoLoop (Db.empty : Db Text) ops := by
  have hrun : ∀ (ops : List Op) (db : Db Text), ∃ t, run (step mint) db ops = some t := by
    intro ops
    induction ops with
    | nil => exact fun db => ⟨db, rfl⟩
    | cons op ops ih => exact fun db => ih (perform mint db op)
  obtain ⟨t, ht⟩ := hrun ops Db.empty
  refine run_invariant_iff (J := ParentsOk) ?_ ?_ sound_empty.parents sound_empty.isForest ht
  · rintro db op _ hparents ⟨⟩
    exact parentsOk_perform hmint hparents op
  · rintro db op _ hparents hforest ⟨⟩
    rw [← sound_perform_iff hmint (hforest.sound hparents) op]
    exact ⟨fun h => h.sound (parentsOk_perform hmint hparents op), Sound.isForest⟩

/-- A folder, a subfolder, a move of the folder under its own subfolder that is refused, and a delete. -/
def sampleOps : List Op :=
  [.ensureFolderPath "infra" 5, .upsert "b" ⟨"prod", some "f", 0, false, 7⟩, .updateNameParent "f" "infra" (some "b"),
    .delete "f"]

theorem forest_iff_upserts_sample : Along (step longerId) NoLoop (Db.empty : Db Unit) sampleOps ∧
      ∀ pre, pre <+: sampleOps → ∀ u : Db Unit, run (step longerId) Db.empty pre = some u → IsForest u := by
  have hnoLoop : Along (step longerId) NoLoop (Db.empty : Db Unit) sampleOps := by
    refine ⟨trivial, ?_⟩
    rintro _ ⟨⟩
    refine ⟨?_, ?_⟩
    · rintro _ ⟨⟩ hunder
      rcases hunder.cases with hself | ⟨g, hup, -⟩
      · exact absurd hself (by decide)
      · have hroot : parentOf (perform longerId (Db.empty : Db Unit) (.ensureFolderPath "infra" 5)) "f" = none := by
          decide +kernel
        rw [hroot] at hup
        cases hup
    · rintro _ ⟨⟩
      refine ⟨trivial, ?_⟩
      rintro _ ⟨⟩
      refine ⟨trivial, ?_⟩
      rintro _ ⟨⟩
      trivial
  exact ⟨hnoLoop, (forest_iff_upserts longerId longerId_fresh sampleOps).mpr hnoLoop⟩

/-- The parent an `upsert` names exists. -/
def ParentExists (db : Db Text) : Op → Prop
  | .upsert _ row => ∀ f, row.parentId = some f → (db.folders.get f).isSome
  | _ => True

/-- A folder, a subfolder, and the folder again, now under its subfolder. -/
def loopOps : List Op :=
  [.upsert "a" ⟨"infra", none, 0, false, 5⟩, .upsert "b" ⟨"prod", some "a", 0, false, 6⟩,
    .upsert "a" ⟨"infra", some "b", 0, false, 5⟩]

/-- Every parent exists when it is named, and in the end two folders are below each other. -/
theorem upsert_hangs_under_itself : Along (step longerId) ParentExists (Db.empty : Db Unit) loopOps ∧
      ∃ u : Db Unit, run (step longerId) Db.empty loopOps = some u ∧ ¬ IsForest u := by
  constructor
  · refine ⟨by rintro _ ⟨⟩, ?_⟩
    rintro _ ⟨⟩
    refine ⟨by rintro _ ⟨⟩; rfl, ?_⟩
    rintro _ ⟨⟩
    refine ⟨by rintro _ ⟨⟩; rfl, ?_⟩
    rintro _ ⟨⟩
    trivial
  · refine ⟨loopOps.foldl (perform longerId) Db.empty, rfl, fun h => ?_⟩
    have hab : parentOf (loopOps.foldl (perform longerId) (Db.empty : Db Unit)) "a" = some "b" := by decide +kernel
    have hba : parentOf (loopOps.foldl (perform longerId) (Db.empty : Db Unit)) "b" = some "a" := by decide +kernel
    exact h.acyclic "a" (.tail (.single hab) hba)

end LetsFlutSsh.Folders
