import LetsFlutSsh.Lib.Grouping
import LetsFlutSsh.Lib.SlashPath

/-!
# The tree of the session manager

`session_tree.rs`: a forest of folders from a list of sessions and a list of empty folders.

* `build` : the code, over the function that lowers letters;
* `grouped` : the inputs, grouped by the first parts of their paths.
-/

namespace LetsFlutSsh.Sessions
open Lib

structure TreeSession where
  id : String
  label : String
  folder : String
  displayName : String
deriving DecidableEq

structure TreeNode where
  name : String
  fullPath : String
  /-- None for a folder. -/
  sessionId : Option String
  sessionCount : UInt32
  children : List TreeNode

/-- `current_path`, one part further. -/
def extendPath (currentPath part : String) : String := (if currentPath = "" then currentPath else currentPath ++ "/") ++ part

/-- The missing folders along the parts of a path, with what the caller does to the list it gets. -/
def ensureFolderPath (use : List TreeNode → List TreeNode) : String → List String → List TreeNode → List TreeNode
  | _, [], current => use current
  | currentPath, part :: parts, current =>
    match current.findIdx? fun n => n.sessionId.isNone && n.name == part with
    | some i =>
      current.modify i fun n => { n with children := ensureFolderPath use (extendPath currentPath part) parts n.children }
    | none =>
      current ++ [⟨part, extendPath currentPath part, none, 0, ensureFolderPath use (extendPath currentPath part) parts []⟩]

def leafNode (session : TreeSession) : TreeNode where
  name := if session.label = "" then session.displayName else session.label
  fullPath := if session.folder = "" then session.label else session.folder ++ "/" ++ session.label
  sessionId := some session.id
  sessionCount := 0
  children := []

def insertSession (root : List TreeNode) (session : TreeSession) : List TreeNode :=
  if session.folder = "" then root ++ [leafNode session]
  else ensureFolderPath (· ++ [leafNode session]) "" (splitPath session.folder) root

mutual

def countSessions : TreeNode → UInt32
  | ⟨_, _, some _, _, _⟩ => 1
  | ⟨_, _, none, _, children⟩ => countAll children

/-- `sum`, which wraps. -/
def countAll : List TreeNode → UInt32
  | [] => 0
  | n :: ns => countSessions n + countAll ns

end

/-- The comparison of `sort_by`. -/
def nodeOrder (toLowercase : String → String) (a b : TreeNode) : Ordering :=
  match a.sessionId.isNone, b.sessionId.isNone with
  | true, false => .lt
  | false, true => .gt
  | _, _ => compare (toLowercase a.name) (toLowercase b.name)

theorem sizeOf_children {n : TreeNode} {nodes : List TreeNode} (h : n ∈ nodes) : sizeOf n.children < sizeOf nodes := by
  have hnode : sizeOf n.children < sizeOf n := by
    cases n
    simp only [TreeNode.mk.sizeOf_spec]
    omega
  exact hnode.trans (List.sizeOf_lt_of_mem h)

def sortTree (toLowercase : String → String) (nodes : List TreeNode) : List TreeNode :=
  (nodes.mergeSort fun a b => (nodeOrder toLowercase a b).isLE).attach.map fun ⟨node, h⟩ =>
    have := sizeOf_children (List.mem_mergeSort.1 h)
    if node.sessionId.isNone then
      let children := sortTree toLowercase node.children
      { node with children, sessionCount := countSessions { node with children } }
    else node
termination_by sizeOf nodes

def build (toLowercase : String → String) (sessions : List TreeSession) (emptyFolders : List String) : List TreeNode :=
  let root := emptyFolders.foldl (fun root folderPath => ensureFolderPath id "" (splitPath folderPath) root) []
  let root := sessions.foldl insertSession root
  sortTree toLowercase root

def sortNode (toLowercase : String → String) (node : TreeNode) : TreeNode :=
  if node.sessionId.isNone then
    { node with
      children := sortTree toLowercase node.children
      sessionCount := countAll (sortTree toLowercase node.children) }
  else node

theorem sortTree_eq (toLowercase : String → String) (nodes : List TreeNode) : sortTree toLowercase nodes =
    (nodes.mergeSort fun a b => (nodeOrder toLowercase a b).isLE).map (sortNode toLowercase) := by
  have hcount : ∀ (node : TreeNode) (children : List TreeNode), node.sessionId.isNone = true →
      countSessions { node with children } = countAll children := by
    rintro ⟨_, _, _ | id, _, _⟩ children h
    · rw [countSessions]
    · cases h
  rw [sortTree, List.map_attach_eq_pmap]
  refine (List.pmap_congr_left _ fun node _ _ _ => ?_).trans (List.pmap_eq_map fun _ h => h)
  unfold sortNode
  dsimp only
  split_ifs with hfolder
  · rw [hcount node _ hfolder]
  · rfl

def pathText (parts : List String) : String := parts.foldl extendPath ""

theorem pathText_concat (parts : List String) (part : String) :
    pathText (parts ++ [part]) = extendPath (pathText parts) part := by
  unfold pathText
  rw [List.foldl_append]
  rfl

def addLeaf (leaf : Option TreeSession) (nodes : List TreeNode) : List TreeNode :=
  match leaf with
  | some s => nodes ++ [leafNode s]
  | none => nodes

def nodeOf (sub : String → List TreeNode) (parts : List String) : Slot String TreeSession → TreeNode
  | .leaf s => leafNode s
  | .branch part => ⟨part, pathText (parts ++ [part]), none, 0, sub part⟩

def grouped : Nat → List String → List (Item String TreeSession) → List TreeNode
  | 0, parts, items => (slots items).map (nodeOf (fun _ => []) parts)
  | depth + 1, parts, items =>
    (slots items).map (nodeOf (fun part => grouped depth (parts ++ [part]) (under part items)) parts)

def itemsOf (sessions : List TreeSession) (emptyFolders : List String) : List (Item String TreeSession) :=
  emptyFolders.map (fun folderPath => (splitPath folderPath, none)) ++
    sessions.map fun s => (if s.folder = "" then [] else splitPath s.folder, some s)

variable {items : List (Item String TreeSession)} {parts : List String}
variable (depth : Nat)

theorem grouped_succ (parts : List String) (items : List (Item String TreeSession)) :
    grouped (depth + 1) parts items =
      (slots items).map (nodeOf (fun part => grouped depth (parts ++ [part]) (under part items)) parts) := rfl

theorem grouped_nil (parts : List String) : grouped depth parts [] = [] := by
  cases depth <;> rfl

theorem isFolder_nodeOf (sub : String → List TreeNode) (part : String) (slot : Slot String TreeSession) :
    ((nodeOf sub parts slot).sessionId.isNone && (nodeOf sub parts slot).name == part) = decide (slot = .branch part) := by
  cases slot with
  | leaf s => rfl
  | branch part' =>
    show (part' == part) = _
    simp [beq_eq_decide]

variable {sub : String → List TreeNode} {part : String}

theorem findIdx_branch {front back : List (Slot String TreeSession)}
    (h : .branch part ∉ front) :
    ((front ++ .branch part :: back).map (nodeOf sub parts)).findIdx? (fun n => n.sessionId.isNone && n.name == part) =
      some front.length := by
  induction front with
  | nil => rw [List.nil_append, List.map_cons, List.findIdx?_cons, isFolder_nodeOf, if_pos (decide_eq_true rfl), List.length_nil]
  | cons slot front ih =>
    obtain ⟨hslot, hfront⟩ := not_or.1 (mt List.mem_cons.2 h)
    rw [List.cons_append, List.map_cons, List.findIdx?_cons, isFolder_nodeOf, if_neg (by simpa using Ne.symm hslot), ih hfront]
    rfl

theorem findIdx_none {slots : List (Slot String TreeSession)}
    (h : .branch part ∉ slots) :
    (slots.map (nodeOf sub parts)).findIdx? (fun n => n.sessionId.isNone && n.name == part) = none := by
  rw [List.findIdx?_eq_none_iff]
  intro n hn
  obtain ⟨slot, hslot, rfl⟩ := List.mem_map.1 hn
  rw [isFolder_nodeOf]
  exact decide_eq_false fun heq => h (heq ▸ hslot)

theorem map_nodeOf_congr {sub' : String → List TreeNode} {slots : List (Slot String TreeSession)}
    (hsub : ∀ part' ≠ part, sub part' = sub' part') (h : .branch part ∉ slots) :
    slots.map (nodeOf sub parts) = slots.map (nodeOf sub' parts) := by
  refine List.map_congr_left fun slot hslot => ?_
  cases slot with
  | leaf s => rfl
  | branch part' =>
    have hne : part' ≠ part := by
      rintro rfl
      exact h hslot
    unfold nodeOf
    dsimp only
    rw [hsub part' hne]

theorem modify_at {α : Type} (f : α → α) (front : List α) (x : α) (back : List α) :
    (front ++ x :: back).modify front.length f = front ++ f x :: back := by
  induction front with
  | nil => rfl
  | cons y front ih => exact congrArg (y :: ·) ih

theorem ensureFolderPath_grouped (parts : List String) (items : List (Item String TreeSession))
    (path : List String) (leaf : Option TreeSession) (h : path.length ≤ depth) :
    ensureFolderPath (addLeaf leaf) (pathText parts) path (grouped depth parts items) =
      grouped depth parts (items ++ [(path, leaf)]) := by
  induction depth generalizing parts items path with
  | zero =>
    have hnil : path = [] := List.length_eq_zero_iff.1 (Nat.le_zero.1 h)
    subst hnil
    rw [ensureFolderPath, grouped, grouped, slots_concat]
    cases leaf with
    | none => rfl
    | some s =>
      show _ ++ [leafNode s] = List.map _ (slots items ++ [.leaf s])
      rw [List.map_append]
      rfl
  | succ depth ih =>
    rcases path with _ | ⟨part, path⟩
    · have hunder : ∀ part, under part (items ++ [([], leaf)]) = under part items := fun part =>
        (under_concat part items _).trans (List.append_nil _)
      rw [ensureFolderPath, grouped_succ, grouped_succ, slots_concat]
      simp only [hunder]
      cases leaf with
      | none => rfl
      | some s =>
        show _ ++ [leafNode s] = List.map _ (slots items ++ [.leaf s])
        rw [List.map_append]
        rfl
    · have hself : under part (items ++ [(part :: path, leaf)]) = under part items ++ [(path, leaf)] := by
        rw [under_concat, strip_self]
        rfl
      have hsub : ∀ part' ≠ part, grouped depth (parts ++ [part']) (under part' (items ++ [(part :: path, leaf)])) =
          grouped depth (parts ++ [part']) (under part' items) := by
        intro part' hne
        rw [under_concat, strip_ne (Ne.symm hne)]
        exact congrArg _ (List.append_nil _)
      have hdeeper : ∀ items, ensureFolderPath (addLeaf leaf) (extendPath (pathText parts) part) path
          (grouped depth (parts ++ [part]) items) = grouped depth (parts ++ [part]) (items ++ [(path, leaf)]) := by
        intro items
        rw [← pathText_concat]
        exact ih (parts ++ [part]) items path (Nat.le_of_succ_le_succ h)
      rw [ensureFolderPath, grouped_succ, grouped_succ, slots_concat]
      show _ = List.map _ (if _ then _ else _)
      split_ifs with hmem
      · obtain ⟨front, back, hsplit, hfront, hback⟩ := exists_split hmem
        rw [hsplit, findIdx_branch hfront]
        dsimp only
        rw [List.map_append, List.map_cons, List.map_append, List.map_cons,
          map_nodeOf_congr hsub hfront, map_nodeOf_congr hsub hback]
        have hat := modify_at
          (fun n => { n with children := ensureFolderPath (addLeaf leaf) (extendPath (pathText parts) part) path n.children })
          (front.map (nodeOf (fun part => grouped depth (parts ++ [part]) (under part items)) parts))
          (nodeOf (fun part => grouped depth (parts ++ [part]) (under part items)) parts (.branch part))
          (back.map (nodeOf (fun part => grouped depth (parts ++ [part]) (under part items)) parts))
        rw [List.length_map] at hat
        rw [hat]
        refine congrArg (_ ++ · :: _) ?_
        unfold nodeOf
        dsimp only
        rw [hdeeper, hself]
      · rw [findIdx_none hmem, List.map_append, map_nodeOf_congr hsub hmem]
        refine congrArg (_ ++ [·]) ?_
        have hempty := hdeeper []
        rw [grouped_nil] at hempty
        unfold nodeOf
        dsimp only
        rw [hself, under_eq_nil hmem, hempty, pathText_concat]

theorem inserted_eq_grouped (sessions : List TreeSession) (emptyFolders : List String) {depth : Nat}
    (h : ∀ item ∈ itemsOf sessions emptyFolders, item.1.length ≤ depth) :
    sessions.foldl insertSession
      (emptyFolders.foldl (fun root folderPath => ensureFolderPath id "" (splitPath folderPath) root) []) =
      grouped depth [] (itemsOf sessions emptyFolders) := by
  have hall : ∀ (after before : List (Item String TreeSession)), (∀ item ∈ after, item.1.length ≤ depth) →
      after.foldl (fun root item => ensureFolderPath (addLeaf item.2) "" item.1 root) (grouped depth [] before) =
        grouped depth [] (before ++ after) := by
    intro after
    induction after with
    | nil => exact fun before _ => congrArg _ (List.append_nil before).symm
    | cons item after ih =>
      intro before hafter
      obtain ⟨hitem, hafter⟩ := List.forall_mem_cons.1 hafter
      have hstep : ensureFolderPath (addLeaf item.2) "" item.1 (grouped depth [] before) = grouped depth [] (before ++ [item]) :=
        ensureFolderPath_grouped depth [] before item.1 item.2 hitem
      rw [List.foldl_cons, hstep, ih (before ++ [item]) hafter, List.append_assoc, List.singleton_append]
  have hsession : insertSession = fun root s =>
      ensureFolderPath (addLeaf (some s)) "" (if s.folder = "" then [] else splitPath s.folder) root := by
    funext root s
    unfold insertSession
    split_ifs <;> rfl
  have hitems := hall (itemsOf sessions emptyFolders) [] h
  rw [grouped_nil, List.nil_append] at hitems
  rw [← hitems]
  unfold itemsOf
  rw [List.foldl_append, List.foldl_map, List.foldl_map, hsession]
  rfl

end LetsFlutSsh.Sessions
