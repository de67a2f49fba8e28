import LetsFlutSsh.Sessions.Tree

/-!
# What stands in a tree of sessions

* `leaves`, `folderPaths`, `allNodes` : the leaves with the path of the folder around them, the paths of the folders, the nodes;
* `leaves_sortTree`, `folderPaths_sortTree` : the sort moves nodes only.
-/

namespace LetsFlutSsh.Sessions
open Lib List

mutual

def leavesOf (holder : String) : TreeNode → List (String × TreeNode)
  | ⟨name, fullPath, some id, count, children⟩ => [(holder, ⟨name, fullPath, some id, count, children⟩)]
  | ⟨_, fullPath, none, _, children⟩ => leaves fullPath children

def leaves (holder : String) : List TreeNode → List (String × TreeNode)
  | [] => []
  | n :: ns => leavesOf holder n ++ leaves holder ns

end

mutual

def folderPathsOf : TreeNode → List String
  | ⟨_, _, some _, _, _⟩ => []
  | ⟨_, fullPath, none, _, children⟩ => fullPath :: folderPaths children

def folderPaths : List TreeNode → List String
  | [] => []
  | n :: ns => folderPathsOf n ++ folderPaths ns

end

mutual

def nodesOf : TreeNode → List TreeNode
  | ⟨name, fullPath, some id, count, children⟩ => [⟨name, fullPath, some id, count, children⟩]
  | ⟨name, fullPath, none, count, children⟩ => ⟨name, fullPath, none, count, children⟩ :: allNodes children

def allNodes : List TreeNode → List TreeNode
  | [] => []
  | n :: ns => nodesOf n ++ allNodes ns

end

def leafCount (n : TreeNode) : Nat := (leaves n.fullPath n.children).length

/-! ## Forests -/

theorem forest_induction {P : List TreeNode → Prop} (h : ∀ nodes, (∀ n ∈ nodes, P n.children) → P nodes)
    (nodes : List TreeNode) : P nodes := by
  induction hsize : sizeOf nodes using Nat.strong_induction_on generalizing nodes with
  | h size ih => exact h nodes fun n hn => ih _ (hsize ▸ sizeOf_children hn) n.children rfl

variable {holder : String} {n : TreeNode} {nodes : List TreeNode}

theorem leavesOf_leaf (h : n.sessionId.isNone = false) : leavesOf holder n = [(holder, n)] := by
  obtain ⟨_, _, _ | id, _, _⟩ := n
  · cases h
  · rw [leavesOf]

theorem leavesOf_folder (h : n.sessionId.isNone = true) : leavesOf holder n = leaves n.fullPath n.children := by
  obtain ⟨_, _, _ | id, _, _⟩ := n
  · rw [leavesOf]
  · cases h

theorem folderPathsOf_leaf (h : n.sessionId.isNone = false) : folderPathsOf n = [] := by
  obtain ⟨_, _, _ | id, _, _⟩ := n
  · cases h
  · rw [folderPathsOf]

theorem folderPathsOf_folder (h : n.sessionId.isNone = true) : folderPathsOf n = n.fullPath :: folderPaths n.children := by
  obtain ⟨_, _, _ | id, _, _⟩ := n
  · rw [folderPathsOf]
  · cases h

theorem nodesOf_leaf (h : n.sessionId.isNone = false) : nodesOf n = [n] := by
  obtain ⟨_, _, _ | id, _, _⟩ := n
  · cases h
  · rw [nodesOf]

theorem nodesOf_folder (h : n.sessionId.isNone = true) : nodesOf n = n :: allNodes n.children := by
  obtain ⟨_, _, _ | id, _, _⟩ := n
  · rw [nodesOf]
  · cases h

theorem leaves_eq (holder : String) (nodes : List TreeNode) : leaves holder nodes = nodes.flatMap (leavesOf holder) := by
  induction nodes with
  | nil => rw [leaves]; rfl
  | cons n ns ih => rw [leaves, ih, flatMap_cons]

theorem folderPaths_eq (nodes : List TreeNode) : folderPaths nodes = nodes.flatMap folderPathsOf := by
  induction nodes with
  | nil => rw [folderPaths]; rfl
  | cons n ns ih => rw [folderPaths, ih, flatMap_cons]

theorem allNodes_eq (nodes : List TreeNode) : allNodes nodes = nodes.flatMap nodesOf := by
  induction nodes with
  | nil => rw [allNodes]; rfl
  | cons n ns ih => rw [allNodes, ih, flatMap_cons]

theorem mem_allNodes {x : TreeNode} : x ∈ allNodes nodes ↔
    ∃ n ∈ nodes, x = n ∨ n.sessionId.isNone = true ∧ x ∈ allNodes n.children := by
  rw [allNodes_eq, mem_flatMap]
  refine exists_congr fun n => and_congr_right fun _ => ?_
  cases h : n.sessionId.isNone with
  | false =>
    rw [nodesOf_leaf h, mem_singleton]
    simp
  | true =>
    rw [nodesOf_folder h, mem_cons]
    simp

/-! ## The sort -/

variable {toLowercase : String → String}

theorem sortNode_leaf (h : n.sessionId.isNone = false) : sortNode toLowercase n = n := if_neg (by simp [h])

theorem sortNode_folder (h : n.sessionId.isNone = true) : sortNode toLowercase n =
    { n with children := sortTree toLowercase n.children, sessionCount := countAll (sortTree toLowercase n.children) } :=
  if_pos h

theorem children_sortNode (h : n.sessionId.isNone = true) :
    (sortNode toLowercase n).children = sortTree toLowercase n.children := by
  rw [sortNode_folder h]

theorem sortNode_same (n : TreeNode) :
    (sortNode toLowercase n).name = n.name ∧ (sortNode toLowercase n).fullPath = n.fullPath ∧
    (sortNode toLowercase n).sessionId = n.sessionId := by
  unfold sortNode
  split <;> exact ⟨rfl, rfl, rfl⟩

theorem isNone_sortNode (n : TreeNode) : (sortNode toLowercase n).sessionId.isNone = n.sessionId.isNone :=
  congrArg Option.isNone (sortNode_same n).2.2

theorem flatMap_sortTree {β : Type} {f g : TreeNode → List β} (h : ∀ n ∈ nodes, (f (sortNode toLowercase n)).Perm (g n)) :
    ((sortTree toLowercase nodes).flatMap f).Perm (nodes.flatMap g) := by
  rw [sortTree_eq, flatMap_map]
  have hsorted := mergeSort_perm nodes fun a b => (nodeOrder toLowercase a b).isLE
  exact (hsorted.flatMap_right _).trans (Perm.flatMap_left _ h)

section

variable (nodes : List TreeNode)

theorem leaves_sortTree : ∀ holder, (leaves holder (sortTree toLowercase nodes)).Perm (leaves holder nodes) := by
  induction nodes using forest_induction with
  | h nodes ih =>
    intro holder
    rw [leaves_eq, leaves_eq]
    refine flatMap_sortTree fun n hn => ?_
    cases hkind : n.sessionId.isNone with
    | false => rw [sortNode_leaf hkind]
    | true =>
      rw [leavesOf_folder ((isNone_sortNode n).trans hkind), leavesOf_folder hkind, (sortNode_same n).2.1,
        children_sortNode hkind]
      exact ih n hn n.fullPath

theorem folderPaths_sortTree : (folderPaths (sortTree toLowercase nodes)).Perm (folderPaths nodes) := by
  induction nodes using forest_induction with
  | h nodes ih =>
    rw [folderPaths_eq, folderPaths_eq]
    refine flatMap_sortTree fun n hn => ?_
    cases hkind : n.sessionId.isNone with
    | false => rw [sortNode_leaf hkind]
    | true =>
      rw [folderPathsOf_folder ((isNone_sortNode n).trans hkind), folderPathsOf_folder hkind, (sortNode_same n).2.1,
        children_sortNode hkind]
      exact (ih n hn).cons _

theorem countAll_eq : ∀ holder, countAll nodes = UInt32.ofNat (leaves holder nodes).length := by
  induction nodes using forest_induction with
  | h nodes ih =>
    intro holder
    induction nodes with
    | nil => rw [countAll, leaves]; rfl
    | cons n ns ih' =>
      have hnode : countSessions n = UInt32.ofNat (leavesOf holder n).length := by
        have hchildren := ih n mem_cons_self n.fullPath
        obtain ⟨_, _, _ | id, _, _⟩ := n
        · rw [countSessions, leavesOf]
          exact hchildren
        · rw [countSessions, leavesOf]
          rfl
      rw [countAll, leaves, length_append, hnode, ih' fun m hm => ih m (mem_cons_of_mem n hm), UInt32.ofNat_add]

/-- What holds of every folder that is sorted holds of every folder of a sorted forest. -/
theorem folders_sortTree {P : TreeNode → Prop}
    (hP : ∀ n : TreeNode, n.sessionId.isNone = true → P (sortNode toLowercase n)) :
    ∀ x ∈ allNodes (sortTree toLowercase nodes), x.sessionId.isNone = true → P x := by
  induction nodes using forest_induction with
  | h nodes ih =>
    intro x hx hfolder
    obtain ⟨m, hm, hx⟩ := mem_allNodes.1 hx
    rw [sortTree_eq] at hm
    obtain ⟨n, hn, rfl⟩ := mem_map.1 hm
    rcases hx with rfl | ⟨hkind, hx⟩
    · rw [isNone_sortNode] at hfolder
      exact hP n hfolder
    · rw [isNone_sortNode] at hkind
      rw [children_sortNode hkind] at hx
      exact ih n (mem_mergeSort.1 hn) x hx hfolder

theorem count_sortTree : ∀ x ∈ allNodes (sortTree toLowercase nodes), x.sessionId.isNone = true →
    x.sessionCount = UInt32.ofNat (leafCount x) :=
  folders_sortTree _ fun n hfolder => by
    rw [sortNode_folder hfolder]
    exact countAll_eq _ n.fullPath

theorem leafCount_le : ∀ x ∈ allNodes nodes, x.sessionId.isNone = true →
    ∃ n ∈ nodes, n.sessionId.isNone = true ∧ leafCount x ≤ leafCount n := by
  induction nodes using forest_induction with
  | h nodes ih =>
    intro x hx hfolder
    obtain ⟨n, hn, rfl | ⟨hkind, hx⟩⟩ := mem_allNodes.1 hx
    · exact ⟨x, hn, hfolder, le_rfl⟩
    obtain ⟨m, hm, hfolder', hle⟩ := ih n hn x hx hfolder
    refine ⟨n, hn, hkind, hle.trans ?_⟩
    -- What stands below a child stands below the folder.
    obtain ⟨front, back, hsplit⟩ := append_of_mem hm
    unfold leafCount
    rw [leaves_eq n.fullPath, hsplit, flatMap_append, flatMap_cons, leavesOf_folder hfolder']
    simp only [length_append]
    omega

end

/-! ## The order -/

def Before (toLowercase : String → String) (a b : TreeNode) : Prop :=
  (a.sessionId.isNone = true ∧ b.sessionId.isNone = false) ∨
    (a.sessionId.isNone = b.sessionId.isNone ∧ toLowercase a.name ≤ toLowercase b.name)

theorem nodeOrder_isLE_iff {a b : TreeNode} : (nodeOrder toLowercase a b).isLE = true ↔ Before toLowercase a b := by
  have hnames : (compare (toLowercase a.name) (toLowercase b.name)).isLE = true ↔ toLowercase a.name ≤ toLowercase b.name :=
    isLE_compareOfLessAndEq Std.le_antisymm Std.not_le fun _ _ => Std.le_total
  unfold nodeOrder Before
  cases a.sessionId.isNone <;> cases b.sessionId.isNone <;> simp [hnames]

theorem Before.trans {a b c : TreeNode} (hab : Before toLowercase a b) (hbc : Before toLowercase b c) :
    Before toLowercase a c := by
  rcases hab with ⟨ha, hb⟩ | ⟨hab, hle⟩ <;> rcases hbc with ⟨hb', hc⟩ | ⟨hbc, hle'⟩
  · rw [hb] at hb'
    cases hb'
  · exact .inl ⟨ha, hbc ▸ hb⟩
  · exact .inl ⟨hab ▸ hb', hc⟩
  · exact .inr ⟨hab.trans hbc, hle.trans hle'⟩

theorem before_total (a b : TreeNode) : Before toLowercase a b ∨ Before toLowercase b a := by
  unfold Before
  rcases le_total (toLowercase a.name) (toLowercase b.name) with hle | hle <;>
    cases a.sessionId.isNone <;> cases b.sessionId.isNone <;> simp [hle]

theorem pairwise_sortTree (nodes : List TreeNode) : (sortTree toLowercase nodes).Pairwise (Before toLowercase) := by
  rw [sortTree_eq, pairwise_map]
  have htrans : ∀ a b c, (nodeOrder toLowercase a b).isLE = true → (nodeOrder toLowercase b c).isLE = true →
      (nodeOrder toLowercase a c).isLE = true := fun a b c hab hbc =>
    nodeOrder_isLE_iff.2 ((nodeOrder_isLE_iff.1 hab).trans (nodeOrder_isLE_iff.1 hbc))
  have htotal : ∀ a b, ((nodeOrder toLowercase a b).isLE || (nodeOrder toLowercase b a).isLE) = true := fun a b => by
    rw [Bool.or_eq_true, nodeOrder_isLE_iff, nodeOrder_isLE_iff]
    exact before_total a b
  have hsorted := pairwise_mergeSort htrans htotal nodes
  refine hsorted.imp fun {a b} h => ?_
  have hbefore := nodeOrder_isLE_iff.1 h
  unfold Before at hbefore ⊢
  rwa [isNone_sortNode, isNone_sortNode, (sortNode_same a).1, (sortNode_same b).1]

theorem pairwise_children_sortTree (nodes : List TreeNode) : ∀ x ∈ allNodes (sortTree toLowercase nodes),
    x.sessionId.isNone = true → x.children.Pairwise (Before toLowercase) :=
  folders_sortTree _ fun n hfolder => by
    rw [children_sortNode hfolder]
    exact pairwise_sortTree n.children

/-! ## The grouped forest -/

variable {items : List (Item String TreeSession)} {parts : List String}

/-- What an item below some parts leaves: its leaf, with the path of the folder around it. -/
def placed (parts : List String) (item : Item String TreeSession) : List (String × TreeNode) :=
  item.2.toList.map fun s => (pathText (parts ++ item.1), leafNode s)

theorem branch_not_mem_slots (h : ∀ item ∈ items, item.1.length ≤ 0) (part : String) :
    (.branch part : Slot String TreeSession) ∉ slots items := by
  intro hmem
  obtain ⟨rest, leaf, hitem⟩ := branch_mem_slots.1 hmem
  exact absurd (h _ hitem) (by simp)

variable {depth : Nat}

theorem length_of_mem_under {part : String} (h : ∀ item ∈ items, item.1.length ≤ depth + 1) :
    ∀ item ∈ under part items, item.1.length ≤ depth := by
  intro item hitem
  obtain ⟨⟨_ | ⟨part', rest⟩, leaf⟩, hfull, hstrip⟩ := mem_filterMap.1 hitem
  · cases hstrip
  · change (if part' = part then _ else _) = _ at hstrip
    split_ifs at hstrip
    cases hstrip
    exact Nat.le_of_succ_le_succ (h _ hfull)

theorem leaves_grouped (h : ∀ item ∈ items, item.1.length ≤ depth) :
    (leaves (pathText parts) (grouped depth parts items)).Perm (items.flatMap (placed parts)) := by
  have hleaf : ∀ (parts : List String) (s : TreeSession),
      leavesOf (pathText parts) (leafNode s) = placed parts ([], some s) := by
    intro parts s
    unfold placed
    rw [leavesOf_leaf rfl, append_nil]
    rfl
  induction depth generalizing parts items with
  | zero =>
    refine Perm.trans ?_ (flatMap_slots_perm (placed parts) rfl items)
    rw [leaves_eq, grouped, flatMap_map]
    refine Perm.flatMap_left _ fun slot hslot => ?_
    cases slot with
    | leaf s => rw [nodeOf, hleaf]; rfl
    | branch part => exact absurd hslot (branch_not_mem_slots h part)
  | succ depth ih =>
    refine Perm.trans ?_ (flatMap_slots_perm (placed parts) rfl items)
    rw [leaves_eq, grouped_succ, flatMap_map]
    refine Perm.flatMap_left _ fun slot _ => ?_
    cases slot with
    | leaf s => rw [nodeOf, hleaf]; rfl
    | branch part =>
      have hsub : (leaves (pathText (parts ++ [part])) (grouped depth (parts ++ [part]) (under part items))).Perm _ :=
        ih (length_of_mem_under h)
      have hplaced : ∀ item : Item String TreeSession,
          placed (parts ++ [part]) item = placed parts (part :: item.1, item.2) := by
        intro item
        unfold placed
        rw [append_assoc, singleton_append]
      rw [nodeOf, leavesOf_folder rfl]
      unfold gather
      dsimp only
      rwa [← funext hplaced]

def keys : Nat → List String → List (Item String TreeSession) → List (List String)
  | 0, parts, items => (slots items).flatMap fun
    | .branch part => [parts ++ [part]]
    | .leaf _ => []
  | depth + 1, parts, items => (slots items).flatMap fun
    | .branch part => (parts ++ [part]) :: keys depth (parts ++ [part]) (under part items)
    | .leaf _ => []

theorem folderPaths_grouped (depth : Nat) (parts : List String) (items : List (Item String TreeSession)) :
    folderPaths (grouped depth parts items) = (keys depth parts items).map pathText := by
  induction depth generalizing parts items with
  | zero =>
    rw [folderPaths_eq, grouped, keys, flatMap_map, map_flatMap]
    refine flatMap_congr fun slot _ => ?_
    cases slot with
    | leaf s => exact folderPathsOf_leaf rfl
    | branch part =>
      rw [nodeOf, folderPathsOf_folder rfl, folderPaths]
      rfl
  | succ depth ih =>
    rw [folderPaths_eq, grouped_succ, keys, flatMap_map, map_flatMap]
    refine flatMap_congr fun slot _ => ?_
    cases slot with
    | leaf s => exact folderPathsOf_leaf rfl
    | branch part =>
      rw [nodeOf, folderPathsOf_folder rfl, map_cons, ← ih]

def slotKeys (sub : String → List (List String)) (parts : List String) : Slot String TreeSession → List (List String)
  | .branch part => (parts ++ [part]) :: sub part
  | .leaf _ => []

theorem keys_zero (parts : List String) (items : List (Item String TreeSession)) :
    keys 0 parts items = (slots items).flatMap (slotKeys (fun _ => []) parts) := by
  rw [keys]
  refine flatMap_congr fun slot _ => ?_
  cases slot <;> rfl

theorem keys_succ (depth : Nat) (parts : List String) (items : List (Item String TreeSession)) :
    keys (depth + 1) parts items =
    (slots items).flatMap (slotKeys (fun part => keys depth (parts ++ [part]) (under part items)) parts) := by
  rw [keys]
  refine flatMap_congr fun slot _ => ?_
  cases slot <;> rfl

theorem exists_of_mem_keys {key : List String} (h : key ∈ keys depth parts items) :
    ∃ part rest, key = parts ++ part :: rest := by
  induction depth generalizing parts items with
  | zero =>
    rw [keys_zero] at h
    obtain ⟨part | s, _, hkey⟩ := mem_flatMap.1 h
    · exact ⟨part, [], mem_singleton.1 hkey⟩
    · cases hkey
  | succ depth ih =>
    rw [keys_succ] at h
    obtain ⟨part | s, _, hkey⟩ := mem_flatMap.1 h
    · rcases mem_cons.1 hkey with rfl | hsub
      · exact ⟨part, [], rfl⟩
      · obtain ⟨part', rest, rfl⟩ := ih hsub
        exact ⟨part, part' :: rest, by rw [append_assoc]; rfl⟩
    · cases hkey

theorem nodup_slotKeys {sub : String → List (List String)}
    (hsub : ∀ part, ∀ key ∈ sub part, ∃ part' rest, key = parts ++ [part] ++ part' :: rest)
    (hnodup : ∀ part, (sub part).Nodup) (items : List (Item String TreeSession)) :
    ((slots items).flatMap (slotKeys sub parts)).Nodup := by
  have hstart : ∀ (part : String) (key : List String),
      key ∈ slotKeys sub parts (.branch part) → ∃ rest, key = parts ++ part :: rest := by
    intro part key hkey
    rcases mem_cons.1 hkey with rfl | hmem
    · exact ⟨[], rfl⟩
    · obtain ⟨part', rest, rfl⟩ := hsub part key hmem
      exact ⟨part' :: rest, by rw [append_assoc]; rfl⟩
  rw [nodup_flatMap]
  constructor
  · rintro (part | s) _
    · refine nodup_cons.2 ⟨fun hmem => ?_, hnodup part⟩
      obtain ⟨part', rest, hkey⟩ := hsub part _ hmem
      have hlen := congrArg List.length hkey
      simp at hlen
    · exact nodup_nil
  · refine (slots_pairwise items).imp fun {x y} hxy => ?_
    rintro key hx hy
    rcases x with part | s
    · rcases y with part' | s'
      · obtain ⟨rest, rfl⟩ := hstart part key hx
        obtain ⟨rest', heq⟩ := hstart part' _ hy
        have hpart : part = part' := (List.cons.inj (append_cancel_left heq)).1
        exact hxy part rfl (hpart ▸ rfl)
      · cases hy
    · cases hx

theorem nodup_keys (depth : Nat) (parts : List String) (items : List (Item String TreeSession)) :
    (keys depth parts items).Nodup := by
  induction depth generalizing parts items with
  | zero =>
    rw [keys_zero]
    exact nodup_slotKeys (fun _ _ h => absurd h not_mem_nil) (fun _ => nodup_nil) items
  | succ depth ih =>
    rw [keys_succ]
    exact nodup_slotKeys (fun _ _ h => exists_of_mem_keys h) (fun part => ih (parts ++ [part]) (under part items)) items

theorem mem_keys {key : List String} (h : ∀ item ∈ items, item.1.length ≤ depth) :
    key ∈ keys depth parts items ↔
    ∃ path, path ≠ [] ∧ key = parts ++ path ∧ ∃ item ∈ items, path <+: item.1 := by
  induction depth generalizing parts items with
  | zero =>
    rw [keys_zero]
    constructor
    · intro hkey
      obtain ⟨part | s, hslot, hmem⟩ := mem_flatMap.1 hkey
      · exact absurd hslot (branch_not_mem_slots h part)
      · cases hmem
    · rintro ⟨path, hne, _, item, hitem, hlead⟩
      have hlen := hlead.length_le
      exact absurd (length_eq_zero_iff.1 (Nat.le_zero.1 (hlen.trans (h item hitem)))) hne
  | succ depth ih =>
    rw [keys_succ, mem_flatMap]
    constructor
    · rintro ⟨part | s, hslot, hmem⟩
      · rcases mem_cons.1 hmem with rfl | hsub
        · obtain ⟨rest, leaf, hitem⟩ := branch_mem_slots.1 hslot
          exact ⟨[part], cons_ne_nil _ _, rfl, _, hitem, prefix_append [part] rest⟩
        obtain ⟨path, hne, rfl, item, hitem, hlead⟩ := (ih (length_of_mem_under h)).1 hsub
        obtain ⟨⟨_ | ⟨part', rest⟩, leaf⟩, hfull, hstrip⟩ := mem_filterMap.1 hitem
        · cases hstrip
        · change (if part' = part then _ else _) = _ at hstrip
          split_ifs at hstrip with heq
          cases hstrip
          refine ⟨part :: path, cons_ne_nil _ _, by rw [append_assoc]; rfl, _, hfull, ?_⟩
          rw [heq]
          exact (prefix_cons_inj part).2 hlead
      · cases hmem
    · rintro ⟨path, hne, rfl, ⟨full, leaf⟩, hitem, hlead⟩
      obtain ⟨part, path, rfl⟩ := exists_cons_of_ne_nil hne
      obtain ⟨rest, rfl⟩ := hlead
      refine ⟨.branch part, branch_mem_slots.2 ⟨path ++ rest, leaf, hitem⟩, ?_⟩
      rcases Decidable.em (path = []) with rfl | hpath
      · exact mem_cons_self
      · refine mem_cons_of_mem _ ((ih (length_of_mem_under h)).2 ⟨path, hpath, by rw [append_assoc]; rfl, ?_⟩)
        exact ⟨(path ++ rest, leaf), mem_filterMap.2 ⟨_, hitem, strip_self _ _ _⟩, prefix_append path rest⟩

end LetsFlutSsh.Sessions
