import Mathlib.Data.List.Nodup
import Mathlib.Data.List.Perm.Basic

/-!
# The workspace tree

A workspace is split into panels, each with a stack of tabs.

* `WorkspaceNode` : a panel, or a branch with two children;
* `replaceWorkspaceNode`, `removeWorkspaceNode`, `updatePanel` : the helpers that rebuild a tree;
* `nodeIds`, `panels` : what a tree consists of.
-/

namespace LetsFlutSsh.Workspace
open List Option

inductive TabKind where
  | terminal
  | sftp
  deriving DecidableEq

structure TabEntry where
  id : String
  label : String
  /-- The id of the connection. -/
  connection : String
  kind : TabKind
  deriving DecidableEq

inductive Axis where
  | horizontal
  | vertical
  deriving DecidableEq

structure PanelLeaf where
  id : String
  tabs : List TabEntry := []
  activeTabIndex : Int := -1
  deriving DecidableEq

def PanelLeaf.activeTab (p : PanelLeaf) : Option TabEntry :=
  if 0 ≤ p.activeTabIndex then p.tabs[p.activeTabIndex.toNat]? else none

def PanelLeaf.tabIds (p : PanelLeaf) : List String := p.tabs.map TabEntry.id

inductive WorkspaceNode where
  | panel (p : PanelLeaf)
  | branch (id : String) (direction : Axis) (ratio : Rat) (first second : WorkspaceNode)
  deriving DecidableEq

variable {p : PanelLeaf} {panelId : String} {α : Type}

namespace WorkspaceNode

def id : WorkspaceNode → String
  | panel p => p.id
  | branch id .. => id

def isBranch : WorkspaceNode → Bool
  | panel _ => false
  | branch .. => true

def panels : WorkspaceNode → List PanelLeaf
  | panel p => [p]
  | branch _ _ _ first second => first.panels ++ second.panels

def nodeIds : WorkspaceNode → List String
  | panel p => [p.id]
  | branch id _ _ first second => id :: (first.nodeIds ++ second.nodeIds)

def collectPanelIds (root : WorkspaceNode) : List String := root.panels.map PanelLeaf.id
def collectAllTabs (root : WorkspaceNode) : List TabEntry := root.panels.flatMap PanelLeaf.tabs

def replaceWorkspaceNode : WorkspaceNode → String → WorkspaceNode → WorkspaceNode
  | panel p, targetId, replacement => if p.id = targetId then replacement else panel p
  | branch id direction ratio first second, targetId, replacement =>
    if id = targetId then replacement
    else branch id direction ratio (first.replaceWorkspaceNode targetId replacement) (second.replaceWorkspaceNode targetId replacement)

/-- `removeWorkspaceNode`: the sibling of the node that is removed takes the place of their branch. A child that comes back
unchanged did not hold the node. -/
def removeWorkspaceNode (targetId : String) : WorkspaceNode → Option WorkspaceNode
  | panel p => if p.id = targetId then none else some (panel p)
  | branch id direction ratio first second =>
    if id = targetId then none
    else if first.id = targetId then some second
    else if second.id = targetId then some first
    else
      match (first.removeWorkspaceNode targetId).filter (· ≠ first) with
      | some newFirst => some (branch id direction ratio newFirst second)
      | none =>
        match (second.removeWorkspaceNode targetId).filter (· ≠ second) with
        | some newSecond => some (branch id direction ratio first newSecond)
        | none => some (branch id direction ratio first second)

def findNode (nodeId : String) : WorkspaceNode → Option WorkspaceNode
  | panel p => if p.id = nodeId then some (panel p) else none
  | branch id direction ratio first second =>
    if id = nodeId then some (branch id direction ratio first second)
    else (first.findNode nodeId).or (second.findNode nodeId)

def findPanel (panelId : String) : WorkspaceNode → Option PanelLeaf
  | panel p => if p.id = panelId then some p else none
  | branch _ _ _ first second => (first.findPanel panelId).or (second.findPanel panelId)

def updatePanel (panelId : String) (updater : PanelLeaf → PanelLeaf) : WorkspaceNode → WorkspaceNode
  | panel p => if p.id = panelId then panel (updater p) else panel p
  | branch id direction ratio first second =>
    branch id direction ratio (first.updatePanel panelId updater) (second.updatePanel panelId updater)

def updateBranchRatio (branchId : String) (ratio : Rat) : WorkspaceNode → WorkspaceNode
  | panel p => panel p
  | branch id direction old first second =>
    if id = branchId then branch id direction ratio first second
    else branch id direction old (first.updateBranchRatio branchId ratio) (second.updateBranchRatio branchId ratio)

variable {root : WorkspaceNode}

/-! ## What a tree consists of -/

theorem id_mem_nodeIds (root : WorkspaceNode) : root.id ∈ root.nodeIds := by
  cases root <;> exact mem_cons_self

theorem panels_ne_nil (root : WorkspaceNode) : root.panels ≠ [] := by
  induction root with
  | panel p => exact cons_ne_nil _ _
  | branch id direction ratio first second ih _ => exact append_ne_nil_of_left_ne_nil ih _

theorem panelIds_subset (root : WorkspaceNode) : root.collectPanelIds.Sublist root.nodeIds := by
  unfold collectPanelIds
  induction root with
  | panel p => exact Sublist.refl _
  | branch id direction ratio first second ih ih' =>
    rw [panels, map_append]
    exact (ih.append ih').trans (sublist_cons_self _ _)

theorem length_panels_eq_one_iff : root.panels.length = 1 ↔ root.isBranch = false := by
  cases root with
  | panel p => exact iff_of_true rfl rfl
  | branch id direction ratio first second =>
    refine iff_of_false (fun h => ?_) nofun
    have hfirst := length_pos_iff.2 first.panels_ne_nil
    have hsecond := length_pos_iff.2 second.panels_ne_nil
    rw [panels, length_append] at h
    omega

theorem findPanel_eq (root : WorkspaceNode) (panelId : String) :
    root.findPanel panelId = root.panels.find? (·.id = panelId) := by
  induction root with
  | panel p =>
    rw [findPanel, panels, find?_singleton]
    simp only [decide_eq_true_eq]
  | branch id direction ratio first second ih ih' =>
    rw [findPanel, panels, find?_append, ih, ih']

theorem mem_of_findPanel (h : root.findPanel panelId = some p) :
    p ∈ root.panels ∧ p.id = panelId := by
  rw [findPanel_eq] at h
  exact ⟨mem_of_find?_eq_some h, of_decide_eq_true (find?_some (p := fun p : PanelLeaf => p.id = panelId) h)⟩

theorem findPanel_of_mem (hids : root.nodeIds.Nodup) (hp : p ∈ root.panels) : root.findPanel p.id = some p := by
  rcases hfind : root.findPanel p.id with _ | q
  · rw [findPanel_eq] at hfind
    exact absurd (decide_eq_true rfl) (find?_eq_none.1 hfind p hp)
  · obtain ⟨hq, hid⟩ := mem_of_findPanel hfind
    rw [inj_on_of_nodup_map (hids.sublist (panelIds_subset root)) hq hp hid]

theorem findNode_self (root : WorkspaceNode) : root.findNode root.id = some root := by
  cases root <;> exact if_pos rfl

/-! ## Updates -/

theorem panels_updatePanel (root : WorkspaceNode) (panelId : String) (updater : PanelLeaf → PanelLeaf) :
    (root.updatePanel panelId updater).panels = root.panels.map fun p => if p.id = panelId then updater p else p := by
  induction root with
  | panel p =>
    rw [updatePanel, panels, map_singleton]
    split_ifs <;> rfl
  | branch id direction ratio first second ih ih' => rw [updatePanel, panels, panels, map_append, ih, ih']

theorem nodeIds_updatePanel (root : WorkspaceNode) {updater : PanelLeaf → PanelLeaf}
    (h : ∀ p, p.id = panelId → (updater p).id = p.id) : (root.updatePanel panelId updater).nodeIds = root.nodeIds := by
  induction root with
  | panel p =>
    rw [updatePanel]
    split_ifs with hp
    · rw [nodeIds, nodeIds, h p hp]
    · rfl
  | branch id direction ratio first second ih ih' => rw [updatePanel, nodeIds, nodeIds, ih, ih']

theorem exists_rest_update (hids : root.nodeIds.Nodup) (hp : p ∈ root.panels) :
    ∃ rest, root.panels.Perm (p :: rest) ∧ (∀ q ∈ rest, q.id ≠ p.id) ∧
      ∀ updater, (root.updatePanel p.id updater).panels.Perm (updater p :: rest) := by
  have hperm := perm_cons_erase hp
  have hnodup : ((p :: root.panels.erase p).map PanelLeaf.id).Nodup :=
    (hperm.map PanelLeaf.id).nodup_iff.1 (hids.sublist (panelIds_subset root))
  have hrest : ∀ q ∈ root.panels.erase p, q.id ≠ p.id := by
    intro q hq heq
    rw [map_cons, nodup_cons] at hnodup
    exact hnodup.1 (heq ▸ mem_map_of_mem hq)
  refine ⟨root.panels.erase p, hperm, hrest, fun updater => ?_⟩
  rw [panels_updatePanel]
  refine (hperm.map _).trans ?_
  have hsame : (root.panels.erase p).map (fun q => if q.id = p.id then updater q else q) = root.panels.erase p := by
    refine map_congr_left (fun q hq => if_neg (hrest q hq)) |>.trans (map_id' _)
  rw [map_cons, if_pos rfl, hsame]

theorem updateBranchRatio_spec (root : WorkspaceNode) (branchId : String) (ratio : Rat) :
    (root.updateBranchRatio branchId ratio).panels = root.panels ∧ (root.updateBranchRatio branchId ratio).nodeIds = root.nodeIds := by
  induction root with
  | panel p => exact ⟨rfl, rfl⟩
  | branch id direction old first second ih ih' =>
    rw [updateBranchRatio]
    split_ifs
    · exact ⟨rfl, rfl⟩
    · rw [panels, panels, nodeIds, nodeIds, ih.1, ih.2, ih'.1, ih'.2]
      exact ⟨rfl, rfl⟩

/-! ## Replacements -/

theorem replace_of_not_mem {targetId : String} (h : targetId ∉ root.nodeIds) (replacement : WorkspaceNode) :
    root.replaceWorkspaceNode targetId replacement = root := by
  induction root with
  | panel p =>
    rw [nodeIds, mem_singleton] at h
    exact if_neg (Ne.symm h)
  | branch id direction ratio first second ih ih' =>
    simp only [nodeIds, mem_cons, mem_append, not_or] at h
    rw [replaceWorkspaceNode, if_neg (Ne.symm h.1), ih h.2.1, ih' h.2.2]

theorem findNode_id {nodeId : String} {target : WorkspaceNode} (h : root.findNode nodeId = some target) :
    target.id = nodeId ∧ nodeId ∈ root.nodeIds := by
  induction root with
  | panel p =>
    rw [findNode] at h
    split_ifs at h with hp
    cases h
    exact ⟨hp, hp ▸ mem_cons_self⟩
  | branch id direction ratio first second ih ih' =>
    rw [findNode] at h
    split_ifs at h with hid
    · cases h
      exact ⟨hid, hid ▸ mem_cons_self⟩
    rw [nodeIds]
    rcases hfirst : first.findNode nodeId with _ | t
    · rw [hfirst] at h
      obtain ⟨htarget, hmem⟩ := ih' h
      exact ⟨htarget, mem_cons_of_mem _ (mem_append_right _ hmem)⟩
    · rw [hfirst] at h
      cases h
      obtain ⟨htarget, hmem⟩ := ih hfirst
      exact ⟨htarget, mem_cons_of_mem _ (mem_append_left _ hmem)⟩

theorem findNode_of_mem (hids : root.nodeIds.Nodup) (hp : p ∈ root.panels) :
    root.findNode p.id = some (panel p) := by
  induction root with
  | panel q =>
    rw [panels, mem_singleton] at hp
    rw [findNode, hp, if_pos rfl]
  | branch id direction ratio first second ih ih' =>
    obtain ⟨hid, hchildren⟩ := nodup_cons.1 hids
    obtain ⟨hfirst, hsecond, hdisjoint⟩ := nodup_append.1 hchildren
    rw [findNode]
    rcases mem_append.1 hp with hp | hp
    · have hmem : p.id ∈ first.nodeIds := (panelIds_subset first).subset (mem_map_of_mem hp)
      have hne : id ≠ p.id := fun heq => hid (heq ▸ mem_append_left _ hmem)
      rw [if_neg hne, ih hfirst hp]
      rfl
    · have hmem : p.id ∈ second.nodeIds := (panelIds_subset second).subset (mem_map_of_mem hp)
      have hnone : first.findNode p.id = none := by
        rcases hfind : first.findNode p.id with _ | t
        · rfl
        · exact absurd rfl (hdisjoint _ (findNode_id hfind).2 _ hmem)
      have hne : id ≠ p.id := fun heq => hid (heq ▸ mem_append_right _ hmem)
      rw [if_neg hne, hnone, ih' hsecond hp]
      rfl

theorem replace_self (root r : WorkspaceNode) : root.replaceWorkspaceNode root.id r = r := by
  cases root <;> exact if_pos rfl

theorem perm_second {a b c d : List α} (h : b.Perm (c ++ d)) : (a ++ b).Perm (c ++ (a ++ d)) :=
  (h.append_left a).trans (perm_append_comm_assoc _ _ _)

theorem perm_first {a b c d : List α} (h : a.Perm (c ++ d)) : (a ++ b).Perm (c ++ (d ++ b)) := by
  rw [← append_assoc]
  exact h.append_right b

theorem perm_under {l c d : List α} {a : α} (h : l.Perm (c ++ d)) : (a :: l).Perm (c ++ a :: d) :=
  (h.cons a).trans perm_middle.symm

theorem exists_rest_replace {nodeId : String} {target : WorkspaceNode} (hids : root.nodeIds.Nodup)
    (h : root.findNode nodeId = some target) : ∃ ids rest, root.nodeIds.Perm (target.nodeIds ++ ids) ∧
      root.panels.Perm (target.panels ++ rest) ∧ ∀ r, (root.replaceWorkspaceNode nodeId r).nodeIds.Perm (r.nodeIds ++ ids) ∧
        (root.replaceWorkspaceNode nodeId r).panels.Perm (r.panels ++ rest) := by
  have hself : ∀ {node : WorkspaceNode} {r : WorkspaceNode}, node = r → node.nodeIds.Perm (r.nodeIds ++ []) ∧
      node.panels.Perm (r.panels ++ []) := by
    rintro node _ rfl
    rw [append_nil, append_nil]
    exact ⟨Perm.refl _, Perm.refl _⟩
  induction root with
  | panel p =>
    rw [findNode] at h
    split_ifs at h with hp
    cases h
    exact ⟨[], [], (hself rfl).1, (hself rfl).2, fun r => hself (if_pos hp)⟩
  | branch id direction ratio first second ih ih' =>
    rw [findNode] at h
    split_ifs at h with hid
    · cases h
      exact ⟨[], [], (hself rfl).1, (hself rfl).2, fun r => hself (if_pos hid)⟩
    obtain ⟨hfirst, hsecond, hdisjoint⟩ := nodup_append.1 (nodup_cons.1 hids).2
    simp only [replaceWorkspaceNode, if_neg hid]
    rcases hfind : first.findNode nodeId with _ | t
    · -- The node is in the second child, and so not in the first.
      rw [hfind] at h
      have hmem := (findNode_id h).2
      have hnot : nodeId ∉ first.nodeIds := fun hmem' => hdisjoint _ hmem' _ hmem rfl
      obtain ⟨ids, rest, hperm, hperm', hr⟩ := ih' hsecond h
      refine ⟨id :: (first.nodeIds ++ ids), first.panels ++ rest, perm_under (perm_second hperm), perm_second hperm', fun r => ?_⟩
      rw [replace_of_not_mem hnot]
      exact ⟨perm_under (perm_second (hr r).1), perm_second (hr r).2⟩
    · rw [hfind] at h
      cases h
      have hmem := (findNode_id hfind).2
      have hnot : nodeId ∉ second.nodeIds := fun hmem' => hdisjoint _ hmem _ hmem' rfl
      obtain ⟨ids, rest, hperm, hperm', hr⟩ := ih hfirst hfind
      refine ⟨id :: (ids ++ second.nodeIds), rest ++ second.panels, perm_under (perm_first hperm), perm_first hperm', fun r => ?_⟩
      rw [replace_of_not_mem hnot]
      exact ⟨perm_under (perm_first (hr r).1), perm_first (hr r).2⟩

/-! ## Removals -/

theorem remove_of_not_mem {targetId : String} (h : targetId ∉ root.nodeIds) : root.removeWorkspaceNode targetId = some root := by
  induction root with
  | panel p =>
    rw [nodeIds, mem_singleton] at h
    exact if_neg (Ne.symm h)
  | branch id direction ratio first second ih ih' =>
    simp only [nodeIds, mem_cons, mem_append, not_or] at h
    have hfirst : first.id ≠ targetId := fun heq => h.2.1 (heq ▸ first.id_mem_nodeIds)
    have hsecond : second.id ≠ targetId := fun heq => h.2.2 (heq ▸ second.id_mem_nodeIds)
    have hsame : ∀ node : WorkspaceNode, (some node).filter (· ≠ node) = none := by
      intro node
      rw [filter_some, if_neg (by simp)]
    rw [removeWorkspaceNode, if_neg (Ne.symm h.1), if_neg hfirst, if_neg hsecond, ih h.2.1, ih' h.2.2, hsame, hsame]

theorem filter_of_not_mem (h : panelId ∉ root.nodeIds) : root.panels.filter (·.id ≠ panelId) = root.panels := by
  refine filter_eq_self.2 fun p hp => decide_eq_true ?_
  rintro rfl
  exact h ((panelIds_subset root).subset (mem_map_of_mem hp))

theorem eq_panel_of_id (hids : root.nodeIds.Nodup) (hp : p ∈ root.panels) (hid : root.id = p.id) : root = panel p := by
  cases root with
  | panel q =>
    rw [panels, mem_singleton] at hp
    rw [hp]
  | branch id direction ratio first second =>
    rw [nodeIds, nodup_cons] at hids
    have hmem : p.id ∈ first.nodeIds ++ second.nodeIds := by
      rcases mem_append.1 hp with hp | hp
      · exact mem_append_left _ ((panelIds_subset first).subset (mem_map_of_mem hp))
      · exact mem_append_right _ ((panelIds_subset second).subset (mem_map_of_mem hp))
    exact absurd (show id ∈ first.nodeIds ++ second.nodeIds from (show id = p.id from hid) ▸ hmem) hids.1

theorem isBranch_of_id_ne (hp : p ∈ root.panels) (hid : root.id ≠ p.id) : root.isBranch = true := by
  cases root with
  | panel q =>
    rw [panels, mem_singleton] at hp
    exact absurd (by rw [hp]; rfl) hid
  | branch => rfl

theorem ne_of_panels_filter {newRoot : WorkspaceNode} (hp : p ∈ root.panels)
    (h : newRoot.panels = root.panels.filter (·.id ≠ p.id)) : newRoot ≠ root := by
  rintro rfl
  have hmem : p ∈ newRoot.panels.filter (·.id ≠ p.id) := h ▸ hp
  exact of_decide_eq_true (mem_filter.1 hmem).2 rfl

theorem exists_removeWorkspaceNode (hids : root.nodeIds.Nodup) (hp : p ∈ root.panels)
    (hbranch : root.isBranch = true) : ∃ newRoot, root.removeWorkspaceNode p.id = some newRoot ∧
      newRoot.panels = root.panels.filter (·.id ≠ p.id) ∧ newRoot.nodeIds.Sublist root.nodeIds := by
  induction root with
  | panel q => cases hbranch
  | branch id direction ratio first second ih ih' =>
    have hroot : id ≠ p.id := fun heq => nomatch eq_panel_of_id hids hp heq
    obtain ⟨hfirst, hsecond, hdisjoint⟩ := nodup_append.1 (nodup_cons.1 hids).2
    rw [removeWorkspaceNode, if_neg hroot]
    -- The panel is in one child, and its id not in the other.
    rcases mem_append.1 hp with hp | hp
    · have hnot : p.id ∉ second.nodeIds := fun hmem =>
        hdisjoint _ ((panelIds_subset first).subset (mem_map_of_mem hp)) _ hmem rfl
      have hne : second.id ≠ p.id := fun heq => hnot (heq ▸ second.id_mem_nodeIds)
      rw [if_neg hne, panels, filter_append, filter_of_not_mem hnot, nodeIds]
      split_ifs with hfirstid
      · obtain rfl := eq_panel_of_id hfirst hp hfirstid
        refine ⟨second, rfl, ?_, (sublist_append_right _ _).trans (sublist_cons_self _ _)⟩
        simp [panels]
      · obtain ⟨newFirst, hremove, hpanels, hsub⟩ := ih hfirst hp (isBranch_of_id_ne hp hfirstid)
        rw [hremove, filter_some, if_pos (decide_eq_true (ne_of_panels_filter hp hpanels))]
        refine ⟨_, rfl, ?_, (hsub.append_right _).cons_cons id⟩
        rw [panels, hpanels]
    · have hnot : p.id ∉ first.nodeIds := fun hmem =>
        hdisjoint _ hmem _ ((panelIds_subset second).subset (mem_map_of_mem hp)) rfl
      have hne : first.id ≠ p.id := fun heq => hnot (heq ▸ first.id_mem_nodeIds)
      rw [if_neg hne, panels, filter_append, filter_of_not_mem hnot, nodeIds, remove_of_not_mem hnot]
      split_ifs with hsecondid
      · obtain rfl := eq_panel_of_id hsecond hp hsecondid
        refine ⟨first, rfl, ?_, (sublist_append_left _ _).trans (sublist_cons_self _ _)⟩
        simp [panels]
      · obtain ⟨newSecond, hremove, hpanels, hsub⟩ := ih' hsecond hp (isBranch_of_id_ne hp hsecondid)
        rw [hremove, filter_some, filter_some, if_pos (decide_eq_true (ne_of_panels_filter hp hpanels))]
        refine ⟨branch id direction ratio first newSecond, by simp, ?_, (hsub.append_left _).cons_cons id⟩
        rw [panels, hpanels]

end WorkspaceNode

end LetsFlutSsh.Workspace
