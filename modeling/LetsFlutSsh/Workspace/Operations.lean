import Mathlib.Data.List.Pairwise
import LetsFlutSsh.Workspace.Shape

/-!
# What operations keep

* `PanelLeaf.tabIds_removeAt`, `PanelLeaf.tabIds_insertAt`, and the like : a stack with one tab less, or one more;
* `Sound` : the shape, and no tab twice; `sound_addTab`, and so on : each operation keeps it.
-/

namespace LetsFlutSsh.Workspace
open WorkspaceNode WorkspaceState List

variable {q p : PanelLeaf} {i newIndex : Nat} {tabId : String} {tab : TabEntry}

/-! ## Stacks -/

namespace PanelLeaf

theorem exists_of_indexOf (h : p.indexOf tabId = some i) :
    ∃ tab, p.tabs[i]? = some tab ∧ tab.id = tabId := by
  obtain ⟨hi, htest, -⟩ := findIdx?_eq_some_iff_getElem.1 h
  exact ⟨p.tabs[i], getElem?_eq_getElem hi, of_decide_eq_true htest⟩

theorem indexOf_eq_none_iff : p.indexOf tabId = none ↔ tabId ∉ p.tabIds := by
  unfold indexOf tabIds
  rw [findIdx?_eq_none_iff, mem_map]
  constructor
  · rintro h ⟨tab, htab, hid⟩
    exact absurd hid (of_decide_eq_false (h tab htab))
  · intro h tab htab
    exact decide_eq_false fun hid => h ⟨tab, htab, hid⟩

theorem tabIds_removeAt (h : p.tabs[i]? = some tab) :
    p.tabIds.Perm (tab.id :: (p.removeAt i).tabIds) := by
  obtain ⟨hi, rfl⟩ := List.getElem?_eq_some_iff.1 h
  exact ((List.getElem_cons_eraseIdx_perm hi).map TabEntry.id).symm

theorem inRange_clamp (hactive : 0 ≤ p.activeTabIndex) (hne : q.tabs ≠ [])
    (hq : q.activeTabIndex = clampActive p.activeTabIndex q.tabs.length) : q.InRange := by
  have hpos := length_pos_iff.2 hne
  unfold InRange
  rw [hq, clampActive]
  split_ifs <;> omega

theorem inRange_removeAt (h : p.InRange) (hne : (p.removeAt i).tabs ≠ []) : (p.removeAt i).InRange :=
  inRange_clamp h.1 hne rfl

theorem tabIds_insertAt (hi : i ≤ p.tabs.length) (tab : TabEntry) :
    (p.insertAt i tab).tabIds.Perm (tab.id :: p.tabIds) :=
  (perm_insertIdx tab p.tabs hi).map TabEntry.id

theorem inRange_insertAt (hi : i ≤ p.tabs.length) (tab : TabEntry) : (p.insertAt i tab).InRange := by
  have hlength : (p.insertAt i tab).tabs.length = p.tabs.length + 1 := length_insertIdx_of_le_length hi tab
  have hactive : (p.insertAt i tab).activeTabIndex = i := rfl
  unfold InRange
  omega

theorem tabIds_select (index : Nat) : (p.select index).tabIds = p.tabIds := by
  unfold select
  split_ifs <;> rfl

theorem inRange_select {index : Nat} (h : p.InRange) : (p.select index).InRange := by
  unfold select
  split_ifs with hindex
  · exact ⟨Int.natCast_nonneg _, Int.ofNat_lt.2 hindex⟩
  · exact h

theorem tabIds_reorder (oldIndex : Nat) (hnew : newIndex ≤ p.tabs.length) :
    (p.reorder oldIndex newIndex).tabIds.Perm p.tabIds := by
  unfold reorder
  rcases htab : p.tabs[oldIndex]? with _ | tab
  · exact List.Perm.refl _
  · obtain ⟨hold, rfl⟩ := List.getElem?_eq_some_iff.1 htab
    have hlength := List.length_eraseIdx_add_one hold
    have hadj : (if oldIndex < newIndex then newIndex - 1 else newIndex) ≤ (p.tabs.eraseIdx oldIndex).length := by
      split_ifs <;> omega
    exact ((perm_insertIdx _ _ hadj).trans (getElem_cons_eraseIdx_perm hold)).map TabEntry.id

theorem inRange_reorder {oldIndex : Nat} (h : p.InRange) (hnew : newIndex ≤ p.tabs.length) :
    (p.reorder oldIndex newIndex).InRange := by
  have hlength : (p.reorder oldIndex newIndex).tabs.length = p.tabs.length := by
    have hperm := (tabIds_reorder oldIndex hnew).length_eq
    rwa [tabIds, tabIds, length_map, length_map] at hperm
  unfold InRange at h ⊢
  rw [hlength]
  unfold reorder
  rcases htab : p.tabs[oldIndex]? with _ | tab
  · exact h
  · obtain ⟨hold, -⟩ := List.getElem?_eq_some_iff.1 htab
    dsimp only
    split_ifs <;> omega

end PanelLeaf

variable {new : NewIds}

section
variable {s : WorkspaceState} {panelId : String}

def TabsOnce (s : WorkspaceState) : Prop := s.root.tabIds.Nodup

def Sound (s : WorkspaceState) : Prop := Shape s ∧ TabsOnce s

/-! ## Operations on one panel -/

theorem holds_iff : s.holds panelId tabId ↔ ∃ p, s.root.findPanel panelId = some p ∧ tabId ∈ p.tabIds := Iff.rfl

theorem holds_of_mem (h : Shape s) (hp : p ∈ s.root.panels) (hmem : tabId ∈ p.tabIds) : s.holds p.id tabId :=
  ⟨p, findPanel_of_mem h.ids hp, hmem⟩

theorem exists_panel (h : panelId ∈ s.root.collectPanelIds) : ∃ p ∈ s.root.panels, p.id = panelId := mem_map.1 h

theorem eq_of_tabId {root : WorkspaceNode} (honce : root.tabIds.Nodup) (hp : p ∈ root.panels)
    (hq : q ∈ root.panels)
    (hmem : tabId ∈ p.tabIds) (hmem' : tabId ∈ q.tabIds) : p = q := by
  have hsymm : Std.Symm (Function.onFun Disjoint PanelLeaf.tabIds) := ⟨fun _ _ h _ ha hb => h hb ha⟩
  by_contra hne
  exact (nodup_flatMap.1 honce).2.forall hp hq hne hmem hmem'

theorem shape_set (h : Shape s) (hp : p ∈ s.root.panels) (hid : q.id = p.id) (hrange : q.InRange) :
    Shape { s with root := s.root.updatePanel p.id fun _ => q } :=
  shape_update h hp (fun _ => q) (fun _ hq => hid.trans hq.symm) (fun _ => hrange) (fun _ => hrange.ne_nil) h.focused

section

variable (h : Sound s) (hp : p ∈ s.root.panels)
include h hp

theorem tabsOnce_update {updater : PanelLeaf → PanelLeaf} (hid : ∀ q, q.id = p.id → (updater q).id = q.id)
    (hsub : (updater p).tabIds.Subperm p.tabIds) :
    (s.root.updatePanel p.id updater).tabIds.Nodup :=
  (exchanged_update h.1.ids hp updater hid).nodup_tabIds h.2 (by simpa using hsub)

theorem sound_set (hid : q.id = p.id) (hrange : q.InRange) (hsub : q.tabIds.Subperm p.tabIds) :
    Sound { s with root := s.root.updatePanel p.id fun _ => q } :=
  ⟨shape_set h.1 hp hid hrange, tabsOnce_update h hp (fun _ hq => hid.trans hq.symm) hsub⟩

theorem tabsOnce_gain {updater : PanelLeaf → PanelLeaf} (hid : ∀ q, q.id = p.id → (updater q).id = q.id)
    (hgain : (updater p).tabIds.Perm (tabId :: p.tabIds)) (hnew : tabId ∉ s.root.tabIds) :
    (s.root.updatePanel p.id updater).tabIds.Nodup := by
  have hperm := (exchanged_update h.1.ids hp updater hid).tabIds_gain (l := [tabId]) (by simpa using hgain)
  exact hperm.nodup_iff.2 (nodup_cons.2 ⟨hnew, h.2⟩)

end

theorem sound_addTab (h : Sound s) (hpanel : panelId ∈ s.root.collectPanelIds) (hnew : tab.id ∉ s.root.tabIds) :
    Sound (s.addTab panelId tab) := by
  obtain ⟨p, hp, rfl⟩ := exists_panel hpanel
  have hrange := PanelLeaf.inRange_insertAt (Nat.le_refl p.tabs.length) tab
  exact ⟨shape_update h.1 hp (fun p => p.insertAt p.tabs.length tab) (fun _ _ => rfl) (fun _ => hrange) (fun _ => hrange.ne_nil) hpanel,
    tabsOnce_gain h hp (fun _ _ => rfl) (PanelLeaf.tabIds_insertAt (Nat.le_refl _) tab) hnew⟩

theorem sound_selectTab (h : Sound s) (hpanel : panelId ∈ s.root.collectPanelIds) (index : Nat) :
    Sound (s.selectTab panelId index) := by
  obtain ⟨p, hp, rfl⟩ := exists_panel hpanel
  have hid : ∀ q : PanelLeaf, (q.select index).id = q.id := by
    intro q
    unfold PanelLeaf.select
    split_ifs <;> rfl
  have htabs : (p.select index).tabs = p.tabs := by
    unfold PanelLeaf.select
    split_ifs <;> rfl
  refine ⟨shape_update h.1 hp _ (fun q _ => hid q) (fun hne => ?_) (fun hne => htabs ▸ hne) hpanel, ?_⟩
  · exact PanelLeaf.inRange_select (h.1.active p hp (htabs ▸ hne))
  · refine tabsOnce_update h hp (fun q _ => hid q) ?_
    rw [PanelLeaf.tabIds_select]

theorem tabCount_of_find (hfind : s.root.findPanel panelId = some p) : s.tabCount panelId = p.tabs.length := by
  rw [tabCount, hfind]
  rfl

theorem sound_reorderTabs (h : Sound s) {oldIndex : Nat} (hold : oldIndex < s.tabCount panelId)
    (hnew : newIndex ≤ s.tabCount panelId) : Sound (s.reorderTabs panelId oldIndex newIndex) := by
  rcases hfind : s.root.findPanel panelId with _ | p
  · rw [tabCount, hfind] at hold
    exact absurd hold (Nat.not_lt_zero _)
  rw [tabCount_of_find hfind] at hold hnew
  obtain ⟨hp, rfl⟩ := mem_of_findPanel hfind
  have hid : ∀ q : PanelLeaf, (q.reorder oldIndex newIndex).id = q.id := by
    intro q
    unfold PanelLeaf.reorder
    split <;> rfl
  have hrange : (p.reorder oldIndex newIndex).InRange :=
    PanelLeaf.inRange_reorder (h.1.active p hp (ne_nil_of_length_pos (Nat.zero_lt_of_lt hold))) hnew
  exact ⟨shape_update h.1 hp _ (fun q _ => hid q) (fun _ => hrange) (fun _ => hrange.ne_nil) h.1.focused,
    tabsOnce_update h hp (fun q _ => hid q) (PanelLeaf.tabIds_reorder oldIndex hnew).subperm⟩

theorem sound_closeOthers (h : Sound s) : Sound (s.closeOthers panelId tabId) := by
  unfold closeOthers
  rcases hfind : s.root.findPanel panelId with _ | p
  · exact h
  obtain ⟨hp, rfl⟩ := mem_of_findPanel hfind
  rcases hkept : p.tabs.find? (·.id = tabId) with _ | kept
  · dsimp only
    rw [hkept]
    exact h
  · dsimp only
    rw [hkept]
    refine sound_set h hp rfl ⟨Int.le_refl 0, Int.zero_lt_one⟩ ?_
    have hmem := mem_map_of_mem (f := TabEntry.id) (mem_of_find?_eq_some hkept)
    exact (singleton_sublist.2 hmem).subperm

theorem sound_closeToTheRight (h : Sound s) (index : Nat) : Sound (s.closeToTheRight panelId index) := by
  unfold closeToTheRight
  rcases hfind : s.root.findPanel panelId with _ | p
  · exact h
  obtain ⟨hp, rfl⟩ := mem_of_findPanel hfind
  dsimp only
  split_ifs with hlength
  · exact h
  · have hne : p.tabs ≠ [] := ne_nil_of_length_pos (by omega)
    have htake : p.tabs.take (index + 1) ≠ [] := by
      rw [ne_eq, take_eq_nil_iff]
      exact fun hor => hor.elim nofun hne
    exact sound_set h hp rfl (PanelLeaf.inRange_clamp (h.1.active p hp hne).1 htake rfl) ((take_sublist _ _).map TabEntry.id).subperm

theorem sound_closeToTheLeft (h : Sound s) {index : Nat} (hindex : index < s.tabCount panelId) :
    Sound (s.closeToTheLeft panelId index) := by
  unfold closeToTheLeft
  rcases hfind : s.root.findPanel panelId with _ | p
  · exact h
  rw [tabCount_of_find hfind] at hindex
  obtain ⟨hp, rfl⟩ := mem_of_findPanel hfind
  split_ifs with hzero
  · exact h
  · obtain ⟨hnonneg, hlt⟩ := h.1.active p hp (ne_nil_of_length_pos (by omega))
    refine sound_set h hp rfl ⟨Int.le_max_right _ _, ?_⟩ ((drop_sublist _ _).map TabEntry.id).subperm
    dsimp only
    rw [length_drop]
    omega

theorem sound_duplicateTab (h : Sound s) (hfresh : new.Fresh s) : Sound (s.duplicateTab panelId new) := by
  unfold duplicateTab
  rcases hfind : s.root.findPanel panelId with _ | p
  · exact h
  obtain ⟨hp, rfl⟩ := mem_of_findPanel hfind
  rcases hactive : p.activeTab with _ | tab
  · dsimp only
    rw [hactive]
    exact h
  dsimp only
  rw [hactive]
  have hindex : p.activeTabIndex.toNat + 1 ≤ p.tabs.length := by
    unfold PanelLeaf.activeTab at hactive
    split_ifs at hactive
    exact (List.getElem?_eq_some_iff.1 hactive).1
  exact ⟨shape_set h.1 hp rfl (PanelLeaf.inRange_insertAt hindex _),
    tabsOnce_gain h hp (fun _ hq => hq.symm) (PanelLeaf.tabIds_insertAt hindex _) hfresh.tab⟩

/-! ## Tabs that close -/

theorem closeTab_of_not_holds (hnot : ¬s.holds panelId tabId) (freshId : String) :
    s.closeTab panelId tabId freshId = s := by
  unfold closeTab
  rcases hfind : s.root.findPanel panelId with _ | p
  · rfl
  · have hnone : p.indexOf tabId = none := PanelLeaf.indexOf_eq_none_iff.2 fun hmem => hnot ⟨p, hfind, hmem⟩
    dsimp only
    rw [hnone]

theorem closeTab_keeps (h : Shape s) (hholds : s.holds panelId tabId) (freshId : String) :
    Shape (s.closeTab panelId tabId freshId) ∧ s.root.tabIds.Perm (tabId :: (s.closeTab panelId tabId freshId).root.tabIds) := by
  obtain ⟨p, hfind, hmem⟩ := hholds
  obtain ⟨hp, rfl⟩ := mem_of_findPanel hfind
  rcases hindex : p.indexOf tabId with _ | i
  · exact absurd hmem (PanelLeaf.indexOf_eq_none_iff.1 hindex)
  obtain ⟨tab, htab, rfl⟩ := PanelLeaf.exists_of_indexOf hindex
  have hremoved := PanelLeaf.tabIds_removeAt htab
  have hne : p.tabs ≠ [] := by
    intro hnil
    rw [hnil] at htab
    cases htab
  unfold closeTab
  rw [hfind]
  dsimp only
  rw [hindex]
  dsimp only
  split_ifs with hempty
  · refine ⟨shape_collapse h hp freshId, (exchanged_collapse h.ids hp freshId).tabIds_loss (l := [tab.id]) ?_⟩
    have hnil : (p.removeAt i).tabIds = [] := by rw [PanelLeaf.tabIds, hempty, map_nil]
    rw [hnil] at hremoved
    split_ifs <;> simpa [PanelLeaf.tabIds] using hremoved
  · refine ⟨shape_set h hp rfl (PanelLeaf.inRange_removeAt (h.active p hp hne) hempty), ?_⟩
    exact (exchanged_update h.ids hp (fun _ => p.removeAt i) fun _ hq => hq.symm).tabIds_loss (l := [tab.id]) (by simpa using hremoved)

theorem sound_closeAll (h : Sound s) (freshId : String) : Sound (s.closeAll panelId freshId) := by
  unfold closeAll
  rcases hfind : s.root.findPanel panelId with _ | p
  · exact h
  obtain ⟨hp, rfl⟩ := mem_of_findPanel hfind
  dsimp only
  split_ifs
  · exact h
  · refine ⟨shape_collapse h.1 hp freshId, (exchanged_collapse h.1.ids hp freshId).nodup_tabIds h.2 ?_⟩
    split_ifs <;> exact nil_subperm

/-! ## Panels that split -/

theorem splitSource_spec (p : PanelLeaf) (tabId : String) : (splitSource p tabId).id = p.id ∧
    (p.InRange → (splitSource p tabId).tabs ≠ [] → (splitSource p tabId).InRange) ∧
    (tabId ∈ p.tabIds → p.tabIds.Perm (tabId :: (splitSource p tabId).tabIds)) ∧
    (tabId ∉ p.tabIds → splitSource p tabId = p) := by
  unfold splitSource
  rcases hindex : p.indexOf tabId with _ | i
  · exact ⟨rfl, fun h _ => h, fun hmem => absurd hmem (PanelLeaf.indexOf_eq_none_iff.1 hindex), fun _ => rfl⟩
  obtain ⟨tab, htab, rfl⟩ := PanelLeaf.exists_of_indexOf hindex
  have hremoved := PanelLeaf.tabIds_removeAt htab
  refine ⟨rfl, fun h hne => ?_, fun _ => hremoved, fun hnot => absurd (hremoved.mem_iff.2 mem_cons_self) hnot⟩
  have hrange := PanelLeaf.inRange_removeAt h hne
  exact ⟨Int.le_trans hrange.1 (Int.le_max_left _ _), by
    have hmax : max (p.removeAt i).activeTabIndex (-1) = (p.removeAt i).activeTabIndex := by
      have hnonneg := hrange.1
      omega
    dsimp only
    rw [hmax]
    exact hrange.2⟩

/-- The tabs of a workspace in which a panel was split for a tab: the tab is in the new panel, and no longer in the old. -/
def SplitTabs (s t : WorkspaceState) (panelId tabId : String) : Prop :=
  (s.holds panelId tabId → s.root.tabIds.Perm t.root.tabIds) ∧
    (¬s.holds panelId tabId → t.root.tabIds.Perm (tabId :: s.root.tabIds))

def TakesMaximized (s : WorkspaceState) (panelId tabId : String) : Prop :=
  s.maximizedPanelId = some panelId ∧ s.holds panelId tabId ∧ s.tabCount panelId = 1

theorem flatMap_unlessEmpty (q : PanelLeaf) : (if q.tabs = [] then [] else [q]).flatMap PanelLeaf.tabIds = q.tabIds := by
  split_ifs with hempty
  · rw [PanelLeaf.tabIds, hempty]
    rfl
  · exact flatMap_singleton ..

theorem exchanged_splitPanel (hids : s.root.nodeIds.Nodup) (hfresh : new.Fresh s)
    (hfind : s.root.findPanel panelId = some p)
    (tab : TabEntry) (direction : Axis) (insertBefore : Bool) :
    Exchanged s.root (s.splitPanel panelId direction tab insertBefore new).root [p]
      ({ id := new.panel, tabs := [tab], activeTabIndex := 0 } ::
        if (splitSource p tab.id).tabs = [] then [] else [splitSource p tab.id]) := by
  obtain ⟨hp, rfl⟩ := mem_of_findPanel hfind
  unfold splitPanel
  rw [hfind]
  dsimp only
  split_ifs
  · exact exchanged_swap hids hp hfresh rfl
  · refine exchanged_branchOf hids (findNode_of_mem hids hp) hfresh rfl ?_ direction insertBefore
    rw [nodeIds, nodeIds, (splitSource_spec p tab.id).1]

theorem splitPanel_keeps (h : Shape s) (hfresh : new.Fresh s) (hmaximized : ¬TakesMaximized s panelId tab.id)
    (hpanel : panelId ∈ s.root.collectPanelIds) (direction : Axis) (insertBefore : Bool) :
    Shape (s.splitPanel panelId direction tab insertBefore new) ∧
      SplitTabs s (s.splitPanel panelId direction tab insertBefore new) panelId tab.id := by
  rcases hfind : s.root.findPanel panelId with _ | p
  · obtain ⟨q, hq, rfl⟩ := exists_panel hpanel
    rw [findPanel_eq] at hfind
    exact absurd (decide_eq_true rfl) (find?_eq_none.1 hfind q hq)
  have hx := exchanged_splitPanel h.ids hfresh hfind tab direction insertBefore
  obtain ⟨hp, rfl⟩ := mem_of_findPanel hfind
  obtain ⟨hid, hrange, htaken, hsame⟩ := splitSource_spec p tab.id
  have hheld : s.holds p.id tab.id ↔ tab.id ∈ p.tabIds := by
    rw [holds_iff, hfind]
    exact ⟨fun ⟨q, hq, hmem⟩ => by cases hq; exact hmem, fun hmem => ⟨p, rfl, hmem⟩⟩
  refine ⟨?_, fun hholds => (hx.tabIds_gain (l := []) ?_).symm, fun hnot => hx.tabIds_gain (l := [tab.id]) ?_⟩
  · have hadded : ({ id := new.panel, tabs := [tab], activeTabIndex := 0 } : PanelLeaf).InRange := ⟨Int.le_refl 0, Int.zero_lt_one⟩
    unfold splitPanel
    rw [hfind]
    dsimp only
    split_ifs with hempty
    · -- The new panel takes the place of the old one.
      refine shape_swap h hp hfresh rfl hadded fun hmax => ?_
      by_cases hmem : tab.id ∈ p.tabIds
      · refine hmaximized ⟨hmax, hheld.2 hmem, ?_⟩
        have hlength := (htaken hmem).length_eq
        rw [tabCount_of_find hfind]
        rwa [PanelLeaf.tabIds, PanelLeaf.tabIds, hempty, length_map, map_nil] at hlength
      · rw [hsame hmem] at hempty
        exact h.filled (h.maximized p.id hmax).2 p hp hempty
    · have hsource : ∀ q ∈ (panel (splitSource p tab.id)).panels, q.InRange := by
        refine forall_mem_singleton.2 (hrange (h.active p hp fun hnil => hempty ?_) hempty)
        rw [hsame (by rw [PanelLeaf.tabIds, hnil]; exact not_mem_nil), hnil]
      refine shape_branchOf h (findNode_of_mem h.ids hp) hfresh rfl hadded ?_ ?_ hsource direction insertBefore
      · rw [nodeIds, nodeIds, hid]
      · rw [collectPanelIds, collectPanelIds, panels, panels, map_singleton, map_singleton, hid]
  · rw [flatMap_cons, flatMap_unlessEmpty, flatMap_singleton]
    exact (htaken (hheld.1 hholds)).symm
  · rw [flatMap_cons, flatMap_unlessEmpty, flatMap_singleton, hsame fun hmem => hnot (hheld.2 hmem)]
    exact Perm.refl _

theorem splitAroundNode_branch (h : Shape s) (hfresh : new.Fresh s) {nodeId : String} {target : WorkspaceNode}
    (hfind : s.root.findNode nodeId = some target) (hbranch : target.isBranch = true) (tab : TabEntry) (direction : Axis)
    (insertBefore : Bool) :
    Shape (s.splitAroundNode nodeId direction tab insertBefore new) ∧
      (s.splitAroundNode nodeId direction tab insertBefore new).root.tabIds.Perm (tab.id :: s.root.tabIds) := by
  have hadded : ({ id := new.panel, tabs := [tab], activeTabIndex := 0 } : PanelLeaf).InRange := ⟨Int.le_refl 0, Int.zero_lt_one⟩
  have hrange : ∀ q ∈ target.panels, q.InRange := by
    obtain ⟨_, rest, -, hperm, -⟩ := exists_rest_replace h.ids hfind
    have hroot : s.root.isBranch = true := by
      have hlength := hperm.length_eq
      rw [isBranch_iff] at hbranch ⊢
      have hpos := length_pos_iff.2 target.panels_ne_nil
      rw [hlength, length_append]
      omega
    intro q hq
    have hmem : q ∈ s.root.panels := hperm.mem_iff.2 (mem_append_left _ hq)
    exact h.active q hmem (h.filled hroot q hmem)
  have hroot : s.splitAroundNode nodeId direction tab insertBefore new = { s with
        root := s.root.replaceWorkspaceNode nodeId
          (branchOf new.branch direction insertBefore (panel { id := new.panel, tabs := [tab], activeTabIndex := 0 }) target)
        focusedPanelId := new.panel } := by
    unfold splitAroundNode
    rw [hfind]
    cases target with
    | panel q => cases hbranch
    | branch id axis ratio first second =>
      split_ifs with hid
      · rw [← hid, replace_self]
      · rfl
  rw [hroot]
  exact ⟨shape_branchOf h hfind hfresh rfl hadded rfl rfl hrange direction insertBefore,
    (exchanged_branchOf h.ids hfind hfresh rfl rfl direction insertBefore).tabIds_gain (l := [tab.id]) (Perm.refl _)⟩

theorem splitAroundNode_panel {nodeId : String} (hfind : s.root.findNode nodeId = some (panel p)) (direction : Axis)
    (insertBefore : Bool) : s.splitAroundNode nodeId direction tab insertBefore new = s.splitPanel nodeId direction tab insertBefore new := by
  unfold splitAroundNode
  rw [hfind]
  dsimp only
  rw [show p.id = nodeId from (findNode_id hfind).1]

theorem sound_copyToNewPanel (h : Sound s) (hfresh : new.Fresh s) (direction : Axis) :
    Sound (s.copyToNewPanel panelId direction new) := by
  unfold copyToNewPanel
  rcases hfind : s.root.findPanel panelId with _ | p
  · exact h
  obtain ⟨hp, rfl⟩ := mem_of_findPanel hfind
  rcases hactive : p.activeTab with _ | tab
  · dsimp only
    rw [hactive]
    exact h
  dsimp only
  rw [hactive]
  have hadded : ({ id := new.panel, tabs := [tab.duplicate new.tab], activeTabIndex := 0 } : PanelLeaf).InRange :=
    ⟨Int.le_refl 0, Int.zero_lt_one⟩
  have hne : p.tabs ≠ [] := by
    intro hnil
    unfold PanelLeaf.activeTab at hactive
    rw [hnil] at hactive
    split_ifs at hactive
    cases hactive
  have hrange : ∀ q ∈ (panel p).panels, q.InRange := by
    intro q hq
    rw [mem_singleton.1 hq]
    exact h.1.active p hp hne
  refine ⟨shape_branchOf h.1 (findNode_of_mem h.1.ids hp) hfresh rfl hadded rfl rfl hrange direction false, ?_⟩
  have hid : ({ id := new.panel, tabs := [tab.duplicate new.tab], activeTabIndex := 0 } : PanelLeaf).id = new.panel := rfl
  have hx := exchanged_branchOf h.1.ids (findNode_of_mem h.1.ids hp) hfresh hid (show (panel p).nodeIds = _ from rfl) direction false
  exact (hx.tabIds_gain (l := [new.tab]) (Perm.refl _)).nodup_iff.2 (nodup_cons.2 ⟨hfresh.tab, h.2⟩)

/-! ## Tabs that move -/

/-- The move is carried out, and empties the maximized panel, or one of the last two panels while one is maximized. -/
def LeavesMaximized (s : WorkspaceState) (fromPanelId tabId toPanelId : String) : Prop :=
  fromPanelId ≠ toPanelId ∧ toPanelId ∈ s.root.collectPanelIds ∧ s.holds fromPanelId tabId ∧ s.tabCount fromPanelId = 1 ∧
    s.maximizedPanelId ≠ none ∧ (s.maximizedPanelId = some fromPanelId ∨ s.root.panels.length = 2)

theorem Shape.refocus (h : Shape s) (hpanel : panelId ∈ s.root.collectPanelIds) :
    Shape { s with focusedPanelId := panelId } :=
  ⟨h.ids, h.active, h.filled, hpanel, h.maximized⟩

theorem exchanged_movedRoot (hids : s.root.nodeIds.Nodup) {source target : PanelLeaf} (hsource : source ∈ s.root.panels)
    (htarget : target ∈ s.root.panels) (hne : source.id ≠ target.id) (i insertIdx : Nat) (tab : TabEntry) :
    Exchanged s.root (s.movedRoot source target i insertIdx tab) [target, source]
      (target.insertAt insertIdx tab :: if (source.removeAt i).tabs = [] then [] else [source.removeAt i]) := by
  have hadded := exchanged_update hids htarget (fun _ => target.insertAt insertIdx tab) fun _ hq => hq.symm
  have hmem : source ∈ (s.root.updatePanel target.id fun _ => target.insertAt insertIdx tab).panels := by
    rw [panels_updatePanel]
    exact mem_map.2 ⟨source, hsource, if_neg hne⟩
  have hapart : source ≠ target.insertAt insertIdx tab := fun heq => hne (by rw [heq]; rfl)
  unfold movedRoot
  dsimp only
  split_ifs
  · have hbranch : (s.root.updatePanel target.id fun _ => target.insertAt insertIdx tab).isBranch = true := by
      rw [isBranch_iff, panels_updatePanel, length_map]
      intro hone
      obtain ⟨q, hq⟩ := length_eq_one_iff.1 hone
      rw [hq, mem_singleton] at hsource htarget
      exact hne (by rw [hsource, htarget])
    obtain ⟨newRoot, hremove, hx⟩ := exchanged_remove hadded.ids hmem hbranch
    rw [hremove]
    exact hadded.trans hx hapart
  · exact hadded.trans (exchanged_update hadded.ids hmem (fun _ => source.removeAt i) fun _ hq => hq.symm) hapart

theorem tabIds_moved {source target : PanelLeaf} {insertIdx : Nat} (htab : source.tabs[i]? = some tab)
    (hinsert : insertIdx ≤ target.tabs.length) :
    ((target.insertAt insertIdx tab :: if (source.removeAt i).tabs = [] then [] else [source.removeAt i]).flatMap PanelLeaf.tabIds).Perm
      ([target, source].flatMap PanelLeaf.tabIds) := by
  rw [flatMap_cons, flatMap_unlessEmpty, flatMap_cons, flatMap_singleton]
  exact ((PanelLeaf.tabIds_insertAt hinsert tab).append_right _).trans
    (perm_middle.symm.trans ((PanelLeaf.tabIds_removeAt htab).symm.append_left _))

theorem movedRoot_keeps (h : Shape s) {source target : PanelLeaf} {insertIdx : Nat} (hsource : source ∈ s.root.panels)
    (htarget : target ∈ s.root.panels) (hne : source.id ≠ target.id) (htab : source.tabs[i]? = some tab)
    (hinsert : insertIdx ≤ target.tabs.length)
    (hmaximized : (source.removeAt i).tabs = [] → s.maximizedPanelId ≠ none →
      s.maximizedPanelId ≠ some source.id ∧ s.root.panels.length ≠ 2) :
    Shape { s with root := s.movedRoot source target i insertIdx tab, focusedPanelId := target.id } ∧
      (s.movedRoot source target i insertIdx tab).tabIds.Perm s.root.tabIds ∧
      target.id ∈ (s.movedRoot source target i insertIdx tab).collectPanelIds := by
  have hx := exchanged_movedRoot h.ids hsource htarget hne i insertIdx tab
  have hfocus : target.id ∈ (s.movedRoot source target i insertIdx tab).collectPanelIds :=
    mem_map.2 ⟨_, hx.mem_news mem_cons_self, rfl⟩
  have hrange := PanelLeaf.inRange_insertAt hinsert tab
  have hall : ∀ q ∈ target.insertAt insertIdx tab :: (if (source.removeAt i).tabs = [] then [] else [source.removeAt i]),
      q.InRange := by
    refine forall_mem_cons.2 ⟨hrange, fun q hq => ?_⟩
    split_ifs at hq with hempty
    · cases hq
    · rw [mem_singleton.1 hq]
      refine PanelLeaf.inRange_removeAt (h.active source hsource fun hnil => ?_) hempty
      rw [hnil] at htab
      cases htab
  refine ⟨shape_exchanged h hx (cons_ne_nil _ _) (fun q hq _ => hall q hq) (fun _ q hq => (hall q hq).ne_nil) hfocus
    fun id hmax => ?_, hx.tabIds_gain (l := []) (tabIds_moved htab hinsert), hfocus⟩
  obtain ⟨hmem, hb⟩ := h.maximized id hmax
  have hempty := fun hempty => hmaximized hempty (hmax ▸ nofun)
  have hlength := hx.length_eq
  refine ⟨hx.mem_panelIds hmem ?_, ?_⟩
  · rintro ⟨q, hq, rfl⟩
    rcases mem_cons.1 hq with rfl | hq
    · exact ⟨_, mem_cons_self, rfl⟩
    · obtain rfl := mem_singleton.1 hq
      rw [if_neg fun hnil => (hempty hnil).1 hmax]
      exact ⟨_, mem_cons_of_mem _ (mem_singleton_self _), rfl⟩
  · rw [isBranch_iff] at hb ⊢
    simp only [length_cons, length_nil] at hlength ⊢
    split_ifs at hlength with hnil
    · have htwo := (hempty hnil).2
      rw [length_nil] at hlength
      omega
    · rw [length_singleton] at hlength
      omega

theorem sound_moveTab (h : Sound s) {fromPanelId toPanelId : String} {index : Option Nat}
    (hindex : ∀ i ∈ index, i ≤ s.tabCount toPanelId) (hmaximized : ¬LeavesMaximized s fromPanelId tabId toPanelId) :
    Sound (s.moveTab fromPanelId tabId toPanelId index) := by
  unfold moveTab
  split_ifs with hsame
  · exact h
  rcases hfrom : s.root.findPanel fromPanelId with _ | source
  · exact h
  rcases hto : s.root.findPanel toPanelId with _ | target
  · exact h
  rw [tabCount_of_find hto] at hindex
  obtain ⟨hsource, rfl⟩ := mem_of_findPanel hfrom
  obtain ⟨htarget, rfl⟩ := mem_of_findPanel hto
  dsimp only
  rcases hi : source.indexOf tabId with _ | i
  · exact h
  obtain ⟨tab, htab, rfl⟩ := PanelLeaf.exists_of_indexOf hi
  dsimp only
  rw [htab]
  have hinsert : index.getD target.tabs.length ≤ target.tabs.length := by
    rcases index with _ | i
    · exact Nat.le_refl _
    · exact hindex i rfl
  obtain ⟨hshape, htabs, hfocus⟩ := movedRoot_keeps h.1 hsource htarget hsame htab hinsert fun hempty hmax => by
    have hremoved := PanelLeaf.tabIds_removeAt htab
    have hholds : s.holds source.id tab.id := ⟨source, hfrom, hremoved.mem_iff.2 mem_cons_self⟩
    have hcount : s.tabCount source.id = 1 := by
      have hlength := hremoved.length_eq
      rw [PanelLeaf.tabIds, PanelLeaf.tabIds, hempty, length_map, map_nil] at hlength
      rw [tabCount_of_find hfrom]
      exact hlength
    have hto : target.id ∈ s.root.collectPanelIds := mem_map_of_mem htarget
    exact ⟨fun hself => hmaximized ⟨hsame, hto, hholds, hcount, hmax, .inl hself⟩,
      fun htwo => hmaximized ⟨hsame, hto, hholds, hcount, hmax, .inr htwo⟩⟩
  dsimp only
  rw [if_pos hfocus]
  exact ⟨hshape, htabs.nodup_iff.2 h.2⟩

/-! ## Other operations -/

theorem toggleMaximizePanel_keeps (h : Shape s) (hpanel : panelId ∈ s.root.collectPanelIds) :
    Shape (s.toggleMaximizePanel panelId) := by
  unfold toggleMaximizePanel
  split_ifs with hmax hbranch
  · exact ⟨h.ids, h.active, h.filled, h.focused, nofun⟩
  · refine ⟨h.ids, h.active, h.filled, hpanel, fun id hid => ?_⟩
    cases hid
    exact ⟨hpanel, hbranch⟩
  · exact h

theorem updateRatio_keeps (h : Shape s) (branchId : String) (ratio : Rat) :
    Shape (s.updateRatio branchId ratio) ∧ (s.updateRatio branchId ratio).root.tabIds = s.root.tabIds := by
  obtain ⟨hpanels, hids⟩ := updateBranchRatio_spec s.root branchId ratio
  have hbranch : (s.root.updateBranchRatio branchId ratio).isBranch = s.root.isBranch := by
    rw [Bool.eq_iff_iff, isBranch_iff, isBranch_iff, hpanels]
  unfold updateRatio
  refine ⟨⟨?_, ?_, ?_, ?_, ?_⟩, ?_⟩
  · rw [hids]
    exact h.ids
  · rw [hpanels]
    exact h.active
  · rw [hpanels, hbranch]
    exact h.filled
  · rw [collectPanelIds, hpanels]
    exact h.focused
  · rw [collectPanelIds, hpanels, hbranch]
    exact h.maximized
  · rw [WorkspaceNode.tabIds, hpanels]
    rfl

/-! ## Drops -/

theorem sound_closeTab (h : Sound s) (freshId : String) : Sound (s.closeTab panelId tabId freshId) := by
  by_cases hholds : s.holds panelId tabId
  · obtain ⟨hshape, htabs⟩ := closeTab_keeps h.1 hholds freshId
    exact ⟨hshape, (nodup_cons.1 (htabs.nodup_iff.1 h.2)).2⟩
  · rw [closeTab_of_not_holds hholds]
    exact h

theorem not_holds_of_ne (honce : TabsOnce s) {other : String} (hholds : s.holds panelId tabId) (hne : panelId ≠ other) :
    ¬s.holds other tabId := by
  rintro ⟨q, hfind', hmem'⟩
  obtain ⟨p, hfind, hmem⟩ := hholds
  obtain ⟨hp, rfl⟩ := mem_of_findPanel hfind
  obtain ⟨hq, rfl⟩ := mem_of_findPanel hfind'
  exact hne (by rw [eq_of_tabId honce hp hq hmem hmem'])

theorem mem_splitPanel (h : Shape s) (hfresh : new.Fresh s) (hp : p ∈ s.root.panels) (hne : p.id ≠ panelId)
    (direction : Axis)
    (insertBefore : Bool) : p ∈ (s.splitPanel panelId direction tab insertBefore new).root.panels := by
  rcases hfind : s.root.findPanel panelId with _ | q
  · rwa [splitPanel, hfind]
  · refine (exchanged_splitPanel h.ids hfresh hfind tab direction insertBefore).mem_of_not_mem hp fun hmem => hne ?_
    rw [mem_singleton.1 hmem, (mem_of_findPanel hfind).2]

theorem sound_applyTabDrop (h : Sound s) (hfresh : new.Fresh s) {data : TabDragData} {target : String}
    (hholds : s.holds data.sourcePanelId data.tab.id) (htarget : target ∈ s.root.collectPanelIds) {zone : DropZone}
    (hmaximized : zone ≠ .center → data.sourcePanelId = target → ¬TakesMaximized s target data.tab.id) :
    Sound (s.applyTabDrop data target zone new) := by
  unfold applyTabDrop
  rcases hparams : dropZoneToSplitParams zone with _ | ⟨axis, insertBefore⟩
  · exact h
  have hcenter : zone ≠ .center := by
    rintro rfl
    cases hparams
  split_ifs with hne
  · -- The tab is in both panels until it is closed in the one it came from.
    have hnot := not_holds_of_ne h.2 hholds hne
    obtain ⟨hshape, -, htabs⟩ := splitPanel_keeps h.1 hfresh (fun htakes => hnot htakes.2.1) htarget axis insertBefore
    obtain ⟨p, hfind, hmem⟩ := hholds
    obtain ⟨hp, hid⟩ := mem_of_findPanel hfind
    have hheld := holds_of_mem hshape (mem_splitPanel h.1 hfresh hp (hid ▸ hne) axis insertBefore) hmem
    rw [hid] at hheld
    obtain ⟨hshape', htabs'⟩ := closeTab_keeps hshape hheld new.fresh
    exact ⟨hshape', ((perm_cons _).1 ((htabs hnot).symm.trans htabs')).nodup_iff.1 h.2⟩
  · have heq := not_not.1 hne
    obtain ⟨hshape, htabs, -⟩ := splitPanel_keeps h.1 hfresh (hmaximized hcenter heq) htarget axis insertBefore
    exact ⟨hshape, (htabs (heq ▸ hholds)).nodup_iff.1 h.2⟩

theorem sound_applyTabRootEdgeDrop (h : Sound s) (hfresh : new.Fresh s) {data : TabDragData}
    (hholds : s.holds data.sourcePanelId data.tab.id) (zone : DropZone) :
    Sound (s.applyTabRootEdgeDrop data zone new) := by
  unfold applyTabRootEdgeDrop
  rcases hparams : dropZoneToSplitParams zone with _ | ⟨axis, insertBefore⟩
  · exact h
  dsimp only
  obtain ⟨p, hfind, hmem⟩ := hholds
  obtain ⟨hp, hid⟩ := mem_of_findPanel hfind
  rcases hroot : s.root with q | ⟨id, direction, ratio, first, second⟩
  · -- The only panel is split, and has given the tab to the new one.
    have hself : s.root.findNode s.root.id = some (panel q) := by rw [findNode_self, hroot]
    rw [hroot, panels, mem_singleton] at hp
    subst hp
    have hpanel : p.id ∈ s.root.collectPanelIds := by
      rw [hroot]
      exact mem_singleton_self _
    have hnotMax : ¬TakesMaximized s p.id data.tab.id := by
      rintro ⟨hmax, -⟩
      have hbranch := (h.1.maximized _ hmax).2
      rw [hroot] at hbranch
      cases hbranch
    rw [hroot] at hself
    obtain ⟨hshape, htabs, -⟩ := splitPanel_keeps h.1 hfresh hnotMax hpanel axis insertBefore
    have hsplit : s.splitAroundNode (panel p).id axis data.tab insertBefore new = s.splitPanel p.id axis data.tab insertBefore new :=
      splitAroundNode_panel (by rw [hroot]; exact hself) axis insertBefore
    rw [hsplit]
    have honce' : TabsOnce (s.splitPanel p.id axis data.tab insertBefore new) :=
      (htabs ⟨p, hid ▸ hfind, hmem⟩).nodup_iff.1 h.2
    split_ifs
    · exact sound_closeTab ⟨hshape, honce'⟩ new.fresh
    · exact ⟨hshape, honce'⟩
  · -- The whole tree gets a panel beside it, and the tab is closed where it was.
    rw [← hroot]
    have hself := findNode_self s.root
    have hbranch : s.root.isBranch = true := by rw [hroot]; rfl
    obtain ⟨hshape, htabs⟩ := splitAroundNode_branch h.1 hfresh hself hbranch data.tab axis insertBefore
    have hstays : p ∈ (s.splitAroundNode s.root.id axis data.tab insertBefore new).root.panels := by
      have hsplit : (s.splitAroundNode s.root.id axis data.tab insertBefore new).root =
          branchOf new.branch axis insertBefore (panel { id := new.panel, tabs := [data.tab], activeTabIndex := 0 }) s.root := by
        unfold splitAroundNode
        rw [hself, hroot]
        exact if_pos rfl
      rw [hsplit]
      exact (branchOf_spec _ _ _ _ _).2.mem_iff.2 (mem_append_right _ hp)
    have hheld := holds_of_mem hshape hstays hmem
    rw [hid] at hheld
    have hcontains : (s.splitAroundNode s.root.id axis data.tab insertBefore new).sourceContainsTab data = true := by
      obtain ⟨q, hq, hmem'⟩ := hheld
      rw [sourceContainsTab, hq, Option.any_some, any_eq_true]
      obtain ⟨t, ht, hid'⟩ := mem_map.1 hmem'
      exact ⟨t, ht, decide_eq_true hid'⟩
    rw [if_pos hcontains]
    obtain ⟨hshape', htabs'⟩ := closeTab_keeps hshape hheld new.fresh
    exact ⟨hshape', ((perm_cons _).1 (htabs.symm.trans htabs')).nodup_iff.1 h.2⟩

end

end LetsFlutSsh.Workspace
