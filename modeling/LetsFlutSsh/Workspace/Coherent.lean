import LetsFlutSsh.Workspace.Operations
import LetsFlutSsh.Lib.Run

/-!
# A coherent workspace

* `Coherent` : what a workspace must be like at any time;
* `Careful` : the operations that keep it so;
* `sound_step`, `coherent_of_careful` : every run of careful operations leaves a coherent workspace.
-/

namespace LetsFlutSsh.Workspace
open Lib WorkspaceNode WorkspaceState List

/-- Ids and tabs occur once, a stack beside others is filled and has an active tab, and the focused and the maximized panel
are there. -/
structure Coherent (s : WorkspaceState) : Prop where
  ids : s.root.nodeIds.Nodup
  tabs : (s.root.collectAllTabs.map TabEntry.id).Nodup
  filled : ∀ p ∈ s.root.panels, s.root ≠ panel p → p.tabs ≠ [] ∧ 0 ≤ p.activeTabIndex ∧ p.activeTabIndex < p.tabs.length
  focused : s.focusedPanelId ∈ s.root.collectPanelIds
  maximized : ∀ id, s.maximizedPanelId = some id → id ∈ s.root.collectPanelIds ∧ 2 ≤ s.root.collectPanelIds.length

/-- A tab that comes is new, or is taken from the panel that is split; and the maximized panel does not go with its last tab,
nor as one of the last two. -/
def Careful (s : WorkspaceState) : Op → Prop
  | .addTab _ tab => tab.id ∉ s.root.tabIds
  | .splitPanel panelId _ tab _ => (s.holds panelId tab.id ∨ tab.id ∉ s.root.tabIds) ∧ ¬TakesMaximized s panelId tab.id
  | .splitAroundNode nodeId _ tab _ => (s.holds nodeId tab.id ∨ tab.id ∉ s.root.tabIds) ∧ ¬TakesMaximized s nodeId tab.id
  | .moveTab fromPanelId tabId toPanelId _ => ¬LeavesMaximized s fromPanelId tabId toPanelId
  | .applyTabDrop data targetPanelId zone =>
    zone ≠ .center → data.sourcePanelId = targetPanelId → ¬TakesMaximized s targetPanelId data.tab.id
  | _ => True

instance (s : WorkspaceState) (panelId tabId : String) : Decidable (TakesMaximized s panelId tabId) :=
  inferInstanceAs (Decidable (_ ∧ _ ∧ _))

instance (s : WorkspaceState) (panelId tabId toPanelId : String) : Decidable (LeavesMaximized s panelId tabId toPanelId) :=
  inferInstanceAs (Decidable (_ ∧ _ ∧ _ ∧ _ ∧ _ ∧ _))

instance (s : WorkspaceState) (op : Op) : Decidable (Careful s op) :=
  match op with
  | .addTab _ _ => inferInstanceAs (Decidable (¬_))
  | .splitPanel _ _ _ _ | .splitAroundNode _ _ _ _ => inferInstanceAs (Decidable (_ ∧ _))
  | .moveTab _ _ _ _ => inferInstanceAs (Decidable (¬_))
  | .applyTabDrop _ _ _ => inferInstanceAs (Decidable (_ → _ → ¬_))
  | .closeTab _ _ | .selectTab _ _ | .reorderTabs _ _ _ | .closeOthers _ _ | .closeToTheLeft _ _ | .closeToTheRight _ _
  | .closeAll _ | .duplicateTab _ | .copyToNewPanel _ _ | .setFocusedPanel _ | .toggleMaximizePanel _ | .updateRatio _ _
  | .applyTabRootEdgeDrop _ _ => inferInstanceAs (Decidable True)

section
variable {s t : WorkspaceState} {l : Op × NewIds}

theorem sound_initial (id : String) : Sound (initial id) := ⟨shape_initial id, nodup_nil⟩

theorem Sound.coherent (h : Sound s) : Coherent s where
  ids := h.1.ids
  tabs := by
    have hmap : s.root.collectAllTabs.map TabEntry.id = s.root.tabIds := map_flatMap ..
    rw [hmap]
    exact h.2
  filled := by
    intro p hp hne
    have hbranch : s.root.isBranch = true := by
      rcases hroot : s.root with q | ⟨_, _, _, _, _⟩
      · rw [hroot, panels, mem_singleton] at hp
        exact absurd (by rw [hroot, hp]) hne
      · rfl
    have hfilled := h.1.filled hbranch p hp
    exact ⟨hfilled, h.1.active p hp hfilled⟩
  focused := h.1.focused
  maximized := by
    intro id hmax
    obtain ⟨hmem, hbranch⟩ := h.1.maximized id hmax
    refine ⟨hmem, ?_⟩
    have hpos := length_pos_iff.2 s.root.panels_ne_nil
    rw [isBranch_iff] at hbranch
    rw [collectPanelIds, length_map]
    omega

theorem sound_split (h : Sound s) {panelId tabId : String} (hshape : Shape t) (htabs : SplitTabs s t panelId tabId)
    (htab : s.holds panelId tabId ∨ tabId ∉ s.root.tabIds) : Sound t := by
  refine ⟨hshape, ?_⟩
  by_cases hholds : s.holds panelId tabId
  · exact (htabs.1 hholds).nodup_iff.1 h.2
  · exact (htabs.2 hholds).nodup_iff.2 (nodup_cons.2 ⟨htab.resolve_left hholds, h.2⟩)

theorem sound_splitPanel (h : Sound s) {new : NewIds} (hfresh : new.Fresh s) {panelId : String} {tab : TabEntry}
    (htab : s.holds panelId tab.id ∨ tab.id ∉ s.root.tabIds) (hmaximized : ¬TakesMaximized s panelId tab.id) (direction : Axis)
    (insertBefore : Bool) : Sound (s.splitPanel panelId direction tab insertBefore new) := by
  by_cases hpanel : panelId ∈ s.root.collectPanelIds
  · obtain ⟨hshape, htabs⟩ := splitPanel_keeps h.1 hfresh hmaximized hpanel direction insertBefore
    exact sound_split h hshape htabs htab
  · have hnone : s.root.findPanel panelId = none := by
      rw [findPanel_eq, find?_eq_none]
      intro p hp hid
      exact hpanel (of_decide_eq_true hid ▸ mem_map_of_mem hp)
    rw [splitPanel, hnone]
    exact h

theorem sound_splitAroundNode (h : Sound s) {new : NewIds} (hfresh : new.Fresh s) {nodeId : String} {tab : TabEntry}
    (htab : s.holds nodeId tab.id ∨ tab.id ∉ s.root.tabIds) (hmaximized : ¬TakesMaximized s nodeId tab.id) (direction : Axis)
    (insertBefore : Bool) : Sound (s.splitAroundNode nodeId direction tab insertBefore new) := by
  rcases hfind : s.root.findNode nodeId with _ | (p | ⟨id, axis, ratio, first, second⟩)
  · rw [splitAroundNode, hfind]
    exact h
  · rw [splitAroundNode_panel hfind]
    exact sound_splitPanel h hfresh htab hmaximized direction insertBefore
  · obtain ⟨hshape, htabs⟩ := splitAroundNode_branch h.1 hfresh hfind rfl tab direction insertBefore
    refine ⟨hshape, htabs.nodup_iff.2 (nodup_cons.2 ⟨htab.resolve_left ?_, h.2⟩)⟩
    -- The id is a branch's, and so no panel's.
    rintro ⟨q, hholder, -⟩
    obtain ⟨hq, rfl⟩ := mem_of_findPanel hholder
    rw [findNode_of_mem h.1.ids hq] at hfind
    cases hfind

theorem sound_step (h : Sound s) (hok : Careful s l.1) (hstep : step s l = some t) : Sound t := by
  obtain ⟨op, new⟩ := l
  unfold step at hstep
  split_ifs at hstep with hguard
  cases hstep
  obtain ⟨htaken, hfresh⟩ := hguard
  cases op with
  | addTab panelId tab => exact sound_addTab h htaken hok
  | closeTab panelId tabId => exact sound_closeTab h new.fresh
  | selectTab panelId index => exact sound_selectTab h htaken index
  | reorderTabs panelId oldIndex newIndex => exact sound_reorderTabs h htaken.1 htaken.2
  | closeOthers panelId tabId => exact sound_closeOthers h
  | closeToTheLeft panelId index => exact sound_closeToTheLeft h htaken
  | closeToTheRight panelId index => exact sound_closeToTheRight h index
  | closeAll panelId => exact sound_closeAll h new.fresh
  | splitPanel panelId direction tab insertBefore => exact sound_splitPanel h hfresh hok.1 hok.2 direction insertBefore
  | splitAroundNode nodeId direction tab insertBefore => exact sound_splitAroundNode h hfresh hok.1 hok.2 direction insertBefore
  | duplicateTab panelId => exact sound_duplicateTab h hfresh
  | copyToNewPanel panelId direction => exact sound_copyToNewPanel h hfresh direction
  | moveTab fromPanelId tabId toPanelId index => exact sound_moveTab h htaken hok
  | setFocusedPanel panelId => exact ⟨h.1.refocus htaken, h.2⟩
  | toggleMaximizePanel panelId =>
    refine ⟨toggleMaximizePanel_keeps h.1 htaken, ?_⟩
    have hroot : (s.toggleMaximizePanel panelId).root = s.root := by
      unfold toggleMaximizePanel
      split_ifs <;> rfl
    change (s.toggleMaximizePanel panelId).root.tabIds.Nodup
    rw [hroot]
    exact h.2
  | updateRatio branchId ratio =>
    obtain ⟨hshape, htabs⟩ := updateRatio_keeps h.1 branchId ratio
    refine ⟨hshape, ?_⟩
    change (s.updateRatio branchId ratio).root.tabIds.Nodup
    rw [htabs]
    exact h.2
  | applyTabDrop data targetPanelId zone => exact sound_applyTabDrop h hfresh htaken.1 htaken.2 hok
  | applyTabRootEdgeDrop data zone => exact sound_applyTabRootEdgeDrop h hfresh htaken zone

end

/-- **Every run of careful operations leaves a coherent workspace.** -/
theorem coherent_of_careful {id : String} {ls : List (Op × NewIds)} {t : WorkspaceState}
    (hcareful : Along step (fun s l => Careful s l.1) (initial id) ls) (hrun : run step (initial id) ls = some t) : Coherent t :=
  (run_invariant (fun _ _ _ h hok hstep => sound_step h hok hstep) (sound_initial id) hcareful hrun).coherent

def sampleTab (id : String) : TabEntry := { id, label := id, connection := "c", kind := .terminal }

def splitAndMaximized : List (Op × NewIds) :=
  [(.addTab "r" (sampleTab "t1"), ⟨"p0", "b0", "u0", "f0"⟩), (.addTab "r" (sampleTab "t2"), ⟨"p0", "b0", "u0", "f0"⟩),
    (.splitPanel "r" .horizontal (sampleTab "t2") false, ⟨"p1", "b1", "u1", "f1"⟩),
    (.toggleMaximizePanel "p1", ⟨"p2", "b2", "u2", "f2"⟩)]

/-- A tab of another panel is dropped on the maximized one. -/
theorem coherent_of_careful_dropped :
    ∃ t, run step (initial "r") (splitAndMaximized ++ [(.applyTabDrop ⟨sampleTab "t1", "r"⟩ "p1" .top, ⟨"p2", "b2", "u2", "f2"⟩)]) =
      some t ∧ t.maximizedPanelId = some "p1" ∧ Coherent t := by
  have hmaximized : (run step (initial "r")
      (splitAndMaximized ++ [(.applyTabDrop ⟨sampleTab "t1", "r"⟩ "p1" .top, ⟨"p2", "b2", "u2", "f2"⟩)])).map
        WorkspaceState.maximizedPanelId = some (some "p1") := by decide +kernel
  obtain ⟨t, hrun, hmax⟩ := Option.map_eq_some_iff.1 hmaximized
  have htest : ∀ (s : WorkspaceState) (l : Op × NewIds), decide (Careful s l.1) = true → Careful s l.1 :=
    fun _ _ h => of_decide_eq_true h
  exact ⟨t, hrun, hmax, coherent_of_careful (along_of_checks htest (by decide +kernel)) hrun⟩

/-- **The maximized panel's own tab** is dropped on it: the panel is replaced, and its id stays behind as the maximized one. -/
theorem maximized_panel_is_gone :
    ∃ t, run step (initial "r") (splitAndMaximized ++ [(.applyTabDrop ⟨sampleTab "t2", "p1"⟩ "p1" .right, ⟨"p2", "b2", "u2", "f2"⟩)]) =
      some t ∧ t.maximizedPanelId = some "p1" ∧ t.root.collectPanelIds = ["r", "p2"] ∧ ¬Coherent t := by
  have hleft : (run step (initial "r")
      (splitAndMaximized ++ [(.applyTabDrop ⟨sampleTab "t2", "p1"⟩ "p1" .right, ⟨"p2", "b2", "u2", "f2"⟩)])).map
        (fun t => (t.maximizedPanelId, t.root.collectPanelIds)) = some (some "p1", ["r", "p2"]) := by decide +kernel
  obtain ⟨t, hrun, hstate⟩ := Option.map_eq_some_iff.1 hleft
  obtain ⟨hmax, hpanels⟩ := Prod.mk.inj hstate
  refine ⟨t, hrun, hmax, hpanels, fun h => ?_⟩
  have hmem := (h.maximized "p1" hmax).1
  rw [hpanels] at hmem
  exact absurd hmem (by decide)

end LetsFlutSsh.Workspace
