import LetsFlutSsh.Workspace.Node

/-!
# The workspace controller

The operations on the tree, its focused and its maximized panel, as the source computes them; ids that the source makes up
are arguments.

* `WorkspaceState`, and one definition for each operation;
* `applyTabDrop`, `applyTabRootEdgeDrop` : what a dropped tab sets off;
* `Op`, `Op.apply`, `step` : any operation on ids and indices of the current tree.
-/

namespace LetsFlutSsh.Workspace
open WorkspaceNode

structure WorkspaceState where
  root : WorkspaceNode
  focusedPanelId : String
  maximizedPanelId : Option String
deriving DecidableEq

/-- The ids that an operation may make up: of a panel, a branch, a tab, and the panel of a workspace that begins anew. -/
structure NewIds where
  panel : String
  branch : String
  tab : String
  fresh : String
  deriving DecidableEq

def WorkspaceState.initial (id : String) : WorkspaceState := { root := panel { id }, focusedPanelId := id, maximizedPanelId := none }

def TabEntry.duplicate (tab : TabEntry) (id : String) : TabEntry := { tab with id }

/-- An active index that is past the end falls back to the last tab. -/
def clampActive (active : Int) (length : Nat) : Int := if (length : Int) ≤ active then length - 1 else active

namespace PanelLeaf

def indexOf (p : PanelLeaf) (tabId : String) : Option Nat := p.tabs.findIdx? (·.id = tabId)

def removeAt (p : PanelLeaf) (i : Nat) : PanelLeaf :=
  { p with tabs := p.tabs.eraseIdx i, activeTabIndex := clampActive p.activeTabIndex (p.tabs.eraseIdx i).length }

def insertAt (p : PanelLeaf) (i : Nat) (tab : TabEntry) : PanelLeaf :=
  { p with tabs := p.tabs.insertIdx i tab, activeTabIndex := i }

/-- The updater of `selectTab`. -/
def select (p : PanelLeaf) (index : Nat) : PanelLeaf :=
  if index < p.tabs.length then { p with activeTabIndex := index } else p

/-- The updater of `reorderTabs`. -/
def reorder (p : PanelLeaf) (oldIndex newIndex : Nat) : PanelLeaf :=
  match p.tabs[oldIndex]? with
  | none => p
  | some tab =>
    let adjNew := if oldIndex < newIndex then newIndex - 1 else newIndex
    let active := p.activeTabIndex
    { p with
      tabs := (p.tabs.eraseIdx oldIndex).insertIdx adjNew tab
      activeTabIndex :=
        if active = oldIndex then adjNew
        else if oldIndex < active ∧ active ≤ adjNew then active - 1
        else if active < oldIndex ∧ adjNew ≤ active then active + 1
        else active }

end PanelLeaf

namespace WorkspaceState

variable (s : WorkspaceState)

/-! ## Tabs -/

def addTab (panelId : String) (tab : TabEntry) : WorkspaceState :=
  { s with root := s.root.updatePanel panelId fun p => p.insertAt p.tabs.length tab, focusedPanelId := panelId }

/-- `_collapseEmptyPanel`: the sibling is promoted; the last panel gives way to a new one. -/
def collapseEmptyPanel (panelId freshId : String) : WorkspaceState :=
  match s.root.removeWorkspaceNode panelId with
  | none => initial freshId
  | some newRoot =>
    { root := newRoot
      focusedPanelId :=
        if s.focusedPanelId ∈ newRoot.collectPanelIds then s.focusedPanelId else newRoot.collectPanelIds.headD s.focusedPanelId
      maximizedPanelId := if s.maximizedPanelId = some panelId ∨ newRoot.isBranch = false then none else s.maximizedPanelId }

def closeTab (panelId tabId freshId : String) : WorkspaceState :=
  match s.root.findPanel panelId with
  | none => s
  | some p =>
    match p.indexOf tabId with
    | none => s
    | some i =>
      if (p.removeAt i).tabs = [] then s.collapseEmptyPanel panelId freshId
      else { s with root := s.root.updatePanel panelId fun _ => p.removeAt i }

def selectTab (panelId : String) (index : Nat) : WorkspaceState :=
  { s with root := s.root.updatePanel panelId fun p => p.select index, focusedPanelId := panelId }

def reorderTabs (panelId : String) (oldIndex newIndex : Nat) : WorkspaceState :=
  { s with root := s.root.updatePanel panelId fun p => p.reorder oldIndex newIndex }

def closeOthers (panelId tabId : String) : WorkspaceState :=
  match s.root.findPanel panelId with
  | none => s
  | some p =>
    match p.tabs.find? (·.id = tabId) with
    | none => s
    | some kept => { s with root := s.root.updatePanel panelId fun _ => { p with tabs := [kept], activeTabIndex := 0 } }

def closeToTheRight (panelId : String) (index : Nat) : WorkspaceState :=
  match s.root.findPanel panelId with
  | none => s
  | some p =>
    if p.tabs.length ≤ index + 1 then s
    else
      let newTabs := p.tabs.take (index + 1)
      { s with
        root := s.root.updatePanel panelId fun _ => { p with tabs := newTabs, activeTabIndex := clampActive p.activeTabIndex newTabs.length } }

def closeToTheLeft (panelId : String) (index : Nat) : WorkspaceState :=
  match s.root.findPanel panelId with
  | none => s
  | some p =>
    if index = 0 then s
    else
      { s with
        root := s.root.updatePanel panelId fun _ =>
          { p with tabs := p.tabs.drop index, activeTabIndex := max (p.activeTabIndex - index) 0 } }

def closeAll (panelId freshId : String) : WorkspaceState :=
  match s.root.findPanel panelId with
  | none => s
  | some p => if p.tabs = [] then s else s.collapseEmptyPanel panelId freshId

/-! ## Panels -/

def setFocusedPanel (panelId : String) : WorkspaceState := { s with focusedPanelId := panelId }

def toggleMaximizePanel (panelId : String) : WorkspaceState :=
  if s.maximizedPanelId = some panelId then { s with maximizedPanelId := none }
  else if s.root.isBranch then { s with maximizedPanelId := some panelId, focusedPanelId := panelId }
  else s

/-- Two nodes under a new branch, in the order that is asked for. -/
def branchOf (id : String) (direction : Axis) (insertBefore : Bool) (new old : WorkspaceNode) : WorkspaceNode :=
  if insertBefore then branch id direction (1 / 2) new old else branch id direction (1 / 2) old new

def splitSource (p : PanelLeaf) (tabId : String) : PanelLeaf :=
  match p.indexOf tabId with
  | none => p
  | some i => { p.removeAt i with activeTabIndex := max (p.removeAt i).activeTabIndex (-1) }

def splitPanel (panelId : String) (direction : Axis) (tab : TabEntry) (insertBefore : Bool) (new : NewIds) : WorkspaceState :=
  match s.root.findPanel panelId with
  | none => s
  | some source =>
    let newPanel : PanelLeaf := { id := new.panel, tabs := [tab], activeTabIndex := 0 }
    let updated := splitSource source tab.id
    if updated.tabs = [] then { s with root := s.root.replaceWorkspaceNode panelId (panel newPanel), focusedPanelId := newPanel.id }
    else
      { s with
        root := s.root.replaceWorkspaceNode panelId (branchOf new.branch direction insertBefore (panel newPanel) (panel updated))
        focusedPanelId := newPanel.id }

def splitAroundNode (nodeId : String) (direction : Axis) (tab : TabEntry) (insertBefore : Bool) (new : NewIds) : WorkspaceState :=
  match s.root.findNode nodeId with
  | none => s
  | some (panel p) => s.splitPanel p.id direction tab insertBefore new
  | some target =>
    let newPanel : PanelLeaf := { id := new.panel, tabs := [tab], activeTabIndex := 0 }
    let wrapped := branchOf new.branch direction insertBefore (panel newPanel) target
    { s with
      root := if s.root.id = nodeId then wrapped else s.root.replaceWorkspaceNode nodeId wrapped
      focusedPanelId := newPanel.id }

def duplicateTab (panelId : String) (new : NewIds) : WorkspaceState :=
  match s.root.findPanel panelId with
  | none => s
  | some p =>
    match p.activeTab with
    | none => s
    | some tab =>
      { s with root := s.root.updatePanel panelId fun _ => p.insertAt (p.activeTabIndex.toNat + 1) (tab.duplicate new.tab) }

def copyToNewPanel (panelId : String) (direction : Axis) (new : NewIds) : WorkspaceState :=
  match s.root.findPanel panelId with
  | none => s
  | some p =>
    match p.activeTab with
    | none => s
    | some tab =>
      let newPanel : PanelLeaf := { id := new.panel, tabs := [tab.duplicate new.tab], activeTabIndex := 0 }
      { s with
        root := s.root.replaceWorkspaceNode panelId (branchOf new.branch direction false (panel newPanel) (panel p))
        focusedPanelId := newPanel.id }

def updateRatio (branchId : String) (ratio : Rat) : WorkspaceState := { s with root := s.root.updateBranchRatio branchId ratio }

/-- The tree of `moveTab`: the destination is updated first. -/
def movedRoot (source target : PanelLeaf) (i insertIdx : Nat) (tab : TabEntry) : WorkspaceNode :=
  let added := s.root.updatePanel target.id fun _ => target.insertAt insertIdx tab
  if (source.removeAt i).tabs = [] then (added.removeWorkspaceNode source.id).getD added
  else added.updatePanel source.id fun _ => source.removeAt i

def moveTab (fromPanelId tabId toPanelId : String) (index : Option Nat) : WorkspaceState :=
  if fromPanelId = toPanelId then s
  else
    match s.root.findPanel fromPanelId, s.root.findPanel toPanelId with
    | some source, some target =>
      match source.indexOf tabId with
      | none => s
      | some i =>
        match source.tabs[i]? with
        | none => s
        | some tab =>
          let newRoot := s.movedRoot source target i (index.getD target.tabs.length) tab
          { s with
            root := newRoot
            focusedPanelId :=
              if toPanelId ∈ newRoot.collectPanelIds then toPanelId else newRoot.collectPanelIds.headD s.focusedPanelId }
    | _, _ => s

/-! ## Drops -/

end WorkspaceState

structure TabDragData where
  tab : TabEntry
  sourcePanelId : String

inductive DropZone where
  | center
  | left
  | right
  | top
  | bottom
  deriving DecidableEq

/-- `dropZoneToSplitParams`: the axis, and whether the new panel comes first. -/
def dropZoneToSplitParams : DropZone → Option (Axis × Bool)
  | .center => none
  | .left => some (.horizontal, true)
  | .right => some (.horizontal, false)
  | .top => some (.vertical, true)
  | .bottom => some (.vertical, false)

namespace WorkspaceState

variable (s : WorkspaceState)

def applyTabDrop (data : TabDragData) (targetPanelId : String) (zone : DropZone) (new : NewIds) : WorkspaceState :=
  match dropZoneToSplitParams zone with
  | none => s
  | some (axis, insertBefore) =>
    let split := s.splitPanel targetPanelId axis data.tab insertBefore new
    if data.sourcePanelId ≠ targetPanelId then split.closeTab data.sourcePanelId data.tab.id new.fresh else split

def sourceContainsTab (data : TabDragData) : Bool :=
  (s.root.findPanel data.sourcePanelId).any fun p => p.tabs.any fun t => t.id = data.tab.id

def applyTabRootEdgeDrop (data : TabDragData) (zone : DropZone) (new : NewIds) : WorkspaceState :=
  match dropZoneToSplitParams zone with
  | none => s
  | some (axis, insertBefore) =>
    let split := s.splitAroundNode s.root.id axis data.tab insertBefore new
    if split.sourceContainsTab data then split.closeTab data.sourcePanelId data.tab.id new.fresh else split

end WorkspaceState

/-! ## Operations -/

inductive Op where
  | addTab (panelId : String) (tab : TabEntry)
  | closeTab (panelId tabId : String)
  | selectTab (panelId : String) (index : Nat)
  | reorderTabs (panelId : String) (oldIndex newIndex : Nat)
  | closeOthers (panelId tabId : String)
  | closeToTheLeft (panelId : String) (index : Nat)
  | closeToTheRight (panelId : String) (index : Nat)
  | closeAll (panelId : String)
  | splitPanel (panelId : String) (direction : Axis) (tab : TabEntry) (insertBefore : Bool)
  | splitAroundNode (nodeId : String) (direction : Axis) (tab : TabEntry) (insertBefore : Bool)
  | duplicateTab (panelId : String)
  | copyToNewPanel (panelId : String) (direction : Axis)
  | moveTab (fromPanelId tabId toPanelId : String) (index : Option Nat)
  | setFocusedPanel (panelId : String)
  | toggleMaximizePanel (panelId : String)
  | updateRatio (branchId : String) (ratio : Rat)
  | applyTabDrop (data : TabDragData) (targetPanelId : String) (zone : DropZone)
  | applyTabRootEdgeDrop (data : TabDragData) (zone : DropZone)

def Op.apply (s : WorkspaceState) (new : NewIds) : Op → WorkspaceState
  | .addTab panelId tab => s.addTab panelId tab
  | .closeTab panelId tabId => s.closeTab panelId tabId new.fresh
  | .selectTab panelId index => s.selectTab panelId index
  | .reorderTabs panelId oldIndex newIndex => s.reorderTabs panelId oldIndex newIndex
  | .closeOthers panelId tabId => s.closeOthers panelId tabId
  | .closeToTheLeft panelId index => s.closeToTheLeft panelId index
  | .closeToTheRight panelId index => s.closeToTheRight panelId index
  | .closeAll panelId => s.closeAll panelId new.fresh
  | .splitPanel panelId direction tab insertBefore => s.splitPanel panelId direction tab insertBefore new
  | .splitAroundNode nodeId direction tab insertBefore => s.splitAroundNode nodeId direction tab insertBefore new
  | .duplicateTab panelId => s.duplicateTab panelId new
  | .copyToNewPanel panelId direction => s.copyToNewPanel panelId direction new
  | .moveTab fromPanelId tabId toPanelId index => s.moveTab fromPanelId tabId toPanelId index
  | .setFocusedPanel panelId => s.setFocusedPanel panelId
  | .toggleMaximizePanel panelId => s.toggleMaximizePanel panelId
  | .updateRatio branchId ratio => s.updateRatio branchId ratio
  | .applyTabDrop data targetPanelId zone => s.applyTabDrop data targetPanelId zone new
  | .applyTabRootEdgeDrop data zone => s.applyTabRootEdgeDrop data zone new

def WorkspaceState.tabCount (s : WorkspaceState) (panelId : String) : Nat :=
  (s.root.findPanel panelId).elim 0 fun p => p.tabs.length

def WorkspaceState.holds (s : WorkspaceState) (panelId tabId : String) : Prop :=
  ∃ p ∈ s.root.findPanel panelId, tabId ∈ p.tabIds

instance (s : WorkspaceState) (panelId tabId : String) : Decidable (s.holds panelId tabId) :=
  match h : s.root.findPanel panelId with
  | none => isFalse (by rintro ⟨p, hp, -⟩; rw [h] at hp; cases hp)
  | some p =>
    if ht : tabId ∈ p.tabIds then isTrue ⟨p, h, ht⟩
    else isFalse (by rintro ⟨q, hq, hq'⟩; rw [h] at hq; cases hq; exact ht hq')

/-- Ids and indices are of the current tree, where the operation does not look for itself. -/
def Taken (s : WorkspaceState) : Op → Prop
  | .addTab panelId _ => panelId ∈ s.root.collectPanelIds
  | .selectTab panelId _ => panelId ∈ s.root.collectPanelIds
  | .reorderTabs panelId oldIndex newIndex => oldIndex < s.tabCount panelId ∧ newIndex ≤ s.tabCount panelId
  | .closeToTheLeft panelId index => index < s.tabCount panelId
  | .moveTab _ _ toPanelId index => ∀ i ∈ index, i ≤ s.tabCount toPanelId
  | .setFocusedPanel panelId => panelId ∈ s.root.collectPanelIds
  | .toggleMaximizePanel panelId => panelId ∈ s.root.collectPanelIds
  | .applyTabDrop data targetPanelId _ => s.holds data.sourcePanelId data.tab.id ∧ targetPanelId ∈ s.root.collectPanelIds
  | .applyTabRootEdgeDrop data _ => s.holds data.sourcePanelId data.tab.id
  | _ => True

instance (s : WorkspaceState) (op : Op) : Decidable (Taken s op) :=
  match op with
  | .addTab _ _ | .selectTab _ _ | .setFocusedPanel _ | .toggleMaximizePanel _ => inferInstanceAs (Decidable (_ ∈ _))
  | .reorderTabs _ _ _ => inferInstanceAs (Decidable (_ ∧ _))
  | .closeToTheLeft _ _ => inferInstanceAs (Decidable (_ < _))
  | .moveTab _ _ toPanelId index => inferInstanceAs (Decidable (∀ i ∈ index, i ≤ s.tabCount toPanelId))
  | .applyTabDrop _ _ _ => inferInstanceAs (Decidable (_ ∧ _))
  | .applyTabRootEdgeDrop data _ => inferInstanceAs (Decidable (s.holds data.sourcePanelId data.tab.id))
  | .closeTab _ _ | .closeOthers _ _ | .closeToTheRight _ _ | .closeAll _ | .splitPanel _ _ _ _ | .splitAroundNode _ _ _ _
  | .duplicateTab _ | .copyToNewPanel _ _ | .updateRatio _ _ => inferInstanceAs (Decidable True)

def WorkspaceNode.tabIds (root : WorkspaceNode) : List String := root.panels.flatMap PanelLeaf.tabIds

/-- The ids that are made up are new. -/
structure NewIds.Fresh (new : NewIds) (s : WorkspaceState) : Prop where
  panel : new.panel ∉ s.root.nodeIds
  branch : new.branch ∉ s.root.nodeIds
  fresh : new.fresh ∉ s.root.nodeIds
  apart : new.panel ≠ new.branch
  tab : new.tab ∉ s.root.tabIds

instance (new : NewIds) (s : WorkspaceState) : Decidable (new.Fresh s) :=
  decidable_of_iff (new.panel ∉ s.root.nodeIds ∧ new.branch ∉ s.root.nodeIds ∧ new.fresh ∉ s.root.nodeIds ∧
      new.panel ≠ new.branch ∧ new.tab ∉ s.root.tabIds)
    ⟨fun ⟨h₁, h₂, h₃, h₄, h₅⟩ => ⟨h₁, h₂, h₃, h₄, h₅⟩, fun ⟨h₁, h₂, h₃, h₄, h₅⟩ => ⟨h₁, h₂, h₃, h₄, h₅⟩⟩

def step (s : WorkspaceState) (l : Op × NewIds) : Option WorkspaceState :=
  if Taken s l.1 ∧ l.2.Fresh s then some (l.1.apply s l.2) else none

end LetsFlutSsh.Workspace
