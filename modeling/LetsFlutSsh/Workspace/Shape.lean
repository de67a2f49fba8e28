import LetsFlutSsh.Workspace.Controller

/-!
# The shape of the workspace

What every operation keeps, whatever tabs it puts where.

* `Exchanged` : some panels of a tree give way to others (`exchanged_update`, `exchanged_collapse`, `exchanged_branchOf`,
  `exchanged_swap` : the four ways to change the tree);
* `Shape` : nodes have ids of their own, stacks are filled, and the focused and the maximized panel are there.
-/

namespace LetsFlutSsh.Workspace
open WorkspaceNode WorkspaceState List

def PanelLeaf.InRange (p : PanelLeaf) : Prop := 0 ≤ p.activeTabIndex ∧ p.activeTabIndex < p.tabs.length

variable {p : PanelLeaf}

theorem PanelLeaf.InRange.ne_nil (h : p.InRange) : p.tabs ≠ [] := by
  intro hnil
  rw [InRange, hnil, length_nil] at h
  omega

structure Shape (s : WorkspaceState) : Prop where
  ids : s.root.nodeIds.Nodup
  active : ∀ p ∈ s.root.panels, p.tabs ≠ [] → p.InRange
  filled : s.root.isBranch = true → ∀ p ∈ s.root.panels, p.tabs ≠ []
  focused : s.focusedPanelId ∈ s.root.collectPanelIds
  maximized : ∀ id, s.maximizedPanelId = some id → id ∈ s.root.collectPanelIds ∧ s.root.isBranch = true

theorem shape_initial (id : String) : Shape (initial id) where
  ids := nodup_singleton _
  active := fun p hp hne => by
    rw [initial, panels, mem_singleton] at hp
    exact absurd (by rw [hp]) hne
  filled := nofun
  focused := mem_singleton_self _
  maximized := nofun

variable {nodeId : String} {q : PanelLeaf}

section
variable {root newRoot : WorkspaceNode} {olds news : List PanelLeaf} {s : WorkspaceState}

theorem tabIds_of_perm {l : List PanelLeaf} (h : root.panels.Perm l) : root.tabIds.Perm (l.flatMap PanelLeaf.tabIds) :=
  h.flatMap_right _

theorem isBranch_iff : root.isBranch = true ↔ root.panels.length ≠ 1 := by
  rw [ne_eq, length_panels_eq_one_iff, Bool.not_eq_false]

/-- The panels `olds` have given way to `news`, and the others are as before. -/
structure Exchanged (root newRoot : WorkspaceNode) (olds news : List PanelLeaf) : Prop where
  ids : newRoot.nodeIds.Nodup
  panels : ∃ rest, root.panels.Perm (olds ++ rest) ∧ newRoot.panels.Perm (news ++ rest)

theorem exchanged_update (hids : root.nodeIds.Nodup) (hp : p ∈ root.panels) (updater : PanelLeaf → PanelLeaf)
    (hid : ∀ q, q.id = p.id → (updater q).id = q.id) : Exchanged root (root.updatePanel p.id updater) [p] [updater p] := by
  obtain ⟨rest, hperm, -, hupdate⟩ := exists_rest_update hids hp
  exact ⟨by rwa [nodeIds_updatePanel root hid], rest, hperm, hupdate updater⟩

theorem exchanged_remove (hids : root.nodeIds.Nodup) (hp : p ∈ root.panels) (hbranch : root.isBranch = true) :
    ∃ newRoot, root.removeWorkspaceNode p.id = some newRoot ∧ Exchanged root newRoot [p] [] := by
  obtain ⟨newRoot, hremove, hpanels, hsub⟩ := exists_removeWorkspaceNode hids hp hbranch
  obtain ⟨rest, hperm, hne, -⟩ := exists_rest_update hids hp
  refine ⟨newRoot, hremove, hids.sublist hsub, rest, hperm, ?_⟩
  rw [hpanels]
  refine (hperm.filter _).trans ?_
  rw [filter_cons_of_neg (by simp), filter_eq_self.2 fun q hq => decide_eq_true (hne q hq)]
  exact Perm.refl _

theorem eq_panel (hp : p ∈ root.panels) (hbranch : root.isBranch = false) : root = panel p := by
  cases root with
  | panel q => rw [mem_singleton.1 hp]
  | branch => cases hbranch

theorem exchanged_collapse (hids : s.root.nodeIds.Nodup) (hp : p ∈ s.root.panels) (freshId : String) :
    Exchanged s.root (s.collapseEmptyPanel p.id freshId).root [p] (if s.root.isBranch then [] else [{ id := freshId }]) := by
  rcases hbranch : s.root.isBranch
  · have hroot := eq_panel hp hbranch
    have hnone : s.root.removeWorkspaceNode p.id = none := by rw [hroot, removeWorkspaceNode, if_pos rfl]
    rw [collapseEmptyPanel, hnone, hroot]
    exact ⟨nodup_singleton _, [], Perm.refl _, Perm.refl _⟩
  · obtain ⟨newRoot, hremove, hx⟩ := exchanged_remove hids hp hbranch
    rw [collapseEmptyPanel, hremove]
    exact hx

theorem exchanged_replace (hids : root.nodeIds.Nodup) {target r : WorkspaceNode}
    (hfind : root.findNode nodeId = some target) {fresh kept : List String} (hr : r.nodeIds.Perm (fresh ++ kept))
    (hkept : kept.Sublist target.nodeIds) (hfresh : fresh.Nodup) (hnew : ∀ id ∈ fresh, id ∉ root.nodeIds)
    (hnews : r.panels.Perm news) : Exchanged root (root.replaceWorkspaceNode nodeId r) target.panels news := by
  obtain ⟨ids, rest, hpermIds, hperm, hreplace⟩ := exists_rest_replace hids hfind
  refine ⟨((hreplace r).1.trans (hr.append_right ids)).nodup_iff.2 ?_, rest, hperm, (hreplace r).2.trans (hnews.append_right rest)⟩
  have hsub : (kept ++ ids).Sublist (target.nodeIds ++ ids) := hkept.append_right ids
  rw [append_assoc, nodup_append]
  refine ⟨hfresh, (hpermIds.nodup_iff.1 hids).sublist hsub, ?_⟩
  rintro id hid _ hid' rfl
  exact hnew id hid (hpermIds.mem_iff.2 (hsub.subset hid'))

theorem branchOf_spec (id : String) (direction : Axis) (insertBefore : Bool) (new old : WorkspaceNode) :
    (branchOf id direction insertBefore new old).nodeIds.Perm (id :: (new.nodeIds ++ old.nodeIds)) ∧
      (branchOf id direction insertBefore new old).panels.Perm (new.panels ++ old.panels) := by
  cases insertBefore with
  | true => exact ⟨Perm.refl _, Perm.refl _⟩
  | false => exact ⟨perm_append_comm.cons id, perm_append_comm⟩

variable {new : NewIds} {added : PanelLeaf}

theorem exchanged_branchOf (hids : s.root.nodeIds.Nodup) {target old : WorkspaceNode}
    (hfind : s.root.findNode nodeId = some target) (hfresh : new.Fresh s) (hadded : added.id = new.panel)
    (hold : old.nodeIds = target.nodeIds) (direction : Axis) (insertBefore : Bool) :
    Exchanged s.root (s.root.replaceWorkspaceNode nodeId (branchOf new.branch direction insertBefore (panel added) old))
      target.panels (added :: old.panels) := by
  obtain ⟨hbranchIds, hbranchPanels⟩ := branchOf_spec new.branch direction insertBefore (panel added) old
  rw [nodeIds, hadded, hold] at hbranchIds
  have hperm : _ := show Perm _ ([new.branch, new.panel] ++ target.nodeIds) from hbranchIds
  have hnodup : [new.branch, new.panel].Nodup := nodup_cons.2
    ⟨fun hmem => hfresh.apart (mem_singleton.1 hmem).symm, nodup_singleton _⟩
  refine exchanged_replace hids hfind hperm (Sublist.refl _) hnodup ?_ hbranchPanels
  simp only [mem_cons, not_mem_nil, or_false, forall_eq_or_imp, forall_eq]
  exact ⟨hfresh.branch, hfresh.panel⟩

theorem exchanged_swap (hids : s.root.nodeIds.Nodup) (hp : p ∈ s.root.panels) (hfresh : new.Fresh s) (hadded : added.id = new.panel) :
    Exchanged s.root (s.root.replaceWorkspaceNode p.id (panel added)) [p] [added] := by
  have hids' : (panel added).nodeIds.Perm ([new.panel] ++ []) := by
    rw [nodeIds, hadded]
    exact Perm.refl _
  exact exchanged_replace hids (findNode_of_mem hids hp) hids' (nil_sublist _) (nodup_singleton _)
    (fun id hid => mem_singleton.1 hid ▸ hfresh.panel) (Perm.refl _)

namespace Exchanged

theorem trans {last : WorkspaceNode} {p' : PanelLeaf} (h : Exchanged root newRoot [p] [q]) (h' : Exchanged newRoot last [p'] news)
    (hne : p' ≠ q) : Exchanged root last [p, p'] (q :: news) := by
  obtain ⟨rest, hold, hnew⟩ := h.panels
  obtain ⟨rest', hold', hnew'⟩ := h'.panels
  have hboth := hnew.symm.trans hold'
  have hmem : p' ∈ rest := (mem_cons.1 (hboth.mem_iff.2 mem_cons_self)).resolve_left hne
  have hrest := perm_cons_erase hmem
  have hrest' : rest'.Perm (q :: rest.erase p') :=
    (perm_cons p').1 (hboth.symm.trans ((hrest.cons q).trans (Perm.swap ..)))
  exact ⟨h'.ids, rest.erase p', hold.trans (hrest.cons p), hnew'.trans ((hrest'.append_left news).trans perm_middle)⟩

variable (h : Exchanged root newRoot olds news)

include h

theorem length_eq : newRoot.panels.length + olds.length = root.panels.length + news.length := by
  obtain ⟨rest, hold, hnew⟩ := h.panels
  rw [hold.length_eq, hnew.length_eq, length_append, length_append]
  omega

theorem mem_news (hq : q ∈ news) : q ∈ newRoot.panels := by
  obtain ⟨rest, -, hnew⟩ := h.panels
  exact hnew.mem_iff.2 (mem_append_left _ hq)

theorem mem_of_not_mem (hq : q ∈ root.panels) (hnot : q ∉ olds) : q ∈ newRoot.panels := by
  obtain ⟨rest, hold, hnew⟩ := h.panels
  exact hnew.mem_iff.2 (mem_append_right _ ((mem_append.1 (hold.mem_iff.1 hq)).resolve_left hnot))

theorem mem_panelIds {id : String} (hid : id ∈ root.collectPanelIds) (hkept : (∃ p ∈ olds, p.id = id) → ∃ q ∈ news, q.id = id) :
    id ∈ newRoot.collectPanelIds := by
  obtain ⟨rest, hold, hnew⟩ := h.panels
  obtain ⟨p, hp, rfl⟩ := mem_map.1 hid
  rcases mem_append.1 (hold.mem_iff.1 hp) with hp | hp
  · obtain ⟨q, hq, hsame⟩ := hkept ⟨p, hp, rfl⟩
    exact mem_map.2 ⟨q, h.mem_news hq, hsame⟩
  · exact mem_map_of_mem (hnew.mem_iff.2 (mem_append_right _ hp))

theorem tabIds : ∃ rest, root.tabIds.Perm (olds.flatMap PanelLeaf.tabIds ++ rest) ∧
    newRoot.tabIds.Perm (news.flatMap PanelLeaf.tabIds ++ rest) := by
  obtain ⟨rest, hold, hnew⟩ := h.panels
  exact ⟨rest.flatMap PanelLeaf.tabIds, flatMap_append ▸ tabIds_of_perm hold, flatMap_append ▸ tabIds_of_perm hnew⟩

theorem tabIds_gain {l : List String} (hgain : (news.flatMap PanelLeaf.tabIds).Perm (l ++ olds.flatMap PanelLeaf.tabIds)) :
    newRoot.tabIds.Perm (l ++ root.tabIds) := by
  obtain ⟨rest, hold, hnew⟩ := h.tabIds
  refine hnew.trans ((hgain.append_right rest).trans ?_)
  rw [append_assoc]
  exact hold.symm.append_left l

theorem tabIds_loss {l : List String} (hloss : (olds.flatMap PanelLeaf.tabIds).Perm (l ++ news.flatMap PanelLeaf.tabIds)) :
    root.tabIds.Perm (l ++ newRoot.tabIds) := by
  obtain ⟨rest, hold, hnew⟩ := h.tabIds
  refine hold.trans ((hloss.append_right rest).trans ?_)
  rw [append_assoc]
  exact hnew.symm.append_left l

theorem nodup_tabIds (honce : root.tabIds.Nodup) (hsub : (news.flatMap PanelLeaf.tabIds).Subperm (olds.flatMap PanelLeaf.tabIds)) :
    newRoot.tabIds.Nodup := by
  obtain ⟨rest, hold, hnew⟩ := h.tabIds
  obtain ⟨l, hl, hsublist⟩ := hsub
  have hnodup := (hold.nodup_iff.1 honce).sublist (hsublist.append_right rest)
  exact hnew.nodup_iff.2 ((hl.append_right rest).nodup_iff.1 hnodup)

end Exchanged

theorem shape_exchanged {t : WorkspaceState} (h : Shape s) (hx : Exchanged s.root t.root olds news) (hne : olds ≠ [])
    (hactive : ∀ q ∈ news, q.tabs ≠ [] → q.InRange) (hfilled : t.root.isBranch = true → ∀ q ∈ news, q.tabs ≠ [])
    (hfocused : t.focusedPanelId ∈ t.root.collectPanelIds)
    (hmaximized : ∀ id, t.maximizedPanelId = some id → id ∈ t.root.collectPanelIds ∧ t.root.isBranch = true) : Shape t := by
  obtain ⟨rest, hold, hnew⟩ := hx.panels
  have hrest : ∀ q ∈ rest, q ∈ s.root.panels := fun q hq => hold.mem_iff.2 (mem_append_right _ hq)
  refine ⟨hx.ids, fun q hq => ?_, fun hb q hq => ?_, hfocused, hmaximized⟩
  · rcases mem_append.1 (hnew.mem_iff.1 hq) with hq | hq
    · exact hactive q hq
    · exact h.active q (hrest q hq)
  rcases mem_append.1 (hnew.mem_iff.1 hq) with hq | hq
  · exact hfilled hb q hq
  · -- The panels that went and `q` were two at least.
    have hpos := length_pos_iff.2 hne
    have hpos' := length_pos_of_mem hq
    refine h.filled ?_ q (hrest q hq)
    rw [isBranch_iff, hold.length_eq, length_append]
    omega

theorem shape_kept (h : Shape s) (hx : Exchanged s.root newRoot olds news) (hne : olds ≠ [])
    (hkept : ∀ p ∈ olds, ∃ q ∈ news, q.id = p.id) (hlength : olds.length ≤ news.length)
    (hactive : ∀ q ∈ news, q.tabs ≠ [] → q.InRange) (hfilled : newRoot.isBranch = true → ∀ q ∈ news, q.tabs ≠ [])
    {focused : String} (hfocused : focused ∈ newRoot.collectPanelIds) :
    Shape { s with root := newRoot, focusedPanelId := focused } := by
  refine shape_exchanged h hx hne hactive hfilled hfocused fun id hmax => ?_
  obtain ⟨hmem, hb⟩ := h.maximized id hmax
  refine ⟨hx.mem_panelIds hmem fun ⟨p, hp, hid⟩ => hid ▸ hkept p hp, ?_⟩
  have hcount := hx.length_eq
  have hpos' := length_pos_iff.2 s.root.panels_ne_nil
  rw [isBranch_iff] at hb ⊢
  dsimp only
  omega

theorem shape_update (h : Shape s) (hp : p ∈ s.root.panels) (updater : PanelLeaf → PanelLeaf)
    (hid : ∀ q, q.id = p.id → (updater q).id = q.id) (hactive : (updater p).tabs ≠ [] → (updater p).InRange)
    (hfilled : p.tabs ≠ [] → (updater p).tabs ≠ []) {focused : String} (hfocused : focused ∈ s.root.collectPanelIds) :
    Shape { s with root := s.root.updatePanel p.id updater, focusedPanelId := focused } := by
  have hx := exchanged_update h.ids hp updater hid
  have hkept : ∀ q ∈ [p], ∃ q' ∈ [updater p], q'.id = q.id := fun q hq =>
    ⟨updater p, mem_singleton_self _, mem_singleton.1 hq ▸ hid p rfl⟩
  refine shape_kept h hx (cons_ne_nil _ _) hkept (Nat.le_refl _) ?_ (fun hb => ?_) (hx.mem_panelIds hfocused ?_)
  · exact forall_mem_singleton.2 hactive
  · have hlength := hx.length_eq
    have hbranch : s.root.isBranch = true := by
      rw [isBranch_iff] at hb ⊢
      rw [length_singleton, length_singleton] at hlength
      omega
    exact forall_mem_singleton.2 (hfilled (h.filled hbranch p hp))
  · rintro ⟨q, hq, rfl⟩
    exact hkept q hq

theorem shape_collapse (h : Shape s) (hp : p ∈ s.root.panels) (freshId : String) : Shape (s.collapseEmptyPanel p.id freshId) := by
  rcases hbranch : s.root.isBranch
  · have hroot := eq_panel hp hbranch
    have hnone : s.root.removeWorkspaceNode p.id = none := by rw [hroot, removeWorkspaceNode, if_pos rfl]
    rw [collapseEmptyPanel, hnone]
    exact shape_initial freshId
  obtain ⟨newRoot, hremove, hx⟩ := exchanged_remove h.ids hp hbranch
  rw [collapseEmptyPanel, hremove]
  refine shape_exchanged h hx (cons_ne_nil _ _) (by simp) (by simp) ?_ fun id hmax => ?_
  · dsimp only
    split_ifs with hfocus
    · exact hfocus
    · rcases hids : newRoot.collectPanelIds with _ | ⟨first, ids⟩
      · exact absurd (map_eq_nil_iff.1 hids) newRoot.panels_ne_nil
      · exact mem_cons_self
  · dsimp only at hmax ⊢
    split_ifs at hmax with hclear
    rw [not_or, Bool.not_eq_false] at hclear
    refine ⟨hx.mem_panelIds (h.maximized id hmax).1 ?_, hclear.2⟩
    rintro ⟨q, hq, rfl⟩
    rw [mem_singleton.1 hq] at hmax
    exact absurd hmax hclear.1

theorem shape_branchOf (h : Shape s) {target old : WorkspaceNode} (hfind : s.root.findNode nodeId = some target)
    (hfresh : new.Fresh s) (hadded : added.id = new.panel) (hrange : added.InRange) (hids : old.nodeIds = target.nodeIds)
    (hpanelIds : old.collectPanelIds = target.collectPanelIds) (hold : ∀ q ∈ old.panels, q.InRange) (direction : Axis)
    (insertBefore : Bool) :
    Shape { s with
      root := s.root.replaceWorkspaceNode nodeId (branchOf new.branch direction insertBefore (panel added) old)
      focusedPanelId := added.id } := by
  have hx := exchanged_branchOf h.ids hfind hfresh hadded hids direction insertBefore
  have hall : ∀ q ∈ added :: old.panels, q.InRange := forall_mem_cons.2 ⟨hrange, hold⟩
  refine shape_kept h hx target.panels_ne_nil (fun p hp => ?_) ?_ (fun q hq _ => hall q hq) (fun _ q hq => (hall q hq).ne_nil)
    (mem_map_of_mem (hx.mem_news mem_cons_self))
  · have hmem : p.id ∈ old.collectPanelIds := hpanelIds ▸ mem_map_of_mem hp
    obtain ⟨q, hq, hid⟩ := mem_map.1 hmem
    exact ⟨q, mem_cons_of_mem _ hq, hid⟩
  · have hlength := congrArg List.length hpanelIds
    rw [collectPanelIds, collectPanelIds, length_map, length_map] at hlength
    rw [length_cons]
    omega

theorem shape_swap (h : Shape s) (hp : p ∈ s.root.panels) (hfresh : new.Fresh s) (hadded : added.id = new.panel)
    (hrange : added.InRange) (hmaximized : s.maximizedPanelId ≠ some p.id) :
    Shape { s with root := s.root.replaceWorkspaceNode p.id (panel added), focusedPanelId := added.id } := by
  have hx := exchanged_swap h.ids hp hfresh hadded
  refine shape_exchanged h hx (cons_ne_nil _ _) (forall_mem_singleton.2 fun _ => hrange)
    (fun _ => forall_mem_singleton.2 hrange.ne_nil) (mem_map_of_mem (hx.mem_news (mem_singleton_self _))) fun id hmax => ?_
  obtain ⟨hmem, hb⟩ := h.maximized id hmax
  refine ⟨hx.mem_panelIds hmem ?_, ?_⟩
  · rintro ⟨q, hq, rfl⟩
    rw [mem_singleton.1 hq] at hmax
    exact absurd hmax hmaximized
  · have hlength := hx.length_eq
    rw [isBranch_iff] at hb ⊢
    rw [length_singleton, length_singleton] at hlength
    dsimp only
    omega

end

end LetsFlutSsh.Workspace
