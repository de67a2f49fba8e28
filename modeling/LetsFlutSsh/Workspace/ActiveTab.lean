import LetsFlutSsh.Workspace.Operations

/-!
# The active tab and the connections

* `disconnects` : what a step that closes tabs disconnects;
* `Kept` : what a step on tabs must keep;
* `kept_iff` : the steps that do.
-/

namespace LetsFlutSsh.Workspace
open WorkspaceNode WorkspaceState List Option

/-- The connections that `_disconnectOrphaned` disconnects. -/
def disconnectOrphaned (root : WorkspaceNode) (closedTabs : List TabEntry) : List String :=
  (closedTabs.filter fun tab => tab.connection ∉ root.collectAllTabs.map TabEntry.connection).map TabEntry.connection

/-- What an operation hands to `_disconnectOrphaned`; a drop, which is a split and a `closeTab`, is left out. -/
def closedTabs (s : WorkspaceState) : Op → List TabEntry
  | .closeTab panelId tabId => (s.root.findPanel panelId).elim [] fun p => (p.indexOf tabId).elim [] fun i => p.tabs[i]?.toList
  | .closeOthers panelId tabId =>
    (s.root.findPanel panelId).elim [] fun p => (p.tabs.find? (·.id = tabId)).elim [] fun _ => p.tabs.filter (·.id ≠ tabId)
  | .closeToTheRight panelId index => (s.root.findPanel panelId).elim [] fun p => p.tabs.drop (index + 1)
  | .closeToTheLeft panelId index => (s.root.findPanel panelId).elim [] fun p => p.tabs.take index
  | .closeAll panelId => (s.root.findPanel panelId).elim [] PanelLeaf.tabs
  | _ => []

def Op.OfTabs : Op → Prop
  | .closeTab .. | .closeOthers .. | .closeToTheLeft .. | .closeToTheRight .. | .reorderTabs .. | .moveTab .. | .splitPanel .. => True
  | _ => False

def PanelLeaf.Keeps (p q : PanelLeaf) : Prop := ∀ tab ∈ p.activeTab, tab.id ∈ q.tabIds → q.activeTab = some tab

/-- The panel has a tab that was moved there, and that is active. -/
def Arrives (op : Op) (p q : PanelLeaf) : Prop :=
  ∃ fromPanelId tabId index, op = .moveTab fromPanelId tabId p.id index ∧ tabId ∉ p.tabIds ∧ ∃ tab ∈ q.activeTab, tab.id = tabId

structure Kept (s t : WorkspaceState) (op : Op) : Prop where
  active : ∀ p ∈ s.root.panels, ∀ q ∈ t.root.panels, q.id = p.id → p.Keeps q ∨ Arrives op p q
  connections : ∀ c, c ∈ disconnectOrphaned t.root (closedTabs s op) ↔
    (∃ tab ∈ s.root.collectAllTabs, tab.id ∉ t.root.tabIds ∧ tab.connection = c) ∧ ∀ tab ∈ t.root.collectAllTabs, tab.connection ≠ c

/-- The tab is taken out of a panel whose active tab is behind it, and is not the last. -/
def TakenBefore (s : WorkspaceState) (panelId tabId : String) : Prop :=
  ∃ p ∈ s.root.findPanel panelId, ∃ i ∈ p.indexOf tabId, (i : Int) < p.activeTabIndex ∧ p.activeTabIndex + 1 < p.tabs.length

def Shifts (s : WorkspaceState) : Op → Prop
  | .closeTab panelId tabId => TakenBefore s panelId tabId
  | .splitPanel panelId _ tab _ => TakenBefore s panelId tab.id
  | .moveTab fromPanelId tabId toPanelId _ =>
    fromPanelId ≠ toPanelId ∧ toPanelId ∈ s.root.collectPanelIds ∧ TakenBefore s fromPanelId tabId
  | _ => False

variable {i : Nat} {kept : List TabEntry}

/-! ## Stacks -/

namespace PanelLeaf

variable {p q : PanelLeaf} {tab : TabEntry}

theorem activeTab_iff : p.activeTab = some tab ↔ ∃ n : Nat, p.activeTabIndex = n ∧ p.tabs[n]? = some tab := by
  unfold activeTab
  constructor
  · intro h
    split_ifs at h with hpos
    exact ⟨_, (Int.toNat_of_nonneg hpos).symm, h⟩
  · rintro ⟨n, hn, h⟩
    rwa [hn, if_pos (Int.natCast_nonneg n), Int.toNat_natCast]

theorem activeTab_insertAt (hi : i ≤ p.tabs.length) (tab : TabEntry) : (p.insertAt i tab).activeTab = some tab :=
  activeTab_iff.2 ⟨i, rfl, by simp [insertAt, getElem?_insertIdx, hi]⟩

theorem keeps_splitSource {tabId : String} (h : p.indexOf tabId = some i) :
    p.Keeps (splitSource p tabId) ↔ p.Keeps (p.removeAt i) := by
  have hsource : splitSource p tabId = { p.removeAt i with activeTabIndex := max (p.removeAt i).activeTabIndex (-1) } := by
    rw [splitSource, h]
  have hactive : (splitSource p tabId).activeTab = (p.removeAt i).activeTab := by
    rw [hsource, activeTab, activeTab]
    have hpos : 0 ≤ max (p.removeAt i).activeTabIndex (-1) ↔ 0 ≤ (p.removeAt i).activeTabIndex := by omega
    have hnat : (max (p.removeAt i).activeTabIndex (-1)).toNat = (p.removeAt i).activeTabIndex.toNat := by omega
    simp only [hpos, hnat]
  unfold Keeps
  rw [hactive, show (splitSource p tabId).tabIds = (p.removeAt i).tabIds by rw [hsource]; rfl]

variable (honce : p.tabIds.Nodup)

include honce

theorem index_unique {m n : Nat} (hm : p.tabs[m]? = some tab) (hn : p.tabs[n]? = some tab) : m = n := by
  have hid : ∀ k, p.tabs[k]? = some tab → p.tabIds[k]? = some tab.id := fun k hk => by
    rw [tabIds, getElem?_map, hk, map_some]
  exact (List.getElem?_inj (List.getElem?_eq_some_iff.1 (hid m hm)).1 honce).1 ((hid m hm).trans (hid n hn).symm)

theorem eq_of_id {other : TabEntry} (htab : tab ∈ p.tabs) (hother : other ∈ p.tabs)
    (hid : tab.id = other.id) : tab = other := inj_on_of_nodup_map honce htab hother hid

theorem mem_closed_iff {closed : List TabEntry} (h : p.tabs.Perm (closed ++ kept)) :
    tab ∈ closed ↔ tab ∈ p.tabs ∧ tab.id ∉ kept.map TabEntry.id := by
  have hnodup := (h.map TabEntry.id).nodup_iff.1 honce
  rw [map_append, nodup_append] at hnodup
  rw [h.mem_iff, mem_append]
  refine ⟨fun htab => ⟨.inl htab, fun hkept => hnodup.2.2 _ (mem_map_of_mem htab) _ hkept rfl⟩, ?_⟩
  rintro ⟨htab, hnot⟩
  exact htab.resolve_right fun hkept => hnot (mem_map_of_mem hkept)

theorem keeps_iff (f : Nat → Nat) (hinj : Function.Injective f) (hf : ∀ m < q.tabs.length, q.tabs[m]? = p.tabs[f m]?) :
    p.Keeps q ↔ ∀ m < q.tabs.length, p.activeTabIndex = f m → q.activeTabIndex = m := by
  constructor
  · intro h m hm hactive
    have htab := (hf m hm).symm.trans (getElem?_eq_getElem hm)
    obtain ⟨n, hn, hsame⟩ := activeTab_iff.1 (h _ (activeTab_iff.2 ⟨f m, hactive, htab⟩) (mem_map_of_mem (getElem_mem hm)))
    rw [hn, hinj (index_unique honce (((hf n (List.getElem?_eq_some_iff.1 hsame).1).symm.trans hsame)) htab)]
  · intro h tab htab hmem
    obtain ⟨n, hn, htab⟩ := activeTab_iff.1 htab
    obtain ⟨other, hother, hid⟩ := mem_map.1 hmem
    obtain ⟨m, hm⟩ := mem_iff_getElem?.1 hother
    have hlt := (List.getElem?_eq_some_iff.1 hm).1
    have hfrom := (hf m hlt).symm.trans hm
    obtain rfl := eq_of_id honce (mem_of_getElem? hfrom) (mem_of_getElem? htab) hid
    exact activeTab_iff.2 ⟨m, h m hlt (hn.trans (congrArg _ (index_unique honce htab hfrom))), hm⟩

theorem keeps_removeAt_iff (hi : i < p.tabs.length) :
    p.Keeps (p.removeAt i) ↔ ¬((i : Int) < p.activeTabIndex ∧ p.activeTabIndex + 1 < p.tabs.length) := by
  have hlength : (p.removeAt i).tabs.length = p.tabs.length - 1 := length_eraseIdx_of_lt hi
  rw [keeps_iff honce (fun m => if m < i then m else m + 1) (fun a b h => by dsimp only at h; split_ifs at h <;> omega)
    (fun m _ => by rw [removeAt, getElem?_eraseIdx]; split_ifs <;> rfl), hlength]
  have hactive : (p.removeAt i).activeTabIndex = clampActive p.activeTabIndex (p.removeAt i).tabs.length := rfl
  rw [hactive, hlength, clampActive]
  constructor
  · intro h hbehind
    have hbefore := h (p.activeTabIndex.toNat - 1) (by omega) (by split_ifs <;> omega)
    split_ifs at hbefore <;> omega
  · intro h m hm hfrom
    split_ifs at hfrom ⊢ <;> omega

theorem keeps_unless_empty (hi : i < p.tabs.length) :
    ((p.removeAt i).tabs ≠ [] → p.Keeps (p.removeAt i)) ↔ ¬((i : Int) < p.activeTabIndex ∧ p.activeTabIndex + 1 < p.tabs.length) := by
  rw [← keeps_removeAt_iff honce hi]
  refine ⟨fun h => ?_, fun h _ => h⟩
  by_cases hempty : (p.removeAt i).tabs = []
  · intro tab _ hmem
    rw [tabIds, hempty] at hmem
    cases hmem
  · exact h hempty

theorem keeps_reorder {oldIndex newIndex : Nat} (hold : oldIndex < p.tabs.length)
    (hnew : newIndex ≤ p.tabs.length) : p.Keeps (p.reorder oldIndex newIndex) := by
  have hadj : (if oldIndex < newIndex then newIndex - 1 else newIndex) ≤ (p.tabs.eraseIdx oldIndex).length := by
    rw [length_eraseIdx_of_lt hold]
    split_ifs <;> omega
  unfold reorder
  rw [getElem?_eq_getElem hold]
  generalize (if oldIndex < newIndex then newIndex - 1 else newIndex) = adjNew at hadj ⊢
  refine (keeps_iff honce (fun m => if m = adjNew then oldIndex else
    let k := if m < adjNew then m else m - 1
    if k < oldIndex then k else k + 1) (fun a b h => by dsimp only at h; split_ifs at h <;> omega) fun m hm => ?_).2
    fun m hm hfrom => by dsimp only at hfrom ⊢; split_ifs at hfrom ⊢ <;> omega
  dsimp only
  rw [getElem?_insertIdx]
  rcases Nat.lt_trichotomy m adjNew with hlt | rfl | hgt
  · rw [if_pos hlt, if_neg (Nat.ne_of_lt hlt), if_pos hlt, getElem?_eraseIdx]
    split_ifs <;> rfl
  · rw [if_neg (Nat.lt_irrefl _), if_pos rfl, if_pos hadj, if_pos rfl, getElem?_eq_getElem hold]
  · have hlt : ¬m < adjNew := by omega
    rw [if_neg hlt, if_neg (Nat.ne_of_gt hgt), if_neg (Nat.ne_of_gt hgt), if_neg hlt, getElem?_eraseIdx]
    split_ifs <;> rfl

theorem keeps_take {n : Nat} (hn : n ≤ p.tabs.length) :
    p.Keeps { p with tabs := p.tabs.take n, activeTabIndex := clampActive p.activeTabIndex (p.tabs.take n).length } := by
  rw [keeps_iff honce (fun m => m) (fun _ _ h => h) fun m hm => getElem?_take_of_lt (by rw [length_take] at hm; omega)]
  intro m hm hfrom
  rw [length_take] at hm
  simp only [clampActive, length_take] at hfrom ⊢
  split_ifs <;> omega

theorem keeps_drop (n : Nat) :
    p.Keeps { p with tabs := p.tabs.drop n, activeTabIndex := max (p.activeTabIndex - n) 0 } := by
  rw [keeps_iff honce (n + ·) (fun _ _ => Nat.add_left_cancel) fun m _ => getElem?_drop]
  intro m _ hfrom
  dsimp only at hfrom ⊢
  omega

theorem keeps_singleton (hi : p.tabs[i]? = some tab) : p.Keeps { p with tabs := [tab], activeTabIndex := 0 } := by
  rw [keeps_iff honce (i + ·) (fun _ _ => Nat.add_left_cancel) fun m hm => by rw [show m = 0 by simpa using hm]; exact hi.symm]
  intro m hm _
  simp only [length_singleton, Nat.lt_one_iff] at hm
  rw [hm]
  rfl

end PanelLeaf

variable {news : List PanelLeaf}

/-! ## Trees -/

section
variable {s t : WorkspaceState} {op : Op} {p q : PanelLeaf} {panelId tabId : String} {i : Nat} {new : NewIds}

theorem not_takenBefore (h : ∀ p ∈ s.root.findPanel panelId, p.indexOf tabId = none) : ¬TakenBefore s panelId tabId := by
  rintro ⟨p, hp, i, hi, -⟩
  rw [h p hp] at hi
  cases hi

theorem takenBefore_iff (hfind : s.root.findPanel panelId = some p) (hindex : p.indexOf tabId = some i) :
    TakenBefore s panelId tabId ↔ (i : Int) < p.activeTabIndex ∧ p.activeTabIndex + 1 < p.tabs.length := by
  simp [TakenBefore, hfind, hindex]

variable (hids : s.root.nodeIds.Nodup) (honce : s.root.tabIds.Nodup)

include honce in
theorem nodup_of_mem (hp : p ∈ s.root.panels) : p.tabIds.Nodup := (nodup_flatMap.1 honce).1 p hp

include hids honce

theorem kept_iff_of_exchanged {olds : List PanelLeaf} (hx : Exchanged s.root t.root olds news)
    (hclosed : ∀ tab, tab ∈ closedTabs s op ↔ tab ∈ olds.flatMap PanelLeaf.tabs ∧ tab.id ∉ news.flatMap PanelLeaf.tabIds) :
    Kept s t op ↔ ∀ p ∈ olds, ∀ q ∈ news, q.id = p.id → p.Keeps q ∨ Arrives op p q := by
  obtain ⟨rest, hold, hnew⟩ := hx.panels
  have hpanelIds : ((olds ++ rest).map PanelLeaf.id).Nodup := (hold.map _).nodup_iff.1 (hids.sublist (panelIds_subset s.root))
  have hnewIds : ((news ++ rest).map PanelLeaf.id).Nodup := (hnew.map _).nodup_iff.1 (hx.ids.sublist (panelIds_subset t.root))
  have hwere : ∀ p ∈ olds, p ∈ s.root.panels := fun p hp => hold.mem_iff.2 (mem_append_left _ hp)
  have hstay : ∀ p ∈ rest, p ∈ s.root.panels := fun p hp => hold.mem_iff.2 (mem_append_right _ hp)
  refine ⟨fun hk p hp q hq => hk.active p (hwere p hp) q (hx.mem_news hq), fun hpairs => ⟨fun p hp q hq hid => ?_, fun c => ?_⟩⟩
  · rcases mem_append.1 (hnew.mem_iff.1 hq), mem_append.1 (hold.mem_iff.1 hp) with ⟨hq | hq, hp' | hp'⟩
    · exact hpairs p hp' q hq hid
    · obtain rfl := inj_on_of_nodup_map hnewIds (mem_append_left _ hq) (mem_append_right _ hp') hid
      exact .inl fun tab htab _ => htab
    all_goals
      obtain rfl := inj_on_of_nodup_map hpanelIds (mem_append_right _ hq) (hold.mem_iff.1 hp) hid
      exact .inl fun tab htab _ => htab
  · have hgone : ∀ tab, tab ∈ closedTabs s op ↔ tab ∈ s.root.collectAllTabs ∧ tab.id ∉ t.root.tabIds := by
      intro tab
      simp only [hclosed, collectAllTabs, WorkspaceNode.tabIds, mem_flatMap]
      constructor
      · rintro ⟨⟨p, hp, htab⟩, hnot⟩
        refine ⟨⟨p, hwere p hp, htab⟩, ?_⟩
        rintro ⟨q, hq, hmem⟩
        rcases mem_append.1 (hnew.mem_iff.1 hq) with hq | hq
        · exact hnot ⟨q, hq, hmem⟩
        · obtain rfl := eq_of_tabId honce (hwere p hp) (hstay q hq) (mem_map_of_mem htab) hmem
          exact disjoint_of_nodup_append hpanelIds.of_map hp hq
      · rintro ⟨⟨p, hp, htab⟩, hnot⟩
        have hgone : p ∈ olds := by
          by_contra hkept
          exact hnot ⟨p, hx.mem_of_not_mem hp hkept, mem_map_of_mem htab⟩
        refine ⟨⟨p, hgone, htab⟩, ?_⟩
        rintro ⟨q, hq, hmem⟩
        exact hnot ⟨q, hx.mem_news hq, hmem⟩
    simp only [disconnectOrphaned, List.mem_map, mem_filter, hgone, decide_eq_true_eq, not_exists, not_and]
    constructor
    · rintro ⟨tab, ⟨⟨htab, hnot⟩, hother⟩, rfl⟩
      exact ⟨⟨tab, htab, hnot, rfl⟩, hother⟩
    · rintro ⟨⟨tab, htab, hnot, rfl⟩, hother⟩
      exact ⟨tab, ⟨⟨htab, hnot⟩, hother⟩, rfl⟩

theorem kept_moving_iff {olds : List PanelLeaf} (hx : Exchanged s.root t.root olds news) {l : List String}
    (hgain : (news.flatMap PanelLeaf.tabIds).Perm (l ++ olds.flatMap PanelLeaf.tabIds)) (hclosed : closedTabs s op = []) :
    Kept s t op ↔ ∀ p ∈ olds, ∀ q ∈ news, q.id = p.id → p.Keeps q ∨ Arrives op p q := by
  refine kept_iff_of_exchanged hids honce hx fun tab => ?_
  rw [hclosed, hgain.mem_iff]
  refine iff_of_false not_mem_nil fun ⟨hold, hnot⟩ => hnot (mem_append_right _ ?_)
  obtain ⟨p, hp, htab⟩ := mem_flatMap.1 hold
  exact mem_flatMap.2 ⟨p, hp, mem_map_of_mem htab⟩

theorem kept_of_eq (ht : t.root = s.root) (hclosed : closedTabs s op = []) : Kept s t op := by
  have hx : Exchanged s.root t.root [] [] := ⟨ht ▸ hids, s.root.panels, Perm.refl _, ht ▸ Perm.refl _⟩
  exact (kept_moving_iff hids honce hx (l := []) (Perm.refl _) hclosed).2 nofun

theorem kept_closing_iff (hp : p ∈ s.root.panels)
    (hx : Exchanged s.root t.root [p] news) (hperm : p.tabs.Perm (closedTabs s op ++ kept))
    (hkept : news.flatMap PanelLeaf.tabIds = kept.map TabEntry.id) (hmove : ∀ a b c d, op ≠ .moveTab a b c d) :
    Kept s t op ↔ ∀ q ∈ news, q.id = p.id → p.Keeps q := by
  rw [kept_iff_of_exchanged hids honce hx fun tab => ?_]
  · simp [Arrives, hmove]
  · rw [hkept, flatMap_singleton]
    exact PanelLeaf.mem_closed_iff (nodup_of_mem honce hp) hperm

theorem kept_set_iff (hp : p ∈ s.root.panels)
    (hperm : p.tabs.Perm (closedTabs s op ++ kept)) (hmove : ∀ a b c d, op ≠ .moveTab a b c d) (active : Int) :
    Kept s { s with root := s.root.updatePanel p.id fun _ => { p with tabs := kept, activeTabIndex := active } } op ↔
      p.Keeps { p with tabs := kept, activeTabIndex := active } := by
  have hx := exchanged_update hids hp (fun _ => { p with tabs := kept, activeTabIndex := active }) fun _ hq => hq.symm
  rw [kept_closing_iff hids honce hp hx hperm (flatMap_singleton ..) hmove]
  simp

/-! ## Steps -/

theorem kept_closeTab_iff {freshId : String} (hfresh : freshId ∉ s.root.nodeIds) :
    Kept s (s.closeTab panelId tabId freshId) (.closeTab panelId tabId) ↔ ¬TakenBefore s panelId tabId := by
  rcases hfind : s.root.findPanel panelId with _ | p
  · refine iff_of_true (kept_of_eq hids honce ?_ ?_) (not_takenBefore (by simp [hfind])) <;> simp [closeTab, closedTabs, hfind]
  rcases hindex : p.indexOf tabId with _ | i
  · refine iff_of_true (kept_of_eq hids honce ?_ ?_) (not_takenBefore (by simp [hfind, hindex])) <;>
      simp [closeTab, closedTabs, hfind, hindex]
  rw [takenBefore_iff hfind hindex]
  obtain ⟨hp, rfl⟩ := mem_of_findPanel hfind
  obtain ⟨tab, htab, rfl⟩ := PanelLeaf.exists_of_indexOf hindex
  obtain ⟨hi, hget⟩ := List.getElem?_eq_some_iff.1 htab
  have hperm : p.tabs.Perm (closedTabs s (.closeTab p.id tab.id) ++ (p.removeAt i).tabs) := by
    simp only [closedTabs, hfind, elim_some, hindex, htab, toList_some]
    exact hget ▸ (List.getElem_cons_eraseIdx_perm hi).symm
  simp only [closeTab, hfind, hindex]
  split_ifs with hempty
  · rw [kept_closing_iff hids honce hp (exchanged_collapse hids hp freshId) hperm (by rw [hempty]; split_ifs <;> rfl) nofun]
    refine iff_of_true (fun q hq hid => ?_) (fun h => ?_)
    · split_ifs at hq
      · cases hq
      · rw [mem_singleton.1 hq] at hid
        exact absurd ((panelIds_subset s.root).subset (mem_map.2 ⟨p, hp, hid.symm⟩)) hfresh
    · have hone : (p.removeAt i).tabs.length = p.tabs.length - 1 := length_eraseIdx_of_lt hi
      rw [hempty, length_nil] at hone
      omega
  · exact (kept_set_iff hids honce hp hperm nofun _).trans (PanelLeaf.keeps_removeAt_iff (nodup_of_mem honce hp) hi)

theorem kept_closeOthers : Kept s (s.closeOthers panelId tabId) (.closeOthers panelId tabId) := by
  rcases hfind : s.root.findPanel panelId with _ | p
  · refine kept_of_eq hids honce ?_ ?_ <;> simp [closeOthers, closedTabs, hfind]
  rcases hkept : p.tabs.find? (·.id = tabId) with _ | kept
  · refine kept_of_eq hids honce ?_ ?_ <;> simp [closeOthers, closedTabs, hfind, hkept]
  obtain ⟨hp, rfl⟩ := mem_of_findPanel hfind
  have honce' := nodup_of_mem honce hp
  obtain ⟨i, hi⟩ := mem_iff_getElem?.1 (mem_of_find?_eq_some hkept)
  have hperm : p.tabs.Perm (closedTabs s (.closeOthers p.id tabId) ++ [kept]) := by
    obtain ⟨hid, before, after, hsplit, hbefore⟩ := find?_eq_some_iff_append.1 hkept
    obtain rfl := of_decide_eq_true hid
    have hafter : ∀ tab ∈ after, decide (tab.id ≠ kept.id) = true := by
      rw [PanelLeaf.tabIds, hsplit, map_append, map_cons] at honce'
      intro tab htab
      refine decide_eq_true fun heq => (nodup_cons.1 honce'.of_append_right).1 (heq ▸ mem_map_of_mem htab)
    simp only [closedTabs, hfind, elim_some, hkept]
    rw [hsplit, filter_append, filter_cons_of_neg (by simp), filter_eq_self.2 hafter,
      filter_eq_self.2 fun tab htab => by simpa using hbefore tab htab, append_assoc]
    exact (perm_append_singleton kept after).symm.append_left before
  simp only [closeOthers, hfind, hkept]
  exact (kept_set_iff hids honce hp hperm (by simp) _).2 (PanelLeaf.keeps_singleton honce' hi)

theorem kept_closeToTheRight (index : Nat) : Kept s (s.closeToTheRight panelId index) (.closeToTheRight panelId index) := by
  rcases hfind : s.root.findPanel panelId with _ | p
  · refine kept_of_eq hids honce ?_ ?_ <;> simp [closeToTheRight, closedTabs, hfind]
  obtain ⟨hp, rfl⟩ := mem_of_findPanel hfind
  have hperm : p.tabs.Perm (closedTabs s (.closeToTheRight p.id index) ++ p.tabs.take (index + 1)) := by
    rw [closedTabs, hfind]
    exact (take_append_drop (index + 1) p.tabs ▸ perm_append_comm : p.tabs.Perm _)
  simp only [closeToTheRight, hfind]
  split_ifs with hlength
  · refine kept_of_eq hids honce rfl ?_
    rw [closedTabs, hfind]
    exact drop_eq_nil_of_le hlength
  · exact (kept_set_iff hids honce hp hperm nofun _).2 (PanelLeaf.keeps_take (nodup_of_mem honce hp) (by omega))

theorem kept_closeToTheLeft (index : Nat) : Kept s (s.closeToTheLeft panelId index) (.closeToTheLeft panelId index) := by
  rcases hfind : s.root.findPanel panelId with _ | p
  · refine kept_of_eq hids honce ?_ ?_ <;> simp [closeToTheLeft, closedTabs, hfind]
  obtain ⟨hp, rfl⟩ := mem_of_findPanel hfind
  have hperm : p.tabs.Perm (closedTabs s (.closeToTheLeft p.id index) ++ p.tabs.drop index) := by
    rw [closedTabs, hfind, elim_some, take_append_drop]
  simp only [closeToTheLeft, hfind]
  split_ifs with hzero
  · refine kept_of_eq hids honce rfl ?_
    rw [closedTabs, hfind, elim_some, hzero, take_zero]
  · exact (kept_set_iff hids honce hp hperm nofun _).2 (PanelLeaf.keeps_drop (nodup_of_mem honce hp) index)

theorem kept_reorderTabs {oldIndex newIndex : Nat}
    (hold : oldIndex < s.tabCount panelId) (hnew : newIndex ≤ s.tabCount panelId) :
    Kept s (s.reorderTabs panelId oldIndex newIndex) (.reorderTabs panelId oldIndex newIndex) := by
  rcases hfind : s.root.findPanel panelId with _ | p
  · rw [tabCount, hfind] at hold
    exact absurd hold (Nat.not_lt_zero _)
  rw [tabCount_of_find hfind] at hold hnew
  obtain ⟨hp, rfl⟩ := mem_of_findPanel hfind
  have hid : ∀ q : PanelLeaf, (q.reorder oldIndex newIndex).id = q.id := by
    intro q
    unfold PanelLeaf.reorder
    split <;> rfl
  have hx := exchanged_update hids hp (fun p => p.reorder oldIndex newIndex) fun q _ => hid q
  refine (kept_moving_iff hids honce hx (l := []) (by simpa using PanelLeaf.tabIds_reorder oldIndex hnew) rfl).2 ?_
  refine forall_mem_singleton.2 (forall_mem_singleton.2 fun _ => .inl ?_)
  exact PanelLeaf.keeps_reorder (nodup_of_mem honce hp) hold hnew

theorem kept_splitPanel_iff (hfresh : new.Fresh s) (direction : Axis) (tab : TabEntry) (insertBefore : Bool) :
    Kept s (s.splitPanel panelId direction tab insertBefore new) (.splitPanel panelId direction tab insertBefore) ↔
      ¬TakenBefore s panelId tab.id := by
  rcases hfind : s.root.findPanel panelId with _ | p
  · refine iff_of_true (kept_of_eq hids honce ?_ rfl) (not_takenBefore (by simp [hfind]))
    simp [splitPanel, hfind]
  have hx := exchanged_splitPanel hids hfresh hfind tab direction insertBefore
  obtain ⟨hp, rfl⟩ := mem_of_findPanel hfind
  obtain ⟨l, hl⟩ : ∃ l, (tab.id :: (splitSource p tab.id).tabIds).Perm (l ++ p.tabIds) := by
    obtain ⟨-, -, htaken, hsame⟩ := splitSource_spec p tab.id
    by_cases hmem : tab.id ∈ p.tabIds
    · exact ⟨[], (htaken hmem).symm⟩
    · exact ⟨[tab.id], by rw [hsame hmem]; exact .refl _⟩
  rw [kept_moving_iff hids honce hx (l := l) (by simpa [flatMap_unlessEmpty, PanelLeaf.tabIds] using hl) rfl]
  have hnew : new.panel ≠ p.id := fun heq => hfresh.panel ((panelIds_subset s.root).subset (mem_map.2 ⟨p, hp, heq.symm⟩))
  have hpair : (∀ p' ∈ [p], ∀ q ∈ ({ id := new.panel, tabs := [tab], activeTabIndex := 0 } : PanelLeaf) ::
        (if (splitSource p tab.id).tabs = [] then [] else [splitSource p tab.id]), q.id = p'.id →
      p'.Keeps q ∨ Arrives (.splitPanel p.id direction tab insertBefore) p' q) ↔
        ((splitSource p tab.id).tabs ≠ [] → p.Keeps (splitSource p tab.id)) := by
    by_cases hempty : (splitSource p tab.id).tabs = [] <;> simp [hempty, hnew, Arrives, (splitSource_spec p tab.id).1]
  rw [hpair]
  rcases hindex : p.indexOf tab.id with _ | i
  · rw [(splitSource_spec p tab.id).2.2.2 (PanelLeaf.indexOf_eq_none_iff.1 hindex)]
    exact iff_of_true (fun _ tab htab _ => htab) (not_takenBefore (by simp [hfind, hindex]))
  · obtain ⟨tab', htab, -⟩ := PanelLeaf.exists_of_indexOf hindex
    rw [takenBefore_iff hfind hindex, PanelLeaf.keeps_splitSource hindex, show (splitSource p tab.id).tabs = (p.removeAt i).tabs by
      rw [splitSource, hindex]]
    exact PanelLeaf.keeps_unless_empty (nodup_of_mem honce hp) (List.getElem?_eq_some_iff.1 htab).1

theorem kept_moveTab_iff {fromPanelId toPanelId : String}
    {index : Option Nat} (hindex : ∀ i ∈ index, i ≤ s.tabCount toPanelId) :
    Kept s (s.moveTab fromPanelId tabId toPanelId index) (.moveTab fromPanelId tabId toPanelId index) ↔
      ¬Shifts s (.moveTab fromPanelId tabId toPanelId index) := by
  show _ ↔ ¬(fromPanelId ≠ toPanelId ∧ toPanelId ∈ s.root.collectPanelIds ∧ TakenBefore s fromPanelId tabId)
  by_cases hsame : fromPanelId = toPanelId
  · exact iff_of_true (kept_of_eq hids honce (by simp [moveTab, hsame]) rfl) fun h => h.1 hsame
  rcases hfrom : s.root.findPanel fromPanelId with _ | source
  · exact iff_of_true (kept_of_eq hids honce (by simp [moveTab, hfrom]) rfl) fun h => not_takenBefore (by simp [hfrom]) h.2.2
  rcases hto : s.root.findPanel toPanelId with _ | target
  · refine iff_of_true (kept_of_eq hids honce (by simp [moveTab, hfrom, hto]) rfl) fun h => ?_
    obtain ⟨q, hq, rfl⟩ := exists_panel h.2.1
    rw [findPanel_of_mem hids hq] at hto
    cases hto
  rcases hi : source.indexOf tabId with _ | i
  · exact iff_of_true (kept_of_eq hids honce (by simp [moveTab, hfrom, hto, hi]) rfl) fun h =>
      not_takenBefore (by simp [hfrom, hi]) h.2.2
  rw [takenBefore_iff hfrom hi]
  rw [tabCount_of_find hto] at hindex
  obtain ⟨hsource, rfl⟩ := mem_of_findPanel hfrom
  obtain ⟨htarget, rfl⟩ := mem_of_findPanel hto
  obtain ⟨tab, htab, rfl⟩ := PanelLeaf.exists_of_indexOf hi
  have hinsert : index.getD target.tabs.length ≤ target.tabs.length := by
    rcases index with _ | i
    · exact Nat.le_refl _
    · exact hindex i rfl
  have hroot : (s.moveTab source.id tab.id target.id index).root =
      s.movedRoot source target i (index.getD target.tabs.length) tab := by
    simp only [moveTab, if_neg hsame, hfrom, hto, hi, htab]
  have hx := exchanged_movedRoot hids hsource htarget hsame i (index.getD target.tabs.length) tab
  rw [← hroot] at hx
  rw [kept_moving_iff hids honce hx (l := []) (tabIds_moved htab hinsert) rfl]
  simp only [ne_eq, hsame, not_false_eq_true, mem_map_of_mem htarget, collectPanelIds, true_and]
  rw [← PanelLeaf.keeps_unless_empty (nodup_of_mem honce hsource) (List.getElem?_eq_some_iff.1 htab).1]
  constructor
  · intro h hne
    refine (h source (by simp) (source.removeAt i) (by simp [hne]) rfl).resolve_right ?_
    rintro ⟨_, _, _, hop, -⟩
    exact hsame (Op.moveTab.inj hop).2.2.1.symm
  intro h p hp q hq hid
  have htake : target.Keeps (target.insertAt (index.getD target.tabs.length) tab) ∨ Arrives (.moveTab source.id tab.id target.id index)
      target (target.insertAt (index.getD target.tabs.length) tab) := by
    refine .inr ⟨_, _, _, rfl, fun hmem => hsame ?_, tab, PanelLeaf.activeTab_insertAt hinsert tab, rfl⟩
    rw [eq_of_tabId honce hsource htarget (mem_map_of_mem (mem_of_getElem? htab)) hmem]
  by_cases hempty : (source.removeAt i).tabs = [] <;>
    simp only [hempty, if_true, if_false, mem_cons, not_mem_nil, or_false] at hp hq
  · obtain rfl := hq
    obtain rfl | rfl := hp
    · exact htake
    · exact absurd hid.symm hsame
  · obtain rfl | rfl := hq <;> obtain rfl | rfl := hp
    · exact htake
    · exact absurd hid.symm hsame
    · exact absurd hid hsame
    · exact .inl (h hempty)

/-- **Which steps keep the active tabs**: those that take no tab out from in front of an active one that is not the last. What they
disconnect is right in any case. -/
theorem kept_iff {l : Op × NewIds} (hop : l.1.OfTabs) (hstep : step s l = some t) : Kept s t l.1 ↔ ¬Shifts s l.1 := by
  obtain ⟨op, new⟩ := l
  unfold step at hstep
  split_ifs at hstep with hguard
  cases hstep
  obtain ⟨htaken, hfresh⟩ := hguard
  cases op with
  | closeTab panelId tabId => exact kept_closeTab_iff hids honce hfresh.fresh
  | closeOthers panelId tabId => exact iff_of_true (kept_closeOthers hids honce) id
  | closeToTheLeft panelId index => exact iff_of_true (kept_closeToTheLeft hids honce index) id
  | closeToTheRight panelId index => exact iff_of_true (kept_closeToTheRight hids honce index) id
  | reorderTabs panelId oldIndex newIndex => exact iff_of_true (kept_reorderTabs hids honce htaken.1 htaken.2) id
  | splitPanel panelId direction tab insertBefore => exact kept_splitPanel_iff hids honce hfresh direction tab insertBefore
  | moveTab fromPanelId tabId toPanelId index => exact kept_moveTab_iff hids honce htaken
  | _ => cases hop

end

/-! ## Two closed tabs -/

def fourTabs (active : Int) : WorkspaceState :=
  { initial "p" with root := panel { id := "p", tabs := ["a", "b", "c", "d"].map fun id => ⟨id, id, id, .terminal⟩, activeTabIndex := active } }

def sampleIds : NewIds := ⟨"p'", "b'", "t'", "f'"⟩

theorem kept_iff_sample : Kept (fourTabs 3) ((fourTabs 3).closeTab "p" "a" "f'") (.closeTab "p" "a") ↔
    ¬Shifts (fourTabs 3) (.closeTab "p" "a") :=
  kept_iff (by decide) (by decide) (l := (.closeTab "p" "a", sampleIds)) trivial (by decide +kernel)

theorem next_tab_is_active : ∃ p ∈ (fourTabs 1).root.panels, ∃ q ∈ ((fourTabs 1).closeTab "p" "a" "f'").root.panels,
    q.id = p.id ∧ p.activeTab.map TabEntry.id = some "b" ∧ "b" ∈ q.tabIds ∧ q.activeTab.map TabEntry.id = some "c" := by
  decide +kernel

end LetsFlutSsh.Workspace
