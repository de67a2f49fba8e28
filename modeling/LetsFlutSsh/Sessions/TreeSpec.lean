import LetsFlutSsh.Sessions.TreeAlike

/-!
# The tree is that of its sessions and folders

* `IsSessionTree` : what a forest of sessions and empty folders is;
* `folderPaths_build`, `leaves_build`, `sessionCount_build` : the parts of it, for `build`;
* `sessionTree_iff` : when `build` gives such a forest, whatever the order of its inputs.
-/

namespace LetsFlutSsh.Sessions
open Lib List

def FolderOk (folder : String) : Prop := folder = "" ∨ ∀ segment ∈ splitPath folder, segment ≠ ""

instance (folder : String) : Decidable (FolderOk folder) := inferInstanceAs (Decidable (_ ∨ _))

def givenFolders (sessions : List TreeSession) (emptyFolders : List String) : List String :=
  emptyFolders ++ sessions.map (·.folder)

def sessionsIn (top : String) (sessions : List TreeSession) : List TreeSession :=
  sessions.filter fun s => (splitPath s.folder).head? = some top

/-- The forest of some sessions and empty folders. -/
structure IsSessionTree (toLowercase : String → String) (sessions : List TreeSession) (emptyFolders : List String)
    (forest : List TreeNode) : Prop where
  /-- Each session stands there once, in its folder or at the root. -/
  sessions_once : (leaves "" forest).Perm (sessions.map fun s => (s.folder, leafNode s))
  folders_once : (folderPaths forest).Nodup
  /-- The folders are the paths that are not empty and that a folder that was given is, or goes on from. -/
  folders : ∀ path, path ∈ folderPaths forest ↔
    path ≠ "" ∧ ∃ folder ∈ givenFolders sessions emptyFolders, path = folder ∨ startsUnder path folder = true
  counts : ∀ n ∈ allNodes forest, n.sessionId.isNone = true → n.sessionCount.toNat = leafCount n
  sorted_root : forest.Pairwise (Before toLowercase)
  sorted : ∀ n ∈ allNodes forest, n.sessionId.isNone = true → n.children.Pairwise (Before toLowercase)

variable {toLowercase : String → String} {sessions : List TreeSession} {emptyFolders : List String}

/-! ## Paths -/

theorem pathText_singleton (part : String) : pathText [part] = part := String.empty_append

section

variable {parts : List String} (hne : parts ≠ []) (h : ∀ part ∈ parts, part ≠ "" ∧ SlashFree part)
include hne h

theorem joinPath_ne_empty : joinPath parts ≠ "" := by
  intro hempty
  have hsplit := splitPath_joinPath hne fun p hp => (h p hp).2
  rw [hempty] at hsplit
  exact (h "" (hsplit ▸ mem_singleton.2 rfl)).1 rfl

theorem pathText_eq_joinPath : pathText parts = joinPath parts := by
  induction parts using List.reverseRecOn with
  | nil => exact absurd rfl hne
  | append_singleton parts part ih =>
    rcases Decidable.em (parts = []) with rfl | hparts
    · exact pathText_singleton part
    · have hfront : ∀ part ∈ parts, part ≠ "" ∧ SlashFree part := fun p hp => h p (mem_append_left _ hp)
      rw [pathText_concat, ih hparts hfront, joinPath_append hparts (cons_ne_nil part []), extendPath,
        if_neg (joinPath_ne_empty hparts hfront)]
      rfl

end

theorem pathText_splitPath {folder : String} (h : FolderOk folder) : pathText (splitPath folder) = folder := by
  rcases h with rfl | hsegments
  · exact pathText_singleton ""
  · rw [pathText_eq_joinPath (splitPath_ne_nil folder) fun p hp => ⟨hsegments p hp, slashFree_of_mem_splitPath hp⟩,
      joinPath_splitPath]

/-! ## The leaves -/

theorem exists_depth (items : List (Item String TreeSession)) : ∃ depth, ∀ item ∈ items, item.1.length ≤ depth := by
  induction items with
  | nil => exact ⟨0, fun _ h => absurd h not_mem_nil⟩
  | cons item items ih =>
    obtain ⟨depth, h⟩ := ih
    refine ⟨max item.1.length depth, forall_mem_cons.2 ⟨le_max_left _ _, fun x hx => ?_⟩⟩
    exact (h x hx).trans (le_max_right _ _)

variable {depth : Nat}

theorem build_eq (h : ∀ item ∈ itemsOf sessions emptyFolders, item.1.length ≤ depth) :
    build toLowercase sessions emptyFolders = sortTree toLowercase (grouped depth [] (itemsOf sessions emptyFolders)) :=
  congrArg (sortTree toLowercase) (inserted_eq_grouped sessions emptyFolders h)

theorem leaves_build (hok : ∀ folder ∈ givenFolders sessions emptyFolders, FolderOk folder) :
    (leaves "" (build toLowercase sessions emptyFolders)).Perm (sessions.map fun s => (s.folder, leafNode s)) := by
  obtain ⟨depth, hdepth⟩ := exists_depth (itemsOf sessions emptyFolders)
  have hempties : (emptyFolders.map fun folderPath => (splitPath folderPath, (none : Option TreeSession))).flatMap (placed []) =
      [] := by
    rw [flatMap_eq_nil_iff]
    rintro _ hitem
    obtain ⟨folder, _, rfl⟩ := mem_map.1 hitem
    rfl
  have hsessions : (sessions.map fun s => (if s.folder = "" then [] else splitPath s.folder, some s)).flatMap (placed []) =
      sessions.map fun s => (s.folder, leafNode s) := by
    rw [flatMap_map, ← flatMap_pure_eq_map]
    refine flatMap_congr fun s hs => ?_
    have hfolder : pathText (if s.folder = "" then [] else splitPath s.folder) = s.folder := by
      split_ifs with hroot
      · exact hroot.symm
      · exact pathText_splitPath (hok _ (mem_append_right _ (mem_map_of_mem hs)))
    exact congrArg (fun holder => [(holder, leafNode s)]) hfolder
  have hleaves : (leaves "" (build toLowercase sessions emptyFolders)).Perm
      ((itemsOf sessions emptyFolders).flatMap (placed [])) := by
    rw [build_eq hdepth]
    refine (leaves_sortTree _ "").trans ?_
    show (leaves (pathText []) _).Perm _
    exact leaves_grouped hdepth
  unfold itemsOf at hleaves
  rwa [flatMap_append, hempties, hsessions] at hleaves

/-! ## The folders -/

theorem folderPaths_build_perm (toLowercase : String → String)
    (h : ∀ item ∈ itemsOf sessions emptyFolders, item.1.length ≤ depth) :
    (folderPaths (build toLowercase sessions emptyFolders)).Perm
      ((keys depth [] (itemsOf sessions emptyFolders)).map pathText) := by
  rw [build_eq h, ← folderPaths_grouped]
  exact folderPaths_sortTree _

theorem part_ne_empty (hok : ∀ folder ∈ givenFolders sessions emptyFolders, FolderOk folder) (hempty : "" ∉ emptyFolders) :
    ∀ item ∈ itemsOf sessions emptyFolders, ∀ part ∈ item.1, part ≠ "" ∧ SlashFree part := by
  have hsegments : ∀ folder ∈ givenFolders sessions emptyFolders, folder ≠ "" →
      ∀ part ∈ splitPath folder, part ≠ "" ∧ SlashFree part :=
    fun folder hfolder hne part hpart => ⟨(hok folder hfolder).resolve_left hne part hpart, slashFree_of_mem_splitPath hpart⟩
  intro item hitem part hpart
  rcases mem_append.1 hitem with hmem | hmem
  · obtain ⟨folder, hfolder, rfl⟩ := mem_map.1 hmem
    exact hsegments folder (mem_append_left _ hfolder) (fun heq => hempty (heq ▸ hfolder)) part hpart
  · obtain ⟨s, hs, rfl⟩ := mem_map.1 hmem
    split_ifs at hpart with hroot
    · exact absurd hpart not_mem_nil
    · exact hsegments s.folder (mem_append_right _ (mem_map_of_mem hs)) hroot part hpart

theorem exists_item_iff {path : List String} (hne : path ≠ []) (hfree : ∀ part ∈ path, part ≠ "" ∧ SlashFree part) :
    (∃ item ∈ itemsOf sessions emptyFolders, path <+: item.1) ↔
      ∃ folder ∈ givenFolders sessions emptyFolders, joinPath path = folder ∨ startsUnder (joinPath path) folder = true := by
  have hpath : splitPath (joinPath path) = path := splitPath_joinPath hne fun p hp => (hfree p hp).2
  have hlead : ∀ folder, path <+: splitPath folder ↔ joinPath path = folder ∨ startsUnder (joinPath path) folder = true := by
    intro folder
    have hunder : startsUnder (joinPath path) folder = true ↔ ∃ rest, rest ≠ [] ∧ splitPath folder = path ++ rest := by
      rw [← joinPath_splitPath folder, startsUnder_iff (splitPath_ne_nil folder) fun _ hn => slashFree_of_mem_splitPath hn,
        hpath, joinPath_splitPath]
    rw [hunder]
    constructor
    · rintro ⟨rest, hrest⟩
      rcases Decidable.em (rest = []) with rfl | hlonger
      · rw [append_nil] at hrest
        exact .inl (by rw [hrest, joinPath_splitPath])
      · exact .inr ⟨rest, hlonger, hrest.symm⟩
    · rintro (rfl | ⟨rest, _, hrest⟩)
      · exact ⟨[], by rw [append_nil, hpath]⟩
      · exact ⟨rest, hrest.symm⟩
  -- A session at the root has no folder to be in.
  have hroot : ∀ folder : String, path <+: (if folder = "" then [] else splitPath folder) ↔ path <+: splitPath folder := by
    intro folder
    split_ifs with hfolder
    · subst hfolder
      constructor
      · exact fun h => absurd (prefix_nil.1 h) hne
      · rintro h
        obtain ⟨part, rest, rfl⟩ := exists_cons_of_ne_nil hne
        obtain ⟨tail, htail⟩ := h
        have hpart : part = "" := (List.cons.inj htail).1
        exact absurd hpart (hfree part mem_cons_self).1
    · rfl
  constructor
  · rintro ⟨item, hitem, hway⟩
    rcases mem_append.1 hitem with hmem | hmem
    · obtain ⟨folder, hfolder, rfl⟩ := mem_map.1 hmem
      exact ⟨folder, mem_append_left _ hfolder, (hlead folder).1 hway⟩
    · obtain ⟨s, hs, rfl⟩ := mem_map.1 hmem
      exact ⟨s.folder, mem_append_right _ (mem_map_of_mem hs), (hlead s.folder).1 ((hroot s.folder).1 hway)⟩
  · rintro ⟨folder, hfolder, hway⟩
    have hway := (hlead folder).2 hway
    rcases mem_append.1 hfolder with hmem | hmem
    · exact ⟨_, mem_append_left _ (mem_map_of_mem hmem), hway⟩
    · obtain ⟨s, hs, rfl⟩ := mem_map.1 hmem
      exact ⟨_, mem_append_right _ (mem_map_of_mem hs), (hroot s.folder).2 hway⟩

theorem segment_ne_empty {path folder : String} (hok : FolderOk folder) (hne : path ≠ "")
    (hway : path = folder ∨ startsUnder path folder = true) : ∀ part ∈ splitPath path, part ≠ "" := by
  rcases hway with rfl | hunder
  · exact hok.resolve_left hne
  rw [← joinPath_splitPath folder,
    startsUnder_iff (splitPath_ne_nil folder) fun _ hn => slashFree_of_mem_splitPath hn] at hunder
  obtain ⟨rest, hrest, hsplit⟩ := hunder
  rcases hok with rfl | hsegments
  · -- The text of no other path starts so short.
    have hlen := congrArg List.length hsplit
    have hpos := length_pos_iff.2 hrest
    have hpos' := length_pos_iff.2 (splitPath_ne_nil path)
    rw [length_append] at hlen
    have hone : (splitPath "").length = 1 := rfl
    omega
  · intro part hpart
    exact hsegments part (hsplit ▸ mem_append_left _ hpart)

theorem folderPaths_build (hok : ∀ folder ∈ givenFolders sessions emptyFolders, FolderOk folder)
    (hempty : "" ∉ emptyFolders) :
    (folderPaths (build toLowercase sessions emptyFolders)).Nodup ∧
    ∀ path, path ∈ folderPaths (build toLowercase sessions emptyFolders) ↔
      path ≠ "" ∧ ∃ folder ∈ givenFolders sessions emptyFolders, path = folder ∨ startsUnder path folder = true := by
  obtain ⟨depth, hdepth⟩ := exists_depth (itemsOf sessions emptyFolders)
  have hfolders := folderPaths_build_perm toLowercase hdepth
  have hgood := part_ne_empty hok hempty
  have hkey : ∀ key ∈ keys depth [] (itemsOf sessions emptyFolders), key ≠ [] ∧ ∀ part ∈ key, part ≠ "" ∧ SlashFree part := by
    intro key hkey
    obtain ⟨path, hne, rfl, item, hitem, hway⟩ := (mem_keys hdepth).1 hkey
    exact ⟨hne, fun part hpart => hgood item hitem part (hway.subset hpart)⟩
  constructor
  · rw [hfolders.nodup_iff]
    refine (nodup_keys depth [] _).map_on fun key hkey' key' hkey'' heq => ?_
    obtain ⟨hne, hfree⟩ := hkey key hkey'
    obtain ⟨hne', hfree'⟩ := hkey key' hkey''
    rw [pathText_eq_joinPath hne hfree, pathText_eq_joinPath hne' hfree'] at heq
    exact joinPath_inj hne hne' (fun n hn => (hfree n hn).2) (fun n hn => (hfree' n hn).2) heq
  · intro path
    rw [hfolders.mem_iff, mem_map]
    constructor
    · rintro ⟨key, hmem, rfl⟩
      obtain ⟨hne, hfree⟩ := hkey key hmem
      obtain ⟨path, _, heq, hitem⟩ := (mem_keys hdepth).1 hmem
      rw [nil_append] at heq
      subst heq
      rw [pathText_eq_joinPath hne hfree]
      exact ⟨joinPath_ne_empty hne fun part hpart => (hfree part hpart), (exists_item_iff hne hfree).1 hitem⟩
    · rintro ⟨hne, folder, hfolder, hway⟩
      have hpath : ∀ part ∈ splitPath path, part ≠ "" ∧ SlashFree part := fun part hpart =>
        ⟨segment_ne_empty (hok folder hfolder) hne hway part hpart, slashFree_of_mem_splitPath hpart⟩
      have hitem := (exists_item_iff (splitPath_ne_nil path) hpath).2 ⟨folder, hfolder, by rwa [joinPath_splitPath]⟩
      refine ⟨splitPath path, (mem_keys hdepth).2 ⟨splitPath path, splitPath_ne_nil path, rfl, hitem⟩, ?_⟩
      rw [pathText_eq_joinPath (splitPath_ne_nil path) hpath, joinPath_splitPath]

theorem empty_mem_folderPaths (h : "" ∈ emptyFolders) : "" ∈ folderPaths (build toLowercase sessions emptyFolders) := by
  obtain ⟨depth, hdepth⟩ := exists_depth (itemsOf sessions emptyFolders)
  have hfolders := folderPaths_build_perm toLowercase hdepth
  have hitem : (splitPath "", none) ∈ itemsOf sessions emptyFolders := mem_append_left _ (mem_map_of_mem h)
  refine hfolders.mem_iff.2 (mem_map.2 ⟨splitPath "", (mem_keys hdepth).2 ?_, pathText_splitPath (.inl rfl)⟩)
  exact ⟨splitPath "", splitPath_ne_nil "", rfl, _, hitem, prefix_rfl⟩

/-! ## The counts -/

variable {top : String}

theorem length_placed_strip (htop : top ≠ "") (s : TreeSession) :
    ((strip top (if s.folder = "" then [] else splitPath s.folder, some s)).toList.flatMap (placed [top])).length =
      if (splitPath s.folder).head? = some top then 1 else 0 := by
  split_ifs with hroot hhead hhead
  · rw [hroot] at hhead
    exact absurd (Option.some.inj hhead).symm htop
  · rfl
  · obtain ⟨rest, hrest⟩ := head?_eq_some_iff.1 hhead
    rw [hrest, strip_self]
    rfl
  · obtain ⟨segment, rest, hrest⟩ := exists_cons_of_ne_nil (splitPath_ne_nil s.folder)
    rw [hrest] at hhead ⊢
    have hne : segment ≠ top := fun heq => hhead (congrArg some heq)
    rw [strip_ne hne]
    rfl

theorem placed_strip_folder (top folder : String) :
    (strip top (splitPath folder, (none : Option TreeSession))).toList.flatMap (placed [top]) = [] := by
  cases splitPath folder with
  | nil => rfl
  | cons segment rest =>
    show (if segment = top then some (rest, none) else none).toList.flatMap (placed [top]) = []
    split_ifs <;> rfl

theorem length_under (htop : top ≠ "") :
    ((under top (itemsOf sessions emptyFolders)).flatMap (placed [top])).length = (sessionsIn top sessions).length := by
  have hempties : (under top (emptyFolders.map fun folderPath => (splitPath folderPath, (none : Option TreeSession)))).flatMap
      (placed [top]) = [] := by
    induction emptyFolders with
    | nil => rfl
    | cons folder folders ih => rw [map_cons, under_cons, flatMap_append, placed_strip_folder, ih, append_nil]
  unfold itemsOf
  rw [under_append, flatMap_append, hempties, nil_append]
  induction sessions with
  | nil => rfl
  | cons s ss ih =>
    rw [map_cons, under_cons, flatMap_append, length_append, length_placed_strip htop, ih]
    unfold sessionsIn
    rw [filter_cons]
    simp only [decide_eq_true_eq]
    split_ifs
    · rw [length_cons, Nat.add_comm]
    · exact Nat.zero_add _

theorem leafCount_top
    (hdepth : ∀ item ∈ itemsOf sessions emptyFolders, item.1.length ≤ depth + 1)
    (htop : top ≠ "") :
    leafCount (sortNode toLowercase (nodeOf
      (fun part => grouped depth ([] ++ [part]) (under part (itemsOf sessions emptyFolders))) [] (.branch top))) =
      (sessionsIn top sessions).length := by
  rw [sortNode_folder rfl]
  unfold leafCount
  rw [(leaves_sortTree _ _).length_eq]
  exact (leaves_grouped (length_of_mem_under hdepth)).length_eq.trans (length_under htop)

theorem exists_build_eq (toLowercase : String → String) (sessions : List TreeSession) (emptyFolders : List String) :
    ∃ depth, (∀ item ∈ itemsOf sessions emptyFolders, item.1.length ≤ depth + 1) ∧
      ∀ n, n ∈ build toLowercase sessions emptyFolders ↔
      ∃ slot ∈ slots (itemsOf sessions emptyFolders), n = sortNode toLowercase
        (nodeOf (fun part => grouped depth ([] ++ [part]) (under part (itemsOf sessions emptyFolders))) [] slot) := by
  obtain ⟨depth, hdepth⟩ := exists_depth (itemsOf sessions emptyFolders)
  have hdepth' : ∀ item ∈ itemsOf sessions emptyFolders, item.1.length ≤ depth + 1 := fun item hitem =>
    (hdepth item hitem).trans (Nat.le_succ depth)
  refine ⟨depth, hdepth', fun n => ?_⟩
  rw [build_eq hdepth', sortTree_eq, grouped_succ]
  simp only [mem_map, mem_mergeSort]
  constructor
  · rintro ⟨_, ⟨slot, hslot, rfl⟩, rfl⟩
    exact ⟨slot, hslot, rfl⟩
  · rintro ⟨slot, hslot, rfl⟩
    exact ⟨_, ⟨slot, hslot, rfl⟩, rfl⟩

theorem sessionCount_build (hok : ∀ folder ∈ givenFolders sessions emptyFolders, FolderOk folder)
    (hempty : "" ∉ emptyFolders) :
    (∀ n ∈ allNodes (build toLowercase sessions emptyFolders), n.sessionId.isNone = true → n.sessionCount.toNat = leafCount n) ↔
      ∀ top ≠ "", (sessionsIn top sessions).length < 2 ^ 32 := by
  obtain ⟨depth, hdepth, hbuild⟩ := exists_build_eq toLowercase sessions emptyFolders
  constructor
  · intro hcounts top htop
    by_contra hmany
    obtain ⟨s, hs⟩ := exists_mem_of_length_pos (show 0 < (sessionsIn top sessions).length by omega)
    obtain ⟨hs, hhead⟩ := mem_filter.1 hs
    obtain ⟨rest, hrest⟩ := head?_eq_some_iff.1 (of_decide_eq_true hhead)
    have hfolder : s.folder ≠ "" := by
      rintro hroot
      rw [hroot] at hrest
      exact htop (List.cons.inj hrest).1.symm
    have hitem : (top :: rest, some s) ∈ itemsOf sessions emptyFolders := by
      refine mem_append_right _ (mem_map.2 ⟨s, hs, ?_⟩)
      rw [if_neg hfolder, hrest]
    have hn := (hbuild _).2 ⟨.branch top, branch_mem_slots.2 ⟨rest, some s, hitem⟩, rfl⟩
    have heq := hcounts _ (mem_allNodes.2 ⟨_, hn, .inl rfl⟩) (isNone_sortNode _)
    rw [leafCount_top hdepth htop] at heq
    exact hmany (heq ▸ UInt32.toNat_lt _)
  · intro hfew x hx hkind
    obtain ⟨n, hn, hnkind, hle⟩ := leafCount_le _ x hx hkind
    obtain ⟨slot, hslot, rfl⟩ := (hbuild n).1 hn
    rw [isNone_sortNode] at hnkind
    cases slot with
    | leaf s => cases hnkind
    | branch top =>
      obtain ⟨rest, leaf, hitem⟩ := branch_mem_slots.1 hslot
      have htop := (part_ne_empty hok hempty _ hitem top mem_cons_self).1
      rw [leafCount_top hdepth htop] at hle
      rw [count_sortTree _ x hx hkind, UInt32.toNat_ofNat', Nat.mod_eq_of_lt (hle.trans_lt (hfew top htop))]

/-! ## The tree -/

/-- **The tree is that of its sessions and folders**, whatever their order, when no empty path is among the empty folders and
no folder at the top has more sessions than 32 bits count. -/
theorem sessionTree_iff (toLowercase : String → String) (sessions : List TreeSession) (emptyFolders : List String)
    (hok : ∀ folder ∈ givenFolders sessions emptyFolders, FolderOk folder) :
    (IsSessionTree toLowercase sessions emptyFolders (build toLowercase sessions emptyFolders) ∧
      ∀ sessions' emptyFolders', sessions.Perm sessions' → emptyFolders.Perm emptyFolders' →
        Alike toLowercase (build toLowercase sessions emptyFolders) (build toLowercase sessions' emptyFolders')) ↔
    "" ∉ emptyFolders ∧ ∀ top ≠ "", (sessionsIn top sessions).length < 2 ^ 32 := by
  constructor
  · rintro ⟨htree, -⟩
    have hempty : "" ∉ emptyFolders := fun hmem => ((htree.folders "").1 (empty_mem_folderPaths hmem)).1 rfl
    exact ⟨hempty, (sessionCount_build hok hempty).1 htree.counts⟩
  rintro ⟨hempty, hfew⟩
  obtain ⟨hnodup, hfolders⟩ := folderPaths_build hok hempty
  refine ⟨⟨leaves_build hok, hnodup, hfolders, (sessionCount_build hok hempty).2 hfew, pairwise_sortTree _,
    pairwise_children_sortTree _⟩, ?_⟩
  intro sessions' emptyFolders' hsessions hfolders'
  have hperm : (itemsOf sessions emptyFolders).Perm (itemsOf sessions' emptyFolders') :=
    (hfolders'.map _).append (hsessions.map _)
  obtain ⟨depth, hdepth⟩ := exists_depth (itemsOf sessions emptyFolders)
  have hdepth' : ∀ item ∈ itemsOf sessions' emptyFolders', item.1.length ≤ depth := fun item hitem =>
    hdepth item (hperm.mem_iff.2 hitem)
  rw [build_eq hdepth, build_eq hdepth']
  exact alike_grouped hdepth hperm

/-- Two sessions and an empty folder, the names lowered letter by letter. -/
theorem sessionTree_iff_sample :
    (∀ folder ∈ givenFolders [⟨"1", "web", "Prod/EU", "a@b:22"⟩, ⟨"2", "", "", "c@d:22"⟩] ["Lab"], FolderOk folder) ∧
    IsSessionTree String.toLower [⟨"1", "web", "Prod/EU", "a@b:22"⟩, ⟨"2", "", "", "c@d:22"⟩] ["Lab"]
      (build String.toLower [⟨"1", "web", "Prod/EU", "a@b:22"⟩, ⟨"2", "", "", "c@d:22"⟩] ["Lab"]) := by
  have hok : ∀ folder ∈ givenFolders [⟨"1", "web", "Prod/EU", "a@b:22"⟩, ⟨"2", "", "", "c@d:22"⟩] ["Lab"], FolderOk folder := by
    decide +kernel
  refine ⟨hok, ((sessionTree_iff String.toLower _ _ hok).2 ⟨by decide, fun top _ => ?_⟩).1⟩
  exact (length_filter_le _ _).trans_lt (by decide)

/-- An empty path among the empty folders: the tree gets a folder with an empty name. -/
theorem empty_folder_shown : (∀ folder ∈ givenFolders [] [""], FolderOk folder) ∧
    ¬ (IsSessionTree String.toLower [] [""] (build String.toLower [] [""]) ∧
      ∀ sessions' emptyFolders', List.Perm [] sessions' → [""].Perm emptyFolders' →
        Alike String.toLower (build String.toLower [] [""]) (build String.toLower sessions' emptyFolders')) := by
  refine ⟨by decide, fun h => ?_⟩
  have hmem : "" ∈ folderPaths (build String.toLower [] [""]) := empty_mem_folderPaths (mem_singleton.2 rfl)
  exact ((h.1.folders "").1 hmem).1 rfl

end LetsFlutSsh.Sessions
