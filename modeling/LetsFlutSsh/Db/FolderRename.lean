import Mathlib.Data.List.Infix
import LetsFlutSsh.Db.FolderOps

/-!
# Renaming a folder by its path

`renamePathCascade` re-parents one row; `renamePathsCascade` rewrites path texts.

* `Named`: forests of slash-free names, no two siblings of one name; a path text names one folder
  (`Named.chain_inj`), and the folders above it are the leading parts of its names (`Chain.above`).
-/

namespace LetsFlutSsh.Folders
open Lib Lib.Forest List

variable {Text : Type}

/-! ## Segments -/

theorem segments_eq_filter (path : String) : segments path = (splitPath path).filter (· ≠ "") := by
  unfold segments splitPath
  rw [filter_map]
  congr 2
  funext cs
  have hiff : cs ≠ [] ↔ String.ofList cs ≠ "" := by
    rw [Ne, Ne, ← String.ofList_nil, String.ofList_inj]
  simp only [Function.comp_apply, hiff]

theorem slashFree_of_mem_segments {path s : String} (h : s ∈ segments path) : SlashFree s := by
  rw [segments_eq_filter, mem_filter] at h
  exact slashFree_of_mem_splitPath h.1

theorem ne_empty_of_mem_segments {path s : String} (h : s ∈ segments path) : s ≠ "" := by
  rw [segments_eq_filter, mem_filter, decide_eq_true_eq] at h
  exact h.2

variable {names : List String}

theorem segments_joinPath (hfree : ∀ n ∈ names, SlashFree n) (hne : ∀ n ∈ names, n ≠ "") :
    segments (joinPath names) = names := by
  rcases eq_or_ne names [] with rfl | hnil
  · decide
  · rw [segments_eq_filter, splitPath_joinPath hnil hfree, filter_eq_self]
    intro n hn
    exact decide_eq_true (hne n hn)

def cleanPath (path : String) : String := joinPath (segments path)

def parentPaths (path : String) : List String := ((segments path).dropLast.inits.filter (· ≠ [])).map joinPath

theorem mem_parentPaths (path p : String) :
    p ∈ parentPaths path ↔ ∃ pre, pre ≠ [] ∧ pre <+: (segments path).dropLast ∧ joinPath pre = p := by
  unfold parentPaths
  rw [mem_map]
  constructor
  · rintro ⟨pre, hmem, rfl⟩
    rw [mem_filter, mem_inits, decide_eq_true_eq] at hmem
    exact ⟨pre, hmem.2, hmem.1, rfl⟩
  · rintro ⟨pre, hne, hpre, rfl⟩
    refine ⟨pre, ?_, rfl⟩
    rw [mem_filter, mem_inits, decide_eq_true_eq]
    exact ⟨hpre, hne⟩

/-! ## Named forests -/

def UniqueSiblings (db : Db Text) : Prop :=
  ∀ a b ra rb, db.folders.get a = some ra → db.folders.get b = some rb → ra.parentId = rb.parentId →
    ra.name = rb.name → a = b

/-- A forest whose path texts name one folder each. The empty id stands for the root. -/
structure Named (db : Db Text) : Prop where
  parents : ParentsOk db
  forest : IsForest db
  ids : db.folders.get "" = none
  slashFree : ∀ id row, db.folders.get id = some row → SlashFree row.name
  unique : UniqueSiblings db

variable {x : Option String} {id a : String} {xs : List String} {db : Db Text}

section

theorem Named.sound (h : Named db) : Sound db := h.forest.sound h.parents

theorem Chain.forall_names {P : String → Prop} (h : ∀ id row, db.folders.get id = some row → P row.name)
    (hc : Chain db x names) : ∀ n ∈ names, P n := by
  induction hc with
  | root =>
    intro n hn
    cases hn
  | child hrow _ ih =>
    intro n hn
    rcases mem_append.mp hn with hn | hn
    · exact ih n hn
    · rw [mem_singleton.mp hn]
      exact h _ _ hrow

theorem Chain.slashFree (h : Named db) (hc : Chain db x names) :
    ∀ n ∈ names, SlashFree n := hc.forall_names h.slashFree

theorem Chain.ne_nil (hc : Chain db (some id) names) : names ≠ [] := by
  cases hc with
  | child _ _ => simp

theorem Named.id_ne (h : Named db) (hid : (db.folders.get id).isSome) : id ≠ "" := by
  rintro rfl
  rw [h.ids] at hid
  cases hid

theorem UniqueSiblings.chain_inj (h : UniqueSiblings db) {y : Option String} (hx : Chain db x names)
    (hy : Chain db y names) : x = y := by
  induction hx generalizing y with
  | root =>
    generalize hnil : ([] : List String) = names at hy
    cases hy with
    | root => rfl
    | child _ _ => simp at hnil
  | @child a ra names hra _ ih =>
    generalize hnames : names ++ [ra.name] = names' at hy
    cases hy with
    | root => simp at hnames
    | @child b rb names'' hrb hpb =>
      obtain ⟨rfl, hname⟩ := append_inj' hnames rfl
      rw [List.cons.injEq] at hname
      exact congrArg some (h a b ra rb hra hrb (ih hpb) hname.1)

theorem Named.chain_inj (h : Named db) {y : Option String} (hx : Chain db x names)
    (hy : Chain db y names) : x = y := h.unique.chain_inj hx hy

theorem Chain.above {ys : List String} (hc : Chain db x names) (hnames : names = xs ++ ys)
    (hxs : xs ≠ []) :
    ∃ a b, x = some a ∧ Chain db (some b) xs ∧ Under (parentOf db) a b := by
  induction hc generalizing ys with
  | root =>
    rw [eq_comm, append_eq_nil_iff] at hnames
    exact absurd hnames.1 hxs
  | @child a row names hrow hparent ih =>
    rcases eq_nil_or_concat ys with rfl | ⟨ys', n, rfl⟩
    · rw [append_nil] at hnames
      exact ⟨a, a, rfl, hnames ▸ .child hrow hparent, .refl⟩
    · rw [concat_eq_append, ← append_assoc] at hnames
      obtain ⟨f, b, hf, hb, hunder⟩ := ih (append_inj' hnames rfl).1
      refine ⟨a, b, rfl, hb, under_of_up ?_ hunder⟩
      rw [parentOf, hrow]
      exact hf

theorem Chain.prefix_of_under {b : String} (hunder : Under (parentOf db) a b)
    (ha : Chain db (some a) names) (hb : Chain db (some b) xs) :
    xs <+: names := by
  induction hunder using Relation.ReflTransGen.head_induction_on generalizing names with
  | refl => rw [ha.unique hb]
  | @head a f hup _ ih =>
    cases ha with
    | @child _ row names' hrow hparent =>
      rw [Up, parentOf, hrow] at hup
      change row.parentId = some f at hup
      rw [hup] at hparent
      exact (ih hparent).trans (prefix_append _ _)

theorem Named.under_iff (h : Named db) {b : String} (ha : Chain db (some a) names)
    (hb : Chain db (some b) xs) : Under (parentOf db) a b ↔ xs <+: names := by
  refine ⟨fun hunder => ha.prefix_of_under hunder hb, ?_⟩
  rintro ⟨ys, rfl⟩
  obtain ⟨a', b', heq, hb', hunder⟩ := ha.above rfl hb.ne_nil
  cases heq
  have hbb := h.chain_inj hb hb'
  cases hbb
  exact hunder

end

/-- A database whose folders all hang below roots and have ids. -/
structure FolderForest (db : Db Text) : Prop where
  chain : ∀ id, (db.folders.get id).isSome → ∃ names, Chain db (some id) names
  ids : db.folders.get "" = none

theorem FolderForest.path (h : FolderForest db)
    (hc : Chain db (some id) names) : buildFolderPath db id = joinPath names := by
  refine buildFolderPath_of_chain ?_ hc
  rintro rfl
  have hsome := hc.isSome
  rw [h.ids] at hsome
  cases hsome

theorem FolderForest.mem_allFolderPaths_iff (h : FolderForest db) (p : String) :
    p ∈ allFolderPaths db ↔ ∃ id names, Chain db (some id) names ∧ joinPath names = p := by
  rw [mem_allFolderPaths]
  constructor
  · rintro ⟨id, hid, rfl⟩
    obtain ⟨names, hc⟩ := h.chain id hid
    exact ⟨id, names, hc, (h.path hc).symm⟩
  · rintro ⟨id, names, hc, rfl⟩
    exact ⟨id, hc.isSome, h.path hc⟩

theorem Sound.mem_allFolderPaths_iff (h : Sound db) (hids : db.folders.get "" = none) (p : String) :
    p ∈ allFolderPaths db ↔ ∃ id names, Chain db (some id) names ∧ joinPath names = p :=
  FolderForest.mem_allFolderPaths_iff ⟨fun _ => h.chain, hids⟩ p

theorem Named.chain_of_find (h : Named db) {path : String}
    (hfind : findFolderIdByPath path db = some id) : Chain db (some id) (splitPath path) := by
  obtain ⟨hid, hpath⟩ := findFolderIdByPath_some hfind
  obtain ⟨names, hc⟩ := h.sound.chain hid
  rw [buildFolderPath_of_chain (h.id_ne hid) hc] at hpath
  rwa [← hpath, splitPath_joinPath hc.ne_nil (hc.slashFree h)]

variable {oldPath : String}

theorem Named.mem_renamePathsCascade_iff (h : Named db) {newPath : String}
    (hold : oldPath ≠ "") (hnew : newPath ≠ "") (p : String) :
    p ∈ renamePathsCascade (allFolderPaths db) oldPath newPath ↔ ∃ id names, Chain db (some id) names ∧
        joinPath (renameNames (splitPath oldPath) (splitPath newPath) names) = p := by
  have hmap : p ∈ renamePathsCascade (allFolderPaths db) oldPath newPath ↔
      ∃ q ∈ allFolderPaths db, renamePath oldPath newPath q = p := by
    unfold renamePathsCascade
    split_ifs with hsame
    · obtain rfl : oldPath = newPath := (hsame.resolve_left hold).resolve_left hnew
      rw [mem_sortDedup]
      have hself : ∀ q ∈ allFolderPaths db, renamePath oldPath oldPath q = q := by
        intro q hq
        obtain ⟨id, names, hc, rfl⟩ := (h.sound.mem_allFolderPaths_iff h.ids q).mp hq
        rw [renamePath_joinPath _ _ hc.ne_nil (hc.slashFree h)]
        unfold renameNames
        split_ifs with hpre
        · rw [prefix_iff_eq_append.mp hpre]
        · rfl
      constructor
      · exact fun hp => ⟨p, hp, hself p hp⟩
      · rintro ⟨q, hq, rfl⟩
        rwa [hself q hq]
    · rw [mem_sortDedup, mem_map]
  rw [hmap]
  constructor
  · rintro ⟨q, hq, rfl⟩
    obtain ⟨id, names, hc, rfl⟩ := (h.sound.mem_allFolderPaths_iff h.ids q).mp hq
    exact ⟨id, names, hc, (renamePath_joinPath _ _ hc.ne_nil (hc.slashFree h)).symm⟩
  · rintro ⟨id, names, hc, rfl⟩
    exact ⟨joinPath names, (h.sound.mem_allFolderPaths_iff h.ids _).mpr ⟨id, names, hc, rfl⟩,
      renamePath_joinPath _ _ hc.ne_nil (hc.slashFree h)⟩

/-! ## Creating the folders above -/

theorem Named.ensureFolderPath {mint : List String → String} (hmint : ∀ used, mint used ∉ used)
    (hids : ∀ used, mint used ≠ "") (h : Named db) (path : String) (nowMs : Int64) :
    Named (ensureFolderPath mint db path nowMs).1 := by
  have hsound := h.sound.ensureFolderPath hmint path nowMs
  refine ⟨hsound.parents, hsound.isForest, ?_, ?_, ?_⟩
  · refine ensureFolderPath_invariant hmint (I := fun db => db.folders.get "" = none) ?_ h.ids
    intro db row hdb _ _ _ _
    rw [Table.get_set, if_neg (hids _).symm, hdb]
  · refine ensureFolderPath_invariant hmint
      (I := fun db => ∀ id row, db.folders.get id = some row → SlashFree row.name) ?_ h.slashFree
    intro db row hdb _ _ _ hname a r hr
    rw [Table.get_set] at hr
    split_ifs at hr
    · cases hr
      exact slashFree_of_mem_segments hname
    · exact hdb a r hr
  · refine ensureFolderPath_invariant hmint (I := UniqueSiblings) ?_ h.unique
    intro db row hdb _ _ hfree _ a b ra rb hra hrb hparent hname
    rw [Table.get_set] at hra hrb
    split_ifs at hra hrb with ha hb hb
    · rw [ha, hb]
    · cases hra
      exact absurd hname.symm (hfree b rb hrb hparent.symm)
    · cases hrb
      exact absurd hname (hfree a ra hra hparent)
    · exact hdb a b ra rb hra hrb hparent hname

variable {p : Option String} {row : FolderRow}

/-! ## Moving a row -/

section Move

variable {id name : String}

theorem chain_of_not_under (hc : Chain db x names)
    (hx : ∀ a, x = some a → ¬ Under (parentOf db) a id) (row' : FolderRow) :
    Chain { db with folders := db.folders.set id row' } x names := by
  induction hc with
  | root => exact .root
  | @child a r names hr hparent ih =>
    have hne : a ≠ id := by
      rintro rfl
      exact hx a rfl .refl
    refine .child ?_ (ih fun f hf hunder => hx a rfl (under_of_up ?_ hunder))
    · rw [Table.get_set, if_neg hne, hr]
    · rw [parentOf, hr]
      exact hf

theorem chain_moved {old above : List String} (hold : Chain db (some id) old) (habove : Chain db p above)
    (hp : ∀ f, p = some f → ¬ Under (parentOf db) f id)
    (hc : Chain db x names) (hx : x = some a) (hunder : Under (parentOf db) a id) :
    Chain { db with folders := db.folders.set id { row with name := name, parentId := p } } x
      (above ++ [name] ++ names.drop old.length) := by
  induction hc generalizing a with
  | root => cases hx
  | @child a' r names hr hparent ih =>
    obtain rfl := Option.some.inj hx
    have hself : Chain db (some a') (names ++ [r.name]) := .child hr hparent
    by_cases ha : a' = id
    · subst ha
      rw [hold.unique hself, drop_length, append_nil]
      have hget : ({ db with folders := db.folders.set a' { row with name := name, parentId := p } } :
          Db Text).folders.get a' = some { row with name := name, parentId := p } := by
        rw [Table.get_set, if_pos rfl]
      exact Chain.child hget (chain_of_not_under habove hp _)
    · rcases hunder.cases with hcontra | ⟨f, hup, hrest⟩
      · exact absurd hcontra ha
      · rw [parentOf, hr] at hup
        change r.parentId = some f at hup
        have hprefix := Chain.prefix_of_under hrest (hup ▸ hparent) hold
        rw [drop_append_of_le_length hprefix.length_le, ← append_assoc]
        refine Chain.child ?_ (ih hup hrest)
        rw [Table.get_set, if_neg ha, hr]

end Move

/-! ## The rename -/

/-- What stands between the folder before the rename and the row after it. -/
structure Moved (db db₁ db' : Db Text) (id : String) (old new : List String) : Prop where
  before : Named db
  created : Named db₁
  grows : Grows db db₁
  made : MadeOnWay db db₁ [] new.dropLast
  segs : new ≠ [] ∧ (∀ s ∈ new, SlashFree s) ∧ ∀ s ∈ new, s ≠ ""
  chain : Chain db (some id) old
  keep : ∀ a names, Chain db₁ (some a) names → ¬ Under (parentOf db₁) a id → Chain db' (some a) names
  move : ∀ a names, Chain db₁ (some a) names → Under (parentOf db₁) a id → Chain db' (some a) (new ++ names.drop old.length)
  sound : Sound db'
  ids : ∀ a, (db'.folders.get a).isSome ↔ (db₁.folders.get a).isSome
  above : ∃ p, Chain db₁ p new.dropLast ∧ (∀ f, p = some f → ¬ Under (parentOf db₁) f id) ∧
    ∃ row name, new = new.dropLast ++ [name] ∧ db₁.folders.get id = some row ∧
      db' = { db₁ with folders := db₁.folders.set id { row with name := name, parentId := p } }

theorem moved_of_rename {mint : List String → String} (hmint : ∀ used, mint used ∉ used)
    (hids : ∀ used, mint used ≠ "") {db' : Db Text} (h : Named db) {newPath name : String}
    {nowMs : Int64} {n : Nat} {db₁ : Db Text}
    (hfind : findFolderIdByPath oldPath db = some id) (hlast : (segments newPath).getLast? = some name)
    (hens : Folders.ensureFolderPath mint db (joinPath (segments newPath).dropLast) nowMs = (db₁, .ok p))
    (hup : updateNameParent db₁ id name p = .ok (db', n)) :
    n = 1 ∧ Moved db db₁ db' id (splitPath oldPath) (segments newPath) := by
  have hne : segments newPath ≠ [] := by
    intro hnil
    rw [hnil] at hlast
    cases hlast
  have hfree : ∀ s ∈ segments newPath, SlashFree s := fun s => slashFree_of_mem_segments
  have hname : segments newPath = (segments newPath).dropLast ++ [name] :=
    (dropLast_append_getLast? name hlast).symm
  have hsub : ∀ s ∈ (segments newPath).dropLast, s ∈ segments newPath := fun s hs => mem_of_mem_dropLast hs
  have hsegs : segments (joinPath (segments newPath).dropLast) = (segments newPath).dropLast :=
    segments_joinPath (fun s hs => hfree s (hsub s hs)) fun s hs => ne_empty_of_mem_segments (hsub s hs)
  have hnamed₁ := h.ensureFolderPath hmint hids (joinPath (segments newPath).dropLast) nowMs
  rw [hens] at hnamed₁
  -- The folders above the new path, found or created.
  obtain ⟨hgrow, habove, hmade⟩ : Grows db db₁ ∧ Chain db₁ p (segments newPath).dropLast ∧
      MadeOnWay db db₁ [] (segments newPath).dropLast := by
    by_cases hempty : joinPath (segments newPath).dropLast = ""
    · rw [Folders.ensureFolderPath, if_pos hempty] at hens
      cases hens
      rw [hempty] at hsegs
      rw [← hsegs]
      exact ⟨.refl _, .root, fun _ => .inl⟩
    · obtain ⟨db₂, x, heq, hgrow, hc, hmade⟩ := ensureFolderPath_spec hmint db hempty nowMs
      rw [hens] at heq
      cases heq
      rw [hsegs] at hc hmade
      exact ⟨hgrow, hc, hmade⟩
  have hchain := h.chain_of_find hfind
  have hchain₁ := hchain.mono hgrow.kept
  rcases updateNameParent_ok hup with ⟨hnone, -, -⟩ | ⟨row, hrow, hn, hparent, hdb⟩
  · have hsome := hchain₁.isSome
    rw [hnone] at hsome
    cases hsome
  have hp : ∀ f, p = some f → ¬ Under (parentOf db₁) f id :=
    fun f hf => not_under_of_isDescendantOf (hparent f hf).2
  refine ⟨hn, h, hnamed₁, hgrow, hmade, ⟨hne, hfree, fun s => ne_empty_of_mem_segments⟩, hchain, ?_, ?_,
    hnamed₁.sound.updateNameParent hup, ?_, p, habove, hp, row, name, hname, hrow, hdb⟩
  · intro a names hc hnot
    rw [hdb]
    refine chain_of_not_under hc ?_ _
    rintro _ ⟨⟩
    exact hnot
  · intro a names hc hunder
    rw [hdb, hname]
    exact chain_moved hchain₁ habove hp hc rfl hunder
  · intro a
    rw [hdb]
    rw [Table.get_set]
    split_ifs with ha
    · rw [ha, hrow]
      simp
    · rfl

namespace Moved

variable {db₁ db' : Db Text} {id : String} {old new : List String}

section

variable (h : Moved db db₁ db' id old new)
include h

theorem chain_above {pre : List String} (hne : pre ≠ []) (hpre : pre <+: new.dropLast) :
    ∃ b, Chain db₁ (some b) pre ∧ ¬ Under (parentOf db₁) b id := by
  obtain ⟨p, habove, hp, -⟩ := h.above
  obtain ⟨rest, hrest⟩ := hpre
  obtain ⟨f, b, hf, hb, hunder⟩ := habove.above hrest.symm hne
  exact ⟨b, hb, fun hbid => hp f hf (hunder.trans hbid)⟩

theorem chain_after (hc : Chain db (some a) names) :
    Chain db' (some a) (renameNames old new names) := by
  have hc₁ := hc.mono h.grows.kept
  have hiff := h.created.under_iff hc₁ (h.chain.mono h.grows.kept)
  unfold renameNames
  split_ifs with hpre
  · exact h.move a names hc₁ (hiff.mpr hpre)
  · exact h.keep a names hc₁ fun hunder => hpre (hiff.mp hunder)

theorem paths_iff (p : String) : p ∈ allFolderPaths db' ↔
    (∃ a names, Chain db (some a) names ∧ joinPath (renameNames old new names) = p) ∨
      ∃ pre, pre ≠ [] ∧ pre <+: new.dropLast ∧ joinPath pre = p := by
  have hids : db'.folders.get "" = none := by
    rw [← Option.not_isSome_iff_eq_none, h.ids, h.created.ids]
    simp
  rw [h.sound.mem_allFolderPaths_iff hids]
  constructor
  · rintro ⟨a, names', hc', rfl⟩
    rcases h.made a ((h.ids a).mp hc'.isSome) with ha | ⟨pre, hne, hpre, hca⟩
    · obtain ⟨names, hc⟩ := h.before.sound.chain ha
      exact .inl ⟨a, names, hc, by rw [hc'.unique (h.chain_after hc)]⟩
    · -- A folder that was created is the one above the new path.
      obtain ⟨b, hb, hnot⟩ := h.chain_above hne hpre
      have hab := h.created.chain_inj hca hb
      cases hab
      exact .inr ⟨pre, hne, hpre, by rw [hc'.unique (h.keep a pre hb hnot)]⟩
  · rintro (⟨a, names, hc, rfl⟩ | ⟨pre, hne, hpre, rfl⟩)
    · exact ⟨a, _, h.chain_after hc, rfl⟩
    · obtain ⟨b, hb, hnot⟩ := h.chain_above hne hpre
      exact ⟨b, pre, h.keep b pre hb hnot, rfl⟩

theorem unique (hfree : joinPath new ∉ allFolderPaths db) : UniqueSiblings db' := by
  obtain ⟨p, habove, hp, row, name, hname, hrow, hdb⟩ := h.above
  -- Another folder at the new place was there before, under the new path.
  have hother : ∀ b rb, b ≠ id → db₁.folders.get b = some rb → rb.parentId = p → rb.name ≠ name := by
    rintro b rb - hrb rfl rfl
    have hb : Chain db₁ (some b) new := hname ▸ Chain.child hrb habove
    rcases h.made b hb.isSome with hdbb | ⟨pre, -, hpre, hcb⟩
    · obtain ⟨names, hc⟩ := h.before.sound.chain hdbb
      have hnames := (hc.mono h.grows.kept).unique hb
      exact hfree ((h.before.sound.mem_allFolderPaths_iff h.before.ids _).mpr ⟨b, new, hnames ▸ hc, rfl⟩)
    · have hlen := hpre.length_le
      rw [show pre = new from hcb.unique hb, length_dropLast] at hlen
      have hpos := length_pos_iff.mpr h.segs.1
      omega
  subst hdb
  intro a b ra rb hra hrb hparent hnames
  rw [Table.get_set] at hra hrb
  split_ifs at hra hrb with ha hb hb
  · rw [ha, hb]
  · cases hra
    exact absurd hnames.symm (hother b rb hb hrb hparent.symm)
  · cases hrb
    exact absurd hnames (hother a ra ha hra hparent)
  · exact h.created.unique a b ra rb hra hrb hparent hnames

end

end Moved

theorem renameNames_of_not_found (h : Named db) (hold : oldPath ≠ "")
    (hfind : findFolderIdByPath oldPath db = none) (new : List String)
    (hc : Chain db (some a) names) : renameNames (splitPath oldPath) new names = names := by
  unfold renameNames
  rw [if_neg]
  rintro ⟨rest, hrest⟩
  obtain ⟨-, b, -, hb, -⟩ := hc.above hrest.symm (splitPath_ne_nil oldPath)
  refine findFolderIdByPath_none hold hfind hb.isSome ?_
  rw [buildFolderPath_of_chain (h.id_ne hb.isSome) hb, joinPath_splitPath]

/-- **Renames.** When a folder is moved, the paths afterwards are the renamed paths, with the empty segments
of the new path dropped, and the paths of the folders above the new path. When none is, the path set does not
change either way. Siblings keep their names apart when the new path is free. -/
theorem renamePathCascade_paths {mint : List String → String} (hmint : ∀ used, mint used ∉ used)
    (hids : ∀ used, mint used ≠ "") {db db' : Db Text} (h : Named db) {oldPath newPath : String} {nowMs : Int64}
    {n : Nat} (hok : renamePathCascade mint db oldPath newPath nowMs = .ok (db', n)) :
    (n = 0 → db' = db ∧ ∀ p, p ∈ allFolderPaths db' ↔ p ∈ renamePathsCascade (allFolderPaths db) oldPath newPath) ∧
    (n ≠ 0 → ∀ p, p ∈ allFolderPaths db' ↔
      p ∈ renamePathsCascade (allFolderPaths db) oldPath (cleanPath newPath) ∨ p ∈ parentPaths newPath) ∧
    (cleanPath newPath ∉ allFolderPaths db → UniqueSiblings db') := by
  rcases renamePathCascade_ok hok with ⟨rfl, rfl, hwhy⟩ | ⟨id, name, db₁, p, hold, hfind, hlast, hens, hup⟩
  · refine ⟨fun _ => ⟨rfl, fun p => ?_⟩, fun hn => absurd rfl hn, fun _ => h.unique⟩
    by_cases hsame : oldPath = "" ∨ newPath = "" ∨ oldPath = newPath
    · rw [renamePathsCascade, if_pos hsame, mem_sortDedup]
    rw [not_or, not_or] at hsame
    obtain ⟨hold, hnew, hne⟩ := hsame
    have hfind : findFolderIdByPath oldPath db' = none := by
      rcases hwhy with hw | hw | hw | hw
      · exact absurd hw hold
      · exact absurd hw hnew
      · exact absurd hw hne
      · exact hw
    rw [h.mem_renamePathsCascade_iff hold hnew, h.sound.mem_allFolderPaths_iff h.ids]
    constructor
    · rintro ⟨a, names, hc, rfl⟩
      exact ⟨a, names, hc, by rw [renameNames_of_not_found h hold hfind _ hc]⟩
    · rintro ⟨a, names, hc, rfl⟩
      exact ⟨a, names, hc, by rw [renameNames_of_not_found h hold hfind _ hc]⟩
  · obtain ⟨rfl, hmoved⟩ := moved_of_rename hmint hids h hfind hlast hens hup
    obtain ⟨hne, hfree, hnonempty⟩ := hmoved.segs
    have hsplit : splitPath (cleanPath newPath) = segments newPath := splitPath_joinPath hne hfree
    have hclean : cleanPath newPath ≠ "" := by
      intro hempty
      have hsegs := segments_joinPath hfree hnonempty
      rw [show joinPath (segments newPath) = "" from hempty] at hsegs
      exact hne hsegs.symm
    refine ⟨fun hn => absurd hn one_ne_zero, fun _ p => ?_, hmoved.unique⟩
    rw [hmoved.paths_iff, h.mem_renamePathsCascade_iff hold hclean, hsplit, mem_parentPaths]

def sampleTree : Db Unit := { Db.empty with folders := Table.empty.set "k1" ⟨"infra", none, 0, false, 5⟩ }

theorem get_sampleTree (h : sampleTree.folders.get id = some row) :
    id = "k1" ∧ row = ⟨"infra", none, 0, false, 5⟩ := by
  unfold sampleTree at h
  rw [Table.get_set] at h
  split_ifs at h with hid
  · cases h
    exact ⟨hid, rfl⟩
  · cases h

theorem named_sampleTree : Named sampleTree := by
  have hsound : Sound sampleTree := sound_empty.set (by rintro _ ⟨⟩)
  refine ⟨hsound.parents, hsound.isForest, rfl, ?_, ?_⟩
  · intro id row hrow
    rw [(get_sampleTree hrow).2]
    decide
  · intro a b ra rb hra hrb _ _
    rw [(get_sampleTree hra).1, (get_sampleTree hrb).1]

theorem longerId_ne_empty (used : List String) : longerId used ≠ "" := by
  have hpos : 0 < longerThan used := by
    induction used with
    | nil => exact Nat.one_pos
    | cons u used ih => exact Nat.add_pos_right _ ih
  intro h
  have hlen := congrArg String.length h
  rw [longerId, String.length_ofList, length_replicate] at hlen
  simp only [String.length_empty] at hlen
  omega

theorem eq_ok_of_count {r : Except String (Db Text × Nat)} {n : Nat}
    (h : r.toOption.map Prod.snd = some n) : r = .ok (kept db r, n) := by
  rcases r with e | ⟨db', m⟩
  · cases h
  · cases h
    rfl

theorem renamePathCascade_paths_sample : (renamePathCascade longerId sampleTree "infra" "west//infra" 9).isOk = true ∧
    ∀ p, p ∈ allFolderPaths (kept sampleTree (renamePathCascade longerId sampleTree "infra" "west//infra" 9)) ↔
      p ∈ renamePathsCascade (allFolderPaths sampleTree) "infra" (cleanPath "west//infra") ∨
        p ∈ parentPaths "west//infra" := by
  have hok : renamePathCascade longerId sampleTree "infra" "west//infra" 9 =
      .ok (kept sampleTree (renamePathCascade longerId sampleTree "infra" "west//infra" 9), 1) :=
    eq_ok_of_count (by decide +kernel)
  refine ⟨by rw [hok]; rfl, ?_⟩
  exact (renamePathCascade_paths longerId_fresh longerId_ne_empty named_sampleTree hok).2.1 one_ne_zero

/-- Moving the one folder creates a second one, which the rename of the path set knows nothing of. -/
theorem rename_creates_parents : Named sampleTree ∧
      (renamePathCascade longerId sampleTree "infra" "west/infra" 9).isOk = true ∧
      allFolderPaths (kept sampleTree (renamePathCascade longerId sampleTree "infra" "west/infra" 9)) =
        ["west", "west/infra"] ∧
      renamePathsCascade (allFolderPaths sampleTree) "infra" "west/infra" = ["west/infra"] := by
  refine ⟨named_sampleTree, ?_, ?_, ?_⟩
  · decide +kernel
  · decide +kernel
  · decide +kernel

end LetsFlutSsh.Folders
