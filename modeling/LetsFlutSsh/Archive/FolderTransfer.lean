import Mathlib.Data.List.Dedup
import LetsFlutSsh.Db.FolderRename
import LetsFlutSsh.Archive.Atomicity
import LetsFlutSsh.Archive.Export

/-!
# Folder paths through an archive

Folders travel as path texts. An archive import keys the folders it makes by their paths without
empty pieces, a sync by the texts as they came; a session looks its folder up by the text it came with.

* `Makes`: folders were added for the leading parts of some paths, and no others;
* `KeyedByPath`: the map of an archive import leads from a path to a folder with that path;
* `folder_paths_survive_iff`: the paths survive exactly when none has an empty piece.
-/

namespace LetsFlutSsh.Archive
open Lib Folders List Option

variable {Text : Type}

/-! ## Paths without empty pieces -/

def Pieces (names : List String) : Prop := ∀ n ∈ names, SlashFree n ∧ n ≠ ""

theorem pieces_segments (path : String) : Pieces (segments path) :=
  fun _ hn => ⟨slashFree_of_mem_segments hn, ne_empty_of_mem_segments hn⟩

variable {names : List String}

theorem Pieces.segments_joinPath (h : Pieces names) : segments (joinPath names) = names :=
  Folders.segments_joinPath (fun n hn => (h n hn).1) fun n hn => (h n hn).2

theorem Pieces.joinPath_ne_empty (h : Pieces names) (hne : names ≠ []) : joinPath names ≠ "" := by
  intro hempty
  apply hne
  rw [← h.segments_joinPath, hempty]
  decide

theorem Pieces.append {xs ys : List String} (hx : Pieces xs) (hy : Pieces ys) : Pieces (xs ++ ys) := by
  intro n hn
  rcases mem_append.mp hn with hn | hn
  · exact hx n hn
  · exact hy n hn

/-- No piece of the path between slashes is empty; the empty path has no piece. -/
def NoEmptyPiece (path : String) : Prop := path = "" ∨ "" ∉ splitPath path

instance (path : String) : Decidable (NoEmptyPiece path) := inferInstanceAs (Decidable (path = "" ∨ "" ∉ splitPath path))

theorem noEmptyPiece_iff (path : String) : NoEmptyPiece path ↔ cleanPath path = path := by
  unfold NoEmptyPiece cleanPath
  constructor
  · rintro (rfl | h)
    · decide
    · have hall : (splitPath path).filter (· ≠ "") = splitPath path := by
        rw [filter_eq_self]
        intro n hn
        exact decide_eq_true fun hempty => h (hempty ▸ hn)
      rw [segments_eq_filter, hall, joinPath_splitPath]
  · intro h
    by_cases hsegs : segments path = []
    · rw [hsegs] at h
      exact .inl h.symm
    · refine .inr fun hmem => ?_
      rw [← h, splitPath_joinPath hsegs fun n hn => slashFree_of_mem_segments hn] at hmem
      exact ne_empty_of_mem_segments hmem rfl

theorem Pieces.noEmptyPiece (h : Pieces names) : NoEmptyPiece (joinPath names) := by
  rw [noEmptyPiece_iff, cleanPath, h.segments_joinPath]

/-! ## Making folders for paths -/

/-- Folders were added for the leading parts of the paths, and no others. -/
structure Makes (db : Db Text) (paths : List String) (db' : Db Text) : Prop where
  grows : Grows db db'
  made : ∀ id, (db'.folders.get id).isSome → (db.folders.get id).isSome ∨
    ∃ path ∈ paths, ∃ pre, pre ≠ [] ∧ pre <+: segments path ∧ Chain db' (some id) pre
  there : ∀ path ∈ paths, ∃ x, Chain db' x (segments path)
  ids : db.folders.get "" = none → db'.folders.get "" = none

theorem Makes.refl (db : Db Text) : Makes db [] db :=
  ⟨.refl db, fun _ => .inl, by simp, fun h => h⟩

variable {db : Db Text} {path : String} {paths : List String}

theorem Makes.cons {db₁ db₂ : Db Text} (h : Makes db [path] db₁)
    (h' : Makes db₁ paths db₂) : Makes db (path :: paths) db₂ := by
  refine ⟨h.grows.trans h'.grows, fun id hid => ?_, fun p hp => ?_, fun hids => h'.ids (h.ids hids)⟩
  · rcases h'.made id hid with hid | ⟨p, hp, pre, hne, hpre, hc⟩
    · rcases h.made id hid with hid | ⟨p, hp, pre, hne, hpre, hc⟩
      · exact .inl hid
      · rw [mem_singleton] at hp
        exact .inr ⟨p, hp ▸ mem_cons_self, pre, hne, hpre, hc.mono h'.grows.kept⟩
    · exact .inr ⟨p, mem_cons_of_mem _ hp, pre, hne, hpre, hc⟩
  · rcases mem_cons.mp hp with rfl | hp
    · obtain ⟨x, hc⟩ := h.there p (mem_singleton_self p)
      exact ⟨x, hc.mono h'.grows.kept⟩
    · exact h'.there p hp

theorem Makes.of_chain {x : Option String} (hc : Chain db x (segments path)) :
    Makes db [path] db := by
  refine ⟨.refl db, fun _ => .inl, fun p hp => ?_, fun h => h⟩
  rw [mem_singleton.mp hp]
  exact ⟨x, hc⟩

variable {db' : Db Text}

section

variable (h : Makes db paths db') (hdb : FolderForest db)
include h hdb

theorem Makes.forest : FolderForest db' := by
  refine ⟨fun id hid => ?_, h.ids hdb.ids⟩
  rcases h.made id hid with hid | ⟨-, -, pre, -, -, hc⟩
  · obtain ⟨names, hc⟩ := hdb.chain id hid
    exact ⟨names, hc.mono h.grows.kept⟩
  · exact ⟨pre, hc⟩

theorem Makes.mem_allFolderPaths_iff (p : String) : p ∈ allFolderPaths db' ↔
    p ∈ allFolderPaths db ∨ ∃ path ∈ paths, ∃ pre, pre ≠ [] ∧ pre <+: segments path ∧ joinPath pre = p := by
  rw [(h.forest hdb).mem_allFolderPaths_iff, hdb.mem_allFolderPaths_iff]
  constructor
  · rintro ⟨id, names, hc, rfl⟩
    rcases h.made id hc.isSome with hid | ⟨path, hpath, pre, hne, hpre, hc'⟩
    · obtain ⟨names', hc'⟩ := hdb.chain id hid
      exact .inl ⟨id, names', hc', by rw [hc.unique (hc'.mono h.grows.kept)]⟩
    · exact .inr ⟨path, hpath, pre, hne, hpre, by rw [hc.unique hc']⟩
  · rintro (⟨id, names, hc, rfl⟩ | ⟨path, hpath, pre, hne, ⟨rest, hpre⟩, rfl⟩)
    · exact ⟨id, names, hc.mono h.grows.kept, rfl⟩
    · obtain ⟨x, hc⟩ := h.there path hpath
      obtain ⟨-, b, -, hb, -⟩ := hc.above hpre.symm hne
      exact ⟨b, pre, hb, rfl⟩

end

variable {items : List Json} {id : String} {E : Env Text}

variable {pathToId : List (String × String)} {m : Materialising Text} {mode : ApplyMode}

/-! ## The folders of a sync -/

section Materialise

variable (hmint : ∀ used, E.mint used ≠ "") (now : Int64)

include hmint

theorem makes_ensureFolderPath (db : Db Text) (hpath : path ≠ "") :
    ∃ db' x, ensureFolderPath E.mint db path now = (db', .ok x) ∧ Makes db [path] db' ∧ Chain db' x (segments path) := by
  obtain ⟨db', x, heq, hgrow, hc, hmade⟩ := ensureFolderPath_spec E.mint_fresh db hpath now
  refine ⟨db', x, heq, ⟨hgrow, fun id hid => ?_, fun p hp => ?_, fun hids => ?_⟩, hc⟩
  · rcases hmade id hid with hid | ⟨pre, hne, hpre, hcid⟩
    · exact .inl hid
    · exact .inr ⟨path, mem_singleton_self path, pre, hne, hpre, by simpa using hcid⟩
  · rw [mem_singleton.mp hp]
    exact ⟨x, hc⟩
  · have hdb : db' = (ensureFolderPath E.mint db path now).1 := by rw [heq]
    rw [hdb]
    refine ensureFolderPath_invariant E.mint_fresh (I := fun db => db.folders.get "" = none) ?_ hids
    intro db row hnone _ _ _ _
    rw [Table.get_set, if_neg (hmint _).symm, hnone]

theorem makes_ensureFolderPathsSync (paths : List String) (hpaths : ∀ p ∈ paths, p ≠ "") (out : List (String × String))
    (s : Applying Text) (hout : PathFolders s.1 out) :
    Makes s.1 paths (ensureFolderPathsSync E now paths out s).2.1 := by
  induction paths generalizing out s with
  | nil => exact .refl s.1
  | cons path paths ih =>
    have hrest : ∀ p ∈ paths, p ≠ "" := fun p hp => hpaths p (mem_cons_of_mem path hp)
    have hpath : path ≠ "" := hpaths path mem_cons_self
    unfold ensureFolderPathsSync
    by_cases hseen : (out.lookup path).isSome
    · rw [if_pos (.inr hseen)]
      obtain ⟨id, hid⟩ := isSome_iff_exists.mp hseen
      obtain ⟨l₁, l₂, hsplit, -⟩ := lookup_eq_some_iff.mp hid
      have hc := hout.chain (path, id) (by simp [hsplit])
      exact (Makes.of_chain hc).cons (ih hrest out s hout)
    · rw [if_neg (not_or.mpr ⟨hpath, hseen⟩)]
      obtain ⟨db', x, heq, hmakes, hc⟩ := makes_ensureFolderPath hmint now s.1 hpath
      rw [heq]
      rcases x with _ | id
      · exact hmakes.cons (ih hrest out (db', s.2) (hout.mono hmakes.grows))
      · refine hmakes.cons (ih hrest (out ++ [(path, id)]) (db', s.2) ⟨fun e he => ?_⟩)
        rw [mem_append, mem_singleton] at he
        rcases he with he | rfl
        · exact (hout.chain e he).mono hmakes.grows.kept
        · exact hc

/-! ## The folders of an archive import -/

omit hmint in
theorem joinPath_concat (h : Pieces names) (seg : String) :
    (if joinPath names = "" then seg else joinPath names ++ "/" ++ seg) = joinPath (names ++ [seg]) := by
  rcases eq_or_ne names [] with rfl | hne
  · rfl
  · rw [if_neg (h.joinPath_ne_empty hne), joinPath_append hne (cons_ne_nil seg [])]
    rfl

/-- Every entry of the map is the path of the folder it leads to. -/
structure KeyedByPath (db : Db Text) (pathToId : List (String × String)) : Prop where
  chain : ∀ e ∈ pathToId, ∃ names, names ≠ [] ∧ Pieces names ∧ e.1 = joinPath names ∧ Chain db (some e.2) names

omit hmint in
theorem KeyedByPath.of_lookup (h : KeyedByPath db pathToId)
    (hlook : pathToId.lookup path = some id) :
    NoEmptyPiece path ∧ Chain db (some id) (segments path) := by
  obtain ⟨l₁, l₂, hsplit, -⟩ := lookup_eq_some_iff.mp hlook
  obtain ⟨names, -, hpieces, rfl, hc⟩ := h.chain (path, id) (by simp [hsplit])
  refine ⟨hpieces.noEmptyPiece, ?_⟩
  rwa [hpieces.segments_joinPath]

omit hmint in
theorem KeyedByPath.snoc (h : KeyedByPath db pathToId)
    (hgrow : Grows db db') (hne : names ≠ []) (hpieces : Pieces names)
    (hc : Chain db' (some id) names) : KeyedByPath db' (pathToId ++ [(joinPath names, id)]) := by
  refine ⟨fun e he => ?_⟩
  rw [mem_append, mem_singleton] at he
  rcases he with he | rfl
  · obtain ⟨names', hne', hpieces', heq, hc'⟩ := h.chain e he
    exact ⟨names', hne', hpieces', heq, hc'.mono hgrow.kept⟩
  · exact ⟨names, hne, hpieces, rfl, hc⟩

/-- What the walk down from `names` through `segs` adds. -/
structure Walked (m m' : Materialising Text) (names segs : List String) : Prop where
  grows : Grows m.state.1 m'.state.1
  keyed : KeyedByPath m'.state.1 m'.pathToId
  subset : ∀ e ∈ m.pathToId, e ∈ m'.pathToId
  listed : segs ≠ [] → ∃ id, (joinPath (names ++ segs), id) ∈ m'.pathToId
  chain : ∃ x, Chain m'.state.1 x (names ++ segs)
  made : MadeOnWay m.state.1 m'.state.1 names segs
  ids : m.state.1.folders.get "" = none → m'.state.1.folders.get "" = none

theorem materialiseSegments_walked (errLabel : String) (segs : List String)
    {parent : Option String} (hsegs : Pieces segs) (hnames : Pieces names)
    (hc : Chain m.state.1 parent names) (hmap : KeyedByPath m.state.1 m.pathToId) :
    Walked m (materialiseSegments E now errLabel segs (joinPath names) parent m) names segs := by
  induction segs generalizing names parent m with
  | nil =>
    rw [← append_nil names] at hc
    exact ⟨.refl _, hmap, fun _ he => he, fun hne => absurd rfl hne, ⟨parent, hc⟩, fun _ => .inl, fun h => h⟩
  | cons seg segs ih =>
    have hseg : Pieces [seg] := fun n hn => hsegs n (by simp_all)
    have hrest : Pieces segs := fun n hn => hsegs n (mem_cons_of_mem seg hn)
    have hnames' : Pieces (names ++ [seg]) := hnames.append hseg
    have hassoc : names ++ [seg] ++ segs = names ++ seg :: segs := by simp
    unfold materialiseSegments
    dsimp only
    rw [joinPath_concat hnames seg]
    rcases hlook : m.pathToId.lookup (joinPath (names ++ [seg])) with _ | existing
    · have hparent : ∀ f, parent = some f → (m.state.1.folders.get f).isSome := by
        rintro f rfl
        exact hc.isSome
      obtain ⟨db', hup, hgrow, hget⟩ := upsert_fresh m.state.1
        ⟨seg, parent, m.sortOrder, false, now⟩ (E.mint_fresh m.state.1.folders.keys) hparent
      have hc' : Chain db' (some (E.mint m.state.1.folders.keys)) (names ++ [seg]) :=
        Chain.child hget (hc.mono hgrow.kept)
      simp only [hup]
      have hwalk := ih (m := {
        pathToId := m.pathToId ++ [(joinPath (names ++ [seg]), E.mint m.state.1.folders.keys)]
        sortOrder := m.sortOrder + 1
        state := (db', { m.state.2 with foldersApplied := m.state.2.foldersApplied + 1 }) })
        hrest hnames' hc' (hmap.snoc hgrow (by simp) hnames' hc')
      refine ⟨hgrow.trans hwalk.grows, hwalk.keyed, fun e he => hwalk.subset e (mem_append_left _ he), fun _ => ?_,
        by simpa [hassoc] using hwalk.chain, fun id hid => ?_, fun hids => hwalk.ids ?_⟩
      · rcases eq_or_ne segs [] with rfl | hne
        · exact ⟨_, hwalk.subset _ (mem_append_right _ (mem_singleton_self _))⟩
        · simpa [hassoc] using hwalk.listed hne
      · rcases hwalk.made id hid with hid | ⟨pre, hne, hpre, hcid⟩
        · rw [(upsert_ok hup).2] at hid
          rw [Table.get_set] at hid
          split_ifs at hid with hself
          · refine .inr ⟨[seg], by simp, by simp, ?_⟩
            rw [hself]
            exact hc'.mono hwalk.grows.kept
          · exact .inl hid
        · exact .inr ⟨seg :: pre, by simp, by simpa using hpre, by simpa using hcid⟩
      · rw [(upsert_ok hup).2]
        rw [Table.get_set, if_neg (hmint _).symm, hids]
    · obtain ⟨l₁, l₂, hsplit, -⟩ := lookup_eq_some_iff.mp hlook
      have hc' : Chain m.state.1 (some existing) (names ++ [seg]) := by
        have hc' := (hmap.of_lookup hlook).2
        rwa [hnames'.segments_joinPath] at hc'
      have hwalk := ih hrest hnames' hc' hmap
      refine ⟨hwalk.grows, hwalk.keyed, hwalk.subset, fun _ => ?_, by simpa [hassoc] using hwalk.chain, fun id hid => ?_,
        hwalk.ids⟩
      · rcases eq_or_ne segs [] with rfl | hne
        · exact ⟨existing, hwalk.subset _ (by simp [hsplit])⟩
        · simpa [hassoc] using hwalk.listed hne
      · rcases hwalk.made id hid with hid | ⟨pre, hne, hpre, hcid⟩
        · exact .inl hid
        · exact .inr ⟨seg :: pre, by simp, by simpa using hpre, by simpa using hcid⟩

theorem materialisePaths_makes (errLabel : String) (paths : List String)
    (hmap : KeyedByPath m.state.1 m.pathToId) :
    let m' := paths.foldl (fun m path => materialiseFolderPath E now errLabel path m) m
    Makes m.state.1 paths m'.state.1 ∧ KeyedByPath m'.state.1 m'.pathToId ∧ (∀ e ∈ m.pathToId, e ∈ m'.pathToId) ∧
      ∀ path ∈ paths, segments path ≠ [] → ∃ id, (cleanPath path, id) ∈ m'.pathToId := by
  induction paths generalizing m with
  | nil => exact ⟨.refl _, hmap, fun _ he => he, by simp⟩
  | cons path paths ih =>
    have hwalk : Walked m (materialiseFolderPath E now errLabel path m) [] (segments path) :=
      materialiseSegments_walked hmint now errLabel (segments path) (pieces_segments path) (by simp [Pieces]) .root hmap
    have hmakes : Makes m.state.1 [path] (materialiseFolderPath E now errLabel path m).state.1 := by
      refine ⟨hwalk.grows, fun id hid => ?_, fun p hp => ?_, hwalk.ids⟩
      · rcases hwalk.made id hid with hid | ⟨pre, hne, hpre, hc⟩
        · exact .inl hid
        · exact .inr ⟨path, mem_singleton_self path, pre, hne, hpre, by simpa using hc⟩
      · rw [mem_singleton.mp hp]
        simpa using hwalk.chain
    obtain ⟨hmakes', hkeyed, hsub, hlisted⟩ := ih hwalk.keyed
    refine ⟨hmakes.cons hmakes', hkeyed, fun e he => hsub e (hwalk.subset e he), fun p hp hne => ?_⟩
    rcases mem_cons.mp hp with rfl | hp
    · obtain ⟨id, hid⟩ := hwalk.listed hne
      exact ⟨id, hsub _ hid⟩
    · exact hlisted p hp hne

omit hmint in
theorem ne_empty_of_mem_folderPaths (h : path ∈ folderPaths items) : path ≠ "" := by
  unfold folderPaths at h
  rw [mem_mergeSort, mem_dedup, mem_filterMap] at h
  obtain ⟨v, -, hv⟩ := h
  have hne := (filter_eq_some_iff.mp hv).2
  exact of_decide_eq_true hne

theorem makes_applyFolderTree (mode : ApplyMode) (items : List Json) (s : Applying Text) :
    Makes s.1 (folderPaths items) (applyFolderTree E mode now items s).2.1 := by
  unfold applyFolderTree
  split_ifs
  · exact makes_ensureFolderPathsSync hmint now _ (fun _ => ne_empty_of_mem_folderPaths) [] s ⟨by simp⟩
  · exact (materialisePaths_makes hmint now "folder" (folderPaths items) (m := ⟨[], 0, s⟩) ⟨by simp⟩).1

theorem lookup_applyFolderTree_iff (hmode : mode.isSync = false)
    (s : Applying Text) (hpath : path ∈ folderPaths items) :
    ((applyFolderTree E mode now items s).1.lookup path).isSome ↔ NoEmptyPiece path := by
  have hne := ne_empty_of_mem_folderPaths hpath
  obtain ⟨-, hkeyed, -, hlisted⟩ := materialisePaths_makes hmint now "folder" (folderPaths items) (m := ⟨[], 0, s⟩) ⟨by simp⟩
  unfold applyFolderTree
  rw [hmode, if_neg Bool.false_ne_true]
  constructor
  · intro hsome
    obtain ⟨id, hid⟩ := isSome_iff_exists.mp hsome
    exact (hkeyed.of_lookup hid).1
  intro hclean
  rw [noEmptyPiece_iff] at hclean
  have hsegs : segments path ≠ [] := by
    intro hnil
    rw [cleanPath, hnil] at hclean
    exact hne hclean.symm
  obtain ⟨id, hid⟩ := hlisted path hpath hsegs
  rw [lookup_isSome_iff]
  exact ⟨_, hid, by rw [hclean, beq_self_eq_true]⟩

theorem chain_of_lookup_applyFolderTree {s : Applying Text}
    (h : (applyFolderTree E mode now items s).1.lookup path = some id) :
    Chain (applyFolderTree E mode now items s).2.1 (some id) (segments path) := by
  unfold applyFolderTree at h ⊢
  split_ifs at h ⊢ with hsync
  · obtain ⟨-, hpaths, -⟩ := ensureFolderPathsSync_spec E now (folderPaths items) [] s ⟨by simp⟩
    obtain ⟨l₁, l₂, hsplit, -⟩ := lookup_eq_some_iff.mp h
    exact hpaths.chain (path, id) (by simp [hsplit])
  · obtain ⟨-, hkeyed, -⟩ := materialisePaths_makes hmint now "folder" (folderPaths items) (m := ⟨[], 0, s⟩) ⟨by simp⟩
    exact (hkeyed.of_lookup h).2

end Materialise

/-! ## Sessions in their folders -/

/-- The path a session is shown under: that of its folder, or the root's. -/
def sessionPath (db : Db Text) (id : String) : Option String :=
  (db.sessions.get id).map fun p => p.folderId.elim "" (buildFolderPath db)

section Import

variable (E : Env Text) (mode : ApplyMode) (options : Option ApplyOptions) (now : Int64)
variable (p : PendingImport Text) (s : Applying Text)

theorem kept_folderTree {text : Text} (hwant : (WantFlags.fromOptions options).sessions = true)
    (htext : p.sessionsJson = some text) (hitems : parseArray E.json text = .ok items) :
    Kept (folderTree E mode options now p s items).2.1 (runApply E mode options now p s).1 := by
  have hlast : (runApply E mode options now p s).1.folders = (afterSessions E mode options now p s).2.1.folders := by
    rw [runApply_fixes_afterTags (g := Db.folders) (fun _ => rfl) fun _ => rfl,
      afterTags_fixes (g := Db.folders) fun _ => rfl]
  have hloop : (applySessionsJson E mode now text (afterKeys E mode options now p s)).2.1.folders =
      (folderTree E mode options now p s items).2.1.folders := by
    unfold applySessionsJson
    rw [hitems]
    exact ignores (g := Db.folders) (x := Db.withoutSessions) (fun _ => rfl) _ _
      (sessionLoop_withoutSessions E.json mode _ _ now _ _)
  have hgrow := (afterSessions_grows E mode options now p s).kept
  rw [if_pos hwant, htext] at hgrow
  intro id row hrow
  rw [hlast]
  apply hgrow
  show (applySessionsJson E mode now text (afterKeys E mode options now p s)).2.1.folders.get id = some row
  rwa [hloop]

theorem folders_afterKeys : (afterKeys E mode options now p s).1.folders = s.1.folders :=
  overEntry_fixes Db.folders _ _ _ _ (fun items s =>
    ignores (x := Db.withoutKeys) (fun _ => rfl) _ _ (applyKeyItems_withoutKeys E mode now items s)) s

theorem parent_of_entry {text : Text} {done rest : List Json} {v : Json}
    (hwant : (WantFlags.fromOptions options).sessions = true) (htext : p.sessionsJson = some text)
    (hitems : parseArray E.json text = .ok items) (hsplit : items = done ++ v :: rest)
    (hrest : ∀ w ∈ rest, jsonString w "id" ≠ jsonString v "id")
    (hw : entryWrites E mode options now p db items v = true) :
    (runApply E mode options now p (db, {})).1.sessions.get (jsonString v "id") =
      some (Sessions.parentWritten ((before E mode options now p db items done).1.sessions.get (jsonString v "id"))
        (entryRow E mode options now p db items v)) := by
  have hstate : (runApply E mode options now p (db, {})).1.sessionState (jsonString v "id") =
      (after E mode options now p db items done v).1.sessionState (jsonString v "id") :=
    sessionState_runApply_of_entry hwant htext hitems hsplit hrest
  rw [after_eq, applyOneSession_of_writes _ _ _ _ _ _ _ hw] at hstate
  refine (congrArg Db.SessionState.parent hstate).trans ?_
  exact Sessions.upsert_parent _ _ (folderOk_entryRow E mode options now p db items done v)

end Import

variable {p : SessionParent Text}

theorem sessionPath_eq (hrefs : db.RefsOk) (hforest : FolderForest db)
    (hp : db.sessions.get id = some p) :
    sessionPath db id = some (folderPathOf db p.folderId) := by
  unfold sessionPath
  rw [hp, map_some]
  rcases hf : p.folderId with _ | f
  · rfl
  · have hsome := hrefs.folder id p hp f hf
    obtain ⟨row, hrow⟩ := isSome_iff_exists.mp hsome
    obtain ⟨names, hc⟩ := hforest.chain f hsome
    unfold folderPathOf
    rw [elim_some, hforest.path hc, bind_some, hrow, map_some, getD_some, pathOf_of_chain hc]
    rfl

section Transfer

variable (hmint : ∀ used, E.mint used ≠ "") {options : ApplyOptions} (hwant : options.applySessions = true)
variable (now : Int64) {input : ExportInput} (hinc : input.options.includeSessions = true)

/-- A user imports the archive `input` describes into an empty database. -/
def restored (E : Env Text) (options : ApplyOptions) (now : Int64) (db : Db Text) (input : ExportInput) : Db Text :=
  (applyPendingImportMerge E options now (buildZip E.json db input) Db.empty).1

def restoredTree (E : Env Text) (options : ApplyOptions) (now : Int64) (db : Db Text) (input : ExportInput) :
    List (String × String) × Applying Text :=
  folderTree E (.archiveImport false) (some options) now (buildZip E.json db input) (Db.empty, {})
    (exportedSessions E.json db input.selectedSessionIds)

include hwant hinc

theorem kept_restoredTree : Kept (restoredTree E options now db input).2.1 (restored E options now db input) := by
  exact kept_folderTree E (.archiveImport false) (some options) now _ (Db.empty, {}) hwant
    (sessionsJson_buildZip E.json db hinc) (parseArray_exported E.json _)

theorem folderId_restored (hid : id ∈ input.selectedSessionIds) (hne : id ≠ "")
    (hp : db.sessions.get id = some p) (hlive : p.deletedAt = none) :
    ((restored E options now db input).sessions.get id).map SessionParent.folderId =
      some (if folderPathOf db p.folderId = "" then none
        else (restoredTree E options now db input).1.lookup (folderPathOf db p.folderId)) := by
  have hrow : Sessions.rowFrom id p (db.sshDetails.get id) ∈ selectedSessions db input.selectedSessionIds :=
    (mem_selectedSessions db input.selectedSessionIds _).mpr ⟨hid, p, hp, hlive, rfl⟩
  obtain ⟨done, rest, hsplit, hrest⟩ := exportedSessions_split E.json hrow
  generalize hv : sessionRowToJson E.json (Sessions.rowFrom id p (db.sshDetails.get id))
    (folderPathOf db (Sessions.rowFrom id p (db.sshDetails.get id)).folderId) none = v at hsplit
  have hvid : jsonString v "id" = id := by
    rw [← hv]
    exact jsonString_id _ _ _ _
  have hw : entryWrites E (.archiveImport false) (some options) now (buildZip E.json db input) Db.empty
      (exportedSessions E.json db input.selectedSessionIds) v = true := by
    have htomb : isTombstone v = false := by
      rw [← hv]
      exact isTombstone_sessionRowToJson _ _ _ _
    unfold entryWrites writesSession
    rw [hvid, htomb, decide_eq_true hne]
    rfl
  have hparent := parent_of_entry E (.archiveImport false) (some options) now (buildZip E.json db input) hwant
    (sessionsJson_buildZip E.json db hinc) (parseArray_exported E.json _) hsplit (by rw [hvid]; exact hrest) hw
  have hfolder : jsonNonEmpty v "folder" =
      if folderPathOf db p.folderId = "" then none else some (folderPathOf db p.folderId) := by
    rw [← hv]
    exact jsonNonEmpty_folder _ _ _ _
  rw [hvid] at hparent
  unfold restored applyPendingImportMerge
  rw [hparent]
  show some ((jsonNonEmpty v "folder").bind fun path => (restoredTree E options now db input).1.lookup path) = _
  rw [hfolder]
  split_ifs <;> rfl

include hmint

theorem sessionPath_restored (hid : id ∈ input.selectedSessionIds) (hne : id ≠ "")
    (hp : db.sessions.get id = some p) (hlive : p.deletedAt = none) :
    sessionPath (restored E options now db input) id =
      some (if NoEmptyPiece (folderPathOf db p.folderId) then folderPathOf db p.folderId else "") := by
  have hfolder := folderId_restored (E := E) hwant now hinc hid hne hp hlive
  have hlisted : folderPathOf db p.folderId ≠ "" →
      folderPathOf db p.folderId ∈ folderPaths (exportedSessions E.json db input.selectedSessionIds) := by
    intro hpath
    unfold folderPaths
    rw [mem_mergeSort, mem_dedup, mem_filterMap]
    refine ⟨_, mem_map_of_mem ((mem_selectedSessions db input.selectedSessionIds
      (Sessions.rowFrom id p (db.sshDetails.get id))).mpr ⟨hid, p, hp, hlive, rfl⟩), ?_⟩
    rw [jsonNonEmpty_folder]
    exact if_neg hpath
  generalize folderPathOf db p.folderId = path at hfolder hlisted ⊢
  obtain ⟨q, hq, hqf⟩ := map_eq_some_iff.mp hfolder
  unfold sessionPath
  rw [hq, map_some, hqf, Option.some.injEq]
  by_cases hpath : path = ""
  · rw [if_pos hpath, if_pos (.inl hpath), hpath]
    rfl
  rw [if_neg hpath]
  have hiff : ((restoredTree E options now db input).1.lookup path).isSome ↔ NoEmptyPiece path :=
    lookup_applyFolderTree_iff hmint now rfl _ (hlisted hpath)
  rcases hlook : (restoredTree E options now db input).1.lookup path with _ | f
  · rw [hlook] at hiff
    rw [if_neg fun hclean => Bool.false_ne_true (hiff.mpr hclean)]
    rfl
  have hclean : NoEmptyPiece path := hiff.mp (by rw [hlook]; rfl)
  have hc : Chain (restoredTree E options now db input).2.1 (some f) (segments path) :=
    chain_of_lookup_applyFolderTree hmint now hlook
  have hids : (restoredTree E options now db input).2.1.folders.get "" = none := by
    refine (makes_applyFolderTree hmint now _ _ _).ids ?_
    rw [folders_afterKeys]
    rfl
  have hf : f ≠ "" := by
    rintro rfl
    have hsome := hc.isSome
    rw [hids] at hsome
    cases hsome
  rw [if_pos hclean]
  show buildFolderPath (restored E options now db input) f = path
  rw [buildFolderPath_of_chain hf (hc.mono (kept_restoredTree hwant now hinc))]
  exact (noEmptyPiece_iff path).mp hclean

end Transfer

/-- Folder paths survive the trip through an archive: every selected session is shown under the path it
had, and the folders of an archive import and of a sync have the same paths. -/
structure PathsSurvive (E : Env Text) (options : ApplyOptions) (now : Int64) (db : Db Text) (input : ExportInput) :
    Prop where
  sessions : ∀ id ∈ input.selectedSessionIds, ∀ p, db.sessions.get id = some p → p.deletedAt = none →
    sessionPath (restored E options now db input) id = sessionPath db id
  materialised : ∀ (items : List Json) (s : Applying Text), FolderForest s.1 → ∀ path,
    path ∈ allFolderPaths (applyFolderTree E (.archiveImport false) now items s).2.1 ↔
      path ∈ allFolderPaths (applyFolderTree E .sync now items s).2.1

/-- **Folder paths through an archive.** -/
theorem folder_paths_survive_iff (E : Env Text) (hmint : ∀ used, E.mint used ≠ "") (options : ApplyOptions)
    (hwant : options.applySessions = true) (now : Int64) (db : Db Text) (hrefs : db.RefsOk) (hforest : IsForest db)
    (hfolders : db.folders.get "" = none) (hsessions : db.sessions.get "" = none) (input : ExportInput)
    (hinc : input.options.includeSessions = true) :
    PathsSurvive E options now db input ↔
      ∀ id ∈ input.selectedSessionIds, ∀ p, db.sessions.get id = some p → p.deletedAt = none →
        ∀ path, sessionPath db id = some path → NoEmptyPiece path := by
  have hdb : FolderForest db := ⟨hforest.rooted, hfolders⟩
  have hid : ∀ id p, db.sessions.get id = some p → id ≠ "" := by
    rintro id p hp rfl
    rw [hsessions] at hp
    cases hp
  constructor
  · intro h id hmem p hp hlive path hpath
    have hafter := h.sessions id hmem p hp hlive
    rw [sessionPath_restored hmint hwant now hinc hmem (hid id p hp) hp hlive, sessionPath_eq hrefs hdb hp,
      Option.some.injEq] at hafter
    rw [sessionPath_eq hrefs hdb hp, Option.some.injEq] at hpath
    rw [hpath] at hafter
    by_contra hno
    rw [if_neg hno] at hafter
    exact hno (.inl hafter.symm)
  · intro h
    refine ⟨fun id hmem p hp hlive => ?_, fun items s hs path => ?_⟩
    · have hclean := h id hmem p hp hlive _ (sessionPath_eq hrefs hdb hp)
      rw [sessionPath_restored hmint hwant now hinc hmem (hid id p hp) hp hlive, sessionPath_eq hrefs hdb hp, if_pos hclean]
    · rw [(makes_applyFolderTree hmint now _ items s).mem_allFolderPaths_iff hs,
        (makes_applyFolderTree hmint now _ items s).mem_allFolderPaths_iff hs]


/-! ### A folder name with slashes -/

def filedDevice (name : String) : Db ParsedText :=
  { (Db.empty : Db ParsedText) with
    folders := Table.empty.set "k1" ⟨name, none, 0, false, 5⟩
    sessions := Table.empty.set "s" { sampleParent none with folderId := some "k1" } }

theorem get_filedDevice {name : String} {p : SessionParent ParsedText}
    (h : (filedDevice name).sessions.get id = some p) : id = "s" ∧ p = { sampleParent none with folderId := some "k1" } := by
  unfold filedDevice at h
  rw [Table.get_set] at h
  split_ifs at h with hid
  · cases h
    exact ⟨hid, rfl⟩
  · cases h

theorem filedDevice_sound (name : String) : Sound (filedDevice name) := by
  have h : Sound { (Db.empty : Db ParsedText) with folders := Table.empty.set "k1" ⟨name, none, 0, false, 5⟩ } :=
    sound_empty.set (by rintro _ ⟨⟩)
  exact ⟨h.parents, h.rooted⟩

theorem filedDevice_refsOk (name : String) : (filedDevice name).RefsOk where
  folderParent := (filedDevice_sound name).parents
  folder id p h f hf := by
    rw [(get_filedDevice h).2] at hf
    cases hf
    rfl
  parent id d h := by cases h
  details id d h := by cases h

def allOptions : ApplyOptions := ⟨true, true, true, true⟩
def allOf (ids : List String) : ExportInput := ⟨⟨true, true, true, true, true⟩, ids, [], 1, none, 30⟩

theorem folder_paths_survive_iff_slash :
    NoEmptyPiece "infra/eu" ∧ PathsSurvive plainEnv allOptions 40 (filedDevice "infra/eu") (allOf ["s"]) := by
  refine ⟨by decide +kernel, (folder_paths_survive_iff plainEnv longerId_ne_empty allOptions rfl 40
    (filedDevice "infra/eu") (filedDevice_refsOk _) (filedDevice_sound _).isForest rfl rfl (allOf ["s"]) rfl).mpr ?_⟩
  intro id _ p hp _ path hpath
  rw [(get_filedDevice hp).1, show sessionPath (filedDevice "infra/eu") "s" = some "infra/eu" by decide +kernel] at hpath
  cases hpath
  decide +kernel

/-- A session in a folder called `infra//eu` comes back at the root, beside the folders `infra` and `infra/eu`. -/
theorem doubled_slash_lands_at_root :
    IsForest (filedDevice "infra//eu") ∧ sessionPath (filedDevice "infra//eu") "s" = some "infra//eu" ∧
      sessionPath (restored plainEnv allOptions 40 (filedDevice "infra//eu") (allOf ["s"])) "s" = some "" ∧
      allFolderPaths (restored plainEnv allOptions 40 (filedDevice "infra//eu") (allOf ["s"])) = ["infra", "infra/eu"] ∧
      ¬ PathsSurvive plainEnv allOptions 40 (filedDevice "infra//eu") (allOf ["s"]) := by
  have hbefore : sessionPath (filedDevice "infra//eu") "s" = some "infra//eu" := by decide +kernel
  have hafter : sessionPath (restored plainEnv allOptions 40 (filedDevice "infra//eu") (allOf ["s"])) "s" = some "" := by
    decide +kernel
  refine ⟨(filedDevice_sound _).isForest, hbefore, hafter, by decide +kernel, fun h => ?_⟩
  have hsame := h.sessions "s" mem_cons_self _ rfl rfl
  rw [hbefore, hafter] at hsame
  exact absurd hsame (by decide)

end LetsFlutSsh.Archive
