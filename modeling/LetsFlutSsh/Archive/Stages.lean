import LetsFlutSsh.Lib.RowMerge
import LetsFlutSsh.Lib.Run
import LetsFlutSsh.Db.FolderTree
import LetsFlutSsh.Archive.Apply

/-!
# What each stage of an import touches
-/

namespace LetsFlutSsh.Archive
open Lib List

variable {Text β : Type}

theorem ignores {g : Db Text → β} {x : Db Text → Db Text} (hx : ∀ db, g (x db) = g db) (db db' : Db Text)
    (h : x db' = x db) : g db' = g db := by
  rw [← hx db', h, hx db]

variable (g : Db Text → β)
variable (J : JsonText Text)

variable {f : List Json → Applying Text → Applying Text}

theorem overArray_fixes (what : String) (text : Text)
    (hf : ∀ items s, g (f items s).1 = g s.1) (s : Applying Text) :
    g (overArray J what text f s).1 = g s.1 := by
  unfold overArray
  split
  · rfl
  · exact hf _ s

theorem overEntry_fixes (want : Bool) (what : String) (entry : Option Text)
    (hf : ∀ items s, g (f items s).1 = g s.1) (s : Applying Text) :
    g (overEntry J want what entry f s).1 = g s.1 := by
  unfold overEntry
  split_ifs
  · rcases entry with _ | text
    · rfl
    · exact overArray_fixes g J what text hf s
  · rfl

/-! ## Keys, tags, snippets, links -/

theorem applyOneKeySync_withoutKeys (live : String → Option Int64) (now : Int64) (v : Json) (s : Applying Text) :
    (applyOneKeySync live now v s).1.withoutKeys = s.1.withoutKeys := by
  unfold applyOneKeySync
  dsimp only
  split_ifs
  · rfl
  · unfold SshKeys.applyTombstone
    split
    · rfl
    · split_ifs <;> rfl
  · rfl
  · rfl

variable (E : Env Text)

theorem applyOneKeyArchive_withoutKeys (known : List String) (now : Int64) (v : Json)
    (s : Applying Text) : (applyOneKeyArchive E known now v s).1.withoutKeys = s.1.withoutKeys := by
  unfold applyOneKeyArchive
  dsimp only
  split_ifs <;> rfl

theorem applyKeyItems_withoutKeys (mode : ApplyMode) (now : Int64) (items : List Json)
    (s : Applying Text) : (applyKeyItems E mode now items s).1.withoutKeys = s.1.withoutKeys := by
  unfold applyKeyItems
  split_ifs
  · exact foldl_fixes (fun s => s.1.withoutKeys) (fun s v _ => applyOneKeySync_withoutKeys _ now v s) s
  · exact foldl_fixes (fun s => s.1.withoutKeys) (fun s v _ => applyOneKeyArchive_withoutKeys E _ now v s) s

theorem applyOneTag_withoutTags (mode : ApplyMode) (live : String → Option Int64) (now : Int64) (v : Json)
    (s : Applying Text) : (applyOneTag mode live now v s).1.withoutTags = s.1.withoutTags := by
  unfold applyOneTag
  dsimp only
  generalize (parseIso8601Opt (jsonString v "created_at")).getD (if mode.isSync then 0 else now) = peerTs
  split_ifs
  · unfold Tags.applyTombstone
    split
    · rfl
    · split_ifs <;> rfl
  · rfl
  · rfl
  · rfl
  · unfold Tags.upsert
    split_ifs <;> rfl

theorem applyTagItems_withoutTags (mode : ApplyMode) (now : Int64) (items : List Json) (s : Applying Text) :
    (applyTagItems mode now items s).1.withoutTags = s.1.withoutTags :=
  foldl_fixes (fun s => s.1.withoutTags) (fun s v _ => applyOneTag_withoutTags mode _ now v s) s

theorem applyOneSnippet_withoutSnippets (mode : ApplyMode) (live : String → Option Int64) (now : Int64) (v : Json)
    (s : Applying Text) : (applyOneSnippet mode live now v s).1.withoutSnippets = s.1.withoutSnippets := by
  unfold applyOneSnippet
  dsimp only
  split_ifs
  · rfl
  · unfold Snippets.applyTombstone
    split
    · rfl
    · split_ifs <;> rfl
  all_goals rfl

theorem applySnippetItems_withoutSnippets (mode : ApplyMode) (now : Int64) (items : List Json) (s : Applying Text) :
    (applySnippetItems mode now items s).1.withoutSnippets = s.1.withoutSnippets :=
  foldl_fixes (fun s => s.1.withoutSnippets) (fun s v _ => applyOneSnippet_withoutSnippets mode _ now v s) s

/-! ### Links -/

def linkEnds (k₁ k₂ : String) (v : Json) : Option (String × String) :=
  if jsonString v k₁ = "" ∨ jsonString v k₂ = "" then none else some (jsonString v k₁, jsonString v k₂)

def folderLinkEnds (pathToId : List (String × String)) (v : Json) : Option (String × String) :=
  (linkEnds "folder_path" "tag_id" v).bind fun l => (pathToId.lookup l.1).map fun f => (f, l.2)

def bothFound {α β : Type} (t : Table String α) (t' : Table String β) (l : String × String) : Bool :=
  (t.get l.1).isSome && (t'.get l.2).isSome

def addEnds (found : String × String → Bool) (links : List (String × String)) (ends : Option (String × String)) :
    List (String × String) :=
  ends.elim links (addLink found links)

section Links

variable (pathToId : List (String × String)) (v : Json) (s : Applying Text)

theorem applySessionTag_eq : applySessionTag v s = (linkEnds "session_id" "tag_id" v).elim (skipLink s) fun l =>
    applyLink (Tags.linkSessionTag s.1 l.1 l.2) (fun o => { o with sessionTagsApplied := o.sessionTagsApplied + 1 })
      ("session_tag " ++ jsonString v "session_id" ++ "↔" ++ jsonString v "tag_id") s := by
  unfold applySessionTag linkEnds
  dsimp only
  split_ifs <;> rfl

theorem applySessionSnippet_eq : applySessionSnippet v s = (linkEnds "session_id" "snippet_id" v).elim (skipLink s) fun l =>
    applyLink (Snippets.linkSessionSnippet s.1 l.1 l.2)
      (fun o => { o with sessionSnippetsApplied := o.sessionSnippetsApplied + 1 })
      ("session_snippet " ++ jsonString v "session_id" ++ "↔" ++ jsonString v "snippet_id") s := by
  unfold applySessionSnippet linkEnds
  dsimp only
  split_ifs <;> rfl

theorem applyFolderTag_eq : applyFolderTag pathToId v s = (folderLinkEnds pathToId v).elim (skipLink s) fun l =>
    applyLink (Tags.linkFolderTag s.1 l.1 l.2) (fun o => { o with folderTagsApplied := o.folderTagsApplied + 1 })
      ("folder_tag " ++ jsonString v "folder_path" ++ "↔" ++ jsonString v "tag_id") s := by
  unfold applyFolderTag folderLinkEnds linkEnds
  dsimp only
  split_ifs
  · rfl
  · rw [Option.bind_some]
    rcases pathToId.lookup (jsonString v "folder_path") with _ | f <;> rfl

variable {s} {put : List (String × String) → Db Text} {links : List (String × String)}

theorem applyEnds_fst (found : String × String → Bool) (what : String) (hput : put links = s.1)
    (count : ApplyOutcome → ApplyOutcome) (label : String) (ends : Option (String × String)) :
    (ends.elim (skipLink s) fun l => applyLink ((Tags.link (found l) what links l.1 l.2).map put) count label s).1 =
      put (addEnds found links ends) := by
  rcases ends with _ | l
  · exact hput.symm
  unfold addEnds applyLink Tags.link
  rw [Option.elim_some, Option.elim_some, addLink]
  rcases found l with _ | _
  · exact hput.symm
  · by_cases hmem : l ∈ links
    · simp [hmem, Except.map]
    · simp [hmem, Except.map]

variable (s)

theorem applySessionTag_fst : (applySessionTag v s).1 =
    { s.1 with sessionTags := addEnds (bothFound s.1.sessions s.1.tags) s.1.sessionTags (linkEnds "session_id" "tag_id" v) } := by
  rw [applySessionTag_eq]
  exact applyEnds_fst (bothFound s.1.sessions s.1.tags) _ rfl _ _ _

theorem applySessionSnippet_fst : (applySessionSnippet v s).1 =
    { s.1 with sessionSnippets := addEnds (bothFound s.1.sessions s.1.snippets) s.1.sessionSnippets (linkEnds "session_id" "snippet_id" v) } := by
  rw [applySessionSnippet_eq]
  exact applyEnds_fst (bothFound s.1.sessions s.1.snippets) _ rfl _ _ _

theorem applyFolderTag_fst : (applyFolderTag pathToId v s).1 =
    { s.1 with folderTags := addEnds (bothFound s.1.folders s.1.tags) s.1.folderTags (folderLinkEnds pathToId v) } := by
  rw [applyFolderTag_eq]
  exact applyEnds_fst (bothFound s.1.folders s.1.tags) _ rfl _ _ _

theorem applySessionTag_withoutLinks : (applySessionTag v s).1.withoutLinks = s.1.withoutLinks := by
  rw [applySessionTag_fst]
  rfl

theorem applyFolderTag_withoutLinks : (applyFolderTag pathToId v s).1.withoutLinks = s.1.withoutLinks := by
  rw [applyFolderTag_fst]
  rfl

theorem applySessionSnippet_withoutLinks : (applySessionSnippet v s).1.withoutLinks = s.1.withoutLinks := by
  rw [applySessionSnippet_fst]
  rfl

end Links

variable {db db' : Db Text} {pathToId : List (String × String)}

/-- A property of the database that a write to the links leaves alone. -/
def IgnoresLinks (g : Db Text → β) : Prop := ∀ db db' : Db Text, db'.withoutLinks = db.withoutLinks → g db' = g db

theorem linkLoop_fixes {g : Db Text → β} (hg : IgnoresLinks g) {f : Json → Applying Text → Applying Text}
    (hf : ∀ v s, (f v s).1.withoutLinks = s.1.withoutLinks) (items : List Json) (s : Applying Text) :
    g (items.foldl (fun s v => f v s) s).1 = g s.1 :=
  foldl_fixes (fun s => g s.1) (fun s v _ => hg _ _ (hf v s)) s

/-! ## Folders -/

def MapsToFolders (db : Db Text) (pathToId : List (String × String)) : Prop :=
  ∀ e ∈ pathToId, (db.folders.get e.2).isSome

theorem MapsToFolders.mono (h : Folders.Grows db db') (hmap : MapsToFolders db pathToId) : MapsToFolders db' pathToId :=
  fun e he => h.kept.isSome (hmap e he)

variable {id : String}

theorem MapsToFolders.append (hmap : MapsToFolders db pathToId)
    {path : String} (hid : (db.folders.get id).isSome) : MapsToFolders db (pathToId ++ [(path, id)]) := by
  intro e he
  rw [mem_append, mem_singleton] at he
  rcases he with he | rfl
  · exact hmap e he
  · exact hid

theorem MapsToFolders.of_lookup (hmap : MapsToFolders db pathToId)
    {path : String} (h : pathToId.lookup path = some id) : (db.folders.get id).isSome := by
  obtain ⟨l₁, l₂, rfl, -⟩ := lookup_eq_some_iff.1 h
  exact hmap (path, id) (by simp)

theorem materialiseSegments_grows (now : Int64) (errLabel : String) (segs : List String)
    (accum : String) (parent : Option String) (m : Materialising Text)
    (hmap : MapsToFolders m.state.1 m.pathToId)
    (hparent : ∀ f, parent = some f → (m.state.1.folders.get f).isSome) :
    Folders.Grows m.state.1 (materialiseSegments E now errLabel segs accum parent m).state.1 ∧
      MapsToFolders (materialiseSegments E now errLabel segs accum parent m).state.1
        (materialiseSegments E now errLabel segs accum parent m).pathToId := by
  induction segs generalizing accum parent m with
  | nil => exact ⟨.refl _, hmap⟩
  | cons seg segs ih =>
    unfold materialiseSegments
    dsimp only
    generalize (if accum = "" then seg else accum ++ "/" ++ seg) = accum'
    rcases hlook : m.pathToId.lookup accum' with _ | existing
    · obtain ⟨db', hup, hgrow, hget⟩ := Folders.upsert_fresh m.state.1
        ⟨seg, parent, m.sortOrder, false, now⟩ (E.mint_fresh m.state.1.folders.keys) hparent
      have hnew : (db'.folders.get (E.mint m.state.1.folders.keys)).isSome := by rw [hget]; rfl
      simp only [hup]
      obtain ⟨hgrow', hmap'⟩ := ih accum' (some (E.mint m.state.1.folders.keys))
        { pathToId := m.pathToId ++ [(accum', E.mint m.state.1.folders.keys)]
          sortOrder := m.sortOrder + 1
          state := (db', { m.state.2 with foldersApplied := m.state.2.foldersApplied + 1 }) }
        ((hmap.mono hgrow).append hnew) (by rintro _ ⟨⟩; exact hnew)
      exact ⟨hgrow.trans hgrow', hmap'⟩
    · exact ih accum' (some existing) m hmap (by rintro _ ⟨⟩; exact hmap.of_lookup hlook)

theorem materialisePaths_grows (now : Int64) (errLabel : String) (keep : Materialising Text → String → Prop)
    [∀ m path, Decidable (keep m path)] (paths : List String) (m : Materialising Text) (hmap : MapsToFolders m.state.1 m.pathToId) :
    Folders.Grows m.state.1 (paths.foldl (fun m path =>
        if keep m path then m else materialiseFolderPath E now errLabel path m) m).state.1 ∧
      MapsToFolders (paths.foldl (fun m path =>
        if keep m path then m else materialiseFolderPath E now errLabel path m) m).state.1
        (paths.foldl (fun m path =>
          if keep m path then m else materialiseFolderPath E now errLabel path m) m).pathToId := by
  induction paths generalizing m with
  | nil => exact ⟨.refl _, hmap⟩
  | cons path paths ih =>
    rw [foldl_cons]
    by_cases hkeep : keep m path
    · rw [if_pos hkeep]
      exact ih m hmap
    · rw [if_neg hkeep]
      obtain ⟨hgrow, hmap'⟩ :=
        materialiseSegments_grows E now errLabel (Folders.segments path) "" none m hmap (by rintro _ ⟨⟩)
      obtain ⟨hgrow', hmap''⟩ := ih _ hmap'
      exact ⟨hgrow.trans hgrow', hmap''⟩

/-- The folders of a sync: known by path, with the path's segments as their chain. -/
structure PathFolders (db : Db Text) (pathToId : List (String × String)) : Prop where
  chain : ∀ e ∈ pathToId, Folders.Chain db (some e.2) (Folders.segments e.1)

theorem PathFolders.mono (h : Folders.Grows db db') (hmap : PathFolders db pathToId) : PathFolders db' pathToId :=
  ⟨fun e he => (hmap.chain e he).mono h.kept⟩

theorem ensureFolderPathsSync_spec (now : Int64) (paths : List String)
    (out : List (String × String)) (s : Applying Text) (hout : PathFolders s.1 out) :
    Folders.Grows s.1 (ensureFolderPathsSync E now paths out s).2.1 ∧
      PathFolders (ensureFolderPathsSync E now paths out s).2.1 (ensureFolderPathsSync E now paths out s).1 ∧
      (∀ e ∈ out, e ∈ (ensureFolderPathsSync E now paths out s).1) ∧
      ∀ path ∈ paths, Folders.segments path ≠ [] → path ≠ "" →
        ((ensureFolderPathsSync E now paths out s).1.lookup path).isSome := by
  have hmem : ∀ (out : List (String × String)) path, (out.lookup path).isSome ↔ path ∈ out.map Prod.fst := by
    intro out path
    rw [lookup_isSome_iff, mem_map]
    constructor
    · rintro ⟨e, he, hpath⟩
      exact ⟨e, he, (beq_iff_eq.1 hpath).symm⟩
    · rintro ⟨e, he, rfl⟩
      exact ⟨e, he, beq_self_eq_true _⟩
  induction paths generalizing out s with
  | nil => exact ⟨.refl _, hout, fun _ h => h, by simp⟩
  | cons path paths ih =>
    unfold ensureFolderPathsSync
    by_cases hskip : path = "" ∨ (out.lookup path).isSome
    · rw [if_pos hskip]
      obtain ⟨hgrow, hpaths, hkeep, hmet⟩ := ih out s hout
      refine ⟨hgrow, hpaths, hkeep, fun p hp hsegs hne => ?_⟩
      rcases mem_cons.1 hp with rfl | hp
      · rcases hskip with hempty | hseen
        · exact absurd hempty hne
        · rw [hmem, mem_map] at hseen ⊢
          obtain ⟨e, he, rfl⟩ := hseen
          exact ⟨e, hkeep e he, rfl⟩
      · exact hmet p hp hsegs hne
    · rw [if_neg hskip]
      obtain ⟨hne, -⟩ := not_or.1 hskip
      obtain ⟨db', x, heq, hgrow, hc, -⟩ := Folders.ensureFolderPath_spec E.mint_fresh s.1 hne now
      rw [heq]
      rcases x with _ | id
      · -- A path of slashes only names no folder.
        have hsegs : Folders.segments path = [] := by
          generalize Folders.segments path = segs at hc
          cases hc
          rfl
        obtain ⟨hgrow', hpaths, hkeep, hmet⟩ := ih out (db', s.2) (hout.mono hgrow)
        refine ⟨hgrow.trans hgrow', hpaths, hkeep, fun p hp hsegs' hne' => ?_⟩
        rcases mem_cons.1 hp with rfl | hp
        · exact absurd hsegs hsegs'
        · exact hmet p hp hsegs' hne'
      · have hout' : PathFolders db' (out ++ [(path, id)]) := by
          refine ⟨fun e he => ?_⟩
          rw [mem_append, mem_singleton] at he
          rcases he with he | rfl
          · exact (hout.chain e he).mono hgrow.kept
          · exact hc
        obtain ⟨hgrow', hpaths, hkeep, hmet⟩ := ih (out ++ [(path, id)]) (db', s.2) hout'
        refine ⟨hgrow.trans hgrow', hpaths, fun e he => hkeep e (mem_append_left _ he),
          fun p hp hsegs hne' => ?_⟩
        rcases mem_cons.1 hp with rfl | hp
        · rw [hmem, mem_map]
          exact ⟨(p, id), hkeep _ (mem_append_right _ mem_cons_self), rfl⟩
        · exact hmet p hp hsegs hne'

theorem applyFolderTree_grows (mode : ApplyMode) (now : Int64) (items : List Json) (s : Applying Text) :
    Folders.Grows s.1 (applyFolderTree E mode now items s).2.1 ∧
      MapsToFolders (applyFolderTree E mode now items s).2.1 (applyFolderTree E mode now items s).1 := by
  unfold applyFolderTree
  split_ifs
  · obtain ⟨hgrow, hpaths, -⟩ :=
      ensureFolderPathsSync_spec E now (folderPaths items) [] s ⟨by simp⟩
    exact ⟨hgrow, fun e he => (hpaths.chain e he).isSome⟩
  · have h := materialisePaths_grows E now "folder" (fun _ _ => False) (folderPaths items) ⟨[], 0, s⟩ (by simp [MapsToFolders])
    simpa using h

theorem applyEmptyFolders_grows (now : Int64) (paths : List String)
    (pathToId : List (String × String)) (s : Applying Text) (hmap : MapsToFolders s.1 pathToId) :
    Folders.Grows s.1 (applyEmptyFolders E now paths pathToId s).2.1 := by
  have h := materialisePaths_grows E now "empty_folder" (fun m path => path = "" ∨ (m.pathToId.lookup path).isSome)
    paths ⟨pathToId, Int64.ofNat pathToId.length, s⟩ hmap
  exact h.1

/-! ## Sessions -/

section Sessions

variable (J : JsonText Text) (mode : ApplyMode) (folderIds : List (String × String))
variable (live : String → Option Int64) (now : Int64) (v : Json) (s : Applying Text)

/-- An entry that is written: it has an id, is no tombstone and is not lost to the local row. -/
def writesSession : Bool :=
  jsonString v "id" ≠ "" && !isTombstone v &&
    !(mode.isSync && lwwPeerLoses (peerUpdatedAt mode now v) (live (jsonString v "id")))

theorem applyOneSession_of_writes (h : writesSession mode live now v = true) :
    applyOneSession J mode folderIds live now v s = ((Sessions.upsert s.1 (buildSessionRow J mode folderIds now v)).1,
        match (Sessions.upsert s.1 (buildSessionRow J mode folderIds now v)).2 with
        | .ok () => { s.2 with sessionsApplied := s.2.sessionsApplied + 1 }
        | .error e => s.2.push ("session " ++ jsonString v "id" ++ " upsert: " ++ e)) := by
  unfold writesSession at h
  rw [Bool.and_eq_true, Bool.and_eq_true, decide_eq_true_eq, Bool.not_eq_true', Bool.not_eq_true'] at h
  obtain ⟨⟨hid, htomb⟩, hlww⟩ := h
  unfold applyOneSession
  rw [if_neg hid, htomb, if_neg Bool.false_ne_true, hlww, if_neg Bool.false_ne_true]
  rcases Sessions.upsert s.1 (buildSessionRow J mode folderIds now v) with ⟨db, _ | _⟩ <;> rfl

theorem applyOneSession_of_not_writes (h : writesSession mode live now v = false) :
    (applyOneSession J mode folderIds live now v s).1 = s.1 ∨
      (jsonString v "id" ≠ "" ∧ isTombstone v = true ∧ mode.isSync = true ∧
        (applyOneSession J mode folderIds live now v s).1 =
          Sessions.applyTombstone s.1 (jsonString v "id") ((jsonI64Opt v "deleted_at_ms").getD 0)) := by
  unfold writesSession at h
  unfold applyOneSession
  dsimp only
  split_ifs with hid _ htomb hsync hlww
  · exact .inl rfl
  · exact .inl rfl
  · exact .inr ⟨hid, htomb, hsync, rfl⟩
  · exact .inl rfl
  · exact .inl rfl
  · simp [hid, htomb, hlww] at h

theorem applyOneSession_withoutSessions :
    (applyOneSession J mode folderIds live now v s).1.withoutSessions = s.1.withoutSessions := by
  by_cases hw : writesSession mode live now v = true
  · rw [applyOneSession_of_writes J mode folderIds live now v s hw]
    exact Sessions.upsert_withoutSessions s.1 _
  · rw [Bool.not_eq_true] at hw
    rcases applyOneSession_of_not_writes J mode folderIds live now v s hw with h | ⟨-, -, -, h⟩
    · rw [h]
    · rw [h]
      exact Sessions.applyTombstone_withoutSessions s.1 _ _

theorem sessionState_applyOneSession_ne (hid : id ≠ jsonString v "id") :
    (applyOneSession J mode folderIds live now v s).1.sessionState id = s.1.sessionState id := by
  by_cases hw : writesSession mode live now v = true
  · rw [applyOneSession_of_writes J mode folderIds live now v s hw]
    exact Sessions.sessionState_upsert_ne s.1 (buildSessionRow J mode folderIds now v) hid
  · rw [Bool.not_eq_true] at hw
    rcases applyOneSession_of_not_writes J mode folderIds live now v s hw with h | ⟨-, -, -, h⟩
    · rw [h]
    · rw [h]
      exact Sessions.sessionState_applyTombstone_ne s.1 _ hid

end Sessions

/-- The loop over session entries, with the rows live before it given. -/
def sessionLoop (J : JsonText Text) (mode : ApplyMode) (folderIds : List (String × String))
    (live : String → Option Int64) (now : Int64) (items : List Json) (s : Applying Text) : Applying Text :=
  items.foldl (fun s v => applyOneSession J mode folderIds live now v s) s

def liveSessions (mode : ApplyMode) (db : Db Text) : String → Option Int64 :=
  if mode.isSync then Sessions.liveUpdatedAt db else fun _ => none

theorem applySessionItems_eq (mode : ApplyMode) (folderIds : List (String × String)) (now : Int64)
    (items : List Json) (s : Applying Text) :
    applySessionItems J mode folderIds now items s = sessionLoop J mode folderIds (liveSessions mode s.1) now items s := rfl

variable {items : List Json}

section Loop

variable (J : JsonText Text) (mode : ApplyMode) (folderIds : List (String × String))
variable (live : String → Option Int64) (now : Int64)

theorem sessionLoop_withoutSessions (items : List Json) (s : Applying Text) :
    (sessionLoop J mode folderIds live now items s).1.withoutSessions = s.1.withoutSessions :=
  foldl_fixes (fun s => s.1.withoutSessions) (fun s v _ => applyOneSession_withoutSessions J mode folderIds live now v s) s

theorem sessionState_sessionLoop_ne
    (hid : ∀ v ∈ items, jsonString v "id" ≠ id) (s : Applying Text) :
    (sessionLoop J mode folderIds live now items s).1.sessionState id = s.1.sessionState id :=
  foldl_fixes (fun s => s.1.sessionState id)
    (fun s v hv => sessionState_applyOneSession_ne J mode folderIds live now v s (hid v hv).symm) s

theorem sessionLoop_append (items items' : List Json) (s : Applying Text) :
    sessionLoop J mode folderIds live now (items ++ items') s =
      sessionLoop J mode folderIds live now items' (sessionLoop J mode folderIds live now items s) :=
  foldl_append

theorem sessionLoop_cons (v : Json) (items : List Json) (s : Applying Text) :
    sessionLoop J mode folderIds live now (v :: items) s =
      sessionLoop J mode folderIds live now items (applyOneSession J mode folderIds live now v s) := rfl

end Loop

/-! ## The whole import -/

section Import

variable (E : Env Text) (mode : ApplyMode) (options : Option ApplyOptions) (now : Int64)
variable (p : PendingImport Text) (s : Applying Text)

def afterKeys : Applying Text :=
  overEntry E.json (WantFlags.fromOptions options).keys "keys" p.keysJson (applyKeyItems E mode now) s

/-- The import after its folder and session stages, with the folders of the paths met. -/
def afterSessions : List (String × String) × Applying Text :=
  applySessionsPhase E mode now (WantFlags.fromOptions options).sessions p (afterKeys E mode options now p s)

def afterTags : Applying Text :=
  overEntry E.json (WantFlags.fromOptions options).tags "tags" p.tagsJson (applyTagItems mode now)
    (afterSessions E mode options now p s).2

/-- A property of the database that a write to the folders or the sessions leaves alone. -/
structure IgnoresSessions (g : Db Text → β) : Prop where
  folders : ∀ db db' : Db Text, db'.withoutFolders = db.withoutFolders → g db' = g db
  sessions : ∀ db db' : Db Text, db'.withoutSessions = db.withoutSessions → g db' = g db

theorem applySessionsJson_maps (text : Text) :
    MapsToFolders (applySessionsJson E mode now text s).2.1 (applySessionsJson E mode now text s).1 := by
  unfold applySessionsJson
  split
  · intro e he
    cases he
  rename_i items _
  have hrest := sessionLoop_withoutSessions E.json mode (applyFolderTree E mode now items s).1
    (liveSessions mode (applyFolderTree E mode now items s).2.1) now items (applyFolderTree E mode now items s).2
  have hfolders := congrArg Db.folders hrest
  intro e he
  have := (applyFolderTree_grows E mode now items s).2 e he
  show ((applySessionItems E.json mode _ now items _).1.folders.get e.2).isSome
  rw [applySessionItems_eq]
  exact hfolders ▸ this

variable {g : Db Text → β}

theorem applySessionsJson_fixes (hg : IgnoresSessions g) (text : Text) :
    g (applySessionsJson E mode now text s).2.1 = g s.1 := by
  unfold applySessionsJson
  split
  · rfl
  · dsimp only
    rw [applySessionItems_eq, hg.sessions _ _ (sessionLoop_withoutSessions E.json mode _ _ now _ _),
      hg.folders _ _ (applyFolderTree_grows E mode now _ s).1.rest]

theorem afterSessions_grows : Folders.Grows (if (WantFlags.fromOptions options).sessions then
      (p.sessionsJson.elim ([], afterKeys E mode options now p s) fun text =>
        applySessionsJson E mode now text (afterKeys E mode options now p s)).2.1
    else (afterKeys E mode options now p s).1) (afterSessions E mode options now p s).2.1 := by
  unfold afterSessions applySessionsPhase
  split_ifs
  · generalize hr : (p.sessionsJson.elim ([], afterKeys E mode options now p s) fun text =>
      applySessionsJson E mode now text (afterKeys E mode options now p s)) = r
    have hmap : MapsToFolders r.2.1 r.1 := by
      rw [← hr]
      rcases p.sessionsJson with _ | text
      · intro e he
        cases he
      · exact applySessionsJson_maps E mode now _ text
    rcases p.emptyFoldersJson with _ | text
    · exact .refl _
    · dsimp only [Option.elim_some]
      split
      · exact .refl _
      · exact applyEmptyFolders_grows E now _ r.1 r.2 hmap
  · exact .refl _

section
variable {E mode options now p s}

theorem afterKeys_fixes (hg : ∀ db : Db Text, g db.withoutKeys = g db) : g (afterKeys E mode options now p s).1 = g s.1 :=
  overEntry_fixes g _ _ _ _ (fun items s => ignores hg _ _ (applyKeyItems_withoutKeys E mode now items s)) _

theorem afterSessions_fixes (hfolders : ∀ db : Db Text, g db.withoutFolders = g db)
    (hsessions : ∀ db : Db Text, g db.withoutSessions = g db) :
    g (afterSessions E mode options now p s).2.1 = g (afterKeys E mode options now p s).1 := by
  have hg : IgnoresSessions g := ⟨ignores hfolders, ignores hsessions⟩
  rw [hg.folders _ _ (afterSessions_grows E mode options now p s).rest]
  split_ifs
  · rcases p.sessionsJson with _ | text
    · rfl
    · exact applySessionsJson_fixes E mode now (afterKeys E mode options now p s) hg text
  · rfl

theorem runApply_fixes_afterTags (hlinks : ∀ db : Db Text, g db.withoutLinks = g db)
    (hsnippets : ∀ db : Db Text, g db.withoutSnippets = g db) :
    g (runApply E mode options now p s).1 = g (afterTags E mode options now p s).1 := by
  have hlinks : IgnoresLinks g := ignores hlinks
  unfold runApply
  rw [overEntry_fixes g _ _ _ _ (linkLoop_fixes hlinks applySessionSnippet_withoutLinks),
    overEntry_fixes g _ _ _ _ fun items s => ignores hsnippets _ _ (applySnippetItems_withoutSnippets mode now items s),
    overEntry_fixes g _ _ _ _ (linkLoop_fixes hlinks (applyFolderTag_withoutLinks _)),
    overEntry_fixes g _ _ _ _ (linkLoop_fixes hlinks applySessionTag_withoutLinks)]
  rfl

theorem afterTags_fixes (htags : ∀ db : Db Text, g db.withoutTags = g db) :
    g (afterTags E mode options now p s).1 = g (afterSessions E mode options now p s).2.1 :=
  overEntry_fixes g _ _ _ _ (fun items s => ignores htags _ _ (applyTagItems_withoutTags mode now items s)) _

theorem sessionStages_fix (hkeys : ∀ db : Db Text, g db.withoutKeys = g db)
    (hfolders : ∀ db : Db Text, g db.withoutFolders = g db) (hsessions : ∀ db : Db Text, g db.withoutSessions = g db) :
    g (afterSessions E mode options now p s).2.1 = g s.1 :=
  (afterSessions_fixes hfolders hsessions).trans (afterKeys_fixes hkeys)

end

theorem runApply_snippets : ∃ s' : Applying Text, s'.1.snippets = s.1.snippets ∧
    (runApply E mode options now p s).1.snippets =
      (overEntry E.json (WantFlags.fromOptions options).snippets "snippets" p.snippetsJson
        (applySnippetItems mode now) s').1.snippets := by
  have hlinks : IgnoresLinks (Db.snippets : Db Text → _) := ignores fun _ => rfl
  refine ⟨_, ?_, overEntry_fixes Db.snippets _ _ _ _ (linkLoop_fixes hlinks applySessionSnippet_withoutLinks) _⟩
  rw [overEntry_fixes Db.snippets _ _ _ _ (linkLoop_fixes hlinks (applyFolderTag_withoutLinks _)),
    overEntry_fixes Db.snippets _ _ _ _ (linkLoop_fixes hlinks applySessionTag_withoutLinks)]
  refine (afterTags_fixes (g := Db.snippets) fun _ => rfl).trans ?_
  exact sessionStages_fix (g := Db.snippets) (fun _ => rfl) (fun _ => rfl) fun _ => rfl

def folderTree (items : List Json) : List (String × String) × Applying Text :=
  applyFolderTree E mode now items (afterKeys E mode options now p s)

/-- The loop over the session entries of an import, before any later stage. -/
def sessionsReached (items done : List Json) : Applying Text :=
  sessionLoop E.json mode (folderTree E mode options now p s items).1
    (liveSessions mode (folderTree E mode options now p s items).2.1) now done
    (folderTree E mode options now p s items).2

theorem sessionState_runApply {text : Text}
    (hwant : (WantFlags.fromOptions options).sessions = true) (htext : p.sessionsJson = some text)
    (hitems : parseArray E.json text = .ok items) (id : String) :
    (runApply E mode options now p s).1.sessionState id =
      (sessionsReached E mode options now p s items items).1.sessionState id := by
  rw [runApply_fixes_afterTags (g := fun db => db.sessionState id) (fun _ => rfl) fun _ => rfl,
    afterTags_fixes (g := fun db => db.sessionState id) fun _ => rfl,
    ignores (g := fun db => db.sessionState id) (x := Db.withoutFolders) (fun _ => rfl) _ _
      (afterSessions_grows E mode options now p s).rest,
    if_pos hwant, htext]
  show ((applySessionsJson E mode now text _).2.1).sessionState id = _
  unfold applySessionsJson
  rw [hitems]
  rfl

end Import

end LetsFlutSsh.Archive
