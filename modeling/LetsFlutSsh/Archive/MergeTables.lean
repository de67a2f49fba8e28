import LetsFlutSsh.Db.FolderReuse
import LetsFlutSsh.Archive.RowWrites

/-!
# What a merge leaves in each table

The main tables after the sync merge of a snapshot, from the tables before it:

* `mergedKeys`, `mergedSnippets`: rows merged by id;
* `tags_merge`: the loop over the tag entries, run on the local tags.
-/

namespace LetsFlutSsh.Archive
open Lib Option Sessions

variable {Text β : Type}

abbrev entryId (v : Json) : String := jsonString v "id"

/-- A snapshot as the composer makes it: the sessions are there, no id is listed twice, and no empty
folders are listed. -/
structure Composed (J : JsonText Text) (p : PendingImport Text) : Prop where
  sessions : ∃ text, p.sessionsJson = some text ∧ parseArray J text = .ok (Kind.session.entries J p)
  distinct : ∀ k : Kind, ((k.entries J p).map entryId).Nodup
  noEmptyFolders : p.emptyFoldersJson = none

/-! ## Keys and snippets -/

def mergedKeys (now : Int64) (items : List Json) (t : Table String (Stored SshKeyRow)) : Table String (Stored SshKeyRow) :=
  t.mergeAll entryId (fun v => keyWrite now v (liveStamp SshKeyRow.createdAtMs (t.get (entryId v)))) items

variable (now : Int64)
variable (E : Env Text)

theorem mergedKeys_eq (p : PendingImport Text) (db : Db Text) :
    (mergePendingIntoLocal E now p db).1.sshKeys = mergedKeys now (Kind.key.entries E.json p) db.sshKeys := by
  rw [keys_merge]
  exact Table.foldl_mergeRow (g := fun s : Applying Text => s.1.sshKeys)
    (fun s v => applyOneKeySync_keys v now (SshKeys.liveCreatedAt db) s) _ (db, {})

variable {items : List Json}
variable (now' : Int64)

theorem mergedKeys_again (hids : (items.map entryId).Nodup)
    {t t' : Table String (Stored SshKeyRow)} (ht' : mergedKeys now items t = t') : mergedKeys now' items t' = t' :=
  Table.mergeAll_stamped_again hids (fun v _ _ _ hy _ => keyWrite_again v now now' hy) ht'

def mergedSnippets (now : Int64) (items : List Json) (t : Table String (Stored SnippetRow)) :
    Table String (Stored SnippetRow) :=
  t.mergeAll entryId (fun v => snippetWrite now v (liveStamp SnippetRow.updatedAtMs (t.get (entryId v)))) items

theorem mergedSnippets_eq (p : PendingImport Text) (db : Db Text) :
    (mergePendingIntoLocal E now p db).1.snippets = mergedSnippets now (Kind.snippet.entries E.json p) db.snippets := by
  obtain ⟨s, hs, hmerge⟩ := snippets_merge E now p db
  rw [hmerge, ← hs]
  exact Table.foldl_mergeRow (g := fun s : Applying Text => s.1.snippets)
    (fun t v => applyOneSnippet_snippets v now (Snippets.liveUpdatedAt s.1) t) _ s

theorem mergedSnippets_again (hids : (items.map entryId).Nodup)
    {t t' : Table String (Stored SnippetRow)} (ht' : mergedSnippets now items t = t') :
    mergedSnippets now' items t' = t' :=
  Table.mergeAll_stamped_again hids (fun v _ _ _ hy _ => snippetWrite_again v now now' hy) ht'

/-! ## Folders -/

theorem ensureFolderPathsSync_again (paths : List String)
    (out : List (String × String)) (s : Applying Text) :
    Folders.Extends s.1 (ensureFolderPathsSync E now paths out s).2.1 ∧
      ∀ s' : Applying Text, Folders.Extends (ensureFolderPathsSync E now paths out s).2.1 s'.1 →
        ensureFolderPathsSync E now' paths out s' = ((ensureFolderPathsSync E now paths out s).1, s') := by
  induction paths generalizing out s with
  | nil => exact ⟨.refl _, fun _ _ => rfl⟩
  | cons path paths ih =>
    unfold ensureFolderPathsSync
    by_cases hskip : path = "" ∨ (out.lookup path).isSome
    · simp only [if_pos hskip]
      exact ih out s
    obtain ⟨hne, -⟩ := not_or.1 hskip
    obtain ⟨db₁, x, hrun, hext, hres⟩ := Folders.ensureFolderPath_resolves E.mint_fresh s.1 hne now
    simp only [if_neg hskip, hrun]
    rcases x with _ | id
    · obtain ⟨hext', hagain⟩ := ih out (db₁, s.2)
      refine ⟨hext.trans hext', fun s' hs' => ?_⟩
      rw [Folders.ensureFolderPath_of_resolve E.mint now' hne ((hext'.trans hs').resolve hres)]
      exact hagain s' hs'
    · obtain ⟨hext', hagain⟩ := ih (out ++ [(path, id)]) (db₁, s.2)
      refine ⟨hext.trans hext', fun s' hs' => ?_⟩
      rw [Folders.ensureFolderPath_of_resolve E.mint now' hne ((hext'.trans hs').resolve hres)]
      exact hagain s' hs'

theorem extends_of_folders {db db' : Db Text} (h : db'.folders = db.folders) : Folders.Extends db db' := by
  intro parent name id hid
  unfold Folders.listAll at hid ⊢
  rw [h]
  exact hid

/-! ## Sessions -/

/-- An entry that leaves its session alone: its deletion, or its row, is not newer. -/
inductive SessionSettled (v : Json) (x : Option (SessionParent Text)) : Prop
  | blank (hid : entryId v = "")
  | gone (htomb : isTombstone v = true) (hnot : ∀ q, x = some q → entryDeletedAt v ≤ q.updatedAt)
  | live (htomb : isTombstone v = false) {q : SessionParent Text} (hq : x = some q) (hlive : q.deletedAt = none)
      (hle : Kind.session.stamp v ≤ q.updatedAt)

theorem deleteParent_stamp (ts : Int64) (q : SessionParent Text) : ts ≤ (deleteParent ts q).updatedAt := by
  unfold deleteParent
  split_ifs with hlt
  · exact Int64.le_refl ts
  · exact Int64.not_lt.1 hlt

variable {s : Applying Text}

section Settle

variable (J : JsonText Text) (folderIds : List (String × String)) (live : String → Option Int64) (now : Int64) (v : Json)

theorem settled_applyOneSession (hmap : MapsToFolders s.1 folderIds)
    (hlive : live (entryId v) = Sessions.liveUpdatedAt s.1 (entryId v)) :
    SessionSettled v ((applyOneSession J .sync folderIds live now v s).1.sessions.get (entryId v)) := by
  by_cases hid : entryId v = ""
  · exact .blank hid
  by_cases hw : writesSession .sync live now v = true
  · have htomb : isTombstone v = false := by
      unfold writesSession at hw
      simp only [Bool.and_eq_true, Bool.not_eq_true'] at hw
      exact hw.1.2
    rw [applyOneSession_of_writes J .sync folderIds live now v s hw]
    exact .live htomb (upsert_parent s.1 _ (folderOk_buildSessionRow hmap J .sync now v)) rfl (Int64.le_refl _)
  · rw [Bool.not_eq_true] at hw
    by_cases htomb : isTombstone v = true
    · have happly : (applyOneSession J .sync folderIds live now v s).1 =
          Sessions.applyTombstone s.1 (entryId v) (entryDeletedAt v) := by
        unfold applyOneSession
        rw [if_neg hid, if_pos htomb]
        rfl
      have hget : (Sessions.applyTombstone s.1 (entryId v) (entryDeletedAt v)).sessions.get (entryId v) =
          (s.1.sessions.get (entryId v)).map (deleteParent (entryDeletedAt v)) :=
        congrArg Db.SessionState.parent (sessionState_applyTombstone s.1 (entryId v) (entryDeletedAt v))
      rw [happly, hget]
      refine .gone htomb fun q hq => ?_
      obtain ⟨q₀, -, rfl⟩ := map_eq_some_iff.1 hq
      exact deleteParent_stamp (entryDeletedAt v) q₀
    · -- The entry lost to a live row.
      rw [Bool.not_eq_true] at htomb
      have hsame : (applyOneSession J .sync folderIds live now v s).1 = s.1 := by
        rcases applyOneSession_of_not_writes J .sync folderIds live now v s hw with h | ⟨-, hgone, -⟩
        · exact h
        · rw [htomb] at hgone
          cases hgone
      have hlost : lwwPeerLoses (Kind.session.stamp v) (Sessions.liveUpdatedAt s.1 (entryId v)) = true := by
        rw [← hlive]
        unfold writesSession at hw
        rw [htomb, decide_eq_true hid] at hw
        have hlost := hw
        simp only [ApplyMode.isSync, Bool.not_false, Bool.true_and, Bool.and_true, Bool.not_eq_false'] at hlost
        exact hlost
      rw [hsame]
      unfold Sessions.liveUpdatedAt lwwPeerLoses at hlost
      rcases hq : s.1.sessions.get (entryId v) with _ | q
      · rw [hq] at hlost
        cases hlost
      · rw [hq, bind_some] at hlost
        by_cases hdel : q.deletedAt.isNone = true
        · rw [if_pos hdel, any_some, decide_eq_true_eq] at hlost
          exact .live htomb rfl (isNone_iff_eq_none.1 hdel) hlost
        · rw [if_neg hdel] at hlost
          cases hlost

theorem applyOneSession_of_settled (h : SessionSettled v (s.1.sessions.get (entryId v)))
    (hlive : live (entryId v) = Sessions.liveUpdatedAt s.1 (entryId v)) :
    (applyOneSession J .sync folderIds live now v s).1 = s.1 := by
  by_cases hid : entryId v = ""
  · exact applyOneSession_fst_of_empty hid s
  cases h with
  | blank hid' => exact absurd hid' hid
  | gone htomb hnot =>
    unfold applyOneSession
    rw [if_neg hid, if_pos htomb]
    show Sessions.applyTombstone s.1 (entryId v) (entryDeletedAt v) = s.1
    unfold Sessions.applyTombstone
    rcases hq : s.1.sessions.get (entryId v) with _ | q
    · rfl
    · dsimp only
      rw [if_neg (Int64.not_lt.2 (hnot q hq))]
  | @live htomb q hq hlive' hle =>
    have hlost : lwwPeerLoses (peerUpdatedAt .sync now v) (live (entryId v)) = true := by
      rw [hlive]
      unfold Sessions.liveUpdatedAt lwwPeerLoses
      rw [hq, bind_some, if_pos (by rw [hlive']; rfl), any_some, decide_eq_true_eq]
      exact hle
    unfold applyOneSession
    rw [if_neg hid, htomb, if_neg Bool.false_ne_true]
    rw [hlost]
    rfl

end Settle

theorem settled_sessionLoop (J : JsonText Text) {folderIds : List (String × String)}
    (hids : (items.map entryId).Nodup) (hmap : MapsToFolders s.1 folderIds) :
    ∀ v ∈ items, SessionSettled v
      ((sessionLoop J .sync folderIds (Sessions.liveUpdatedAt s.1) now items s).1.sessions.get (entryId v)) := by
  intro v hv
  obtain ⟨pre, post, hsplit⟩ := List.append_of_mem hv
  obtain ⟨hpre, hall⟩ := foldl_at_split
    (f := fun t v => applyOneSession J .sync folderIds (Sessions.liveUpdatedAt s.1) now v t)
    (v := fun (t : Applying Text) k => t.1.sessions.get k)
    (fun t w _ k hk => congrArg Db.SessionState.parent
      (sessionState_applyOneSession_ne J .sync folderIds _ now w t hk)) hids hsplit s
  have hfolders : MapsToFolders (sessionLoop J .sync folderIds (Sessions.liveUpdatedAt s.1) now pre s).1 folderIds := by
    have hrest := sessionLoop_withoutSessions J .sync folderIds (Sessions.liveUpdatedAt s.1) now pre s
    unfold MapsToFolders
    rw [ignores (g := Db.folders) (x := Db.withoutSessions) (fun _ => rfl) _ _ hrest]
    exact hmap
  unfold sessionLoop
  rw [hall]
  refine settled_applyOneSession J folderIds _ now v hfolders ?_
  unfold Sessions.liveUpdatedAt
  rw [← hpre]
  rfl

theorem sessionLoop_again (J : JsonText Text) (folderIds : List (String × String))
    (hsettled : ∀ v ∈ items, SessionSettled v (s.1.sessions.get (entryId v))) :
    (sessionLoop J .sync folderIds (Sessions.liveUpdatedAt s.1) now items s).1 = s.1 := by
  refine foldl_invariant (I := fun t : Applying Text => t.1 = s.1) (fun t v hv ht => ?_) rfl
  rw [← ht] at hsettled ⊢
  exact applyOneSession_of_settled J folderIds _ now v (hsettled v hv) rfl

variable {g : Db Text → β}

section Stages

variable {E : Env Text} {p : PendingImport Text} (hp : Composed E.json p) (now : Int64) (s : Applying Text)

/-- The folders of the paths met, when a merge comes to its sessions. -/
def placed (E : Env Text) (now : Int64) (p : PendingImport Text) (s : Applying Text) :
    List (String × String) × Applying Text :=
  folderTree E .sync none now p s (Kind.session.entries E.json p)

include hp in
theorem afterSessions_eq : afterSessions E .sync none now p s =
    ((placed E now p s).1, sessionLoop E.json .sync (placed E now p s).1
      (Sessions.liveUpdatedAt (placed E now p s).2.1) now (Kind.session.entries E.json p) (placed E now p s).2) := by
  obtain ⟨text, htext, hitems⟩ := hp.sessions
  unfold afterSessions applySessionsPhase
  rw [htext, hp.noEmptyFolders]
  show applySessionsJson E .sync now text _ = _
  unfold applySessionsJson
  rw [hitems]
  rfl

def sessionTables (db : Db Text) :
    Table String (SessionParent Text) × Table String SshSessionDetails × List String × List String :=
  (db.sessions, db.sshDetails, db.webdavDetails, db.s3Details)

theorem merge_fixes_sessions (hlinks : ∀ db : Db Text, g db.withoutLinks = g db)
    (hsnippets : ∀ db : Db Text, g db.withoutSnippets = g db) (htags : ∀ db : Db Text, g db.withoutTags = g db) :
    g (runApply E .sync none now p s).1 = g (afterSessions E .sync none now p s).2.1 :=
  (runApply_fixes_afterTags hlinks hsnippets).trans (afterTags_fixes htags)

end Stages

/-! ## Links -/

theorem linkLoop_eq (f : Json → Applying Text → Applying Text) (get : Db Text → List (String × String))
    (found : Db Text → String × String → Bool) {ends : Json → Option (String × String)}
    (hf : ∀ v s, get (f v s).1 = addEnds (found s.1) (get s.1) (ends v))
    (hfound : ∀ v s, found (f v s).1 = found s.1) (items : List Json) (s : Applying Text) :
    get (items.foldl (fun s v => f v s) s).1 = addLinks (found s.1) (get s.1) (items.filterMap ends) := by
  induction items generalizing s with
  | nil => rfl
  | cons v items ih =>
    rw [List.foldl_cons, ih, hfound, hf, List.filterMap_cons]
    rcases ends v with _ | l
    · rfl
    · rfl

section LinkStages

variable (E : Env Text) (mode : ApplyMode) (options : Option ApplyOptions) (now : Int64)
variable (p : PendingImport Text) (s : Applying Text)

def afterTagLinks : Applying Text :=
  overEntry E.json ((WantFlags.fromOptions options).sessions && (WantFlags.fromOptions options).tags) "session_tags"
    p.sessionTagsJson (fun items s => items.foldl (fun s v => applySessionTag v s) s) (afterTags E mode options now p s)

def afterFolderLinks : Applying Text :=
  overEntry E.json ((WantFlags.fromOptions options).sessions && (WantFlags.fromOptions options).tags) "folder_tags"
    p.folderTagsJson
    (fun items t => items.foldl (fun t v => applyFolderTag (afterSessions E mode options now p s).1 v t) t)
    (afterTagLinks E mode options now p s)

def afterSnippetRows : Applying Text :=
  overEntry E.json (WantFlags.fromOptions options).snippets "snippets" p.snippetsJson (applySnippetItems mode now)
    (afterFolderLinks E mode options now p s)

theorem runApply_eq : runApply E mode options now p s =
    overEntry E.json ((WantFlags.fromOptions options).sessions && (WantFlags.fromOptions options).snippets)
      "session_snippets" p.sessionSnippetsJson (fun items s => items.foldl (fun s v => applySessionSnippet v s) s)
      (afterSnippetRows E mode options now p s) := rfl

theorem runApply_sync_eq : runApply E .sync none now p s = overEntry E.json true "session_snippets" p.sessionSnippetsJson
    (fun items s => items.foldl (fun s v => applySessionSnippet v s) s) (afterSnippetRows E .sync none now p s) := rfl

variable {E mode options now p s}

section

theorem afterTagLinks_fixes (hg : ∀ db links, g { db with sessionTags := links } = g db) :
    g (afterTagLinks E mode options now p s).1 = g (afterTags E mode options now p s).1 :=
  overEntry_fixes g _ _ _ _ (fun items s => foldl_fixes (fun s => g s.1) (fun s v _ => by rw [applySessionTag_fst, hg]) s) _

theorem afterFolderLinks_fixes (hg : ∀ db links, g { db with folderTags := links } = g db) :
    g (afterFolderLinks E mode options now p s).1 = g (afterTagLinks E mode options now p s).1 :=
  overEntry_fixes g _ _ _ _ (fun items s => foldl_fixes (fun s => g s.1) (fun s v _ => by rw [applyFolderTag_fst, hg]) s) _

theorem afterSnippetRows_fixes (hg : ∀ db : Db Text, g db.withoutSnippets = g db) :
    g (afterSnippetRows E mode options now p s).1 = g (afterFolderLinks E mode options now p s).1 :=
  overEntry_fixes g _ _ _ _ (fun items s => ignores hg _ _ (applySnippetItems_withoutSnippets mode now items s)) _

theorem runApply_fixes_afterSnippetRows (hg : ∀ db links, g { db with sessionSnippets := links } = g db) :
    g (runApply E mode options now p s).1 = g (afterSnippetRows E mode options now p s).1 := by
  rw [runApply_eq]
  exact overEntry_fixes g _ _ _ _ (fun items s => foldl_fixes (fun s => g s.1)
    (fun s v _ => by rw [applySessionSnippet_fst, hg]) s) _

end

theorem afterTags_untouched (hkeys : ∀ db : Db Text, g db.withoutKeys = g db)
    (hfolders : ∀ db : Db Text, g db.withoutFolders = g db) (hsessions : ∀ db : Db Text, g db.withoutSessions = g db)
    (htags : ∀ db : Db Text, g db.withoutTags = g db) : g (afterTags E mode options now p s).1 = g s.1 :=
  (afterTags_fixes htags).trans (sessionStages_fix hkeys hfolders hsessions)

theorem sessionTags_runApply :
    (runApply E mode options now p s).1.sessionTags = (afterTagLinks E mode options now p s).1.sessionTags := by
  rw [runApply_fixes_afterSnippetRows (g := Db.sessionTags) fun _ _ => rfl,
    afterSnippetRows_fixes (g := Db.sessionTags) fun _ => rfl, afterFolderLinks_fixes (g := Db.sessionTags) fun _ _ => rfl]

theorem sessionTags_loop : (runApply E .sync none now p s).1.sessionTags = ((itemsOf E.json p.sessionTagsJson).foldl
    (fun s v => applySessionTag v s) (afterTags E .sync none now p s)).1.sessionTags :=
  sessionTags_runApply.trans (congrArg Db.sessionTags (overEntry_fst "session_tags" _ (fun _ => rfl) _))

theorem folderTags_loop : (runApply E .sync none now p s).1.folderTags =
    ((itemsOf E.json p.folderTagsJson).foldl (fun t v => applyFolderTag (afterSessions E .sync none now p s).1 v t)
      (afterTagLinks E .sync none now p s)).1.folderTags := by
  rw [runApply_fixes_afterSnippetRows (g := Db.folderTags) fun _ _ => rfl,
    afterSnippetRows_fixes (g := Db.folderTags) fun _ => rfl]
  exact congrArg Db.folderTags (overEntry_fst "folder_tags" _ (fun _ => rfl) _)

theorem sessionSnippets_loop :
    (runApply E .sync none now p s).1.sessionSnippets = ((itemsOf E.json p.sessionSnippetsJson).foldl
      (fun s v => applySessionSnippet v s) (afterSnippetRows E .sync none now p s)).1.sessionSnippets := by
  rw [runApply_sync_eq]
  exact congrArg Db.sessionSnippets (overEntry_fst "session_snippets" _ (fun _ => rfl) _)

theorem sessionTags_afterTags : (afterTags E mode options now p s).1.sessionTags = s.1.sessionTags :=
  afterTags_untouched (fun _ => rfl) (fun _ => rfl) (fun _ => rfl) fun _ => rfl

theorem folderTags_afterTagLinks : (afterTagLinks E mode options now p s).1.folderTags = s.1.folderTags :=
  (afterTagLinks_fixes (g := Db.folderTags) fun _ _ => rfl).trans
    (afterTags_untouched (fun _ => rfl) (fun _ => rfl) (fun _ => rfl) fun _ => rfl)

theorem sessionSnippets_afterSnippetRows :
    (afterSnippetRows E mode options now p s).1.sessionSnippets = s.1.sessionSnippets := by
  rw [afterSnippetRows_fixes (g := Db.sessionSnippets) fun _ => rfl,
    afterFolderLinks_fixes (g := Db.sessionSnippets) fun _ _ => rfl,
    afterTagLinks_fixes (g := Db.sessionSnippets) fun _ _ => rfl]
  exact afterTags_untouched (fun _ => rfl) (fun _ => rfl) (fun _ => rfl) fun _ => rfl

/-- The links of an import whose stage is a loop over `items`. -/
theorem sessionTags_of_loop (hloop : (afterTagLinks E mode options now p s).1.sessionTags =
      (items.foldl (fun s v => applySessionTag v s) (afterTags E mode options now p s)).1.sessionTags) :
    (runApply E mode options now p s).1.sessionTags =
      addLinks (bothFound (runApply E mode options now p s).1.sessions (runApply E mode options now p s).1.tags)
        s.1.sessionTags (items.filterMap (linkEnds "session_id" "tag_id")) := by
  rw [runApply_fixes_afterTags (g := Db.sessions) (fun _ => rfl) fun _ => rfl,
    runApply_fixes_afterTags (g := Db.tags) (fun _ => rfl) fun _ => rfl, sessionTags_runApply, hloop]
  exact (linkLoop_eq applySessionTag Db.sessionTags (fun db => bothFound db.sessions db.tags)
    (fun v t => by rw [applySessionTag_fst]) (fun v t => by rw [applySessionTag_fst]) _ _).trans
    (by rw [sessionTags_afterTags])

theorem sessionTags_merge : (runApply E .sync none now p s).1.sessionTags =
    addLinks (bothFound (runApply E .sync none now p s).1.sessions (runApply E .sync none now p s).1.tags)
      s.1.sessionTags ((itemsOf E.json p.sessionTagsJson).filterMap (linkEnds "session_id" "tag_id")) :=
  sessionTags_of_loop (sessionTags_runApply.symm.trans sessionTags_loop)

theorem folderTags_merge : (runApply E .sync none now p s).1.folderTags =
    addLinks (bothFound (runApply E .sync none now p s).1.folders (runApply E .sync none now p s).1.tags)
      s.1.folderTags ((itemsOf E.json p.folderTagsJson).filterMap
        (folderLinkEnds (afterSessions E .sync none now p s).1)) := by
  rw [runApply_fixes_afterTags (g := Db.folders) (fun _ => rfl) fun _ => rfl,
    runApply_fixes_afterTags (g := Db.tags) (fun _ => rfl) fun _ => rfl,
    ← afterTagLinks_fixes (g := Db.folders) fun _ _ => rfl, ← afterTagLinks_fixes (g := Db.tags) fun _ _ => rfl,
    folderTags_loop]
  exact (linkLoop_eq (applyFolderTag _) Db.folderTags (fun db => bothFound db.folders db.tags)
    (fun v t => by rw [applyFolderTag_fst]) (fun v t => by rw [applyFolderTag_fst]) _ _).trans
    (by rw [folderTags_afterTagLinks])

theorem sessionSnippets_of_loop (hloop : (runApply E mode options now p s).1.sessionSnippets =
      (items.foldl (fun s v => applySessionSnippet v s) (afterSnippetRows E mode options now p s)).1.sessionSnippets) :
    (runApply E mode options now p s).1.sessionSnippets =
      addLinks (bothFound (runApply E mode options now p s).1.sessions (runApply E mode options now p s).1.snippets)
        s.1.sessionSnippets (items.filterMap (linkEnds "session_id" "snippet_id")) := by
  rw [runApply_fixes_afterSnippetRows (g := Db.sessions) fun _ _ => rfl,
    runApply_fixes_afterSnippetRows (g := Db.snippets) fun _ _ => rfl, hloop]
  exact (linkLoop_eq applySessionSnippet Db.sessionSnippets (fun db => bothFound db.sessions db.snippets)
    (fun v t => by rw [applySessionSnippet_fst]) (fun v t => by rw [applySessionSnippet_fst]) _ _).trans
    (by rw [sessionSnippets_afterSnippetRows])

theorem sessionSnippets_merge : (runApply E .sync none now p s).1.sessionSnippets =
    addLinks (bothFound (runApply E .sync none now p s).1.sessions (runApply E .sync none now p s).1.snippets)
      s.1.sessionSnippets ((itemsOf E.json p.sessionSnippetsJson).filterMap (linkEnds "session_id" "snippet_id")) :=
  sessionSnippets_of_loop sessionSnippets_loop

end LinkStages

end LetsFlutSsh.Archive
