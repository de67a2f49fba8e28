import LetsFlutSsh.Lib.CountedLoop
import LetsFlutSsh.Archive.WholeMerge

/-!
# What a merge counts

The counters a pull reports, and the entries each of them counts:

* `MergeOutcome`: the report, projected from the driver's outcome;
* `RowCounts`: the eight counters of it as numbers, `rowCounts` of an outcome;
* `keyCounts`, `sessionCounts`, `tagCounts`, …: the entries that are counted, each in the state it meets.
-/

namespace LetsFlutSsh.Archive
open Lib Option Sessions

variable {Text α : Type}

/-! ## The report -/

structure MergeOutcome where
  sessionsMerged : UInt32
  keysMerged : UInt32
  tagsMerged : UInt32
  snippetsMerged : UInt32
  bookmarksMerged : UInt32
  sessionTagEdgesMerged : UInt32
  folderTagEdgesMerged : UInt32
  sessionSnippetEdgesMerged : UInt32
  errors : List String

/-- `from_apply_outcome`: every counter is cut to 32 bits. -/
def MergeOutcome.fromApplyOutcome (o : DriverOutcome) : MergeOutcome where
  sessionsMerged := o.sessionsApplied.toUInt32
  keysMerged := o.keysApplied.toUInt32
  tagsMerged := o.tagsApplied.toUInt32
  snippetsMerged := o.snippetsApplied.toUInt32
  bookmarksMerged := o.sftpBookmarksApplied.toUInt32
  sessionTagEdgesMerged := o.sessionTagsApplied.toUInt32
  folderTagEdgesMerged := o.folderTagsApplied.toUInt32
  sessionSnippetEdgesMerged := o.sessionSnippetsApplied.toUInt32
  errors := o.errors

@[ext]
structure RowCounts where
  sessions : Nat := 0
  keys : Nat := 0
  tags : Nat := 0
  snippets : Nat := 0
  bookmarks : Nat := 0
  sessionTags : Nat := 0
  folderTags : Nat := 0
  sessionSnippets : Nat := 0

def MergeOutcome.rowCounts (o : MergeOutcome) : RowCounts where
  sessions := o.sessionsMerged.toNat
  keys := o.keysMerged.toNat
  tags := o.tagsMerged.toNat
  snippets := o.snippetsMerged.toNat
  bookmarks := o.bookmarksMerged.toNat
  sessionTags := o.sessionTagEdgesMerged.toNat
  folderTags := o.folderTagEdgesMerged.toNat
  sessionSnippets := o.sessionSnippetEdgesMerged.toNat

def ApplyOutcome.rowCounts (o : ApplyOutcome) : RowCounts where
  sessions := o.sessionsApplied
  keys := o.keysApplied
  tags := o.tagsApplied
  snippets := o.snippetsApplied
  sessionTags := o.sessionTagsApplied
  folderTags := o.folderTagsApplied
  sessionSnippets := o.sessionSnippetsApplied

def DriverOutcome.rowCounts (o : DriverOutcome) : RowCounts :=
  { o.toApplyOutcome.rowCounts with bookmarks := o.sftpBookmarksApplied }

namespace RowCounts

def cut (c : RowCounts) : RowCounts where
  sessions := c.sessions % 2 ^ 32
  keys := c.keys % 2 ^ 32
  tags := c.tags % 2 ^ 32
  snippets := c.snippets % 2 ^ 32
  bookmarks := c.bookmarks % 2 ^ 32
  sessionTags := c.sessionTags % 2 ^ 32
  folderTags := c.folderTags % 2 ^ 32
  sessionSnippets := c.sessionSnippets % 2 ^ 32

def addSessions (n : Nat) (c : RowCounts) : RowCounts := { c with sessions := c.sessions + n }
def addKeys (n : Nat) (c : RowCounts) : RowCounts := { c with keys := c.keys + n }
def addTags (n : Nat) (c : RowCounts) : RowCounts := { c with tags := c.tags + n }
def addSnippets (n : Nat) (c : RowCounts) : RowCounts := { c with snippets := c.snippets + n }
def addBookmarks (n : Nat) (c : RowCounts) : RowCounts := { c with bookmarks := c.bookmarks + n }
def addSessionTags (n : Nat) (c : RowCounts) : RowCounts := { c with sessionTags := c.sessionTags + n }
def addFolderTags (n : Nat) (c : RowCounts) : RowCounts := { c with folderTags := c.folderTags + n }
def addSessionSnippets (n : Nat) (c : RowCounts) : RowCounts := { c with sessionSnippets := c.sessionSnippets + n }

end RowCounts

open RowCounts

theorem MergeOutcome.rowCounts_fromApplyOutcome (o : DriverOutcome) :
    (fromApplyOutcome o).rowCounts = o.rowCounts.cut := rfl

@[simp] theorem ApplyOutcome.rowCounts_push (o : ApplyOutcome) (e : String) : (o.push e).rowCounts = o.rowCounts := rfl

/-! ## Entries that count -/

section Counts

variable (live : String → Option Int64) (now : Int64) (v : Json)

def keyCounts : Bool := entryId v ≠ "" && (isTombstone v || !lwwPeerLoses (Kind.key.stamp v) (live (entryId v)))

theorem applyOneKeySync_rowCounts (s : Applying Text) :
    (applyOneKeySync live now v s).2.rowCounts = s.2.rowCounts.addKeys (keyCounts live v).toNat := by
  unfold applyOneKeySync keyCounts Kind.stamp
  dsimp only
  split_ifs with hid htomb hlost
  · simp [hid, addKeys]
  · simp [hid, htomb, addKeys, ApplyOutcome.rowCounts]
  · unfold peerCreatedAt at hlost
    simp [htomb, hlost, addKeys]
  · unfold peerCreatedAt at hlost
    simp [hid, hlost, addKeys, ApplyOutcome.rowCounts]

def snippetCounts : Bool := entryId v ≠ "" && (isTombstone v || !lwwPeerLoses (Kind.snippet.stamp v) (live (entryId v)))

theorem applyOneSnippet_rowCounts (s : Applying Text) :
    (applyOneSnippet .sync live now v s).2.rowCounts = s.2.rowCounts.addSnippets (snippetCounts live v).toNat := by
  unfold applyOneSnippet snippetCounts Kind.stamp
  simp only [ApplyMode.isSync, ApplyMode.isArchive, Bool.false_and, Bool.true_and, Bool.false_eq_true, if_false, if_true]
  split_ifs with hid htomb hlost
  · simp [hid, addSnippets]
  · simp [hid, htomb, addSnippets, ApplyOutcome.rowCounts]
  · simp [htomb, hlost, addSnippets]
  · simp [hid, hlost, addSnippets, ApplyOutcome.rowCounts]

/-- A tag entry that counts: a deletion, or a row that wins and whose name no other live tag holds. -/
def tagCounts (db : Db Text) (v : Json) : Bool :=
  entryId v ≠ "" && (isTombstone v || !lwwPeerLoses (Kind.tag.stamp v) (live (entryId v)) && !tagRefused db v)

theorem applyOneTag_rowCounts (s : Applying Text) :
    (applyOneTag .sync live now v s).2.rowCounts = s.2.rowCounts.addTags (tagCounts live s.1 v).toNat := by
  unfold applyOneTag tagCounts tagRefused Kind.stamp Tags.upsert
  simp only [ApplyMode.isSync, Bool.true_and, if_true]
  by_cases htomb : isTombstone v = true
  · by_cases hid : jsonString v "id" = ""
    · simp [hid, htomb, addTags]
    · simp [hid, htomb, addTags, ApplyOutcome.rowCounts]
  rw [if_neg htomb]
  by_cases hid : jsonString v "id" = ""
  · simp [hid, addTags]
  by_cases hname : jsonString v "name" = ""
  · simp [hname, htomb, addTags]
  rw [if_neg (not_or.2 ⟨hid, hname⟩)]
  split_ifs with hlost htaken
  · simp [htomb, hlost, addTags]
  · simp [htomb, htaken, addTags]
  · simp [hid, htomb, hname, hlost, htaken, addTags, ApplyOutcome.rowCounts]

def storable (db : Db Text) (row : SessionRow Text) : Bool :=
  folderOk db row && (normaliseKind row.kind ≠ kindSsh || refsOk db row)

theorem upsert_ok_iff (db : Db Text) (row : SessionRow Text) :
    (Sessions.upsert db row).2 = .ok () ↔ storable db row = true := by
  unfold storable
  rcases upsert_cases db row with ⟨hf, hu⟩ | ⟨hf, hk, hr, hu⟩ | ⟨hf, hk, hr, hu⟩ | ⟨hf, hk, hu⟩
  · simp [hu, hf]
  · simp [hu, hf, hk, hr]
  · simp [hu, hf, hk, hr]
  · simp [hu, hf, hk]

variable (J : JsonText Text) (folderIds : List (String × String))

/-- A session entry that counts: a deletion, or a row that is written and goes through. -/
def sessionCounts (db : Db Text) (v : Json) : Bool :=
  (entryId v ≠ "" && isTombstone v) ||
    (writesSession .sync live now v && storable db (buildSessionRow J .sync folderIds now v))

theorem applyOneSession_rowCounts (s : Applying Text) : (applyOneSession J .sync folderIds live now v s).2.rowCounts =
      s.2.rowCounts.addSessions (sessionCounts live now J folderIds s.1 v).toNat := by
  unfold applyOneSession sessionCounts writesSession peerUpdatedAt
  simp only [ApplyMode.isSync, ApplyMode.isArchive, Bool.true_and, Bool.false_eq_true, if_false, if_true]
  split_ifs with hid htomb hlost
  · simp [hid, addSessions]
  · simp [hid, htomb, addSessions, ApplyOutcome.rowCounts]
  · simp [htomb, hlost, addSessions]
  · have hiff := upsert_ok_iff s.1 (buildSessionRow J .sync folderIds now v)
    rcases hu : Sessions.upsert s.1 (buildSessionRow J .sync folderIds now v) with ⟨db, e | _⟩
    · rw [hu] at hiff
      have hno : storable s.1 (buildSessionRow J .sync folderIds now v) = false := by simpa using hiff
      simp [htomb, hno, addSessions]
    · rw [hu] at hiff
      simp [hid, htomb, hlost, hiff.1 rfl, addSessions, ApplyOutcome.rowCounts]

end Counts

/-! ## Links -/

/-- A link entry that counts: its ends are rows of their tables, whether the link is there or not. -/
def linkCounts (found : String × String → Bool) (ends : Option (String × String)) : Bool := ends.any found

theorem applyEnds_rowCounts {add : Nat → RowCounts → RowCounts} (hzero : ∀ x, add 0 x = x)
    {count : ApplyOutcome → ApplyOutcome} (hone : ∀ o, (count o).rowCounts = add 1 o.rowCounts)
    (found : String × String → Bool) (what : String) (links : List (String × String)) (put : List (String × String) → Db Text)
    (label : String) (s : Applying Text) (ends : Option (String × String)) :
    (ends.elim (skipLink s) fun l =>
      applyLink ((Tags.link (found l) what links l.1 l.2).map put) count label s).2.rowCounts =
        add (linkCounts found ends).toNat s.2.rowCounts := by
  rcases ends with _ | l
  · exact (hzero _).symm
  unfold linkCounts Tags.link
  rw [elim_some, any_some]
  rcases found l with _ | _
  · exact (hzero _).symm
  · exact hone s.2

theorem applySessionTag_rowCounts (v : Json) (s : Applying Text) : (applySessionTag v s).2.rowCounts =
      s.2.rowCounts.addSessionTags
        (linkCounts (bothFound s.1.sessions s.1.tags) (linkEnds "session_id" "tag_id" v)).toNat := by
  rw [applySessionTag_eq]
  exact applyEnds_rowCounts (fun _ => rfl) (fun _ => rfl) (bothFound s.1.sessions s.1.tags) _ _ _ _ s _

theorem applySessionSnippet_rowCounts (v : Json) (s : Applying Text) : (applySessionSnippet v s).2.rowCounts =
      s.2.rowCounts.addSessionSnippets
        (linkCounts (bothFound s.1.sessions s.1.snippets) (linkEnds "session_id" "snippet_id" v)).toNat := by
  rw [applySessionSnippet_eq]
  exact applyEnds_rowCounts (fun _ => rfl) (fun _ => rfl) (bothFound s.1.sessions s.1.snippets) _ _ _ _ s _

theorem applyFolderTag_rowCounts (pathToId : List (String × String)) (v : Json) (s : Applying Text) :
    (applyFolderTag pathToId v s).2.rowCounts = s.2.rowCounts.addFolderTags
        (linkCounts (bothFound s.1.folders s.1.tags) (folderLinkEnds pathToId v)).toNat := by
  rw [applyFolderTag_eq]
  exact applyEnds_rowCounts (fun _ => rfl) (fun _ => rfl) (bothFound s.1.folders s.1.tags) _ _ _ _ s _

/-! ## Folders -/

section

variable (E : Env Text) (now : Int64)

theorem ensureFolderPathsSync_rowCounts (paths : List String) (out : List (String × String)) (s : Applying Text) :
    (ensureFolderPathsSync E now paths out s).2.2.rowCounts = s.2.rowCounts := by
  induction paths generalizing out s with
  | nil => rfl
  | cons path paths ih =>
    unfold ensureFolderPathsSync
    split_ifs
    · exact ih out s
    · split
      · exact ih _ _
      · exact ih _ _
      · exact ih _ _

/-- What creating the folders of a path leaves alone. -/
theorem materialiseSegments_fixes (errLabel : String) (segs : List String) (accum : String) (parent : Option String)
    (m : Materialising Text) : let t := (materialiseSegments E now errLabel segs accum parent m).state
    (t.1.withoutFolders, t.2.rowCounts) = (m.state.1.withoutFolders, m.state.2.rowCounts) := by
  induction segs generalizing accum parent m with
  | nil => rfl
  | cons seg segs ih =>
    unfold materialiseSegments
    dsimp only
    split
    · exact ih _ _ _
    split
    · rename_i db hdb
      unfold Folders.upsert at hdb
      split_ifs at hdb
      cases hdb
      exact ih _ _ _
    · exact ih _ _ _

theorem applyEmptyFolders_fixes (paths : List String) (pathToId : List (String × String)) (s : Applying Text) :
    (applyEmptyFolders E now paths pathToId s).2.1.withoutFolders = s.1.withoutFolders ∧
      (applyEmptyFolders E now paths pathToId s).2.2.rowCounts = s.2.rowCounts := by
  refine Prod.mk.inj (foldl_fixes (fun m : Materialising Text => (m.state.1.withoutFolders, m.state.2.rowCounts))
    (fun m path _ => ?_) _)
  split_ifs
  · rfl
  · exact materialiseSegments_fixes E now _ _ _ _ m

end

/-! ## The main tables -/

variable {J : JsonText Text}

theorem overEntry_rowCounts (what : String) (entry : Option Text)
    {f : List Json → Applying Text → Applying Text} (hnil : ∀ s, f [] s = s) (s : Applying Text) :
    (overEntry J true what entry f s).2.rowCounts = (f (itemsOf J entry) s).2.rowCounts := by
  unfold overEntry itemsOf
  rw [if_pos rfl]
  rcases entry with _ | text
  · exact congrArg (fun s : Applying Text => s.2.rowCounts) (hnil s).symm
  show (overArray J what text f s).2.rowCounts = _
  unfold overArray
  rw [bind_some]
  rcases parseArray J text with e | items
  · have hsame : s.2.rowCounts = (f [] s).2.rowCounts :=
      congrArg (fun s : Applying Text => s.2.rowCounts) (hnil s).symm
    exact hsame
  · rfl

section Main

variable (E : Env Text) (now : Int64) (p : PendingImport Text) (db : Db Text)

def countedKeys : List Json := (itemsOf E.json p.keysJson).filter (keyCounts (SshKeys.liveCreatedAt db))

/-- The folders of a merge when it comes to its sessions, with the state it reached. -/
def sessionPlace : List (String × String) × Applying Text :=
  folderTree E .sync none now p (db, {}) (itemsOf E.json p.sessionsJson)

def sessionPass (s : Applying Text) (v : Json) : Applying Text :=
  applyOneSession E.json .sync (sessionPlace E now p db).1 (Sessions.liveUpdatedAt db) now v s

def countedSessions : List Json :=
  counted (sessionPass E now p db)
    (fun s v => sessionCounts (Sessions.liveUpdatedAt db) now E.json (sessionPlace E now p db).1 s.1 v)
    (itemsOf E.json p.sessionsJson) (sessionPlace E now p db).2

def countedTags : List Json :=
  counted (fun s v => applyOneTag .sync (Tags.liveCreatedAt db) now v s)
    (fun s v => tagCounts (Tags.liveCreatedAt db) s.1 v) (itemsOf E.json p.tagsJson)
    (afterSessions E .sync none now p (db, {})).2

def countedSessionTags : List Json :=
  counted (fun s v => applySessionTag v s)
    (fun s v => linkCounts (bothFound s.1.sessions s.1.tags) (linkEnds "session_id" "tag_id" v))
    (itemsOf E.json p.sessionTagsJson) (afterTags E .sync none now p (db, {}))

def metFolders : List (String × String) := (afterSessions E .sync none now p (db, {})).1

def countedFolderTags : List Json :=
  counted (fun s v => applyFolderTag (metFolders E now p db) v s)
    (fun s v => linkCounts (bothFound s.1.folders s.1.tags) (folderLinkEnds (metFolders E now p db) v))
    (itemsOf E.json p.folderTagsJson) (afterTagLinks E .sync none now p (db, {}))

def countedSnippets : List Json := (itemsOf E.json p.snippetsJson).filter (snippetCounts (Snippets.liveUpdatedAt db))

def countedSessionSnippets : List Json :=
  counted (fun s v => applySessionSnippet v s)
    (fun s v => linkCounts (bothFound s.1.sessions s.1.snippets) (linkEnds "session_id" "snippet_id" v))
    (itemsOf E.json p.sessionSnippetsJson) (afterSnippetRows E .sync none now p (db, {}))

theorem rowCounts_afterKeys :
    (afterKeys E .sync none now p (db, {})).2.rowCounts = addKeys (countedKeys E p db).length {} := by
  refine (overEntry_rowCounts "keys" _ (fun _ => rfl) _).trans ?_
  have hloop := foldl_counts (fun s : Applying Text => s.2.rowCounts) addKeys (fun _ => rfl)
    (fun m n x => by simp [addKeys, Nat.add_assoc])
    (fun s v => applyOneKeySync_rowCounts (SshKeys.liveCreatedAt db) now v s) (itemsOf E.json p.keysJson) (db, {})
  rw [counted_eq_filter (keyCounts (SshKeys.liveCreatedAt db)) fun _ _ => rfl] at hloop
  exact hloop

theorem sessions_sessionPlace : (sessionPlace E now p db).2.1.sessions = db.sessions := by
  have hfolders := (applyFolderTree_grows E .sync now (itemsOf E.json p.sessionsJson)
    (afterKeys E .sync none now p (db, {}))).1.rest
  refine (ignores (g := Db.sessions) (x := Db.withoutFolders) (fun _ => rfl) _ _ hfolders).trans ?_
  exact afterKeys_fixes (g := Db.sessions) fun _ => rfl

theorem rowCounts_sessionPlace : (sessionPlace E now p db).2.2.rowCounts = addKeys (countedKeys E p db).length {} :=
  (ensureFolderPathsSync_rowCounts E now _ _ _).trans (rowCounts_afterKeys E now p db)

theorem rowCounts_sessionPass :
    ((itemsOf E.json p.sessionsJson).foldl (sessionPass E now p db) (sessionPlace E now p db).2).2.rowCounts =
      addSessions (countedSessions E now p db).length (addKeys (countedKeys E p db).length {}) := by
  rw [← rowCounts_sessionPlace E now p db]
  exact foldl_counts (fun s : Applying Text => s.2.rowCounts) addSessions
    (fun _ => rfl) (fun m n x => by simp [addSessions, Nat.add_assoc])
    (fun s v => applyOneSession_rowCounts (Sessions.liveUpdatedAt db) now v E.json (sessionPlace E now p db).1 s) _ _

theorem liveUpdatedAt_sessionPlace : Sessions.liveUpdatedAt (sessionPlace E now p db).2.1 = Sessions.liveUpdatedAt db := by
  funext id
  unfold Sessions.liveUpdatedAt
  rw [sessions_sessionPlace]

theorem applyFolderTree_nil (s : Applying Text) : applyFolderTree E .sync now [] s = ([], s) := by
  have hpaths : folderPaths [] = [] := by simp [folderPaths]
  show ensureFolderPathsSync E now (folderPaths []) [] s = ([], s)
  rw [hpaths]
  rfl

theorem afterSessions_eq_loop {β : Type} {g : Applying Text → β} (hpush : ∀ db o e, g (db, ApplyOutcome.push o e) = g (db, o))
    (hempty : ∀ paths m s, g (applyEmptyFolders E now paths m s).2 = g s) :
    g (afterSessions E .sync none now p (db, {})).2 =
      g ((itemsOf E.json p.sessionsJson).foldl (sessionPass E now p db) (sessionPlace E now p db).2) := by
  refine (?_ : _ = g (p.sessionsJson.elim ([], afterKeys E .sync none now p (db, {})) fun text =>
    applySessionsJson E .sync now text (afterKeys E .sync none now p (db, {}))).2).trans ?_
  · show g (applySessionsPhase E .sync now true p _).2 = _
    unfold applySessionsPhase
    rcases p.emptyFoldersJson with _ | text
    · rfl
    rw [if_pos rfl, elim_some]
    split
    · exact hpush _ _ _
    · exact hempty _ _ _
  have hlive := liveUpdatedAt_sessionPlace E now p db
  unfold sessionPass
  rw [← hlive]
  unfold sessionPlace folderTree itemsOf
  rcases p.sessionsJson with _ | text
  · show g (afterKeys E .sync none now p (db, {})) =
      g (applyFolderTree E .sync now [] (afterKeys E .sync none now p (db, {}))).2
    rw [applyFolderTree_nil]
  · rw [elim_some, bind_some]
    unfold applySessionsJson
    rcases parseArray E.json text with e | items
    · show g (_, ApplyOutcome.push _ _) = g (applyFolderTree E .sync now [] (afterKeys E .sync none now p (db, {}))).2
      rw [applyFolderTree_nil, hpush]
    · rfl

theorem rowCounts_afterSessions : (afterSessions E .sync none now p (db, {})).2.2.rowCounts =
      addSessions (countedSessions E now p db).length (addKeys (countedKeys E p db).length {}) := by
  rw [← rowCounts_sessionPass]
  exact afterSessions_eq_loop E now p db (g := fun s => s.2.rowCounts) (fun _ _ _ => rfl)
    (fun paths m s => (applyEmptyFolders_fixes E now paths m s).2)

theorem tags_afterSessions : (afterSessions E .sync none now p (db, {})).2.1.tags = db.tags :=
  sessionStages_fix (g := Db.tags) (fun _ => rfl) (fun _ => rfl) fun _ => rfl

theorem snippets_afterFolderTags : (afterFolderLinks E .sync none now p (db, {})).1.snippets = db.snippets := by
  rw [afterFolderLinks_fixes (g := Db.snippets) (fun _ _ => rfl), afterTagLinks_fixes (g := Db.snippets) (fun _ _ => rfl),
    afterTags_untouched (g := Db.snippets) (fun _ => rfl) (fun _ => rfl) (fun _ => rfl) fun _ => rfl]

theorem rowCounts_merge : (mergePendingIntoLocal E now p db).2.rowCounts =
      { sessions := (countedSessions E now p db).length
        keys := (countedKeys E p db).length
        tags := (countedTags E now p db).length
        snippets := (countedSnippets E p db).length
        sessionTags := (countedSessionTags E now p db).length
        folderTags := (countedFolderTags E now p db).length
        sessionSnippets := (countedSessionSnippets E now p db).length } := by
  have htags : (afterTags E .sync none now p (db, {})).2.rowCounts =
      addTags (countedTags E now p db).length (afterSessions E .sync none now p (db, {})).2.2.rowCounts := by
    have hlive : Tags.liveCreatedAt (afterSessions E .sync none now p (db, {})).2.1 = Tags.liveCreatedAt db := by
      funext id
      unfold Tags.liveCreatedAt
      rw [tags_afterSessions]
    refine (overEntry_rowCounts "tags" _ (fun _ => rfl) _).trans ?_
    show (List.foldl (fun s v => applyOneTag .sync (Tags.liveCreatedAt (afterSessions E .sync none now p (db, {})).2.1) now v s)
      _ _).2.rowCounts = _
    rw [hlive]
    exact foldl_counts (fun s : Applying Text => s.2.rowCounts) addTags (fun _ => rfl)
      (fun m n x => by simp [addTags, Nat.add_assoc])
      (fun s v => applyOneTag_rowCounts (Tags.liveCreatedAt db) now v s) _ _
  have hsessionTags : (afterTagLinks E .sync none now p (db, {})).2.rowCounts =
      addSessionTags (countedSessionTags E now p db).length (afterTags E .sync none now p (db, {})).2.rowCounts :=
    (overEntry_rowCounts "session_tags" _ (fun _ => rfl) _).trans
      (foldl_counts (fun s : Applying Text => s.2.rowCounts) addSessionTags (fun _ => rfl)
        (fun m n x => by simp [addSessionTags, Nat.add_assoc]) (fun s v => applySessionTag_rowCounts v s) _ _)
  have hfolderTags : (afterFolderLinks E .sync none now p (db, {})).2.rowCounts =
      addFolderTags (countedFolderTags E now p db).length (afterTagLinks E .sync none now p (db, {})).2.rowCounts :=
    (overEntry_rowCounts "folder_tags" _ (fun _ => rfl) _).trans
      (foldl_counts (fun s : Applying Text => s.2.rowCounts) addFolderTags (fun _ => rfl)
        (fun m n x => by simp [addFolderTags, Nat.add_assoc])
        (fun s v => applyFolderTag_rowCounts (metFolders E now p db) v s) _ _)
  have hsnippets : (afterSnippetRows E .sync none now p (db, {})).2.rowCounts =
      addSnippets (countedSnippets E p db).length (afterFolderLinks E .sync none now p (db, {})).2.rowCounts := by
    have hlive : Snippets.liveUpdatedAt (afterFolderLinks E .sync none now p (db, {})).1 = Snippets.liveUpdatedAt db := by
      funext id
      unfold Snippets.liveUpdatedAt
      rw [snippets_afterFolderTags]
    refine (overEntry_rowCounts "snippets" _ (fun _ => rfl) _).trans ?_
    show (List.foldl (fun s v => applyOneSnippet .sync (Snippets.liveUpdatedAt (afterFolderLinks E .sync none now p (db, {})).1) now v s)
      _ _).2.rowCounts = _
    rw [hlive]
    have hloop := foldl_counts (fun s : Applying Text => s.2.rowCounts) addSnippets (fun _ => rfl)
      (fun m n x => by simp [addSnippets, Nat.add_assoc])
      (fun s v => applyOneSnippet_rowCounts (Snippets.liveUpdatedAt db) now v s) (itemsOf E.json p.snippetsJson)
      (afterFolderLinks E .sync none now p (db, {}))
    rw [counted_eq_filter (snippetCounts (Snippets.liveUpdatedAt db)) fun _ _ => rfl] at hloop
    exact hloop
  unfold mergePendingIntoLocal
  rw [runApply_sync_eq, overEntry_rowCounts "session_snippets" _ (fun _ => rfl)]
  refine (foldl_counts (fun s : Applying Text => s.2.rowCounts) addSessionSnippets (fun _ => rfl)
    (fun m n x => by simp [addSessionSnippets, Nat.add_assoc]) (fun s v => applySessionSnippet_rowCounts v s)
    _ _).trans ?_
  rw [hsnippets, hfolderTags, hsessionTags, htags, rowCounts_afterSessions]
  ext <;> simp [addKeys, addSessions, addTags, addSessionTags,
    addFolderTags, addSnippets, addSessionSnippets, countedSessionSnippets]

end Main

/-! ## All tables -/

variable {σ : Type}

variable {count : DriverOutcome → DriverOutcome}

theorem attempt_rowCounts (call : Call σ Unit) (label : String)
    (hcount : ∀ o, (count o).rowCounts = o.rowCounts) (s : Running σ) :
    (attempt call label count s).2.rowCounts = s.2.rowCounts := by
  unfold attempt
  rcases call s.1 with ⟨db, e | x⟩
  · rfl
  · exact hcount s.2

theorem overRows_rowCounts (what : String) (entry : Option Text)
    {stage : List Json → Running σ → Running σ} (hnil : ∀ s, (stage [] s).2.rowCounts = s.2.rowCounts) (s : Running σ) :
    (overRows J true what entry stage s).2.rowCounts = (stage (itemsOf J entry) s).2.rowCounts := by
  unfold overRows itemsOf
  rw [if_pos rfl]
  rcases entry with _ | text
  · exact (hnil s).symm
  · rw [elim_some, bind_some]
    rcases parseArray J text with e | items
    · exact (hnil s).symm
    · rfl

theorem driveKnownHosts_rowCounts (K : Store σ Text) (validBase64 : String → Bool) (text : String)
    (s : Running σ) : (driveKnownHosts K validBase64 text s).2.rowCounts = s.2.rowCounts := by
  refine foldl_fixes (fun s : Running σ => s.2.rowCounts) (fun s line _ => ?_) s
  unfold driveKnownHost
  dsimp only
  split_ifs
  · rfl
  split
  · split
    · split_ifs
      · rfl
      · apply attempt_rowCounts
        exact fun _ => rfl
    · rfl
  · rfl

theorem driveCertificate_rowCounts (K : Store σ Text) (fromText : String → Option Json)
    (liveKeys : List String) (v : Json) (s : Running σ) :
    (driveCertificate K fromText liveKeys v s).2.rowCounts = s.2.rowCounts := by
  unfold driveCertificate
  dsimp only
  split_ifs
  · rfl
  · apply attempt_rowCounts
    exact fun _ => rfl
  · rfl

theorem applyOneDetail_rowCounts (what : String) (build : Json → α)
    (hcount : ∀ o, (count o).rowCounts = o.rowCounts) (now : Int64) (live : List String) (v : Json)
    (s : Running (Table String (Stamped α))) :
    (applyOneDetail what build count now live v s).2.rowCounts = s.2.rowCounts := by
  unfold applyOneDetail
  dsimp only
  split_ifs
  · rfl
  · exact hcount s.2
  · rfl
  · exact hcount s.2
  · rfl

theorem applyOnePortForwardRule_rowCounts (live : List String) (updated : String → Option Int64) (v : Json)
    (s : Running (Table String (Stored PortForwardRuleRow))) :
    (applyOnePortForwardRule live updated v s).2.rowCounts = s.2.rowCounts := by
  unfold applyOnePortForwardRule
  dsimp only
  split_ifs <;> rfl

/-- A bookmark entry that counts: a deletion, or a row of a live session that wins. -/
def bookmarkCounts (now : Int64) (live : List String) (created : String → Option Int64) (v : Json) : Bool :=
  (entryId v ≠ "" && jsonString v "session_id" ≠ "") && (isTombstone v || decide (jsonString v "session_id" ∈ live) &&
      !lwwPeerLoses (parseIso8601OrNow (jsonString v "created_at") now) (created (entryId v)))

theorem applyOneSftpBookmark_rowCounts (now : Int64) (live : List String) (created : String → Option Int64) (v : Json)
    (s : Running (Table String (Stored SftpBookmarkRow))) :
    (applyOneSftpBookmark now live created v s).2.rowCounts =
      s.2.rowCounts.addBookmarks (bookmarkCounts now live created v).toNat := by
  unfold applyOneSftpBookmark bookmarkCounts
  dsimp only
  by_cases hids : jsonString v "id" = "" ∨ jsonString v "session_id" = ""
  · rw [if_pos hids]
    rcases hids with hid | hid
    · simp [hid, addBookmarks]
    · simp [hid, addBookmarks]
  rw [if_neg hids]
  obtain ⟨hid, hsession⟩ := not_or.1 hids
  split_ifs with htomb hlive hlost
  · simp [hid, hsession, htomb, addBookmarks, DriverOutcome.rowCounts]
  · simp [htomb, hlost, addBookmarks]
  · simp [hid, hsession, hlive, hlost, addBookmarks, DriverOutcome.rowCounts]
  · simp [htomb, hlive, addBookmarks, DriverOutcome.warn, DriverOutcome.rowCounts]

section Merge

variable (E : DriverEnv Text) (now : Int64) (p : FullImport Text) (w : Whole Text)

abbrev mergedMain : Db Text := (mergePendingIntoLocal E.toEnv now p.toPendingImport w.main).1

def countedBookmarks : List Json :=
  (itemsOf E.json p.sftpBookmarksJson).filter
    (bookmarkCounts now (liveSessionIds (mergedMain E now p w)) fun id => bookmarkStamp (w.child.bookmarks.get id))

section

variable (s : Running (Whole Text))

theorem syncKnownHosts_rowCounts : (syncKnownHosts E now p s).2.rowCounts = s.2.rowCounts := by
  unfold syncKnownHosts
  rcases p.knownHostsText with _ | text
  · rfl
  · exact driveKnownHosts_rowCounts _ E.validBase64 text s

theorem syncCertificates_rowCounts : (syncCertificates E now p s).2.rowCounts = s.2.rowCounts := by
  have hloop : ∀ items : List Json, ∀ s : Running (Whole Text),
      (withList (wholeStore E.toEnv now).listKeyIds "ssh_key_certificates list keys"
        (fun live s => items.foldl (fun s v => driveCertificate (wholeStore E.toEnv now) E.fromText live v s) s) s).2.rowCounts =
      s.2.rowCounts := by
    intro items s
    unfold withList
    rcases (wholeStore E.toEnv now).listKeyIds s.1 with ⟨db, e | live⟩
    · rfl
    · exact foldl_fixes (fun s : Running (Whole Text) => s.2.rowCounts)
        (fun s v _ => driveCertificate_rowCounts _ E.fromText live v s) (db, s.2)
  exact (overRows_rowCounts _ _ (hloop []) s).trans (hloop _ s)

theorem syncWebdav_rowCounts : (syncWebdav E now p s).2.rowCounts = s.2.rowCounts := by
  refine (overRows_rowCounts _ _ (fun _ => rfl) _).trans ?_
  refine foldl_fixes (fun s : Running (Table String (Stamped WebDavSessionRow)) => s.2.rowCounts) (fun s v _ => ?_)
    (s.1.child.webdav, s.2)
  apply applyOneDetail_rowCounts
  exact fun _ => rfl

theorem syncS3_rowCounts : (syncS3 E now p s).2.rowCounts = s.2.rowCounts := by
  refine (overRows_rowCounts _ _ (fun _ => rfl) _).trans ?_
  refine foldl_fixes (fun s : Running (Table String (Stamped S3SessionRow)) => s.2.rowCounts) (fun s v _ => ?_)
    (s.1.child.s3, s.2)
  apply applyOneDetail_rowCounts
  exact fun _ => rfl

theorem syncPortForwards_rowCounts : (syncPortForwards E p s).2.rowCounts = s.2.rowCounts := by
  refine (overRows_rowCounts _ _ (fun _ => rfl) _).trans ?_
  exact foldl_fixes (fun s : Running (Table String (Stored PortForwardRuleRow)) => s.2.rowCounts)
    (fun s v _ => applyOnePortForwardRule_rowCounts _ _ v s) (s.1.child.portForwards, s.2)

theorem syncBookmarks_rowCounts : (syncBookmarks E now p s).2.rowCounts =
      s.2.rowCounts.addBookmarks ((itemsOf E.json p.sftpBookmarksJson).filter
        (bookmarkCounts now (liveSessionIds s.1.main) fun id => bookmarkStamp (s.1.child.bookmarks.get id))).length := by
  refine (overRows_rowCounts _ _ (fun _ => rfl) _).trans ?_
  have hloop := foldl_counts (fun s : Running (Table String (Stored SftpBookmarkRow)) => s.2.rowCounts)
    addBookmarks (fun _ => rfl) (fun m n x => by simp [addBookmarks, Nat.add_assoc])
    (fun t v => applyOneSftpBookmark_rowCounts now (liveSessionIds s.1.main)
      (fun id => bookmarkStamp (s.1.child.bookmarks.get id)) v t)
    (itemsOf E.json p.sftpBookmarksJson) (s.1.child.bookmarks, s.2)
  rw [counted_eq_filter (bookmarkCounts now (liveSessionIds s.1.main) fun id =>
    bookmarkStamp (s.1.child.bookmarks.get id)) fun _ _ => rfl] at hloop
  exact hloop

end

theorem rowCounts_mergeWhole : (mergeWhole E now p w).2.rowCounts =
      (mergePendingIntoLocal E.toEnv now p.toPendingImport w.main).2.rowCounts.addBookmarks
        (countedBookmarks E now p w).length := by
  have hmain : (syncMain E now p w).1 = w.withMain (mergedMain E now p w) := rfl
  unfold mergeWhole
  rw [syncPortForwards_rowCounts, syncBookmarks_rowCounts, syncS3_rowCounts, syncWebdav_rowCounts,
    syncCertificates_rowCounts, syncKnownHosts_rowCounts, syncS3_fst, syncWebdav_fst, syncCertificates_fst,
    syncKnownHosts_fst, hmain]
  rfl

end Merge

end LetsFlutSsh.Archive
