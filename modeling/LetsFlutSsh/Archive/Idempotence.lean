import LetsFlutSsh.Archive.Composed

/-!
# Merging a snapshot twice

The same snapshot merged again right after its first merge:

* `LateEntry`, `TagLate`: a tag the live-name index refused the first time and takes the second time;
* `Again`, `merge_twice`: that is all that a second merge of a composed snapshot changes;
* `merge_twice_changes`: and both do change on a concrete database.
-/

namespace LetsFlutSsh.Archive
open Lib

variable {Text : Type}

/-! ## Tags -/

section Tags

variable (E : Env Text) (now now' : Int64) (p : PendingImport Text) (D D' : Db Text)

/-- A live tag entry that the tag loop run on `D` refuses for its name only, and the loop run on `D'` does not. -/
structure LateEntry (v : Json) : Prop where
  id : entryId v ≠ ""
  live : isTombstone v = false
  wins : lwwPeerLoses (Kind.tag.stamp v) (Tags.liveCreatedAt D (entryId v)) = false
  turn : ∃ done rest, Kind.tag.entries E.json p = done ++ v :: rest ∧
    tagRefused (applyTagItems .sync now done (D, {})).1 v = true ∧
    tagRefused (applyTagItems .sync now' done (D', {})).1 v = false

def TagLate (x : String) : Prop := ∃ v, LateEntry E now now' p D D' v ∧ entryId v = x

/-- The row of a tag entry; a tag that is there keeps its creation time. -/
def tagRowOf (v : Json) (old : Option (Stored TagRow)) : TagRow where
  id := jsonString v "id"
  name := jsonString v "name"
  color := jsonNonEmpty v "color"
  createdAtMs := (old.map fun s => s.row.createdAtMs).getD (Kind.tag.stamp v)

variable {E p}

section

variable (hids : ((Kind.tag.entries E.json p).map entryId).Nodup)
include hids

theorem get_tags_merge {done rest : List Json} {v : Json} (hsplit : Kind.tag.entries E.json p = done ++ v :: rest) :
    (mergePendingIntoLocal E now p D).1.tags.get (entryId v) =
      (tagWrite v (tagRefused (applyTagItems .sync now done (D, {})).1 v)
        (liveStamp TagRow.createdAtMs (D.tags.get (entryId v))) (D.tags.get (entryId v))).or
        (D.tags.get (entryId v)) := by
  have hother : ∀ s : Applying Text, ∀ w ∈ Kind.tag.entries E.json p, ∀ k, k ≠ entryId w →
      (applyOneTag .sync (Tags.liveCreatedAt D) now w s).1.tags.get k = s.1.tags.get k := by
    intro s w _ k hk
    rw [applyOneTag_tags]
    exact Table.get_mergeRow_ne _ _ hk
  obtain ⟨hpre, hall⟩ := foldl_at_split (f := fun s v => applyOneTag .sync (Tags.liveCreatedAt D) now v s)
    (v := fun (s : Applying Text) k => s.1.tags.get k) hother hids hsplit (D, {})
  rw [tags_merge]
  refine hall.trans ?_
  rw [applyOneTag_tags, Table.get_mergeRow_self]
  rw [hpre]
  rfl

theorem tags_again (hD' : D'.tags = (mergePendingIntoLocal E now p D).1.tags) (x : String) :
    (mergePendingIntoLocal E now' p D').1.tags.get x = D'.tags.get x ∨ TagLate E now now' p D D' x := by
  by_cases hx : ∃ v ∈ Kind.tag.entries E.json p, entryId v = x
  · obtain ⟨v, hv, rfl⟩ := hx
    obtain ⟨done, rest, hsplit⟩ := List.append_of_mem hv
    refine or_iff_not_imp_right.2 fun hlate => ?_
    have hfirst := get_tags_merge now D hids hsplit
    rw [← hD'] at hfirst
    rw [get_tags_merge now' D' hids hsplit]
    rcases hw : tagWrite v (tagRefused (applyTagItems .sync now' done (D', {})).1 v)
        (liveStamp TagRow.createdAtMs (D'.tags.get (entryId v))) (D'.tags.get (entryId v)) with _ | b
    · rfl
    rw [Option.some_or]
    have hid : entryId v ≠ "" := by
      intro hid
      unfold tagWrite at hw
      rw [if_pos hid] at hw
      cases hw
    refine (tagWrite_again v (fun hgone hlost hrefused => ?_) hfirst.symm hw).symm
    by_contra hnot
    exact hlate ⟨v, ⟨hid, hgone, hlost, done, rest, hsplit, hrefused, Bool.not_eq_true _ ▸ hnot⟩, rfl⟩
  · left
    rw [tags_merge]
    refine foldl_fixes (fun s : Applying Text => s.1.tags.get x) (fun s v hv => ?_) (D', {})
    rw [applyOneTag_tags]
    exact Table.get_mergeRow_ne _ _ fun h => hx ⟨v, hv, h.symm⟩

theorem LateEntry.stored (hD' : D'.tags = (mergePendingIntoLocal E now p D).1.tags) {v : Json}
    (h : LateEntry E now now' p D D' v) :
    (mergePendingIntoLocal E now' p D').1.tags.get (entryId v) = some ⟨tagRowOf v (D'.tags.get (entryId v)), none⟩ := by
  obtain ⟨hid, hlive, hwins, done, rest, hsplit, hrefused, htaken⟩ := h
  have hnone : ∀ refused old, tagWrite v refused (liveStamp TagRow.createdAtMs (D.tags.get (entryId v))) old =
      if refused then none else some ⟨tagRowOf v old, none⟩ := by
    intro refused old
    unfold tagWrite lwwWrite
    rw [if_neg hid, hlive, if_neg Bool.false_ne_true]
    unfold Tags.liveCreatedAt at hwins
    unfold liveStamp
    rw [hwins, if_neg Bool.false_ne_true]
    rfl
  have hsame : D'.tags.get (entryId v) = D.tags.get (entryId v) := by
    rw [hD', get_tags_merge now D hids hsplit, hrefused, hnone]
    rfl
  rw [get_tags_merge now' D' hids hsplit, htaken, hsame, hnone]
  rfl

end

end Tags

/-! ## The main tables -/

section Main

variable {E : Env Text} {p : PendingImport Text} (now now' : Int64) (D : Db Text)

theorem afterSessions_again (hp : Composed E.json p) {D' : Db Text}
    (hfolders : D'.folders = (mergePendingIntoLocal E now p D).1.folders)
    (hsessions : D'.sessions = (mergePendingIntoLocal E now p D).1.sessions) :
    (afterSessions E .sync none now' p (D', {})).1 = (afterSessions E .sync none now p (D, {})).1 ∧
      (afterSessions E .sync none now' p (D', {})).2.1 = (afterKeys E .sync none now' p (D', {})).1 := by
  have hafter := afterSessions_eq hp now (D, {})
  have hfirst : D'.folders = (placed E now p (D, {})).2.1.folders := by
    rw [hfolders]
    refine (merge_fixes_sessions now (D, {}) (fun _ => rfl) (fun _ => rfl) (fun _ => rfl)).trans ?_
    rw [hafter]
    exact ignores (g := Db.folders) (x := Db.withoutSessions) (fun _ => rfl) _ _
      (sessionLoop_withoutSessions E.json .sync _ _ now _ _)
  have hkeys : (afterKeys E .sync none now' p (D', {})).1.folders = D'.folders :=
    afterKeys_fixes (g := Db.folders) fun _ => rfl
  have hplaced : placed E now' p (D', {}) = ((placed E now p (D, {})).1, afterKeys E .sync none now' p (D', {})) :=
    (ensureFolderPathsSync_again now E now' (folderPaths (Kind.session.entries E.json p)) []
      (afterKeys E .sync none now p (D, {}))).2 _ (extends_of_folders (hkeys.trans hfirst))
  have hstored : ∀ k, (afterKeys E .sync none now' p (D', {})).1.sessions.get k =
      (sessionLoop E.json .sync (placed E now p (D, {})).1 (Sessions.liveUpdatedAt (placed E now p (D, {})).2.1) now
        (Kind.session.entries E.json p) (placed E now p (D, {})).2).1.sessions.get k := by
    intro k
    have hsame : (afterKeys E .sync none now' p (D', {})).1.sessions = D'.sessions :=
      afterKeys_fixes (g := Db.sessions) fun _ => rfl
    rw [hsame, hsessions]
    refine congrArg (fun t : Table String (SessionParent Text) => t.get k) ?_
    refine (merge_fixes_sessions now (D, {}) (fun _ => rfl) (fun _ => rfl) (fun _ => rfl)).trans ?_
    rw [hafter]
  rw [afterSessions_eq hp now' (D', {}), hafter, hplaced]
  refine ⟨rfl, sessionLoop_again now' E.json _ fun v hv => ?_⟩
  rw [hstored]
  exact settled_sessionLoop now E.json (hp.distinct .session)
    (applyFolderTree_grows E .sync now (Kind.session.entries E.json p) _).2 v hv

theorem main_again (hp : Composed E.json p) {D' : Db Text} {webdav s3 : List String}
    (hD' : D' = { (mergePendingIntoLocal E now p D).1 with webdavDetails := webdav, s3Details := s3 }) :
    ∃ sessionLinks folderLinks : List (String × String), (mergePendingIntoLocal E now' p D').1 = { D' with
          tags := (mergePendingIntoLocal E now' p D').1.tags
          sessionTags := D'.sessionTags ++ sessionLinks
          folderTags := D'.folderTags ++ folderLinks } ∧
      (∀ x, (mergePendingIntoLocal E now' p D').1.tags.get x = D'.tags.get x ∨ TagLate E now now' p D D' x) ∧
      ∀ l ∈ sessionLinks ++ folderLinks, TagLate E now now' p D D' l.2 := by
  have htags := tags_again now now' D D' (hp.distinct .tag) (by rw [hD'])
  have hfolders₁ : D'.folders = (mergePendingIntoLocal E now p D).1.folders := by rw [hD']
  have hsessions₁ : D'.sessions = (mergePendingIntoLocal E now p D).1.sessions := by rw [hD']
  obtain ⟨hsame, hstill⟩ := afterSessions_again now now' D hp hfolders₁ hsessions₁
  have hfixed : ∀ {β : Type} {g : Db Text → β}, (∀ db : Db Text, g db.withoutLinks = g db) →
      (∀ db : Db Text, g db.withoutSnippets = g db) → (∀ db : Db Text, g db.withoutTags = g db) →
      (∀ db : Db Text, g db.withoutKeys = g db) → g (mergePendingIntoLocal E now' p D').1 = g D' := by
    intro β g hlinks hsnippets htags hkeys
    refine (merge_fixes_sessions now' (D', {}) hlinks hsnippets htags).trans ?_
    rw [hstill]
    exact afterKeys_fixes hkeys
  have hfolders : (mergePendingIntoLocal E now' p D').1.folders = D'.folders :=
    hfixed (g := Db.folders) (fun _ => rfl) (fun _ => rfl) (fun _ => rfl) fun _ => rfl
  have hsessions : sessionTables (mergePendingIntoLocal E now' p D').1 = sessionTables D' :=
    hfixed (g := sessionTables) (fun _ => rfl) (fun _ => rfl) (fun _ => rfl) fun _ => rfl
  have hkeys : (mergePendingIntoLocal E now' p D').1.sshKeys = D'.sshKeys := by
    rw [mergedKeys_eq]
    exact mergedKeys_again now now' (hp.distinct .key) (by rw [hD', mergedKeys_eq])
  have hsnippets : (mergePendingIntoLocal E now' p D').1.snippets = D'.snippets := by
    rw [mergedSnippets_eq]
    exact mergedSnippets_again now now' (hp.distinct .snippet) (by rw [hD', mergedSnippets_eq])
  simp only [sessionTables, Prod.mk.injEq] at hsessions
  obtain ⟨hsession, hssh, hwebdav, hs3⟩ := hsessions
  -- A link that is added the second time names a tag that was not there.
  have hlate : ∀ {α : Type} (t : Table String α) (l : String × String),
      bothFound t (mergePendingIntoLocal E now' p D').1.tags l = true → bothFound t D'.tags l = false →
      TagLate E now now' p D D' l.2 := by
    intro α t l hnow hbefore
    refine (htags l.2).resolve_left fun h => ?_
    unfold bothFound at hnow hbefore
    rw [h, hbefore] at hnow
    cases hnow
  obtain ⟨sessionLinks, hsl, hsllate⟩ := addLinks_again
    (bothFound D'.sessions D'.tags) (bothFound D'.sessions (mergePendingIntoLocal E now' p D').1.tags) D.sessionTags
    ((itemsOf E.json p.sessionTagsJson).filterMap (linkEnds "session_id" "tag_id"))
  obtain ⟨folderLinks, hfl, hfllate⟩ := addLinks_again
    (bothFound D'.folders D'.tags) (bothFound D'.folders (mergePendingIntoLocal E now' p D').1.tags) D.folderTags
    ((itemsOf E.json p.folderTagsJson).filterMap (folderLinkEnds (afterSessions E .sync none now p (D, {})).1))
  obtain ⟨snippetLinks, hnl, hnllate⟩ := addLinks_again
    (bothFound D'.sessions D'.snippets) (bothFound D'.sessions D'.snippets) D.sessionSnippets
    ((itemsOf E.json p.sessionSnippetsJson).filterMap (linkEnds "session_id" "snippet_id"))
  have hsessionTags : (mergePendingIntoLocal E now' p D').1.sessionTags = D'.sessionTags ++ sessionLinks := by
    have hfirst : D'.sessionTags = addLinks (bothFound D'.sessions D'.tags) D.sessionTags
        ((itemsOf E.json p.sessionTagsJson).filterMap (linkEnds "session_id" "tag_id")) := by
      rw [hD']
      exact sessionTags_merge
    rw [hfirst, ← hsl, ← hfirst, ← hsession]
    exact sessionTags_merge
  have hfolderTags : (mergePendingIntoLocal E now' p D').1.folderTags = D'.folderTags ++ folderLinks := by
    have hfirst : D'.folderTags = addLinks (bothFound D'.folders D'.tags) D.folderTags
        ((itemsOf E.json p.folderTagsJson).filterMap (folderLinkEnds (afterSessions E .sync none now p (D, {})).1)) := by
      rw [hD']
      exact folderTags_merge
    rw [hfirst, ← hfl, ← hfirst, ← hfolders, ← hsame]
    exact folderTags_merge
  have hsessionSnippets : (mergePendingIntoLocal E now' p D').1.sessionSnippets = D'.sessionSnippets := by
    have hfirst : D'.sessionSnippets = addLinks (bothFound D'.sessions D'.snippets) D.sessionSnippets
        ((itemsOf E.json p.sessionSnippetsJson).filterMap (linkEnds "session_id" "snippet_id")) := by
      rw [hD']
      exact sessionSnippets_merge
    have hnone : snippetLinks = [] := by
      refine List.eq_nil_iff_forall_not_mem.2 fun l hl => ?_
      obtain ⟨hfound, hnot⟩ := hnllate l hl
      rw [hfound] at hnot
      cases hnot
    rw [hnone, List.append_nil, ← hfirst] at hnl
    refine Eq.trans ?_ hnl
    refine sessionSnippets_merge.trans ?_
    show addLinks (bothFound (mergePendingIntoLocal E now' p D').1.sessions
      (mergePendingIntoLocal E now' p D').1.snippets) D'.sessionSnippets _ = _
    rw [hsession, hsnippets]
  refine ⟨sessionLinks, folderLinks, ?_, htags, fun l hl => ?_⟩
  · exact Db.ext hfolders hsession hssh hwebdav hs3 hkeys rfl hsnippets hsessionTags hfolderTags hsessionSnippets
  · rcases List.mem_append.1 hl with hl | hl
    · exact hlate _ l (hsllate l hl).1 (hsllate l hl).2
    · exact hlate _ l (hfllate l hl).1 (hfllate l hl).2

end Main

variable {p : FullImport Text} {E : DriverEnv Text}

/-! ## All tables -/

section Child

variable (now now' : Int64)

def pinned (E : DriverEnv Text) (p : FullImport Text) : List KnownHost :=
  p.knownHostsText.elim [] (hostsOf E.validBase64)

theorem mergedChild_again (hp : ComposedWhole E.json p) {main main' : Db Text} (c : ChildTables)
    (hsessions : liveSessionIds main' = liveSessionIds main) (hkeys : liveKeyIds main' = liveKeyIds main)
    (hwebdav : main'.webdavDetails = (mergedChild E now p main c).webdav.keys)
    (hs3 : main'.s3Details = (mergedChild E now p main c).s3.keys) :
    mergedChild E now' p main' (mergedChild E now p main c) = { mergedChild E now p main c with
        knownHosts := pinAll now' (pinned E p) (mergedChild E now p main c).knownHosts } := by
  have hkeptWebdav : ((mergedChild E now p main c).webdav.dropKeys fun id => id ∉ main'.webdavDetails) =
      (mergedChild E now p main c).webdav := by
    refine dropKeys_none fun id hid => ?_
    rw [hwebdav]
    simpa using hid
  have hkeptS3 : ((mergedChild E now p main c).s3.dropKeys fun id => id ∉ main'.s3Details) =
      (mergedChild E now p main c).s3 := by
    refine dropKeys_none fun id hid => ?_
    rw [hs3]
    simpa using hid
  refine ChildTables.ext rfl ?_ ?_ ?_ ?_ ?_
  · show mergedCertificates E.fromText (liveKeyIds main') _ _ = _
    rw [hkeys]
    exact mergedCertificates_again _ _ hp.certificates rfl
  · show mergedDetails webdavRow now' (liveSessionIds main') _ _ = _
    rw [hsessions, hkeptWebdav]
    exact mergedDetails_again _ _ now now' hp.webdav hp.webdavStamps rfl
  · show mergedDetails s3Row now' (liveSessionIds main') _ _ = _
    rw [hsessions, hkeptS3]
    exact mergedDetails_again _ _ now now' hp.s3 hp.s3Stamps rfl
  · show mergedBookmarks now' (liveSessionIds main') _ _ = _
    rw [hsessions]
    exact mergedBookmarks_again _ now now' hp.bookmarks hp.bookmarkStamps rfl
  · show mergedPortForwards (liveSessionIds main') _ _ = _
    rw [hsessions]
    exact mergedPortForwards_again _ hp.portForwards rfl

end Child

/-- What a second merge may change: `W` before both, `W₁` after the first, `W₂` after the second. -/
structure Again (E : DriverEnv Text) (now now' : Int64) (p : FullImport Text) (W W₁ W₂ : Whole Text) : Prop where
  main : ∃ sessionLinks folderLinks : List (String × String), W₂.main = { W₁.main with
        tags := W₂.main.tags
        sessionTags := W₁.main.sessionTags ++ sessionLinks
        folderTags := W₁.main.folderTags ++ folderLinks } ∧
    ∀ l ∈ sessionLinks ++ folderLinks, TagLate E.toEnv now now' p.toPendingImport W.main W₁.main l.2
  tags : ∀ x, W₂.main.tags.get x = W₁.main.tags.get x ∨ TagLate E.toEnv now now' p.toPendingImport W.main W₁.main x
  late : ∀ v, LateEntry E.toEnv now now' p.toPendingImport W.main W₁.main v →
    W₂.main.tags.get (entryId v) = some ⟨tagRowOf v (W₁.main.tags.get (entryId v)), none⟩
  child : W₂.child = { W₁.child with knownHosts := W₂.child.knownHosts }
  knownHosts : ∀ k, W₂.child.knownHosts.get k = (W₁.child.knownHosts.get k).map fun r =>
    if k ∈ (pinned E p).map KnownHost.place then { r with addedAtMs := now' } else r

theorem mergeWhole_again (hp : ComposedWhole E.json p) (now now' : Int64)
    (W : Whole Text) :
    Again E now now' p W (mergeWhole E now p W).1 (mergeWhole E now' p (mergeWhole E now p W).1).1 := by
  rw [mergeWhole_fst (mergeWhole E now p W).1 E now' p, mergeWhole_fst W E now p]
  generalize hM₁ : (mergePendingIntoLocal E.toEnv now p.toPendingImport W.main).1 = M₁
  generalize hc₁ : mergedChild E now p M₁ W.child = c₁
  have hfirst : (Whole.of M₁ c₁).main = { (mergePendingIntoLocal E.toEnv now p.toPendingImport W.main).1 with
        webdavDetails := c₁.webdav.keys, s3Details := c₁.s3.keys } := by
    rw [hM₁]
    rfl
  obtain ⟨sessionLinks, folderLinks, hmain, htags, hlinks⟩ := main_again now now' W.main hp.toComposed hfirst
  generalize hM₂ : (mergePendingIntoLocal E.toEnv now' p.toPendingImport (Whole.of M₁ c₁).main).1 = M₂ at hmain htags
  have hchild : mergedChild E now' p M₂ c₁ = { c₁ with knownHosts := pinAll now' (pinned E p) c₁.knownHosts } := by
    subst hc₁
    refine mergedChild_again now now' hp W.child ?_ ?_ ?_ ?_
    · rw [hmain]
      rfl
    · rw [hmain]
      rfl
    · rw [hmain]
      rfl
    · rw [hmain]
      rfl
  rw [Whole.child_of, hchild]
  have hsame : (Whole.of M₂ { c₁ with knownHosts := pinAll now' (pinned E p) c₁.knownHosts }).main = M₂ := by
    rw [hmain]
    rfl
  constructor
  · refine ⟨sessionLinks, folderLinks, ?_, hlinks⟩
    exact hsame.trans hmain
  · exact htags
  · intro v hv
    have hstored := hv.stored now now' W.main _ (hp.distinct .tag) (by rw [hfirst])
    rw [hM₂] at hstored
    exact hstored
  · rfl
  · intro k
    rw [← hc₁]
    exact get_pinAll_again now now' _ _ k

/-- **A composed snapshot, merged twice.** -/
theorem merge_twice (E : DriverEnv Text) (now now' : Int64) (W S : Whole Text) (createdAtMs : Int64)
    (appVersion syncOrigin : String) :
    let p := composeWhole E.json S createdAtMs appVersion syncOrigin
    Again E now now' p W (mergeWhole E now p W).1 (mergeWhole E now' p (mergeWhole E now p W).1).1 :=
  mergeWhole_again (composedWhole E.json S createdAtMs appVersion syncOrigin) now now' W

/-! ### A name that is freed by a later entry -/

def tagsAndHosts (tags : Table String (Stored TagRow)) (hosts : Table (String × Int64) HostKey) : Whole ParsedText :=
  .of { (Db.empty : Db ParsedText) with tags := tags } ⟨hosts, .empty, .empty, .empty, .empty, .empty⟩

/-- Here the tag `y` holds the name. -/
def nameHolder : Whole ParsedText := tagsAndHosts (Table.empty.set "y" ⟨⟨"y", "prod", none, 10⟩, none⟩) .empty

/-- The peer renamed `y` and deleted it, and gave the name to `x`. -/
def namePeer : Whole ParsedText :=
  tagsAndHosts ((Table.empty.set "x" ⟨⟨"x", "prod", none, 20⟩, none⟩).set "y" ⟨⟨"y", "zeta", none, 10⟩, some 30⟩)
    (Table.empty.set ("h", 22) ⟨"ssh-ed25519", "AAAA", 5⟩)

def nameSnapshot : FullImport ParsedText := composeWhole ParsedText.codec namePeer 35 "1.0" "peer:35"

theorem nameSnapshot_eq : nameSnapshot = { nameSnapshot with
    tagsJson := some (.json (.arr
        [tagValue ⟨"x", "prod", none, 20⟩ none, tagValue ⟨"y", "zeta", none, 10⟩ (some 30)])) } := by
  have htags : nameSnapshot.tagsJson = (buildTagsValue namePeer.main).map ParsedText.codec.toStr := rfl
  have hvalue : buildTagsValue namePeer.main = some (.arr
      [tagValue ⟨"x", "prod", none, 20⟩ none, tagValue ⟨"y", "zeta", none, 10⟩ (some 30)]) := by
    unfold buildTagsValue
    rw [List.mergeSort_of_pairwise (by decide +kernel)]
    rfl
  rw [hvalue] at htags
  rw [show ParsedText.json _ = ParsedText.codec.toStr _ from rfl, ← Option.map_some, ← htags]

/-- The first merge refuses `x`, whose name `y` holds, and deletes `y`; the second stores `x`. The known
host is pinned at the time of either merge. -/
theorem merge_twice_changes :
    let first := (mergeWhole plainDriverEnv 40 nameSnapshot nameHolder).1
    let second := (mergeWhole plainDriverEnv 50 nameSnapshot first).1
    (first.main.tags.get "x" = none ∧ second.main.tags.get "x" = some ⟨⟨"x", "prod", none, 20⟩, none⟩) ∧
      first.child.knownHosts.get ("h", 22) = some ⟨"ssh-ed25519", "AAAA", 40⟩ ∧
      second.child.knownHosts.get ("h", 22) = some ⟨"ssh-ed25519", "AAAA", 50⟩ := by
  rw [nameSnapshot_eq]
  decide +kernel

end LetsFlutSsh.Archive
