import LetsFlutSsh.Archive.Stages

/-!
# Tombstones in a sync merge

A row deleted here against a live row of a peer whose stamp is not newer than the deletion:

* `Kind`: the four kinds of rows a snapshot carries with tombstones, with the stamp each is
  compared by;
* `PeerOlder`: the situation;
* `deletedAt_merge_iff`: the tombstone survives exactly when the peer's entry is refused for a
  reason of its own. The rows live before a stage are looked up, not the deleted ones, so the
  deletion stamp is never compared, and an upsert clears it.
-/

namespace LetsFlutSsh.Archive
open Lib List Option

variable {Text : Type}

inductive Kind where
  | session
  | key
  | tag
  | snippet

variable {p : PendingImport Text} {k : Kind} {J : JsonText Text}

namespace Kind

def deletedAt (db : Db Text) (id : String) : Kind → Option Int64
  | session => (db.sessions.get id).bind SessionParent.deletedAt
  | key => (db.sshKeys.get id).bind Stored.deletedAt
  | tag => (db.tags.get id).bind Stored.deletedAt
  | snippet => (db.snippets.get id).bind Stored.deletedAt

def entry (p : PendingImport Text) : Kind → Option Text
  | session => p.sessionsJson
  | key => p.keysJson
  | tag => p.tagsJson
  | snippet => p.snippetsJson

def entries (J : JsonText Text) (p : PendingImport Text) (k : Kind) : List Json :=
  ((k.entry p).bind fun text => (parseArray J text).toOption).getD []

def stamp (v : Json) : Kind → Int64
  | session | snippet => (parseIso8601Opt (jsonString v "updated_at")).getD 0
  | key | tag => (parseIso8601Opt (jsonString v "created_at")).getD 0

theorem entries_text {v : Json} (hv : v ∈ k.entries J p) :
    ∃ text, k.entry p = some text ∧ parseArray J text = .ok (k.entries J p) := by
  unfold entries at hv ⊢
  rcases htext : k.entry p with _ | text
  · rw [htext] at hv
    exact absurd hv not_mem_nil
  · rw [htext, bind_some] at hv
    rcases hparse : parseArray J text with e | items
    · rw [hparse] at hv
      exact absurd hv not_mem_nil
    · exact ⟨text, rfl, by rw [bind_some, hparse]; rfl⟩

end Kind

variable {db : Db Text} {id : String} {d now : Int64} {folderIds : List (String × String)}
  {mode : ApplyMode} {live : String → Option Int64} {v : Json} {s : Applying Text} {items : List Json}

theorem overEntry_fst (what : String) (entry : Option Text)
    {f : List Json → Applying Text → Applying Text} (hnil : ∀ s, f [] s = s) (s : Applying Text) :
    (overEntry J true what entry f s).1 = (f (itemsOf J entry) s).1 := by
  unfold overEntry itemsOf
  rw [if_pos rfl]
  rcases entry with _ | text
  · exact congrArg Prod.fst (hnil s).symm
  show (overArray J what text f s).1 = _
  unfold overArray
  rw [bind_some]
  rcases parseArray J text with e | items
  · have hsame : s.1 = (f [] s).1 := congrArg Prod.fst (hnil s).symm
    exact hsame
  · rfl

/-- A row deleted here at `d`, which the peer's snapshot carries live with a stamp up to `d`. -/
structure PeerOlder (J : JsonText Text) (p : PendingImport Text) (db : Db Text) (k : Kind) (id : String) (d : Int64) :
    Prop where
  deleted : k.deletedAt db id = some d
  listed : ∃ v ∈ k.entries J p, jsonString v "id" = id
  older : ∀ v ∈ k.entries J p, jsonString v "id" = id → isTombstone v = false ∧ k.stamp v ≤ d

/-! ## Sessions -/

theorem deletedAt_session (db : Db Text) (id : String) :
    Kind.session.deletedAt db id = (db.sessionState id).parent.bind SessionParent.deletedAt := rfl

theorem liveUpdatedAt_of_deleted (h : Kind.session.deletedAt db id = some d) : Sessions.liveUpdatedAt db id = none := by
  obtain ⟨p, hp, hdel⟩ := bind_eq_some_iff.1 h
  unfold Sessions.liveUpdatedAt
  rw [hp, bind_some, hdel]
  rfl

theorem folderOk_buildSessionRow (hmap : MapsToFolders db folderIds) (J : JsonText Text) (mode : ApplyMode)
    (now : Int64) (v : Json) :
    Sessions.folderOk db (buildSessionRow J mode folderIds now v) = true := by
  unfold Sessions.folderOk
  rw [Option.all_eq_true]
  intro f hf
  obtain ⟨path, -, hlook⟩ := bind_eq_some_iff.1 hf
  exact hmap.of_lookup hlook

theorem deletedAt_applyOneSession_of_writes (hmap : MapsToFolders s.1 folderIds)
    (hw : writesSession mode live now v = true) :
    Kind.session.deletedAt (applyOneSession J mode folderIds live now v s).1 (jsonString v "id") = none := by
  rw [applyOneSession_of_writes J mode folderIds live now v s hw]
  show ((Sessions.upsert s.1 (buildSessionRow J mode folderIds now v)).1.sessions.get (jsonString v "id")).bind _ = none
  rw [show jsonString v "id" = (buildSessionRow J mode folderIds now v).id from rfl,
    Sessions.upsert_parent s.1 _ (folderOk_buildSessionRow hmap J mode now v)]
  rfl

theorem mapsToFolders_applyOneSession (hmap : MapsToFolders s.1 folderIds) :
    MapsToFolders (applyOneSession J mode folderIds live now v s).1 folderIds := by
  have h := ignores (g := Db.folders) (x := Db.withoutSessions) (fun _ => rfl) _ _
    (applyOneSession_withoutSessions J mode folderIds live now v s)
  unfold MapsToFolders
  rw [h]
  exact hmap

variable (E : Env Text)

theorem sessionState_folderTree (mode : ApplyMode) (options : Option ApplyOptions) (now : Int64)
    (p : PendingImport Text) (s : Applying Text) (items : List Json) (id : String) :
    (folderTree E mode options now p s items).2.1.sessionState id = s.1.sessionState id := by
  have hgrow := applyFolderTree_grows E mode now items (afterKeys E mode options now p s)
  have hfolders := ignores (g := fun db => db.sessionState id) (x := Db.withoutFolders) (fun _ => rfl) _ _ hgrow.1.rest
  have hkeys := overEntry_fixes (fun db => db.sessionState id) E.json (WantFlags.fromOptions options).keys "keys"
    p.keysJson (fun items s => ignores (g := fun db => db.sessionState id) (x := Db.withoutKeys) (fun _ => rfl) _ _
      (applyKeyItems_withoutKeys E mode now items s)) s
  exact hfolders.trans hkeys

theorem session_revived {E : Env Text} (h : PeerOlder E.json p db .session id d) (hid : id ≠ "") :
    Kind.session.deletedAt (mergePendingIntoLocal E now p db).1 id = none := by
  obtain ⟨v, hv, hvid⟩ := h.listed
  obtain ⟨text, htext, hitems⟩ := Kind.entries_text hv
  unfold mergePendingIntoLocal
  rw [deletedAt_session, sessionState_runApply E .sync none now p (db, {}) rfl htext hitems, ← deletedAt_session]
  have hmaps := (applyFolderTree_grows E .sync now (Kind.session.entries E.json p)
    (afterKeys E .sync none now p (db, {}))).2
  -- The tombstone is there when the stage starts, so the row is not among the live ones.
  have hdel : Kind.session.deletedAt
      (folderTree E .sync none now p (db, {}) (Kind.session.entries E.json p)).2.1 id = some d := by
    rw [deletedAt_session, sessionState_folderTree]
    exact h.deleted
  have hwrites : ∀ w ∈ Kind.session.entries E.json p, jsonString w "id" = id → writesSession .sync (liveSessions .sync
        (folderTree E .sync none now p (db, {}) (Kind.session.entries E.json p)).2.1) now w = true := by
    intro w hw hwid
    unfold writesSession
    rw [(h.older w hw hwid).1, hwid]
    show (decide (id ≠ "") && !false && !(true && lwwPeerLoses _ (Sessions.liveUpdatedAt _ id))) = true
    rw [liveUpdatedAt_of_deleted hdel]
    simp [hid, lwwPeerLoses]
  refine foldl_establishes (P := fun s : Applying Text => Kind.session.deletedAt s.1 id = none)
    (I := fun s : Applying Text => MapsToFolders s.1
      (folderTree E .sync none now p (db, {}) (Kind.session.entries E.json p)).1)
    (fun s w _ hs => mapsToFolders_applyOneSession hs) (fun s w hw hs hnone => ?_) hv (fun s hs => ?_) hmaps
  · by_cases hwid : jsonString w "id" = id
    · rw [← hwid]
      exact deletedAt_applyOneSession_of_writes hs (hwrites w hw hwid)
    · rw [deletedAt_session, sessionState_applyOneSession_ne _ _ _ _ _ _ _ (Ne.symm hwid), ← deletedAt_session]
      exact hnone
  · rw [← hvid]
    exact deletedAt_applyOneSession_of_writes hs (hwrites v hv hvid)

theorem applyOneSession_fst_of_empty (hv : jsonString v "id" = "") (s : Applying Text) :
    (applyOneSession J mode folderIds live now v s).1 = s.1 := by
  unfold applyOneSession
  rw [if_pos hv]
  split_ifs <;> rfl

/-! ## Keys and snippets -/

theorem overEntry_items {text : Text} (hitems : parseArray J text = .ok items)
    (what : String) (f : List Json → Applying Text → Applying Text) (s : Applying Text) :
    overEntry J true what (some text) f s = f items s := by
  show overArray J what text f s = f items s
  unfold overArray
  rw [hitems]

theorem deletedAt_applyOneKeySync_other (hv : jsonString v "id" = id → id = "") (s : Applying Text) :
    Kind.key.deletedAt (applyOneKeySync live now v s).1 id = Kind.key.deletedAt s.1 id := by
  unfold applyOneKeySync
  by_cases hempty : jsonString v "id" = ""
  · rw [if_pos hempty]
  have hne : id ≠ jsonString v "id" := by
    rintro rfl
    exact hempty (hv rfl)
  rw [if_neg hempty]
  split_ifs
  · unfold SshKeys.applyTombstone
    split
    · rfl
    · split_ifs
      · simp [Kind.deletedAt, hne]
      · rfl
  · rfl
  · simp [SshKeys.upsert, Kind.deletedAt, hne]

theorem deletedAt_applyOneKeySync (hid : id ≠ "") (hlive : live id = none)
    (htomb : jsonString v "id" = id → isTombstone v = false)
    (s : Applying Text) :
    Kind.key.deletedAt (applyOneKeySync live now v s).1 id =
      if jsonString v "id" = id then none else Kind.key.deletedAt s.1 id := by
  by_cases hv : jsonString v "id" = id
  · unfold applyOneKeySync
    rw [hv, if_neg hid, htomb hv, hlive]
    simp [lwwPeerLoses, SshKeys.upsert, Kind.deletedAt]
  · rw [if_neg hv, deletedAt_applyOneKeySync_other (fun h => absurd h hv)]

theorem deletedAt_applyOneSnippet_other (hv : jsonString v "id" = id → id = "") (s : Applying Text) :
    Kind.snippet.deletedAt (applyOneSnippet .sync live now v s).1 id = Kind.snippet.deletedAt s.1 id := by
  unfold applyOneSnippet
  dsimp only
  by_cases hempty : jsonString v "id" = ""
  · rw [if_pos hempty]
  have hne : id ≠ jsonString v "id" := by
    rintro rfl
    exact hempty (hv rfl)
  rw [if_neg hempty]
  split_ifs
  · unfold Snippets.applyTombstone
    split
    · rfl
    · split_ifs
      · simp [Kind.deletedAt, hne]
      · rfl
  · rfl
  · rfl
  · rfl
  all_goals simp [Snippets.upsert, Kind.deletedAt, hne]

theorem deletedAt_applyOneSnippet (hid : id ≠ "") (hlive : live id = none)
    (htomb : jsonString v "id" = id → isTombstone v = false)
    (s : Applying Text) :
    Kind.snippet.deletedAt (applyOneSnippet .sync live now v s).1 id =
      if jsonString v "id" = id then none else Kind.snippet.deletedAt s.1 id := by
  by_cases hv : jsonString v "id" = id
  · unfold applyOneSnippet
    rw [hv, if_neg hid, htomb hv, hlive]
    simp [lwwPeerLoses, Snippets.upsert, Kind.deletedAt, ApplyMode.isArchive]
  · rw [if_neg hv, deletedAt_applyOneSnippet_other (fun h => absurd h hv)]

theorem revived_of_entries {f : Applying Text → Json → Applying Text}
    (hf : ∀ s, ∀ w ∈ items, k.deletedAt (f s w).1 id = if jsonString w "id" = id then none else k.deletedAt s.1 id)
    (hv : v ∈ items) (hvid : jsonString v "id" = id) (s : Applying Text) :
    k.deletedAt (items.foldl f s).1 id = none := by
  refine foldl_establishes (P := fun s : Applying Text => k.deletedAt s.1 id = none) (I := fun _ => True)
    (fun _ _ _ _ => trivial) (fun s w hw _ hnone => ?_) hv (fun s _ => ?_) trivial
  · rw [hf s w hw]
    split_ifs
    · rfl
    · exact hnone
  · rw [hf s v hv, if_pos hvid]

theorem liveCreatedAt_key_of_deleted (h : Kind.key.deletedAt db id = some d) : SshKeys.liveCreatedAt db id = none := by
  obtain ⟨r, hr, hdel⟩ := bind_eq_some_iff.1 h
  unfold SshKeys.liveCreatedAt
  rw [hr, bind_some, hdel]
  rfl

theorem keys_merge (now : Int64) (p : PendingImport Text) (db : Db Text) :
    (mergePendingIntoLocal E now p db).1.sshKeys =
      (applyKeyItems E .sync now (Kind.key.entries E.json p) (db, {})).1.sshKeys := by
  unfold mergePendingIntoLocal
  rw [runApply_fixes_afterTags (g := Db.sshKeys) (fun _ => rfl) fun _ => rfl,
    afterTags_fixes (g := Db.sshKeys) fun _ => rfl,
    afterSessions_fixes (g := Db.sshKeys) (fun _ => rfl) fun _ => rfl]
  exact congrArg Db.sshKeys (overEntry_fst "keys" _ (fun _ => rfl) _)

theorem liveUpdatedAt_snippet_of_deleted (h : Kind.snippet.deletedAt db id = some d) :
    Snippets.liveUpdatedAt db id = none := by
  obtain ⟨r, hr, hdel⟩ := bind_eq_some_iff.1 h
  unfold Snippets.liveUpdatedAt
  rw [hr, bind_some, hdel]
  rfl

theorem snippets_merge (now : Int64) (p : PendingImport Text) (db : Db Text) :
    ∃ s : Applying Text, s.1.snippets = db.snippets ∧ (mergePendingIntoLocal E now p db).1.snippets =
        (applySnippetItems .sync now (Kind.snippet.entries E.json p) s).1.snippets := by
  obtain ⟨s, hs, hfinal⟩ := runApply_snippets E .sync none now p (db, {})
  refine ⟨s, hs, hfinal.trans ?_⟩
  exact congrArg Db.snippets (overEntry_fst "snippets" _ (fun _ => rfl) _)

/-! ## Tags -/

/-- A tag entry the upsert never takes: no name, or the name of another live tag. -/
def tagRefused (db : Db Text) (v : Json) : Bool :=
  jsonString v "name" = "" || Tags.nameTaken db (jsonString v "id") (jsonString v "name")

theorem deletedAt_applyOneTag_other (hv : jsonString v "id" = id → id = "") (s : Applying Text) :
    Kind.tag.deletedAt (applyOneTag .sync live now v s).1 id = Kind.tag.deletedAt s.1 id := by
  unfold applyOneTag
  dsimp only
  by_cases hempty : jsonString v "id" = ""
  · simp [hempty]
  have hne : id ≠ jsonString v "id" := by
    rintro rfl
    exact hempty (hv rfl)
  generalize (parseIso8601Opt (jsonString v "created_at")).getD (if ApplyMode.sync.isSync then 0 else now) = peerTs
  split_ifs
  · unfold Tags.applyTombstone
    split
    · rfl
    · split_ifs
      · simp [Kind.deletedAt, hne]
      · rfl
  · rfl
  · rfl
  · rfl
  · unfold Tags.upsert
    split_ifs
    · rfl
    · simp [Kind.deletedAt, hne]

theorem deletedAt_applyOneTag (now : Int64) (hid : id ≠ "")
    (hlive : live id = none) (htomb : jsonString v "id" = id → isTombstone v = false) (s : Applying Text) :
    Kind.tag.deletedAt (applyOneTag .sync live now v s).1 id =
      if jsonString v "id" = id ∧ tagRefused s.1 v = false then none else Kind.tag.deletedAt s.1 id := by
  by_cases hv : jsonString v "id" = id
  · unfold applyOneTag
    have hnot : ¬ isTombstone v = true := by
      rw [htomb hv]
      exact Bool.false_ne_true
    rw [if_neg hnot, hv, hlive]
    by_cases hname : jsonString v "name" = ""
    · simp [hname, tagRefused]
    rw [if_neg (not_or.2 ⟨hid, hname⟩), if_neg (by simp [lwwPeerLoses])]
    unfold Tags.upsert
    by_cases htaken : Tags.nameTaken s.1 id (jsonString v "name") = true
    · simp [htaken, tagRefused, hv]
    · rw [if_neg htaken]
      rw [Bool.not_eq_true] at htaken
      simp [htaken, tagRefused, hv, hname, Kind.deletedAt]
  · have hcond : ¬ (jsonString v "id" = id ∧ tagRefused s.1 v = false) := fun h => hv h.1
    rw [if_neg hcond, deletedAt_applyOneTag_other (fun h => absurd h hv)]

theorem applyOneTag_tags_congr (live : String → Option Int64) (now : Int64) (v : Json) {s' : Applying Text}
    (h : s.1.tags = s'.1.tags) :
    (applyOneTag .sync live now v s).1.tags = (applyOneTag .sync live now v s').1.tags := by
  unfold applyOneTag Tags.applyTombstone Tags.upsert Tags.nameTaken
  dsimp only
  rw [h]
  generalize (parseIso8601Opt (jsonString v "created_at")).getD (if ApplyMode.sync.isSync then 0 else now) = peerTs
  split_ifs
  · split
    · exact h
    · split_ifs
      · rfl
      · exact h
  all_goals first | exact h | rfl

theorem tagLoop_tags_congr (live : String → Option Int64) (now : Int64) (items : List Json) {s' : Applying Text}
    (h : s.1.tags = s'.1.tags) :
    (items.foldl (fun s v => applyOneTag .sync live now v s) s).1.tags =
      (items.foldl (fun s v => applyOneTag .sync live now v s) s').1.tags := by
  induction items generalizing s s' with
  | nil => exact h
  | cons v items ih => exact ih (applyOneTag_tags_congr live now v h)

theorem tagLoop_deletedAt_iff (hid : id ≠ "") (hlive : live id = none)
    (htomb : ∀ v ∈ items, jsonString v "id" = id → isTombstone v = false)
    (hdel : Kind.tag.deletedAt s.1 id = some d) :
    Kind.tag.deletedAt (items.foldl (fun s v => applyOneTag .sync live now v s) s).1 id = some d ↔
      ∀ done v rest, items = done ++ v :: rest → jsonString v "id" = id →
        tagRefused (done.foldl (fun s v => applyOneTag .sync live now v s) s).1 v = true := by
  induction items generalizing s with
  | nil =>
    refine ⟨fun _ done v rest h => ?_, fun _ => hdel⟩
    simp at h
  | cons w items ih =>
    have hstep := deletedAt_applyOneTag now hid hlive (htomb w mem_cons_self) s
    have htomb' : ∀ v ∈ items, jsonString v "id" = id → isTombstone v = false :=
      fun v hv => htomb v (mem_cons_of_mem w hv)
    by_cases hown : jsonString w "id" = id ∧ tagRefused s.1 w = false
    · -- The upsert clears the tombstone, and no later live entry brings it back.
      rw [if_pos hown] at hstep
      have hnone : Kind.tag.deletedAt (items.foldl (fun s v => applyOneTag .sync live now v s)
          (applyOneTag .sync live now w s)).1 id = none := by
        refine foldl_invariant (I := fun s : Applying Text => Kind.tag.deletedAt s.1 id = none) (fun s v hv hs => ?_) hstep
        rw [deletedAt_applyOneTag now hid hlive (htomb' v hv) s, hs]
        exact ite_self none
      rw [foldl_cons, hnone]
      constructor
      · intro h
        cases h
      · intro h
        have hrefused := h [] w items rfl hown.1
        rw [foldl_nil, hown.2] at hrefused
        cases hrefused
    · rw [if_neg hown] at hstep
      rw [foldl_cons, ih htomb' (hstep.trans hdel)]
      constructor
      · intro h done v rest heq hv
        rcases done with _ | ⟨w', done⟩
        · obtain ⟨rfl, rfl⟩ := List.cons.inj heq
          rw [foldl_nil]
          exact Bool.of_not_eq_false fun hno => hown ⟨hv, hno⟩
        · obtain ⟨rfl, hrest⟩ := List.cons.inj heq
          exact h done v rest hrest hv
      · intro h done v rest heq hv
        exact h (w :: done) v rest (by rw [heq]; rfl) hv

/-- Every entry of `id` is refused when the tag stage, run on the local tags, comes to it. -/
def TagRefusedThroughout (now : Int64) (items : List Json) (db : Db Text) (id : String) : Prop :=
  ∀ done v rest, items = done ++ v :: rest → jsonString v "id" = id →
    tagRefused (applyTagItems .sync now done (db, {})).1 v = true

theorem liveCreatedAt_tag_of_deleted (h : Kind.tag.deletedAt db id = some d) : Tags.liveCreatedAt db id = none := by
  obtain ⟨r, hr, hdel⟩ := bind_eq_some_iff.1 h
  unfold Tags.liveCreatedAt
  rw [hr, bind_some, hdel]
  rfl

theorem tags_merge (now : Int64) (p : PendingImport Text) (db : Db Text) :
    (mergePendingIntoLocal E now p db).1.tags = (applyTagItems .sync now (Kind.tag.entries E.json p) (db, {})).1.tags := by
  have htags : (afterSessions E .sync none now p (db, {})).2.1.tags = ((db, {}) : Applying Text).1.tags :=
    sessionStages_fix (g := Db.tags) (fun _ => rfl) (fun _ => rfl) fun _ => rfl
  have hlive : Tags.liveCreatedAt (afterSessions E .sync none now p (db, {})).2.1 = Tags.liveCreatedAt db := by
    funext id
    unfold Tags.liveCreatedAt
    rw [htags]
  have hstage : (afterTags E .sync none now p (db, {})).1 =
      (applyTagItems .sync now (Kind.tag.entries E.json p) (afterSessions E .sync none now p (db, {})).2).1 :=
    overEntry_fst "tags" _ (fun _ => rfl) _
  unfold mergePendingIntoLocal
  rw [runApply_fixes_afterTags (g := Db.tags) (fun _ => rfl) fun _ => rfl, hstage]
  unfold applyTagItems
  rw [hlive]
  exact tagLoop_tags_congr _ now _ htags

/-! ## All kinds -/

theorem deletedAt_merge_empty {E : Env Text} (hv : v ∈ k.entries E.json p) :
    k.deletedAt (mergePendingIntoLocal E now p db).1 "" = k.deletedAt db "" := by
  obtain ⟨text, htext, hitems⟩ := Kind.entries_text hv
  rcases k with _ | _ | _ | _
  · unfold mergePendingIntoLocal
    rw [deletedAt_session, sessionState_runApply E .sync none now p (db, {}) rfl htext hitems, deletedAt_session]
    refine congrArg (fun st => st.parent.bind SessionParent.deletedAt)
      (Eq.trans (foldl_fixes (fun s : Applying Text => s.1.sessionState "") (fun s v _ => ?_) _)
        (sessionState_folderTree E .sync none now p (db, {}) _ ""))
    by_cases hempty : jsonString v "id" = ""
    · rw [applyOneSession_fst_of_empty hempty]
    · exact sessionState_applyOneSession_ne _ _ _ _ _ _ _ (Ne.symm hempty)
  · unfold Kind.deletedAt
    rw [keys_merge]
    exact foldl_fixes (fun s : Applying Text => Kind.key.deletedAt s.1 "")
      (fun s v _ => deletedAt_applyOneKeySync_other (fun _ => rfl) s) (db, {})
  · unfold Kind.deletedAt
    rw [tags_merge]
    exact foldl_fixes (fun s : Applying Text => Kind.tag.deletedAt s.1 "")
      (fun s v _ => deletedAt_applyOneTag_other (fun _ => rfl) s) (db, {})
  · obtain ⟨s, hs, hmerge⟩ := snippets_merge E now p db
    unfold Kind.deletedAt
    rw [hmerge, ← hs]
    exact foldl_fixes (fun s : Applying Text => Kind.snippet.deletedAt s.1 "")
      (fun s v _ => deletedAt_applyOneSnippet_other (fun _ => rfl) s) s

/-- **Tombstones against older live rows.** The deletion survives the merge exactly when the peer's
entry is refused: it has no id, or it is a tag without a name or with the name of another live tag. -/
theorem deletedAt_merge_iff (E : Env Text) (now : Int64) (p : PendingImport Text) (db : Db Text) (k : Kind)
    (id : String) (d : Int64) (h : PeerOlder E.json p db k id d) :
    k.deletedAt (mergePendingIntoLocal E now p db).1 id = some d ↔
      id = "" ∨ k = .tag ∧ TagRefusedThroughout now (k.entries E.json p) db id := by
  obtain ⟨v, hv, hvid⟩ := h.listed
  by_cases hid : id = ""
  · subst hid
    rw [deletedAt_merge_empty hv, h.deleted]
    simp
  have htomb : ∀ w ∈ k.entries E.json p, jsonString w "id" = id → isTombstone w = false :=
    fun w hw hwid => (h.older w hw hwid).1
  rcases k with _ | _ | _ | _
  · simp [session_revived h hid, hid]
  · have hnone : Kind.key.deletedAt (mergePendingIntoLocal E now p db).1 id = none := by
      unfold Kind.deletedAt
      rw [keys_merge]
      exact revived_of_entries (fun s w hw => deletedAt_applyOneKeySync hid (liveCreatedAt_key_of_deleted h.deleted)
        (htomb w hw) s) hv hvid (db, {})
    simp [hnone, hid]
  · unfold Kind.deletedAt
    rw [tags_merge]
    refine (tagLoop_deletedAt_iff hid (liveCreatedAt_tag_of_deleted h.deleted) htomb h.deleted).trans ?_
    simp only [hid, false_or, true_and]
    rfl
  · have hnone : Kind.snippet.deletedAt (mergePendingIntoLocal E now p db).1 id = none := by
      obtain ⟨s, hs, hmerge⟩ := snippets_merge E now p db
      have hdel : Kind.snippet.deletedAt s.1 id = some d := by
        unfold Kind.deletedAt
        rw [hs]
        exact h.deleted
      unfold Kind.deletedAt
      rw [hmerge]
      exact revived_of_entries (fun s w hw => deletedAt_applyOneSnippet hid (liveUpdatedAt_snippet_of_deleted hdel)
        (htomb w hw) s) hv hvid s
    simp [hnone, hid]

/-! ### A deleted session comes back -/

def sampleParent (deletedAt : Option Int64) : SessionParent ParsedText where
  label := "box"
  folderId := none
  kind := "ssh"
  sortOrder := 0
  notes := ""
  lastConnectedAt := none
  extras := .json (.obj [])
  createdAt := 5
  updatedAt := 10
  deletedAt := deletedAt

/-- A device that has one session, `s`. -/
def sampleDevice (deletedAt : Option Int64) : Db ParsedText :=
  { (Db.empty : Db ParsedText) with
    sessions := Table.empty.set "s" (sampleParent deletedAt)
    sshDetails := Table.empty.set "s" { Sessions.noDetails with host := "h", user := "u", updatedAt := 10 } }

/-- The snapshot of the device where `s` is live. -/
def sampleSnapshot : PendingImport ParsedText := composeSync ParsedText.codec (sampleDevice none) 30 "1.0" "peer:30"

theorem sample_peerOlder : PeerOlder ParsedText.codec sampleSnapshot (sampleDevice (some 20)) .session "s" 20 :=
  ⟨by decide +kernel, by decide +kernel, by decide +kernel⟩

theorem deletedAt_merge_iff_sample : PeerOlder ParsedText.codec sampleSnapshot (sampleDevice (some 20)) .session "s" 20 ∧
      (Kind.session.deletedAt (mergePendingIntoLocal plainEnv 40 sampleSnapshot (sampleDevice (some 20))).1 "s" = some 20 ↔
        "s" = "" ∨ Kind.session = .tag ∧
          TagRefusedThroughout 40 (Kind.session.entries ParsedText.codec sampleSnapshot) (sampleDevice (some 20)) "s") :=
  ⟨sample_peerOlder, deletedAt_merge_iff plainEnv 40 sampleSnapshot (sampleDevice (some 20)) .session "s" 20 sample_peerOlder⟩

/-- A session edited at 10 and deleted here at 20 is live again after a peer's snapshot that has it as of 10. -/
theorem deletedAt_merge_revived : PeerOlder ParsedText.codec sampleSnapshot (sampleDevice (some 20)) .session "s" 20 ∧
      Kind.session.deletedAt (mergePendingIntoLocal plainEnv 40 sampleSnapshot (sampleDevice (some 20))).1 "s" = none :=
  ⟨sample_peerOlder, by decide +kernel⟩

end LetsFlutSsh.Archive
