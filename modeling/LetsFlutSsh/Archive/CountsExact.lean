import LetsFlutSsh.Archive.MergeCounts

/-!
# When the counters of a merge are exact

The counters of a pull against the rows and links it changed:

* `changedRows`: the number of rows and links of each kind whose stored content differs;
* `CountsExact`: every counter of the report is that number;
* `RowsTell`, `LinksTell`, `CountsTrue`: no two counted entries name one row, each deletion finds a row
  it marks, each row written is new, each link was not there;
* `countsExact_iff`: that is when the counters are exact.
-/

namespace LetsFlutSsh.Archive
open Lib List Option Sessions

variable {Text α : Type}

/-! ## Last writer wins -/

theorem lwwWrite_gone_ne_iff {marks : α → Bool} {delete : α → α} (hdelete : ∀ s, marks s = true → delete s ≠ s)
    (lost : Bool) (row : Option α → Option α) (old : Option α) :
    (lwwWrite true marks delete lost row old).or old ≠ old ↔ ∃ s, old = some s ∧ marks s = true := by
  unfold lwwWrite
  rw [if_pos rfl]
  rcases old with _ | s
  · simp
  · rw [filter_some]
    split_ifs with hmarks
    · simp [hmarks, hdelete s hmarks]
    · simp [hmarks]

theorem lwwWrite_live (marks : α → Bool) (delete : α → α) (row : Option α → Option α) (old : Option α) :
    lwwWrite false marks delete false row old = row old := rfl

theorem markAt_ne {createdAt : α → Int64} {ts : Int64} {s : Stored α} (h : marksLive createdAt ts s = true) :
    markAt ts s ≠ s := by
  intro heq
  unfold marksLive at h
  rw [← heq] at h
  simp [markAt] at h

variable {l : Option Int64}

theorem ne_of_not_loses {ts : Int64} (h : lwwPeerLoses ts l = false) : l ≠ some ts := by
  rintro rfl
  rw [loses_self] at h
  cases h

/-! ## What counts -/

theorem counts_eq_true {ids tombstone passes : Bool} (h : (ids && (tombstone || passes)) = true) :
    ids = true ∧ (tombstone = false → passes = true) := by
  obtain ⟨hids, hrest⟩ := (Bool.and_eq_true _ _).mp h
  refine ⟨hids, ?_⟩
  rintro rfl
  exact hrest

theorem counts_eq_false {ids tombstone passes : Bool} (h : (ids && (tombstone || passes)) = false) (hids : ids = true) :
    tombstone = false ∧ passes = false := by
  rw [hids, Bool.true_and] at h
  exact Bool.or_eq_false_iff.1 h

/-! ## What tells -/

/-- Deletions and written rows with ids of their own, and every deletion finds a row it marks. -/
structure RowsTell (t : Table String α) (marks : Int64 → α → Bool) (l : List Json) : Prop where
  apart : (l.map entryId).Nodup
  deletes : ∀ v ∈ l, isTombstone v = true → ∃ s, t.get (entryId v) = some s ∧ marks (entryDeletedAt v) s = true

/-- Links that were not there, each once. -/
structure LinksTell (links : List (String × String)) (ends : List (String × String)) : Prop where
  once : ends.Nodup
  new : ∀ l ∈ ends, l ∉ links

theorem tells_iff {t : Table String α} {write : Json → Option α → Option α} {marks : Int64 → α → Bool} {l : List Json}
    (hgone : ∀ v ∈ l, isTombstone v = true → (write v (t.get (entryId v)) ≠ t.get (entryId v) ↔
      ∃ s, t.get (entryId v) = some s ∧ marks (entryDeletedAt v) s = true)) :
    Tells entryId write t.get l ↔
      RowsTell t marks l ∧ ∀ v ∈ l, isTombstone v = false → write v (t.get (entryId v)) ≠ t.get (entryId v) := by
  constructor
  · intro h
    exact ⟨⟨h.apart, fun v hv htomb => (hgone v hv htomb).1 (h.changes v hv)⟩, fun v hv _ => h.changes v hv⟩
  · rintro ⟨⟨hapart, hdeletes⟩, hwrites⟩
    refine ⟨hapart, fun v hv => ?_⟩
    rcases htomb : isTombstone v with _ | _
    · exact hwrites v hv htomb
    · exact (hgone v hv htomb).2 (hdeletes v hv htomb)

variable {v : Json}

/-! ## Keys -/

section Rows

variable (now : Int64)

theorem tagWrite_gone (hid : entryId v ≠ "") (htomb : isTombstone v = true) (refused : Bool) (l : Option Int64)
    (old : Option (Stored TagRow)) : (tagWrite v refused l old).or old ≠ old ↔
      ∃ s, old = some s ∧ marksLive TagRow.createdAtMs (entryDeletedAt v) s = true := by
  unfold tagWrite
  rw [if_neg hid, htomb]
  exact lwwWrite_gone_ne_iff (fun s hs => markAt_ne hs) _ _ old

/-- A tag as a winning entry leaves it: `created_at` is kept. -/
def tagLeft (v : Json) (s : Stored TagRow) : Stored TagRow :=
  ⟨{ s.row with id := entryId v, name := jsonString v "name", color := jsonNonEmpty v "color" }, none⟩

theorem tagWrite_live (hid : entryId v ≠ "") (htomb : isTombstone v = false)
    (hwins : lwwPeerLoses (Kind.tag.stamp v) l = false) (old : Option (Stored TagRow)) :
    (tagWrite v false l old).or old ≠ old ↔ ∀ s, old = some s → s ≠ tagLeft v s := by
  unfold tagWrite
  rw [if_neg hid, htomb, hwins, lwwWrite_live, if_neg Bool.false_ne_true, some_or]
  rcases old with _ | s
  · simp
  · simp [tagLeft, eq_comm]

theorem bookmarkWrite_gone (hids : ¬(entryId v = "" ∨ jsonString v "session_id" = ""))
    (htomb : isTombstone v = true) (lives : List String) (l : Option Int64) (old : Option (Stored SftpBookmarkRow)) :
    (bookmarkWrite now lives v l old).or old ≠ old ↔
      ∃ s, old = some s ∧ marksLive SftpBookmarkRow.createdAtMs (entryDeletedAt v) s = true := by
  unfold bookmarkWrite
  rw [if_neg hids, htomb]
  exact lwwWrite_gone_ne_iff (fun s hs => markAt_ne hs) _ _ old

def bookmarkLeft (v : Json) (s : Stored SftpBookmarkRow) : Stored SftpBookmarkRow :=
  ⟨{ s.row with
      id := entryId v
      sessionId := jsonString v "session_id"
      remotePath := jsonString v "remote_path"
      label := jsonString v "label" }, none⟩

theorem bookmarkWrite_live (hids : ¬(entryId v = "" ∨ jsonString v "session_id" = ""))
    (htomb : isTombstone v = false) {lives : List String} (hlive : jsonString v "session_id" ∈ lives)
    (hwins : lwwPeerLoses (parseIso8601OrNow (jsonString v "created_at") now) l = false)
    (old : Option (Stored SftpBookmarkRow)) :
    (bookmarkWrite now lives v l old).or old ≠ old ↔ ∀ s, old = some s → s ≠ bookmarkLeft v s := by
  unfold bookmarkWrite
  rw [if_neg hids, htomb, hwins, lwwWrite_live, if_pos hlive, some_or]
  rcases old with _ | s
  · simp
  · simp [bookmarkLeft, SftpBookmarks.written, eq_comm]

end Rows

section Kinds

variable (E : Env Text) (now : Int64) (p : PendingImport Text) (db : Db Text)

/-- The rows of a merge that carry the stamps of their entries. -/
theorem stamped_exact_iff (stampOf : α → Int64) (stamp : Json → Int64)
    {write : Json → Option Int64 → Option (Stored α) → Option (Stored α)} {marks : Int64 → Stored α → Bool}
    {delete : Json → Stored α → Stored α} {row : Json → Option (Stored α) → Stored α}
    (hwrite : ∀ v l old, write v l old = if entryId v = "" then none else
      lwwWrite (isTombstone v) (marks (entryDeletedAt v)) (delete v) (lwwPeerLoses (stamp v) l)
        (fun old => some (row v old)) old)
    (hdelete : ∀ v s, marks (entryDeletedAt v) s = true → delete v s ≠ s)
    (hrow : ∀ v old, liveStamp stampOf (some (row v old)) = some (stamp v))
    (items : List Json) (t : Table String (Stored α)) {counted : List Json}
    (hcounted : counted = items.filter fun v =>
      entryId v ≠ "" && (isTombstone v || !lwwPeerLoses (stamp v) (liveStamp stampOf (t.get (entryId v))))) :
    counted.length =
        differing t.get (t.mergeAll entryId (fun v => write v (liveStamp stampOf (t.get (entryId v)))) items).get ↔
      RowsTell t marks counted := by
  have hcounts : ∀ v ∈ counted, entryId v ≠ "" ∧ (isTombstone v = false →
      lwwPeerLoses (stamp v) (liveStamp stampOf (t.get (entryId v))) = false) := by
    intro v hv
    rw [hcounted] at hv
    obtain ⟨hid, hwins⟩ := counts_eq_true (mem_filter.1 hv).2
    exact ⟨of_decide_eq_true hid, fun htomb => (Bool.not_eq_true' _).mp (hwins htomb)⟩
  rw [hcounted] at hcounts ⊢
  refine (Table.mergeAll_differing_iff (fun v old hv => ?_) _ _).trans ?_
  · rw [hwrite]
    by_cases hid : entryId v = ""
    · rw [if_pos hid]
    obtain ⟨htomb, hloses⟩ := counts_eq_false hv (decide_eq_true hid)
    rw [if_neg hid, lwwWrite, htomb, if_neg Bool.false_ne_true, if_pos ((Bool.not_eq_false' _).mp hloses)]
  · refine (tells_iff fun v hv htomb => ?_).trans (and_iff_left fun v hv htomb heq => ?_)
    · rw [hwrite, if_neg (hcounts v hv).1, htomb]
      exact lwwWrite_gone_ne_iff (hdelete v) _ _ _
    · have hwins := (hcounts v hv).2 htomb
      rw [hwrite, if_neg (hcounts v hv).1, htomb, hwins, lwwWrite_live, some_or] at heq
      refine ne_of_not_loses hwins ?_
      rw [← heq]
      exact hrow v _

theorem keys_exact_iff :
    (countedKeys E p db).length = differing db.sshKeys.get (mergePendingIntoLocal E now p db).1.sshKeys.get ↔
      RowsTell db.sshKeys (marksLive SshKeyRow.createdAtMs) (countedKeys E p db) := by
  rw [mergedKeys_eq]
  exact stamped_exact_iff SshKeyRow.createdAtMs (Kind.stamp · .key) (fun _ _ _ => rfl) (fun _ _ hs => markAt_ne hs)
    (fun _ _ => rfl) _ _ rfl

theorem snippets_exact_iff :
    (countedSnippets E p db).length = differing db.snippets.get (mergePendingIntoLocal E now p db).1.snippets.get ↔
      RowsTell db.snippets (fun ts s => decide (s.row.updatedAtMs < ts)) (countedSnippets E p db) := by
  have hdelete : ∀ (v : Json) (s : Stored SnippetRow), decide (s.row.updatedAtMs < entryDeletedAt v) = true →
      (⟨{ s.row with updatedAtMs := entryDeletedAt v }, some (entryDeletedAt v)⟩ : Stored SnippetRow) ≠ s := by
    intro v s hs heq
    rw [decide_eq_true_eq, ← heq] at hs
    exact Int64.lt_irrefl hs
  rw [mergedSnippets_eq]
  have hwrite := fun v l old => show snippetWrite now v l old = _ from rfl
  exact stamped_exact_iff SnippetRow.updatedAtMs (Kind.stamp · .snippet) hwrite hdelete (fun _ _ => rfl) _ _ rfl

theorem tags_exact_iff :
    (countedTags E now p db).length = differing db.tags.get (mergePendingIntoLocal E now p db).1.tags.get ↔
      RowsTell db.tags (marksLive TagRow.createdAtMs) (countedTags E now p db) ∧
        ∀ v ∈ countedTags E now p db, isTombstone v = false → ∀ s, db.tags.get (entryId v) = some s → s ≠ tagLeft v s := by
  have hstart : (afterSessions E .sync none now p (db, {})).2.1.tags = db.tags := tags_afterSessions E now p db
  have hfinal : (mergePendingIntoLocal E now p db).1.tags =
      ((itemsOf E.json p.tagsJson).foldl (fun s v => applyOneTag .sync (Tags.liveCreatedAt db) now v s)
        (afterSessions E .sync none now p (db, {})).2).1.tags := by
    have hlive : Tags.liveCreatedAt (afterSessions E .sync none now p (db, {})).2.1 = Tags.liveCreatedAt db := by
      funext id
      unfold Tags.liveCreatedAt
      rw [hstart]
    unfold mergePendingIntoLocal
    rw [runApply_fixes_afterTags (g := Db.tags) (fun _ => rfl) fun _ => rfl, ← hlive]
    exact congrArg Db.tags (overEntry_fst "tags" _ (fun _ => rfl) _)
  have hcounts : ∀ v ∈ countedTags E now p db, entryId v ≠ "" ∧ (isTombstone v = false →
      lwwPeerLoses (Kind.tag.stamp v) (Tags.liveCreatedAt db (entryId v)) = false) := by
    intro v hv
    obtain ⟨t, ht⟩ := mem_counted hv
    obtain ⟨hid, hwins⟩ := counts_eq_true ht
    exact ⟨of_decide_eq_true hid, fun htomb => (Bool.not_eq_true' _).mp ((Bool.and_eq_true _ _).mp (hwins htomb)).1⟩
  -- A counted entry is not refused, and a deletion does not ask.
  have hw : WritesKeys (fun s v => applyOneTag .sync (Tags.liveCreatedAt db) now v s)
      (fun s v => tagCounts (Tags.liveCreatedAt db) s.1 v) (fun (s : Applying Text) id => s.1.tags.get id) entryId
      (fun v old => (tagWrite v false (Tags.liveCreatedAt db (entryId v)) old).or old) := by
    refine ⟨fun s v hv => ?_, fun s v id hid => ?_⟩
    · rw [applyOneTag_tags, Table.get_mergeRow_self]
      rcases htomb : isTombstone v with _ | _
      · have hpasses := (counts_eq_true hv).2 htomb
        rw [Bool.and_eq_true, Bool.not_eq_true', Bool.not_eq_true'] at hpasses
        rw [hpasses.2]
      · unfold tagWrite lwwWrite
        rw [htomb]
        rfl
    · rw [applyOneTag_tags, Table.get_mergeRow_ne _ _ hid]
  have hq : Quiet (fun s v => applyOneTag .sync (Tags.liveCreatedAt db) now v s)
      (fun s v => tagCounts (Tags.liveCreatedAt db) s.1 v) (fun (s : Applying Text) id => s.1.tags.get id) entryId
      (itemsOf E.json p.tagsJson) (afterSessions E .sync none now p (db, {})).2 := by
    refine quiet_of_forall (fun s v hv => ?_) _ _
    rw [applyOneTag_tags, Table.get_mergeRow_self]
    unfold tagWrite lwwWrite
    by_cases hid : entryId v = ""
    · rw [if_pos hid, none_or]
    obtain ⟨htomb, hfails⟩ := counts_eq_false hv (decide_eq_true hid)
    rw [if_neg hid, htomb, if_neg Bool.false_ne_true]
    rcases hlost : lwwPeerLoses (Kind.tag.stamp v) (Tags.liveCreatedAt db (entryId v)) with _ | _
    · have hrefused : tagRefused s.1 v = true := by simpa [hlost] using hfails
      rw [if_neg Bool.false_ne_true, hrefused]
      rfl
    · rw [if_pos rfl, none_or]
  have hiff := differing_eq_iff hw hq
  rw [hstart, ← hfinal] at hiff
  refine hiff.trans ((tells_iff ?_).trans (and_congr_right' ?_))
  · exact fun v hv htomb => tagWrite_gone (hcounts v hv).1 htomb _ _ _
  · exact forall_congr' fun v => forall_congr' fun hv => forall_congr' fun htomb =>
      tagWrite_live (hcounts v hv).1 htomb ((hcounts v hv).2 htomb) _

/-! ## Sessions -/

/-- The stored content of a session: its row and its SSH details. -/
def sessionContent (db : Db Text) (id : String) : Option (SessionParent Text) × Option SshSessionDetails :=
  (db.sessions.get id, db.sshDetails.get id)

def sessionWrite (J : JsonText Text) (folderIds : List (String × String)) (now : Int64) (v : Json)
    (old : Option (SessionParent Text) × Option SshSessionDetails) :
    Option (SessionParent Text) × Option SshSessionDetails :=
  if isTombstone v then (old.1.map (deleteParent (entryDeletedAt v)), old.2)
  else
    let row := buildSessionRow J .sync folderIds now v
    (some (parentWritten old.1 row),
      if normaliseKind row.kind = kindSsh then some (detailsWritten row) else none)

theorem sessionContent_upsert {s : Db Text} {row : SessionRow Text} (h : storable s row = true) :
    sessionContent (Sessions.upsert s row).1 row.id = (some (parentWritten (s.sessions.get row.id) row),
        if normaliseKind row.kind = kindSsh then some (detailsWritten row) else none) := by
  have hok := (upsert_ok_iff s row).2 h
  unfold sessionContent
  rcases upsert_cases s row with ⟨-, hu⟩ | ⟨-, -, -, hu⟩ | ⟨-, hk, -, hu⟩ | ⟨-, hk, hu⟩
  · rw [hu] at hok
    cases hok
  · rw [hu] at hok
    cases hok
  · rw [hu]
    simp [dropOtherDetails, writeParent, hk]
  · rw [hu]
    simp [dropOtherDetails, writeParent, hk]

theorem sessionContent_applyTombstone (s : Db Text) (id : String) (ts : Int64) :
    sessionContent (Sessions.applyTombstone s id ts) id =
      ((s.sessions.get id).map (deleteParent ts), s.sshDetails.get id) := by
  have hstate := sessionState_applyTombstone s id ts
  exact Prod.ext (congrArg Db.SessionState.parent hstate) (congrArg Db.SessionState.details hstate)

/-- No session entry that wins is refused: its folder, its key and the session it goes through are there. -/
def SessionsStored : Prop :=
  ∀ pre v post, itemsOf E.json p.sessionsJson = pre ++ v :: post →
    writesSession .sync (Sessions.liveUpdatedAt db) now v = true →
    storable (pre.foldl (sessionPass E now p db) (sessionPlace E now p db).2).1
      (buildSessionRow E.json .sync (sessionPlace E now p db).1 now v) = true

theorem sessionContent_merge : sessionContent (mergePendingIntoLocal E now p db).1 =
    sessionContent ((itemsOf E.json p.sessionsJson).foldl (sessionPass E now p db) (sessionPlace E now p db).2).1 := by
  unfold mergePendingIntoLocal
  rw [runApply_fixes_afterTags (g := sessionContent) (fun _ => rfl) fun _ => rfl,
    afterTags_fixes (g := sessionContent) fun _ => rfl]
  refine afterSessions_eq_loop E now p db (g := fun s => sessionContent s.1) (fun _ _ _ => rfl) fun paths m s => ?_
  exact ignores (g := sessionContent) (x := Db.withoutFolders) (fun _ => rfl) _ _
    (applyEmptyFolders_fixes E now paths m s).1

theorem sessionContent_sessionPlace : sessionContent (sessionPlace E now p db).2.1 = sessionContent db := by
  have hfolders := (applyFolderTree_grows E .sync now (itemsOf E.json p.sessionsJson)
    (afterKeys E .sync none now p (db, {}))).1.rest
  refine (ignores (g := sessionContent) (x := Db.withoutFolders) (fun _ => rfl) _ _ hfolders).trans ?_
  exact afterKeys_fixes (g := sessionContent) fun _ => rfl

theorem writesSession_eq {live : String → Option Int64} : writesSession .sync live now v = true ↔
    entryId v ≠ "" ∧ isTombstone v = false ∧ lwwPeerLoses (Kind.session.stamp v) (live (entryId v)) = false := by
  unfold writesSession peerUpdatedAt
  simp [ApplyMode.isSync, Kind.stamp, and_assoc]

theorem writesKeys_sessionPass : WritesKeys (sessionPass E now p db)
    (fun s v => sessionCounts (Sessions.liveUpdatedAt db) now E.json (sessionPlace E now p db).1 s.1 v)
    (fun s id => sessionContent s.1 id) entryId (sessionWrite E.json (sessionPlace E now p db).1 now) := by
  refine ⟨fun s v hv => ?_, fun s v id hid => ?_⟩
  · unfold sessionCounts at hv
    simp only [Bool.or_eq_true, Bool.and_eq_true, decide_eq_true_eq] at hv
    unfold sessionPass sessionWrite
    rcases hv with ⟨hid, htomb⟩ | ⟨hwrites, hok⟩
    · rw [if_pos htomb]
      have happly : (applyOneSession E.json .sync (sessionPlace E now p db).1 (Sessions.liveUpdatedAt db) now v s).1 =
          Sessions.applyTombstone s.1 (entryId v) (entryDeletedAt v) := by
        unfold applyOneSession
        rw [if_neg hid, if_pos htomb]
        rfl
      rw [happly]
      exact sessionContent_applyTombstone s.1 (entryId v) (entryDeletedAt v)
    · rw [applyOneSession_of_writes E.json .sync _ _ now v s hwrites,
        ((writesSession_eq now).1 hwrites).2.1, if_neg Bool.false_ne_true]
      exact sessionContent_upsert hok
  · have hstate := sessionState_applyOneSession_ne E.json .sync (sessionPlace E now p db).1 (Sessions.liveUpdatedAt db)
      now v s hid
    exact Prod.ext (congrArg Db.SessionState.parent hstate) (congrArg Db.SessionState.details hstate)

theorem quiet_sessionPass (hstored : SessionsStored E now p db) : Quiet (sessionPass E now p db)
    (fun s v => sessionCounts (Sessions.liveUpdatedAt db) now E.json (sessionPlace E now p db).1 s.1 v)
    (fun s id => sessionContent s.1 id) entryId (itemsOf E.json p.sessionsJson) (sessionPlace E now p db).2 := by
  intro pre v post hsplit hv
  unfold sessionCounts at hv
  rw [Bool.or_eq_false_iff] at hv
  have hno : writesSession .sync (Sessions.liveUpdatedAt db) now v = false := by
    refine Bool.eq_false_iff.2 fun hwrites => ?_
    have hok := hstored pre v post hsplit hwrites
    rw [hwrites, hok] at hv
    cases hv.2
  rcases applyOneSession_of_not_writes E.json .sync (sessionPlace E now p db).1 (Sessions.liveUpdatedAt db) now v
    (pre.foldl (sessionPass E now p db) (sessionPlace E now p db).2) hno with h | ⟨hid, htomb, -, -⟩
  · exact congrArg (fun db => sessionContent db (entryId v)) h
  · have hgone := hv.1
    rw [htomb, decide_eq_true hid] at hgone
    cases hgone

theorem sessions_exact_iff (hstored : SessionsStored E now p db) :
    (countedSessions E now p db).length =
        differing (sessionContent db) (sessionContent (mergePendingIntoLocal E now p db).1) ↔
      RowsTell db.sessions (fun ts q => decide (q.updatedAt < ts)) (countedSessions E now p db) := by
  have hiff := differing_eq_iff (writesKeys_sessionPass E now p db) (quiet_sessionPass E now p db hstored)
  rw [show (fun id => sessionContent (sessionPlace E now p db).2.1 id) = sessionContent db from
      sessionContent_sessionPlace E now p db] at hiff
  rw [sessionContent_merge]
  refine hiff.trans ⟨fun h => ⟨h.apart, fun v hv htomb => ?_⟩, fun h => ⟨h.apart, fun v hv => ?_⟩⟩
  · have hne := h.changes v hv
    unfold sessionWrite sessionContent at hne
    rw [if_pos htomb] at hne
    rcases hq : db.sessions.get (entryId v) with _ | q
    · rw [hq] at hne
      exact absurd rfl hne
    · refine ⟨q, rfl, decide_eq_true ?_⟩
      by_contra hlt
      rw [hq, map_some, deleteParent, if_neg hlt] at hne
      exact hne rfl
  · unfold sessionWrite sessionContent
    rcases htomb : isTombstone v with _ | _
    · -- A row that wins has a stamp that no live row has.
      obtain ⟨t, ht⟩ := mem_counted hv
      unfold sessionCounts at ht
      rw [htomb, Bool.and_false, Bool.false_or, Bool.and_eq_true] at ht
      have hwins := ((writesSession_eq now).1 ht.1).2.2
      rw [if_neg Bool.false_ne_true]
      intro heq
      refine ne_of_not_loses hwins ?_
      have hrow : some (parentWritten (db.sessions.get (entryId v))
          (buildSessionRow E.json .sync (sessionPlace E now p db).1 now v)) = db.sessions.get (entryId v) :=
        congrArg Prod.fst heq
      unfold Sessions.liveUpdatedAt
      rcases hq : db.sessions.get (entryId v) with _ | q
      · rw [hq] at hrow
        cases hrow
      · rw [hq] at hrow
        rw [bind_some, ← Option.some.inj hrow]
        rfl
    · obtain ⟨q, hq, hlt⟩ := h.deletes v hv htomb
      rw [decide_eq_true_eq] at hlt
      rw [if_pos rfl, hq, map_some, deleteParent, if_pos hlt]
      intro heq
      have hstamp := congrArg SessionParent.updatedAt (Option.some.inj (congrArg Prod.fst heq))
      rw [← hstamp] at hlt
      exact Int64.lt_irrefl hlt

/-! ## Links -/

theorem links_exact_iff (f : Json → Applying Text → Applying Text) (get : Db Text → List (String × String))
    (found : Db Text → String × String → Bool) (ends : Json → Option (String × String))
    (hf : ∀ v s, get (f v s).1 = addEnds (found s.1) (get s.1) (ends v)) (l : List Json) (s : Applying Text) :
    (counted (fun s v => f v s) (fun s v => linkCounts (found s.1) (ends v)) l s).length =
        differing (fun e => e ∈ get s.1) (fun e => e ∈ get (l.foldl (fun s v => f v s) s).1) ↔
      LinksTell (get s.1)
        ((counted (fun s v => f v s) (fun s v => linkCounts (found s.1) (ends v)) l s).filterMap ends) := by
  have hmem : ∀ v s e, e ∈ get (f v s).1 ↔ e ∈ get s.1 ∨ ∃ e', ends v = some e' ∧ found s.1 e' = true ∧ e' = e := by
    intro v s e
    rw [hf]
    unfold addEnds
    rcases ends v with _ | e'
    · simp
    · rw [elim_some, mem_addLink]
      refine or_congr_right ⟨fun h => ⟨e', rfl, h⟩, ?_⟩
      rintro ⟨_, ⟨⟩, h⟩
      exact h
  have hw : WritesKeys (fun s v => f v s) (fun s v => linkCounts (found s.1) (ends v))
      (fun (s : Applying Text) e => e ∈ get s.1) (fun v => (ends v).getD ("", "")) (fun _ _ => True) := by
    refine ⟨fun s v hv => ?_, fun s v e he => ?_⟩
    · obtain ⟨e, he, hfound⟩ := (any_eq_true _ _).1 hv
      rw [eq_iff_iff, iff_true, hmem, he]
      exact .inr ⟨e, rfl, hfound, rfl⟩
    · rw [eq_iff_iff, hmem]
      refine or_iff_left ?_
      rintro ⟨e', he', -, rfl⟩
      rw [he'] at he
      exact he rfl
  have hq : Quiet (fun s v => f v s) (fun s v => linkCounts (found s.1) (ends v))
      (fun (s : Applying Text) e => e ∈ get s.1) (fun v => (ends v).getD ("", "")) l s := by
    refine quiet_of_forall (fun s v hv => ?_) l s
    rw [eq_iff_iff, hmem]
    refine or_iff_left ?_
    rintro ⟨e', he', hfound, -⟩
    rw [linkCounts, he', any_some, hfound] at hv
    cases hv
  refine (differing_eq_iff hw hq).trans ?_
  have hends : ∀ v ∈ counted (fun s v => f v s) (fun s v => linkCounts (found s.1) (ends v)) l s, (ends v).isSome := by
    intro v hv
    obtain ⟨t, ht⟩ := mem_counted hv
    obtain ⟨e, he, -⟩ := (any_eq_true _ _).1 ht
    rw [he]
    rfl
  generalize counted (fun s v => f v s) (fun s v => linkCounts (found s.1) (ends v)) l s = told at hends
  have hkeys : told.map (fun v => (ends v).getD ("", "")) = told.filterMap ends := by
    induction told with
    | nil => rfl
    | cons v told ih =>
      obtain ⟨e, he⟩ := isSome_iff_exists.1 (hends v mem_cons_self)
      rw [map_cons, filterMap_cons_some he, he, ih fun v hv => hends v (mem_cons_of_mem _ hv)]
      rfl
  constructor
  · intro h
    refine ⟨hkeys ▸ h.apart, fun e he => ?_⟩
    obtain ⟨v, hv, hve⟩ := mem_filterMap.1 he
    have hne := h.changes v hv
    rw [hve] at hne
    exact fun hin => hne (eq_true hin).symm
  · intro h
    refine ⟨hkeys ▸ h.once, fun v hv heq => ?_⟩
    obtain ⟨e, he⟩ := isSome_iff_exists.1 (hends v hv)
    rw [he] at heq
    exact h.new e (mem_filterMap.2 ⟨v, hv, he⟩) (of_eq_true heq.symm)

theorem links_exact_of (f : Json → Applying Text → Applying Text) (get : Db Text → List (String × String))
    (found : Db Text → String × String → Bool) (ends : Json → Option (String × String))
    (hf : ∀ v s, get (f v s).1 = addEnds (found s.1) (get s.1) (ends v)) {l : List Json} {s : Applying Text}
    {links links' : List (String × String)} (hstart : get s.1 = links)
    (hfinal : links' = get (l.foldl (fun s v => f v s) s).1) :
    (counted (fun s v => f v s) (fun s v => linkCounts (found s.1) (ends v)) l s).length =
        differing (fun e => e ∈ links) (fun e => e ∈ links') ↔
      LinksTell links ((counted (fun s v => f v s) (fun s v => linkCounts (found s.1) (ends v)) l s).filterMap ends) := by
  rw [hfinal, ← hstart]
  exact links_exact_iff f get found ends hf l s

theorem sessionTags_exact_iff : (countedSessionTags E now p db).length =
      differing (fun l => l ∈ db.sessionTags) (fun l => l ∈ (mergePendingIntoLocal E now p db).1.sessionTags) ↔
    LinksTell db.sessionTags ((countedSessionTags E now p db).filterMap (linkEnds "session_id" "tag_id")) :=
  links_exact_of applySessionTag Db.sessionTags (fun db => bothFound db.sessions db.tags) _
    (fun v t => by rw [applySessionTag_fst]) sessionTags_afterTags sessionTags_loop

theorem folderTags_exact_iff : (countedFolderTags E now p db).length =
      differing (fun l => l ∈ db.folderTags) (fun l => l ∈ (mergePendingIntoLocal E now p db).1.folderTags) ↔
    LinksTell db.folderTags ((countedFolderTags E now p db).filterMap (folderLinkEnds (metFolders E now p db))) :=
  links_exact_of (applyFolderTag (metFolders E now p db)) Db.folderTags (fun db => bothFound db.folders db.tags) _
    (fun v t => by rw [applyFolderTag_fst]) folderTags_afterTagLinks folderTags_loop

theorem sessionSnippets_exact_iff : (countedSessionSnippets E now p db).length =
      differing (fun l => l ∈ db.sessionSnippets) (fun l => l ∈ (mergePendingIntoLocal E now p db).1.sessionSnippets) ↔
    LinksTell db.sessionSnippets ((countedSessionSnippets E now p db).filterMap (linkEnds "session_id" "snippet_id")) :=
  links_exact_of applySessionSnippet Db.sessionSnippets (fun db => bothFound db.sessions db.snippets) _
    (fun v t => by rw [applySessionSnippet_fst]) sessionSnippets_afterSnippetRows sessionSnippets_loop

end Kinds

/-! ## Bookmarks -/

theorem bookmarks_exact_iff (E : DriverEnv Text) (now : Int64) (p : FullImport Text) (w : Whole Text) :
    (countedBookmarks E now p w).length = differing w.child.bookmarks.get (mergeWhole E now p w).1.child.bookmarks.get ↔
      RowsTell w.child.bookmarks (marksLive SftpBookmarkRow.createdAtMs) (countedBookmarks E now p w) ∧
        ∀ v ∈ countedBookmarks E now p w, isTombstone v = false →
          ∀ s, w.child.bookmarks.get (entryId v) = some s → s ≠ bookmarkLeft v s := by
  have hcounts : ∀ v ∈ countedBookmarks E now p w, ¬(entryId v = "" ∨ jsonString v "session_id" = "") ∧
      (isTombstone v = false → jsonString v "session_id" ∈ liveSessionIds (mergedMain E now p w) ∧
        lwwPeerLoses (parseIso8601OrNow (jsonString v "created_at") now)
          (bookmarkStamp (w.child.bookmarks.get (entryId v))) = false) := by
    intro v hv
    obtain ⟨hids, hpasses⟩ := counts_eq_true (mem_filter.1 hv).2
    simp only [Bool.and_eq_true, decide_eq_true_eq, Bool.not_eq_true'] at hids hpasses
    exact ⟨not_or.2 hids, hpasses⟩
  rw [mergeWhole_fst]
  refine (Table.mergeAll_differing_iff (fun v old hv => ?_) _ _).trans ?_
  · unfold bookmarkWrite lwwWrite
    by_cases hids : entryId v = "" ∨ jsonString v "session_id" = ""
    · rw [if_pos hids]
    obtain ⟨hid, hsession⟩ := not_or.1 hids
    obtain ⟨htomb, hfails⟩ := counts_eq_false hv (by rw [decide_eq_true hid, decide_eq_true hsession, Bool.true_and])
    rw [if_neg hids, htomb, if_neg Bool.false_ne_true]
    split_ifs with hlost hlive
    · rfl
    · rw [decide_eq_true hlive, Bool.true_and, Bool.not_eq_false'] at hfails
      exact absurd hfails hlost
    · rfl
  · refine (tells_iff ?_).trans (and_congr_right' ?_)
    · exact fun v hv htomb => bookmarkWrite_gone now (hcounts v hv).1 htomb _ _ _
    · exact forall_congr' fun v => forall_congr' fun hv => forall_congr' fun htomb =>
        bookmarkWrite_live now (hcounts v hv).1 htomb ((hcounts v hv).2 htomb).1 ((hcounts v hv).2 htomb).2 _

/-! ## The report -/

section Report

variable (E : DriverEnv Text) (now : Int64) (p : FullImport Text) (w : Whole Text)

/-- The rows and links of each kind whose stored content differs. -/
noncomputable def changedRows (w w' : Whole Text) : RowCounts where
  sessions := differing (sessionContent w.main) (sessionContent w'.main)
  keys := differing w.main.sshKeys.get w'.main.sshKeys.get
  tags := differing w.main.tags.get w'.main.tags.get
  snippets := differing w.main.snippets.get w'.main.snippets.get
  bookmarks := differing w.child.bookmarks.get w'.child.bookmarks.get
  sessionTags := differing (fun l => l ∈ w.main.sessionTags) (fun l => l ∈ w'.main.sessionTags)
  folderTags := differing (fun l => l ∈ w.main.folderTags) (fun l => l ∈ w'.main.folderTags)
  sessionSnippets := differing (fun l => l ∈ w.main.sessionSnippets) (fun l => l ∈ w'.main.sessionSnippets)

def CountsExact : Prop :=
  (MergeOutcome.fromApplyOutcome (mergeWhole E now p w).2).rowCounts = changedRows w (mergeWhole E now p w).1

def countedRows : RowCounts where
  sessions := (countedSessions E.toEnv now p.toPendingImport w.main).length
  keys := (countedKeys E.toEnv p.toPendingImport w.main).length
  tags := (countedTags E.toEnv now p.toPendingImport w.main).length
  snippets := (countedSnippets E.toEnv p.toPendingImport w.main).length
  bookmarks := (countedBookmarks E now p w).length
  sessionTags := (countedSessionTags E.toEnv now p.toPendingImport w.main).length
  folderTags := (countedFolderTags E.toEnv now p.toPendingImport w.main).length
  sessionSnippets := (countedSessionSnippets E.toEnv now p.toPendingImport w.main).length

def CountsFit : Prop := (countedRows E now p w).cut = countedRows E now p w

/-- Every entry that counts tells of a row or link of its own that the merge changes. -/
structure CountsTrue : Prop where
  fits : CountsFit E now p w
  stored : SessionsStored E.toEnv now p.toPendingImport w.main
  sessions : RowsTell w.main.sessions (fun ts q => decide (q.updatedAt < ts))
    (countedSessions E.toEnv now p.toPendingImport w.main)
  keys : RowsTell w.main.sshKeys (marksLive SshKeyRow.createdAtMs) (countedKeys E.toEnv p.toPendingImport w.main)
  tags : RowsTell w.main.tags (marksLive TagRow.createdAtMs) (countedTags E.toEnv now p.toPendingImport w.main)
  tagsNew : ∀ v ∈ countedTags E.toEnv now p.toPendingImport w.main, isTombstone v = false →
    ∀ s, w.main.tags.get (entryId v) = some s → s ≠ tagLeft v s
  snippets : RowsTell w.main.snippets (fun ts s => decide (s.row.updatedAtMs < ts))
    (countedSnippets E.toEnv p.toPendingImport w.main)
  bookmarks : RowsTell w.child.bookmarks (marksLive SftpBookmarkRow.createdAtMs) (countedBookmarks E now p w)
  bookmarksNew : ∀ v ∈ countedBookmarks E now p w, isTombstone v = false →
    ∀ s, w.child.bookmarks.get (entryId v) = some s → s ≠ bookmarkLeft v s
  sessionTags : LinksTell w.main.sessionTags
    ((countedSessionTags E.toEnv now p.toPendingImport w.main).filterMap (linkEnds "session_id" "tag_id"))
  folderTags : LinksTell w.main.folderTags ((countedFolderTags E.toEnv now p.toPendingImport w.main).filterMap
      (folderLinkEnds (metFolders E.toEnv now p.toPendingImport w.main)))
  sessionSnippets : LinksTell w.main.sessionSnippets
    ((countedSessionSnippets E.toEnv now p.toPendingImport w.main).filterMap (linkEnds "session_id" "snippet_id"))

theorem countsExact_split (hfits : CountsFit E now p w) :
    CountsExact E now p w ↔ countedRows E now p w = changedRows w (mergeWhole E now p w).1 := by
  have hrows : (mergeWhole E now p w).2.rowCounts = countedRows E now p w := by
    rw [rowCounts_mergeWhole, rowCounts_merge]
    unfold RowCounts.addBookmarks countedRows
    simp
  unfold CountsExact
  rw [MergeOutcome.rowCounts_fromApplyOutcome, hrows, hfits]

/-- **When the counters are exact.** They are when every counted entry tells of a change of its own; and
where no session that wins is refused and no counter overflows, only then. -/
theorem countsExact_iff : (CountsTrue E now p w → CountsExact E now p w) ∧
      (CountsFit E now p w → SessionsStored E.toEnv now p.toPendingImport w.main → CountsExact E now p w →
        CountsTrue E now p w) := by
  have hmain : (mergeWhole E now p w).1.main = { mergedMain E now p w with
        webdavDetails := (mergeWhole E now p w).1.main.webdavDetails
        s3Details := (mergeWhole E now p w).1.main.s3Details } := by
    rw [mergeWhole_fst]
    rfl
  have hbookmarks := bookmarks_exact_iff E now p w
  have hkeys := keys_exact_iff E.toEnv now p.toPendingImport w.main
  have htags := tags_exact_iff E.toEnv now p.toPendingImport w.main
  have hsnippets := snippets_exact_iff E.toEnv now p.toPendingImport w.main
  have hsessionTags := sessionTags_exact_iff E.toEnv now p.toPendingImport w.main
  have hfolderTags := folderTags_exact_iff E.toEnv now p.toPendingImport w.main
  have hsessionSnippets := sessionSnippets_exact_iff E.toEnv now p.toPendingImport w.main
  constructor
  · intro h
    rw [countsExact_split E now p w h.fits]
    unfold countedRows changedRows
    rw [hmain]
    congr 1
    · exact (sessions_exact_iff E.toEnv now p.toPendingImport w.main h.stored).2 h.sessions
    · exact hkeys.2 h.keys
    · exact htags.2 ⟨h.tags, h.tagsNew⟩
    · exact hsnippets.2 h.snippets
    · exact hbookmarks.2 ⟨h.bookmarks, h.bookmarksNew⟩
    · exact hsessionTags.2 h.sessionTags
    · exact hfolderTags.2 h.folderTags
    · exact hsessionSnippets.2 h.sessionSnippets
  · intro hfits hstored h
    rw [countsExact_split E now p w hfits] at h
    unfold countedRows changedRows at h
    rw [hmain, RowCounts.mk.injEq] at h
    obtain ⟨h₁, h₂, h₃, h₄, h₅, h₆, h₇, h₈⟩ := h
    exact
      { fits := hfits
        stored := hstored
        sessions := (sessions_exact_iff E.toEnv now p.toPendingImport w.main hstored).1 h₁
        keys := hkeys.1 h₂
        tags := (htags.1 h₃).1
        tagsNew := (htags.1 h₃).2
        snippets := hsnippets.1 h₄
        bookmarks := (hbookmarks.1 h₅).1
        bookmarksNew := (hbookmarks.1 h₅).2
        sessionTags := hsessionTags.1 h₆
        folderTags := hfolderTags.1 h₇
        sessionSnippets := hsessionSnippets.1 h₈ }

end Report

def oneTag : Whole ParsedText :=
  .of { Db.empty with tags := Table.empty.set "t" ⟨⟨"t", "prod", none, 10⟩, none⟩ }
    ⟨.empty, .empty, .empty, .empty, .empty, .empty⟩

def tagGone (id : String) : FullImport ParsedText :=
  { tagsJson := some (.json (.arr
      [.obj [("id", .str id), ("tombstone", .bool true), ("deleted_at_ms", .ofI64 20)]])) }

/-- The tag that is there is deleted and counted. -/
theorem countsExact_iff_sample : CountsExact plainDriverEnv 30 (tagGone "t") oneTag := by
  refine (countsExact_iff plainDriverEnv 30 (tagGone "t") oneTag).1 ?_
  have htags : countedTags plainDriverEnv.toEnv 30 (tagGone "t").toPendingImport oneTag.main =
      [.obj [("id", .str "t"), ("tombstone", .bool true), ("deleted_at_ms", .ofI64 20)]] := rfl
  exact
    { fits := rfl
      stored := fun pre v post hsplit => by simp [itemsOf, tagGone] at hsplit
      sessions := ⟨.nil, fun v hv => by cases hv⟩
      keys := ⟨.nil, fun v hv => by cases hv⟩
      tags := by
        rw [htags]
        refine ⟨nodup_singleton _, fun v hv _ => ?_⟩
        rw [mem_singleton.1 hv]
        exact ⟨_, rfl, by decide⟩
      tagsNew := by
        rw [htags]
        intro v hv htomb
        rw [mem_singleton.1 hv] at htomb
        cases htomb
      snippets := ⟨.nil, fun v hv => by cases hv⟩
      bookmarks := ⟨.nil, fun v hv => by cases hv⟩
      bookmarksNew := fun v hv => by cases hv
      sessionTags := ⟨.nil, fun v hv => by cases hv⟩
      folderTags := ⟨.nil, fun v hv => by cases hv⟩
      sessionSnippets := ⟨.nil, fun v hv => by cases hv⟩ }

/-- **A deletion that finds nothing is counted.** -/
theorem unknown_tombstone_counted : ¬∀ (E : DriverEnv ParsedText) now p w, CountsExact E now p w := by
  intro h
  have htags := congrArg RowCounts.tags (h plainDriverEnv 30 (tagGone "u") oneTag)
  have hsame : (mergeWhole plainDriverEnv 30 (tagGone "u") oneTag).1.main.tags = oneTag.main.tags := rfl
  have hcount : (MergeOutcome.fromApplyOutcome (mergeWhole plainDriverEnv 30 (tagGone "u") oneTag).2).rowCounts.tags = 1 := rfl
  have hzero : (changedRows oneTag (mergeWhole plainDriverEnv 30 (tagGone "u") oneTag).1).tags = 0 := by
    show differing oneTag.main.tags.get (mergeWhole plainDriverEnv 30 (tagGone "u") oneTag).1.main.tags.get = 0
    rw [hsame, differing_self]
  rw [hcount, hzero] at htags
  cases htags

end LetsFlutSsh.Archive
