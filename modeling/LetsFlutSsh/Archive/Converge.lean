import Mathlib.Data.List.Dedup
import LetsFlutSsh.Archive.SessionEntry
import LetsFlutSsh.Archive.Atomicity

/-!
# Two devices exchange snapshots

Each device merges the snapshot the other composed before either merge. For one session id:

* `merged`: a device after the sync merge of the other's snapshot;
* `Live`, `composed`: whether the session is live, and the entry composed for it;
* `Survives D S i a`: the session `a` of `S` arrives on `D` with everything the composer emits;
* `converge_iff`: the devices agree on the session exactly when the newer row survives its trip and
  no deletion is newer than the live row on the other side.
-/

namespace LetsFlutSsh.Archive
open Lib List Bool Sessions Option

variable {Text : Type}

/-! ## The entries of a snapshot -/

def sortedSessions (S : Db Text) : List (String × SessionParent Text) :=
  S.sessions.rows.mergeSort listedBefore

def rowOf (S : Db Text) (e : String × SessionParent Text) : SessionRow Text :=
  rowFrom e.1 e.2 (S.sshDetails.get e.1)

def entryOf (J : JsonText Text) (S : Db Text) (e : String × SessionParent Text) : Json :=
  sessionRowToJson J (rowOf S e) (folderPathOf S e.2.folderId) e.2.deletedAt

def sessionEntries (J : JsonText Text) (S : Db Text) : List Json := (sortedSessions S).map (entryOf J S)

section

variable (J : JsonText Text) (S : Db Text)

theorem buildSessionsValue_eq : buildSessionsValue J S = .arr (sessionEntries J S) := by
  unfold buildSessionsValue Sessions.listAllWithTombstones sessionEntries sortedSessions
  rw [List.map_map]
  rfl

theorem parseArray_sessions : parseArray J (J.toStr (buildSessionsValue J S)) = .ok (sessionEntries J S) := by
  unfold parseArray
  rw [J.fromStr_toStr, buildSessionsValue_eq]

theorem jsonString_entryOf (e : String × SessionParent Text) : jsonString (entryOf J S e) "id" = e.1 :=
  jsonString_id J (rowOf S e) (folderPathOf S e.2.folderId) e.2.deletedAt

theorem isTombstone_entryOf (e : String × SessionParent Text) : isTombstone (entryOf J S e) = e.2.deletedAt.isSome :=
  isTombstone_sessionRowToJson J (rowOf S e) (folderPathOf S e.2.folderId) e.2.deletedAt

end

theorem mem_sortedSessions (S : Db Text) (e : String × SessionParent Text) :
    e ∈ sortedSessions S ↔ S.sessions.get e.1 = some e.2 := by
  unfold sortedSessions
  rw [mem_mergeSort]
  exact S.sessions.mem_rows_iff e.1 e.2

variable {i : String} {a : SessionParent Text}

theorem sortedSessions_split {S : Db Text} (h : S.sessions.get i = some a) :
    ∃ pre post, sortedSessions S = pre ++ (i, a) :: post ∧ (∀ e ∈ pre, e.1 ≠ i) ∧ ∀ e ∈ post, e.1 ≠ i := by
  obtain ⟨pre, post, hsplit⟩ := append_of_mem ((mem_sortedSessions S (i, a)).2 h)
  have hperm : (sortedSessions S).Perm S.sessions.rows := mergeSort_perm _ _
  have hnodup : ((sortedSessions S).map Prod.fst).Nodup := (hperm.map Prod.fst).nodup_iff.2 S.sessions.nodup
  rw [hsplit, map_append, map_cons, nodup_append, nodup_cons] at hnodup
  refine ⟨pre, post, hsplit, fun e he hid => ?_, fun e he hid => hnodup.2.1.1 (mem_map.2 ⟨e, he, hid⟩)⟩
  exact hnodup.2.2 e.1 (mem_map_of_mem he) i mem_cons_self hid

/-! ## A merge, session by session -/

structure Pushed where
  createdAtMs : Int64
  appVersion : String
  syncOrigin : String

/-- The snapshot of `S`. -/
def snapshot (J : JsonText Text) (S : Db Text) (w : Pushed) : PendingImport Text :=
  composeSync J S w.createdAtMs w.appVersion w.syncOrigin

/-- The device `D` after the sync merge of the snapshot of `S`. -/
def merged (E : Env Text) (now : Int64) (D S : Db Text) (w : Pushed) : Db Text :=
  (mergePendingIntoLocal E now (snapshot E.json S w) D).1

variable {J : JsonText Text}
variable (deletedAt : Option Int64)

variable {post : List (String × SessionParent Text)} {s : Applying Text} {db' : Db Text}

section Merge

variable (E : Env Text) (now : Int64) (D S : Db Text) (w : Pushed)

/-- Folders and ids of the paths met, when the merge comes to the sessions. -/
def treeOf : List (String × String) × Applying Text :=
  folderTree E .sync none now (snapshot E.json S w) (D, {}) (sessionEntries E.json S)

/-- The merge when the sessions `pre` of `S` have been applied. -/
def reachedAt (pre : List (String × SessionParent Text)) : Applying Text :=
  before E .sync none now (snapshot E.json S w) D (sessionEntries E.json S) (pre.map (entryOf E.json S))

def applyEntry (e : String × SessionParent Text) (s : Applying Text) : Applying Text :=
  applyOneSession E.json .sync (treeOf E now D S w).1 (Sessions.liveUpdatedAt (treeOf E now D S w).2.1) now
    (entryOf E.json S e) s

variable {E now D S w}

theorem sessionState_treeOf (i : String) : (treeOf E now D S w).2.1.sessionState i = D.sessionState i :=
  sessionState_folderTree E .sync none now (snapshot E.json S w) (D, {}) (sessionEntries E.json S) i

theorem liveUpdatedAt_treeOf (i : String) :
    Sessions.liveUpdatedAt (treeOf E now D S w).2.1 i = Sessions.liveUpdatedAt D i := by
  have h : (treeOf E now D S w).2.1.sessions.get i = D.sessions.get i :=
    congrArg Db.SessionState.parent (sessionState_treeOf i)
  unfold Sessions.liveUpdatedAt
  rw [h]

variable {pre : List (String × SessionParent Text)} {db : Db Text} {d : Int64}

theorem sessionState_merged_absent (h : S.sessions.get i = none) :
    (merged E now D S w).sessionState i = D.sessionState i := by
  unfold merged mergePendingIntoLocal
  rw [sessionState_runApply E .sync none now (snapshot E.json S w) (D, {}) rfl rfl (parseArray_sessions E.json S)]
  refine (sessionState_sessionLoop_ne E.json .sync _ _ now (fun v hv => ?_) _).trans (sessionState_treeOf i)
  obtain ⟨e, he, rfl⟩ := mem_map.1 hv
  rw [jsonString_entryOf]
  rintro rfl
  rw [(mem_sortedSessions S e).1 he] at h
  cases h

theorem sessionState_reachedAt (hpre : ∀ e ∈ pre, e.1 ≠ i) :
    (reachedAt E now D S w pre).1.sessionState i = D.sessionState i := by
  refine (sessionState_sessionLoop_ne E.json .sync _ _ now (fun v hv => ?_) _).trans (sessionState_treeOf i)
  obtain ⟨e, he, rfl⟩ := mem_map.1 hv
  rw [jsonString_entryOf]
  exact hpre e he

theorem sessionState_merged
    (hsplit : sortedSessions S = pre ++ (i, a) :: post) (hpost : ∀ e ∈ post, e.1 ≠ i) :
    (merged E now D S w).sessionState i = (applyEntry E now D S w (i, a) (reachedAt E now D S w pre)).1.sessionState i := by
  have hitems : sessionEntries E.json S =
      pre.map (entryOf E.json S) ++ entryOf E.json S (i, a) :: post.map (entryOf E.json S) := by
    unfold sessionEntries
    rw [hsplit, map_append, map_cons]
  have hrest : ∀ v ∈ post.map (entryOf E.json S), jsonString v "id" ≠ jsonString (entryOf E.json S (i, a)) "id" := by
    intro v hv
    obtain ⟨e, he, rfl⟩ := mem_map.1 hv
    rw [jsonString_entryOf, jsonString_entryOf]
    exact hpost e he
  have h : (runApply E .sync none now (snapshot E.json S w) (D, {})).1.sessionState
      (jsonString (entryOf E.json S (i, a)) "id") = _ :=
    sessionState_runApply_of_entry rfl rfl (parseArray_sessions E.json S) hitems hrest
  rw [after_eq, jsonString_entryOf] at h
  exact h

def Live (db : Db Text) (i : String) : Prop := ∃ p, db.sessions.get i = some p ∧ p.deletedAt = none

theorem not_live_of_absent (h : db.sessions.get i = none) : ¬ Live db i := by
  rintro ⟨q, hq, -⟩
  rw [h] at hq
  cases hq

theorem not_live_of_deleted {p : SessionParent Text}
    (h : db.sessions.get i = some p) (hdel : p.deletedAt = some d) : ¬ Live db i := by
  rintro ⟨q, hq, hnone⟩
  rw [h] at hq
  cases hq
  rw [hdel] at hnone
  cases hnone

theorem Live.congr (h : db'.sessionState i = db.sessionState i) : Live db' i ↔ Live db i := by
  have hget : db'.sessions.get i = db.sessions.get i := congrArg Db.SessionState.parent h
  unfold Live
  rw [hget]

theorem sessionState_merged_empty (h : S.sessions.get "" = some a) :
    (merged E now D S w).sessionState "" = D.sessionState "" := by
  obtain ⟨pre, post, hsplit, hpre, hpost⟩ := sortedSessions_split h
  rw [sessionState_merged hsplit hpost]
  unfold applyEntry
  rw [applyOneSession_fst_of_empty (jsonString_entryOf E.json S ("", a))]
  exact sessionState_reachedAt hpre

/-! ### A tombstone of the peer -/

theorem sessionState_merged_tombstone (hi : i ≠ "") (h : S.sessions.get i = some a) (hdel : a.deletedAt = some d) :
    (merged E now D S w).sessionState i = { D.sessionState i with parent := (D.sessions.get i).map (deleteParent d) } := by
  obtain ⟨pre, post, hsplit, hpre, hpost⟩ := sortedSessions_split h
  have hreached : (reachedAt E now D S w pre).1.sessionState i = D.sessionState i :=
    sessionState_reachedAt hpre
  have hparent : (reachedAt E now D S w pre).1.sessions.get i = D.sessions.get i :=
    congrArg Db.SessionState.parent hreached
  have htomb : isTombstone (entryOf E.json S (i, a)) = true := by
    rw [isTombstone_entryOf, hdel]
    rfl
  have hstamp : jsonI64Opt (entryOf E.json S (i, a)) "deleted_at_ms" = some d := by
    unfold entryOf
    rw [hdel]
    exact deletedAtMs_sessionRowToJson E.json (rowOf S (i, a)) (folderPathOf S a.folderId) d
  have happly : (applyEntry E now D S w (i, a) (reachedAt E now D S w pre)).1 =
      Sessions.applyTombstone (reachedAt E now D S w pre).1 i d := by
    unfold applyEntry applyOneSession
    rw [jsonString_entryOf, if_neg hi, htomb, if_pos rfl, hstamp]
    rfl
  rw [sessionState_merged hsplit hpost, happly, sessionState_applyTombstone, hparent, hreached]

theorem live_merged_tombstone {q : SessionParent Text} (hi : i ≠ "")
    (h : S.sessions.get i = some a) (hdel : a.deletedAt = some d) (hq : D.sessions.get i = some q)
    (hlive : q.deletedAt = none) :
    (Live (merged E now D S w) i ↔ d ≤ q.updatedAt) ∧
      (d ≤ q.updatedAt → (merged E now D S w).sessionState i = D.sessionState i) := by
  have hmerged : (merged E now D S w).sessionState i =
      { D.sessionState i with parent := (D.sessions.get i).map (deleteParent d) } :=
    sessionState_merged_tombstone hi h hdel
  have hparent : (merged E now D S w).sessions.get i = some (deleteParent d q) := by
    have hget := congrArg Db.SessionState.parent hmerged
    rw [hq] at hget
    exact hget
  constructor
  · unfold Live
    rw [hparent]
    unfold deleteParent
    by_cases hlt : q.updatedAt < d
    · simp [hlt]
    · simp [hlt, hlive, Int64.not_lt.1 hlt]
  · intro hle
    rw [hmerged, hq]
    unfold deleteParent
    rw [map_some, if_neg (Int64.not_lt.2 hle), ← hq]
    rfl

theorem not_live_merged_tombstone (h : S.sessions.get i = some a)
    (hdel : a.deletedAt = some d) (hdead : ¬ Live D i) : ¬ Live (merged E now D S w) i := by
  by_cases hi : i = ""
  · subst hi
    rw [Live.congr (sessionState_merged_empty h)]
    exact hdead
  have hget : (merged E now D S w).sessions.get i = (D.sessions.get i).map (deleteParent d) :=
    congrArg Db.SessionState.parent (sessionState_merged_tombstone hi h hdel)
  rintro ⟨p, hp, hlive⟩
  rw [hget] at hp
  obtain ⟨q, hq, rfl⟩ := map_eq_some_iff.1 hp
  unfold deleteParent at hlive
  split_ifs at hlive
  exact hdead ⟨q, hq, hlive⟩

/-! ### A live row of the peer -/

/-- The row of `S` beats the live row of `D`, if there is one. -/
def Wins (D : Db Text) (i : String) (a : SessionParent Text) : Prop :=
  ∀ q, D.sessions.get i = some q → q.deletedAt = none → q.updatedAt < a.updatedAt

theorem writesSession_entryOf (hi : i ≠ "") (hlive : a.deletedAt = none) (hstable : Stable a.updatedAt) :
    writesSession .sync (Sessions.liveUpdatedAt (treeOf E now D S w).2.1) now (entryOf E.json S (i, a)) = true ↔
      Wins D i a := by
  have hpeer : peerUpdatedAt .sync now (entryOf E.json S (i, a)) = a.updatedAt := by
    show (parseIso8601Opt (jsonString (entryOf E.json S (i, a)) "updated_at")).getD 0 = a.updatedAt
    unfold entryOf
    rw [jsonString_updatedAt]
    exact congrArg (fun o => Option.getD o 0) hstable
  unfold writesSession Wins
  rw [jsonString_entryOf, isTombstone_entryOf, liveUpdatedAt_treeOf, hpeer, hlive]
  unfold Sessions.liveUpdatedAt lwwPeerLoses
  rcases D.sessions.get i with _ | q
  · simp [hi]
  · by_cases hq : q.deletedAt = none
    · simp [hi, hq, ApplyMode.isSync]
    · simp [hi, hq]

theorem sessionState_merged_lost (hi : i ≠ "")
    (h : S.sessions.get i = some a) (hlive : a.deletedAt = none) (hstable : Stable a.updatedAt) (hlost : ¬ Wins D i a) :
    (merged E now D S w).sessionState i = D.sessionState i := by
  obtain ⟨pre, post, hsplit, hpre, hpost⟩ := sortedSessions_split h
  rw [sessionState_merged hsplit hpost]
  have hw : writesSession .sync (Sessions.liveUpdatedAt (treeOf E now D S w).2.1) now (entryOf E.json S (i, a)) = false :=
    eq_false_iff.2 fun hw => hlost ((writesSession_entryOf hi hlive hstable).1 hw)
  rcases applyOneSession_of_not_writes E.json .sync (treeOf E now D S w).1 _ now (entryOf E.json S (i, a))
    (reachedAt E now D S w pre) hw with hsame | ⟨-, htomb, -⟩
  · unfold applyEntry
    rw [hsame]
    exact sessionState_reachedAt hpre
  · rw [isTombstone_entryOf, hlive] at htomb
    cases htomb

/-- The row `D` builds from the entry of a session of `S`. -/
def arriving (E : Env Text) (now : Int64) (D S : Db Text) (w : Pushed) (e : String × SessionParent Text) :
    SessionRow Text :=
  received E.json (treeOf E now D S w).1 now (rowOf S e) (folderPathOf S e.2.folderId)

theorem applyEntry_wins (hi : i ≠ "") (hlive : a.deletedAt = none)
    (hstable : Stable a.updatedAt) (hwins : Wins D i a) (s : Applying Text) :
    (applyEntry E now D S w (i, a) s).1 = (Sessions.upsert s.1 (arriving E now D S w (i, a))).1 := by
  have hw : writesSession .sync (Sessions.liveUpdatedAt (treeOf E now D S w).2.1) now (entryOf E.json S (i, a)) = true :=
    (writesSession_entryOf hi hlive hstable).2 hwins
  unfold applyEntry arriving
  rw [applyOneSession_of_writes _ _ _ _ _ _ _ hw]
  unfold entryOf
  rw [buildSessionRow_sessionRowToJson]

/-! ### What an arriving row refers to -/

/-- The session `x` is live and listed before `i`. -/
def ListedLiveBefore (S : Db Text) (x i : String) : Prop :=
  ∃ q, (x, q) ∈ (sortedSessions S).takeWhile (fun e => e.1 ≠ i) ∧ q.deletedAt = none

theorem isSome_sessions_applyEntry (hmap : MapsToFolders s.1 (treeOf E now D S w).1) {x : String}
    (hknown : (Sessions.liveUpdatedAt D x).isSome → (s.1.sessions.get x).isSome) (e : String × SessionParent Text) :
    ((applyEntry E now D S w e s).1.sessions.get x).isSome ↔
      (s.1.sessions.get x).isSome ∨ (e.1 = x ∧ x ≠ "" ∧ e.2.deletedAt = none) := by
  unfold applyEntry
  by_cases hx : e.1 = x
  · subst hx
    by_cases hw : writesSession .sync (Sessions.liveUpdatedAt (treeOf E now D S w).2.1) now (entryOf E.json S e) = true
    · have hparent := upsert_parent s.1 _ (folderOk_buildSessionRow hmap E.json .sync now (entryOf E.json S e))
      rw [show (buildSessionRow E.json .sync (treeOf E now D S w).1 now (entryOf E.json S e)).id = e.1 from
        jsonString_entryOf E.json S e] at hparent
      have hwritten : e.1 ≠ "" ∧ e.2.deletedAt = none := by
        unfold writesSession at hw
        rw [jsonString_entryOf, isTombstone_entryOf] at hw
        simp only [and_eq_true, decide_eq_true_eq, not_eq_true', isSome_eq_false_iff, isNone_iff_eq_none] at hw
        exact hw.1
      rw [applyOneSession_of_writes _ _ _ _ _ _ _ hw, hparent]
      simp [hwritten]
    · rw [not_eq_true] at hw
      rcases applyOneSession_of_not_writes E.json .sync (treeOf E now D S w).1 _ now (entryOf E.json S e) s hw with
        hsame | ⟨-, htomb, -, happly⟩
      · rw [hsame]
        refine ⟨.inl, ?_⟩
        rintro (h | ⟨-, hne, hlive⟩)
        · exact h
        -- A live entry that is not written lost to a row that was live at the start.
        unfold writesSession at hw
        rw [jsonString_entryOf, isTombstone_entryOf, hlive, liveUpdatedAt_treeOf] at hw
        apply hknown
        rcases hlocal : Sessions.liveUpdatedAt D e.1 with _ | u
        · simp [hlocal, hne, lwwPeerLoses] at hw
        · rfl
      · rw [isTombstone_entryOf] at htomb
        have hget : (Sessions.applyTombstone s.1 e.1 ((jsonI64Opt (entryOf E.json S e) "deleted_at_ms").getD 0)).sessions.get
            e.1 = (s.1.sessions.get e.1).map (deleteParent _) :=
          congrArg Db.SessionState.parent (sessionState_applyTombstone s.1 e.1 _)
        rw [happly, jsonString_entryOf, hget, isSome_map]
        refine ⟨.inl, ?_⟩
        rintro (h | ⟨-, -, hlive⟩)
        · exact h
        · rw [hlive] at htomb
          cases htomb
  · have hget := congrArg Db.SessionState.parent (sessionState_applyOneSession_ne E.json .sync (treeOf E now D S w).1
      (Sessions.liveUpdatedAt (treeOf E now D S w).2.1) now (entryOf E.json S e) s
      (by rw [jsonString_entryOf]; exact Ne.symm hx))
    rw [show (applyOneSession E.json .sync (treeOf E now D S w).1 (Sessions.liveUpdatedAt (treeOf E now D S w).2.1) now
      (entryOf E.json S e) s).1.sessions.get x = s.1.sessions.get x from hget]
    simp [hx]

theorem reachedAt_eq (pre : List (String × SessionParent Text)) :
    reachedAt E now D S w pre = pre.foldl (fun s e => applyEntry E now D S w e s) (treeOf E now D S w).2 := by
  unfold reachedAt before sessionsReached sessionLoop
  rw [foldl_map]
  rfl

theorem isSome_sessions_reachedAt (pre : List (String × SessionParent Text)) (x : String) :
    ((reachedAt E now D S w pre).1.sessions.get x).isSome ↔
      (D.sessions.get x).isSome ∨ ∃ e ∈ pre, e.1 = x ∧ x ≠ "" ∧ e.2.deletedAt = none := by
  have hstart : (treeOf E now D S w).2.1.sessions.get x = D.sessions.get x :=
    congrArg Db.SessionState.parent (sessionState_treeOf x)
  rw [reachedAt_eq, foldl_or_iff (P := fun s : Applying Text => (s.1.sessions.get x).isSome)
    (I := fun s : Applying Text => MapsToFolders s.1 (treeOf E now D S w).1 ∧
      ((Sessions.liveUpdatedAt D x).isSome → (s.1.sessions.get x).isSome)) ?_ ?_ ?_]
  · rw [hstart]
  · intro s e _ hs
    exact ⟨mapsToFolders_applyOneSession hs.1,
      fun h => (isSome_sessions_applyEntry hs.1 hs.2 e).2 (.inl (hs.2 h))⟩
  · exact fun s e _ hs => isSome_sessions_applyEntry hs.1 hs.2 e
  · refine ⟨(applyFolderTree_grows E .sync now (sessionEntries E.json S) _).2, fun h => ?_⟩
    rw [hstart]
    exact isSome_of_isSome_bind h

def keyEntries (S : Db Text) : List Json := (SshKeys.listAllWithTombstones S).map fun e => buildKeyValue e.1 e.2

theorem jsonString_buildKeyValue (k : SshKeyRow) :
    jsonString (buildKeyValue k deletedAt) "id" = k.id := by
  unfold buildKeyValue jsonString
  rcases k.backend <;> simp [get_insertTombstone, get_insertOpt]

theorem isTombstone_buildKeyValue (k : SshKeyRow) :
    isTombstone (buildKeyValue k deletedAt) = deletedAt.isSome := by
  unfold buildKeyValue isTombstone jsonFlag
  rcases deletedAt with _ | ts
  · rcases k.backend <;> simp [get_insertTombstone, get_insertOpt]
  · rcases k.backend <;> simp [get_insertTombstone]

theorem isSome_applyOneKeySync {live : String → Option Int64} {now : Int64} {v : Json} {k : String}
    (hknown : (live k).isSome → (s.1.sshKeys.get k).isSome) :
    ((applyOneKeySync live now v s).1.sshKeys.get k).isSome ↔
      (s.1.sshKeys.get k).isSome ∨ (jsonString v "id" = k ∧ k ≠ "" ∧ isTombstone v = false) := by
  unfold applyOneKeySync
  dsimp only
  split_ifs with hid htomb hlww
  · refine ⟨.inl, ?_⟩
    rintro (h | ⟨hk, hne, -⟩)
    · exact h
    · exact absurd (hk ▸ hid) hne
  · refine Iff.trans ?_ (or_iff_left fun h => Bool.noConfusion (htomb.symm.trans h.2.2)).symm
    unfold SshKeys.applyTombstone
    rcases hget : s.1.sshKeys.get (jsonString v "id") with _ | r
    · rfl
    · dsimp only
      split_ifs
      · by_cases hk : k = jsonString v "id"
        · simp [hk, hget]
        · simp [hk]
      · rfl
  · refine ⟨.inl, ?_⟩
    rintro (h | ⟨rfl, -, -⟩)
    · exact h
    apply hknown
    unfold lwwPeerLoses at hlww
    rcases hlocal : live (jsonString v "id") with _ | u
    · simp [hlocal] at hlww
    · rfl
  · rw [not_eq_true] at htomb
    by_cases hk : k = jsonString v "id"
    · subst hk
      simp [SshKeys.upsert, hid, htomb]
    · simp [SshKeys.upsert, hk, Ne.symm hk]

theorem mem_keyEntries {k : String} (S : Db Text) : (∃ v ∈ keyEntries S, jsonString v "id" = k ∧ isTombstone v = false) ↔
    ∃ e, S.sshKeys.get k = some e ∧ e.deletedAt = none := by
  unfold keyEntries SshKeys.listAllWithTombstones
  simp only [List.map_map, List.mem_map, mem_mergeSort, Function.comp_apply]
  constructor
  · rintro ⟨v, ⟨e, he, rfl⟩, hid, htomb⟩
    rw [jsonString_buildKeyValue] at hid
    rw [isTombstone_buildKeyValue, Option.isSome_eq_false_iff, Option.isNone_iff_eq_none] at htomb
    exact ⟨e.2, hid ▸ (S.sshKeys.mem_rows_iff e.1 e.2).1 he, htomb⟩
  · rintro ⟨e, he, hlive⟩
    refine ⟨_, ⟨(k, e), (S.sshKeys.mem_rows_iff k e).2 he, rfl⟩, jsonString_buildKeyValue _ _, ?_⟩
    rw [isTombstone_buildKeyValue, hlive]
    rfl

theorem sshKeys_reachedAt (pre : List (String × SessionParent Text)) : (reachedAt E now D S w pre).1.sshKeys =
    (afterKeys E .sync none now (snapshot E.json S w) (D, {})).1.sshKeys := by
  have hloop := ignores (g := Db.sshKeys) (x := Db.withoutSessions) (fun _ => rfl) _ _
    (sessionLoop_withoutSessions E.json .sync (treeOf E now D S w).1
      (liveSessions .sync (treeOf E now D S w).2.1) now (pre.map (entryOf E.json S)) (treeOf E now D S w).2)
  have htree := ignores (g := Db.sshKeys) (x := Db.withoutFolders) (fun _ => rfl) _ _
    (applyFolderTree_grows E .sync now (sessionEntries E.json S)
      (afterKeys E .sync none now (snapshot E.json S w) (D, {}))).1.rest
  exact hloop.trans htree

theorem isSome_sshKeys_reachedAt (pre : List (String × SessionParent Text)) (k : String) :
    ((reachedAt E now D S w pre).1.sshKeys.get k).isSome ↔
      (D.sshKeys.get k).isSome ∨ k ≠ "" ∧ ∃ e, S.sshKeys.get k = some e ∧ e.deletedAt = none := by
  rw [sshKeys_reachedAt]
  by_cases hrows : S.sshKeys.rows = []
  · have hnone : S.sshKeys.get k = none := by
      unfold Table.get
      rw [hrows]
      rfl
    have hkeys : (snapshot E.json S w).keysJson = none := by
      show (buildManagerKeysValue S).map E.json.toStr = none
      rw [buildManagerKeysValue, if_pos hrows]
      rfl
    unfold afterKeys
    rw [hkeys, hnone]
    simp [overEntry]
  · have hkeys : (snapshot E.json S w).keysJson = some (E.json.toStr (.arr (keyEntries S))) := by
      show (buildManagerKeysValue S).map E.json.toStr = _
      rw [buildManagerKeysValue, if_neg hrows]
      rfl
    have hparse : parseArray E.json (E.json.toStr (.arr (keyEntries S))) = .ok (keyEntries S) := by
      unfold parseArray
      rw [E.json.fromStr_toStr]
    have hafter : afterKeys E .sync none now (snapshot E.json S w) (D, {}) =
        (keyEntries S).foldl (fun s v => applyOneKeySync (SshKeys.liveCreatedAt D) now v s) (D, {}) := by
      unfold afterKeys
      rw [hkeys]
      exact overEntry_items hparse "keys" _ _
    have hloop := foldl_or_iff (P := fun s : Applying Text => (s.1.sshKeys.get k).isSome)
      (I := fun s : Applying Text => (SshKeys.liveCreatedAt D k).isSome → (s.1.sshKeys.get k).isSome)
      (H := fun v => jsonString v "id" = k ∧ k ≠ "" ∧ isTombstone v = false) (l := keyEntries S)
      (f := fun s v => applyOneKeySync (SshKeys.liveCreatedAt D) now v s)
      (fun s v _ hs h => (isSome_applyOneKeySync hs).2 (.inl (hs h))) (fun s v _ hs => isSome_applyOneKeySync hs)
      (s := (D, {})) isSome_of_isSome_bind
    rw [hafter, hloop, ← mem_keyEntries S]
    simp only [← exists_and_left]
    refine or_congr_right ⟨?_, ?_⟩
    · rintro ⟨v, hv, hid, hne, htomb⟩
      exact ⟨v, hne, hv, hid, htomb⟩
    · rintro ⟨v, hne, hv, hid, htomb⟩
      exact ⟨v, hv, hid, hne, htomb⟩

/-- The key and the jump host of a session of `S` are on `D` when its entry is reached: they were
there, or arrive with the snapshot, the jump host in an earlier entry. -/
structure RefsArrive (D S : Db Text) (e : String × SessionParent Text) : Prop where
  key : ∀ k, (rowOf S e).keyId = some k → k ≠ "" →
    (D.sshKeys.get k).isSome ∨ ∃ r, S.sshKeys.get k = some r ∧ r.deletedAt = none
  via : ∀ x, (rowOf S e).viaSessionId = some x → x ≠ "" → x = e.1 ∨ (D.sessions.get x).isSome ∨ ListedLiveBefore S x e.1

theorem all_filter_ne_empty {P : String → Bool} (o : Option String) :
    (o.filter (· ≠ "")).all P = true ↔ ∀ x, o = some x → x ≠ "" → P x = true := by
  rcases o with _ | t
  · simp
  · by_cases h : t = "" <;> simp [h, filter_some]

theorem refsOk_arriving
    (hsplit : sortedSessions S = pre ++ (i, a) :: post) (hpre : ∀ e ∈ pre, e.1 ≠ i) :
    refsOk (reachedAt E now D S w pre).1 (arriving E now D S w (i, a)) = true ↔ RefsArrive D S (i, a) := by
  have hbefore : (sortedSessions S).takeWhile (fun e => e.1 ≠ i) = pre := by
    rw [hsplit, takeWhile_append_of_pos (by simpa using hpre)]
    simp
  have hkey := all_filter_ne_empty (P := fun k => ((reachedAt E now D S w pre).1.sshKeys.get k).isSome)
    (rowOf S (i, a)).keyId
  have hvia := all_filter_ne_empty
    (P := fun x => x = (rowOf S (i, a)).id || ((reachedAt E now D S w pre).1.sessions.get x).isSome)
    (rowOf S (i, a)).viaSessionId
  unfold refsOk arriving received
  rw [and_eq_true, hkey, hvia]
  constructor
  · rintro ⟨hk, hv⟩
    refine ⟨fun k hkey hne => ?_, fun x hx hne => ?_⟩
    · exact ((isSome_sshKeys_reachedAt pre k).1 (hk k hkey hne)).imp_right And.right
    · have h := hv x hx hne
      rw [or_eq_true, decide_eq_true_eq] at h
      refine h.imp_right fun h => ((isSome_sessions_reachedAt pre x).1 h).imp_right ?_
      rintro ⟨e, he, rfl, -, hlive⟩
      exact ⟨e.2, by rw [hbefore]; exact he, hlive⟩
  · rintro ⟨hk, hv⟩
    refine ⟨fun k hkey hne => ?_, fun x hx hne => ?_⟩
    · exact (isSome_sshKeys_reachedAt pre k).2 ((hk k hkey hne).imp_right fun h => ⟨hne, h⟩)
    · rw [or_eq_true, decide_eq_true_eq]
      refine (hv x hx hne).imp_right fun h => (isSome_sessions_reachedAt pre x).2 (h.imp_right ?_)
      rintro ⟨q, hq, hlive⟩
      rw [hbefore] at hq
      exact ⟨(x, q), hq, rfl, hne, hlive⟩

/-! ### Folders -/

theorem kept_treeOf : Folders.Kept D (treeOf E now D S w).2.1 := by
  have hkeys : (afterKeys E .sync none now (snapshot E.json S w) (D, {})).1.folders = D.folders :=
    overEntry_fixes Db.folders _ _ _ _ (fun items s =>
      ignores (x := Db.withoutKeys) (fun _ => rfl) _ _ (applyKeyItems_withoutKeys E .sync now items s)) _
  have hgrow := (applyFolderTree_grows E .sync now (sessionEntries E.json S)
    (afterKeys E .sync none now (snapshot E.json S w) (D, {}))).1.kept
  intro id row hrow
  exact hgrow id row (by rw [hkeys]; exact hrow)

theorem folders_merged : (merged E now D S w).folders = (treeOf E now D S w).2.1.folders := by
  have hsessions : (afterSessions E .sync none now (snapshot E.json S w) (D, {})).2 =
      (applySessionsJson E .sync now (E.json.toStr (buildSessionsValue E.json S))
        (afterKeys E .sync none now (snapshot E.json S w) (D, {}))).2 := rfl
  unfold merged mergePendingIntoLocal
  rw [runApply_fixes_afterTags (g := Db.folders) (fun _ => rfl) fun _ => rfl,
    afterTags_fixes (g := Db.folders) fun _ => rfl, hsessions]
  unfold applySessionsJson
  rw [parseArray_sessions]
  exact ignores (g := Db.folders) (x := Db.withoutSessions) (fun _ => rfl) _ _
    (sessionLoop_withoutSessions E.json .sync _ _ now _ _)

theorem kept_merged : Folders.Kept D (merged E now D S w) := by
  intro id row hrow
  rw [folders_merged]
  exact kept_treeOf id row hrow

theorem folderPathOf_arriving {e : String × SessionParent Text} (he : e ∈ sortedSessions S) :
    folderPathOf (merged E now D S w) (arriving E now D S w e).folderId =
      "/".intercalate (Folders.segments (folderPathOf S e.2.folderId)) := by
  set path := folderPathOf S e.2.folderId with hpath
  have hfolderId : (arriving E now D S w e).folderId =
      if path = "" then none else (treeOf E now D S w).1.lookup path := rfl
  obtain ⟨-, hpaths, -, hmet⟩ := ensureFolderPathsSync_spec E now (folderPaths (sessionEntries E.json S)) []
    (afterKeys E .sync none now (snapshot E.json S w) (D, {})) ⟨by simp⟩
  have hkept : Folders.Kept (treeOf E now D S w).2.1 (merged E now D S w) := by
    intro id row hrow
    rw [folders_merged]
    exact hrow
  by_cases hempty : path = ""
  · rw [hfolderId, if_pos hempty, hempty]
    rfl
  rw [hfolderId, if_neg hempty]
  rcases hlook : (treeOf E now D S w).1.lookup path with _ | id
  · -- Only a path without segments is not in the map.
    have hlisted : path ∈ folderPaths (sessionEntries E.json S) := by
      unfold folderPaths
      rw [mem_mergeSort, mem_dedup, mem_filterMap]
      refine ⟨entryOf E.json S e, mem_map_of_mem he, ?_⟩
      unfold entryOf
      rw [jsonNonEmpty_folder, ← hpath, if_neg hempty]
    have hsegs : Folders.segments path = [] := by
      by_contra hsegs
      have hsome := hmet path hlisted hsegs hempty
      rw [show (ensureFolderPathsSync E now (folderPaths (sessionEntries E.json S)) []
        (afterKeys E .sync none now (snapshot E.json S w) (D, {}))).1.lookup path = none from hlook] at hsome
      cases hsome
    rw [hsegs]
    rfl
  · obtain ⟨l₁, l₂, hmap, -⟩ := lookup_eq_some_iff.1 hlook
    have hchain : Folders.Chain (treeOf E now D S w).2.1 (some id) (Folders.segments path) :=
      hpaths.chain (path, id) (by
        show (path, id) ∈ (treeOf E now D S w).1
        rw [hmap]
        simp)
    have hfinal := hchain.mono hkept
    obtain ⟨row, hrow⟩ := isSome_iff_exists.1 hfinal.isSome
    unfold folderPathOf
    rw [bind_some, hrow]
    exact Folders.pathOf_of_chain hfinal

/-! ### What the composer emits afterwards -/

def composed (J : JsonText Text) (db : Db Text) (i : String) : Option Json :=
  (db.sessions.get i).map fun p => entryOf J db (i, p)

theorem folderPathOf_none (db : Db Text) : folderPathOf db none = "" := rfl

theorem composed_merged_kept (hrefs : D.RefsOk) (h : (merged E now D S w).sessionState i = D.sessionState i) :
    composed E.json (merged E now D S w) i = composed E.json D i := by
  have hparent : (merged E now D S w).sessions.get i = D.sessions.get i := congrArg Db.SessionState.parent h
  have hdetails : (merged E now D S w).sshDetails.get i = D.sshDetails.get i := congrArg Db.SessionState.details h
  unfold composed
  rw [hparent]
  rcases hp : D.sessions.get i with _ | p
  · rw [map_none, map_none]
  have hpath : folderPathOf (merged E now D S w) p.folderId = folderPathOf D p.folderId := by
    rcases hf : p.folderId with _ | f
    · rw [folderPathOf_none, folderPathOf_none]
    · have hsome := hrefs.folder i p hp f hf
      obtain ⟨row, hrow⟩ := isSome_iff_exists.1 hsome
      unfold folderPathOf
      rw [bind_some, bind_some, hrow, kept_merged f row hrow, map_some, map_some,
        Folders.pathOf_kept kept_merged hrefs hsome]
  rw [map_some, map_some]
  unfold entryOf rowOf
  rw [hpath, hdetails]

/-- The details `D` has after the entry of a winning SSH session: those of the entry when its
references arrive, else the ones it had. -/
structure StoredAs (E : Env Text) (now : Int64) (D S : Db Text) (w : Pushed) (e : String × SessionParent Text) : Prop where
  parent : (merged E now D S w).sessions.get e.1 = some (parentWritten (D.sessions.get e.1) (arriving E now D S w e))
  other : kindMember (rowOf S e) ≠ "" → (merged E now D S w).sshDetails.get e.1 = none
  resolved : kindMember (rowOf S e) = "" → RefsArrive D S e →
    (merged E now D S w).sshDetails.get e.1 = some (detailsWritten (arriving E now D S w e))
  missing : kindMember (rowOf S e) = "" → ¬ RefsArrive D S e →
    (merged E now D S w).sshDetails.get e.1 = D.sshDetails.get e.1

theorem storedAs_merged (hi : i ≠ "") (h : S.sessions.get i = some a)
    (hlive : a.deletedAt = none) (hstable : Stable a.updatedAt) (hwins : Wins D i a) : StoredAs E now D S w (i, a) := by
  obtain ⟨pre, post, hsplit, hpre, hpost⟩ := sortedSessions_split h
  have hreached : (reachedAt E now D S w pre).1.sessionState i = D.sessionState i :=
    sessionState_reachedAt hpre
  have hparentAt : (reachedAt E now D S w pre).1.sessions.get i = D.sessions.get i :=
    congrArg Db.SessionState.parent hreached
  have hdetailsAt : (reachedAt E now D S w pre).1.sshDetails.get i = D.sshDetails.get i :=
    congrArg Db.SessionState.details hreached
  have hstate : (merged E now D S w).sessionState i =
      (Sessions.upsert (reachedAt E now D S w pre).1 (arriving E now D S w (i, a))).1.sessionState i := by
    rw [sessionState_merged hsplit hpost, applyEntry_wins hi hlive hstable hwins]
  have hfolder : folderOk (reachedAt E now D S w pre).1 (arriving E now D S w (i, a)) = true := by
    have hmaps := folderOk_buildSessionRow
      (before_maps E .sync none now (snapshot E.json S w) D (sessionEntries E.json S) (pre.map (entryOf E.json S)))
      E.json .sync now (entryOf E.json S (i, a))
    unfold entryOf at hmaps
    rw [buildSessionRow_sessionRowToJson] at hmaps
    exact hmaps
  have hkind : normaliseKind (arriving E now D S w (i, a)).kind = kindSsh ↔
      kindMember (rowOf S (i, a)) = "" := normaliseKind_received _ _ _ _ _
  have hparent := upsert_parent _ _ hfolder
  have hid : (arriving E now D S w (i, a)).id = i := rfl
  rw [hid, hparentAt] at hparent
  have hdetails : (merged E now D S w).sshDetails.get i =
      (Sessions.upsert (reachedAt E now D S w pre).1 (arriving E now D S w (i, a))).1.sshDetails.get i :=
    congrArg Db.SessionState.details hstate
  refine ⟨(congrArg Db.SessionState.parent hstate).trans hparent, fun hne => ?_, fun hssh hrefs => ?_, fun hssh hrefs => ?_⟩
  · rcases upsert_cases (reachedAt E now D S w pre).1 (arriving E now D S w (i, a)) with
      ⟨hf, -⟩ | ⟨-, hk, -⟩ | ⟨-, hk, -⟩ | ⟨-, -, hu⟩
    · rw [hfolder] at hf
      cases hf
    · exact absurd (hkind.1 hk) hne
    · exact absurd (hkind.1 hk) hne
    · rw [hdetails, hu]
      simp [dropOtherDetails, hid]
  · rcases upsert_cases (reachedAt E now D S w pre).1 (arriving E now D S w (i, a)) with
      ⟨hf, -⟩ | ⟨-, -, hno, -⟩ | ⟨-, -, -, hu⟩ | ⟨-, hk, -⟩
    · rw [hfolder] at hf
      cases hf
    · rw [(refsOk_arriving hsplit hpre).2 hrefs] at hno
      cases hno
    · rw [hdetails, hu]
      simp [dropOtherDetails, hid]
    · exact absurd (hkind.2 hssh) hk
  · rcases upsert_cases (reachedAt E now D S w pre).1 (arriving E now D S w (i, a)) with
      ⟨hf, -⟩ | ⟨-, -, -, hu⟩ | ⟨-, -, hyes, -⟩ | ⟨-, hk, -⟩
    · rw [hfolder] at hf
      cases hf
    · rw [hdetails, hu]
      exact hdetailsAt
    · exact absurd ((refsOk_arriving hsplit hpre).1 hyes) hrefs
    · exact absurd (hkind.2 hssh) hk

/-- The session `a` of `S` arrives on `D` with everything the composer emits. -/
structure Survives (J : JsonText Text) (now : Int64) (D S : Db Text) (i : String) (a : SessionParent Text) : Prop where
  named : i ≠ ""
  notes : a.notes = ""
  created : formatIso8601Utc (createdIn (D.sessions.get i) (rowOf S (i, a)) now) = formatIso8601Utc a.createdAt
  folder : "/".intercalate (Folders.segments (folderPathOf S a.folderId)) = folderPathOf S a.folderId
  refs : kindMember (rowOf S (i, a)) = "" → RefsArrive D S (i, a)
  blank : kindMember (rowOf S (i, a)) ≠ "" → sessionFields J (blankDetails (rowOf S (i, a))) (folderPathOf S a.folderId) =
      sessionFields J (rowOf S (i, a)) (folderPathOf S a.folderId)

theorem composed_eq_iff {p p' : SessionParent Text}
    (h : db.sessions.get i = some p) (h' : db'.sessions.get i = some p') (hlive : p.deletedAt = none)
    (hlive' : p'.deletedAt = none) :
    composed J db i = composed J db' i ↔ sessionFields J (rowOf db (i, p)) (folderPathOf db p.folderId) =
        sessionFields J (rowOf db' (i, p')) (folderPathOf db' p'.folderId) := by
  unfold composed entryOf sessionRowToJson
  rw [h, h', map_some, map_some, hlive, hlive']
  exact ⟨fun h => Json.obj.inj (Option.some.inj h), fun h => congrArg (fun o => some (Json.obj o)) h⟩

theorem refsArrive_of_details (hrefs : D.RefsOk) {r : SessionRow Text}
    (hkey : r.keyId = ((D.sshDetails.get i).getD noDetails).keyId)
    (hvia : r.viaSessionId = ((D.sshDetails.get i).getD noDetails).viaSessionId)
    {path path' : String} (h : sessionFields J r path' = sessionFields J (rowOf S (i, a)) path) :
    RefsArrive D S (i, a) := by
  have hget := fun k => congrArg (fun o => Json.Object.get o k) h
  have hsame : ∀ {o o' : Option String}, (if o.getD "" ≠ "" then some (Json.str (o.getD "")) else none) =
        (if o'.getD "" ≠ "" then some (Json.str (o'.getD "")) else none) → ∀ t, o' = some t → t ≠ "" → o = some t := by
    intro o o' heq t ho' ht
    subst ho'
    rcases o with _ | t'
    · simp [ht] at heq
    · by_cases ht' : t' = ""
      · simp [ht, ht'] at heq
      · simp [ht, ht'] at heq
        rw [heq]
  have hall : D.refsResolve r.keyId r.viaSessionId = true := by
    rw [hkey, hvia]
    rcases hd : D.sshDetails.get i with _ | d
    · rfl
    · exact hrefs.details i d hd
  unfold Db.refsResolve at hall
  rw [and_eq_true] at hall
  constructor
  · intro k hk hne
    have hk' := hget "key_id"
    simp only [sessionFields_keyId] at hk'
    have hresolved := hall.1
    rw [hsame hk' k hk hne] at hresolved
    exact .inl hresolved
  · intro x hx hne
    have hx' := hget "via_session_id"
    simp only [sessionFields_viaSessionId] at hx'
    have hresolved := hall.2
    rw [hsame hx' x hx hne] at hresolved
    exact .inr (.inl hresolved)

theorem composed_merged_wins_iff (hrefs : D.RefsOk) (hi : i ≠ "")
    (h : S.sessions.get i = some a) (hlive : a.deletedAt = none) (hstable : Stable a.updatedAt) (hwins : Wins D i a) :
    composed E.json (merged E now D S w) i = composed E.json S i ↔ Survives E.json now D S i a := by
  have hst : StoredAs E now D S w (i, a) := storedAs_merged hi h hlive hstable hwins
  have hpath : folderPathOf (merged E now D S w) (arriving E now D S w (i, a)).folderId =
      "/".intercalate (Folders.segments (folderPathOf S a.folderId)) :=
    folderPathOf_arriving ((mem_sortedSessions S (i, a)).2 h)
  rw [composed_eq_iff hst.parent h rfl hlive]
  by_cases hmissing : kindMember (rowOf S (i, a)) = "" ∧ ¬ RefsArrive D S (i, a)
  · -- The old details stay, and they cannot name the missing row.
    refine iff_of_false (fun heq => hmissing.2 ?_) fun hs => hmissing.2 (hs.refs hmissing.1)
    refine refsArrive_of_details hrefs ?_ ?_ heq
    · unfold rowOf
      rw [hst.missing hmissing.1 hmissing.2]
      rfl
    · unfold rowOf
      rw [hst.missing hmissing.1 hmissing.2]
      rfl
  · have hrow : rowOf (merged E now D S w) (i, parentWritten (D.sessions.get i) (arriving E now D S w (i, a))) =
        storedRow E.json (treeOf E now D S w).1 now (D.sessions.get i) (rowOf S (i, a)) (folderPathOf S a.folderId) := by
      have hdetails : (merged E now D S w).sshDetails.get i =
          if kindMember (rowOf S (i, a)) = "" then some (detailsWritten (arriving E now D S w (i, a)))
          else none := by
        split_ifs with hssh
        · exact hst.resolved hssh (not_not.1 fun hno => hmissing ⟨hssh, hno⟩)
        · exact hst.other hssh
      unfold rowOf
      rw [hdetails]
      rfl
    have hfolder : (parentWritten (D.sessions.get i) (arriving E now D S w (i, a))).folderId =
        (arriving E now D S w (i, a)).folderId := rfl
    have hupdated : (rowOf S (i, a)).updatedAtMs = a.updatedAt := rfl
    have hcreatedAt : (rowOf S (i, a)).createdAtMs = a.createdAt := rfl
    rw [hrow, hfolder, hpath, sessionFields_storedRow_iff _ _ _ _ _ _ (hupdated ▸ hstable), hcreatedAt]
    constructor
    · rintro ⟨hnotes, hcreated, hpath', hblank⟩
      exact ⟨hi, hnotes, hcreated, hpath', fun hssh => not_not.1 fun hno => hmissing ⟨hssh, hno⟩, hblank⟩
    · intro hs
      exact ⟨hs.notes, hs.created, hs.folder, hs.blank⟩

end Merge

/-! ## Two devices -/

/-- The stamp a session is compared by: the later of its edit and its deletion. -/
def effectiveStamp (p : SessionParent Text) : Int64 := p.deletedAt.elim p.updatedAt (max p.updatedAt)

/-- Two databases agree on a session: both have it live or neither, and a live one is composed alike. -/
def Agree (J : JsonText Text) (A B : Db Text) (i : String) : Prop :=
  (Live A i ↔ Live B i) ∧ (Live A i → composed J A i = composed J B i)

theorem Agree.symm {A B : Db Text} (h : Agree J A B i) : Agree J B A i :=
  ⟨h.1.symm, fun hB => (h.2 (h.1.2 hB)).symm⟩

theorem agree_of_not_live {A B : Db Text} (hA : ¬ Live A i) (hB : ¬ Live B i) :
    Agree J A B i := ⟨iff_of_false hA hB, fun h => absurd h hA⟩

/-- When the two devices agree on a session, by the rows they had before the exchange. -/
def AgreeWhen (J : JsonText Text) (nowA nowB : Int64) (A B : Db Text) (i : String) : Prop :=
  match A.sessions.get i, B.sessions.get i with
  | none, none => True
  | some a, none => a.deletedAt = none → Survives J nowB B A i a
  | none, some b => b.deletedAt = none → Survives J nowA A B i b
  | some a, some b =>
    match a.deletedAt, b.deletedAt with
    | none, none => if b.updatedAt < a.updatedAt then Survives J nowB B A i a else Survives J nowA A B i b
    | none, some d => d ≤ a.updatedAt ∧ Survives J nowB B A i a
    | some d, none => d ≤ b.updatedAt ∧ Survives J nowA A B i b
    | some _, some _ => True

section Exchange

variable {EA EB : Env Text} {nowA nowB : Int64} {A B : Db Text} {wA wB : Pushed} {b : SessionParent Text}

section

variable (hjson : EA.json = EB.json) (hA : A.RefsOk) (hB : B.RefsOk)
include hjson hA hB

theorem agree_moved_iff (ha : A.sessions.get i = some a) (hlive : a.deletedAt = none) (hstable : Stable a.updatedAt)
    (hi : i ≠ "") (hkept : (merged EA nowA A B wB).sessionState i = A.sessionState i) (hwins : Wins B i a) :
    Agree EA.json (merged EA nowA A B wB) (merged EB nowB B A wA) i ↔ Survives EA.json nowB B A i a := by
  have hliveA : Live (merged EA nowA A B wB) i := (Live.congr hkept).2 ⟨a, ha, hlive⟩
  have hstored : StoredAs EB nowB B A wA (i, a) := storedAs_merged hi ha hlive hstable hwins
  have hliveB : Live (merged EB nowB B A wA) i := ⟨_, hstored.parent, rfl⟩
  have htrip : composed EB.json (merged EB nowB B A wA) i = composed EB.json A i ↔ Survives EB.json nowB B A i a :=
    composed_merged_wins_iff hB hi ha hlive hstable hwins
  unfold Agree
  rw [composed_merged_kept hA hkept, hjson, ← htrip]
  constructor
  · intro h
    exact (h.2 hliveA).symm
  · intro h
    exact ⟨iff_of_true hliveA hliveB, fun _ => h.symm⟩

theorem not_agree_empty (ha : A.sessions.get "" = some a) (hb : B.sessions.get "" = some b) (hlive : a.deletedAt = none)
    (hlive' : b.deletedAt = none) (hsa : Stable a.updatedAt) (hsb : Stable b.updatedAt) (hne : a.updatedAt ≠ b.updatedAt) :
    ¬ Agree EA.json (merged EA nowA A B wB) (merged EB nowB B A wA) "" := by
  have hkeptA : (merged EA nowA A B wB).sessionState "" = A.sessionState "" := sessionState_merged_empty hb
  have hkeptB : (merged EB nowB B A wA).sessionState "" = B.sessionState "" := sessionState_merged_empty ha
  intro h
  have hcomposed := h.2 ((Live.congr hkeptA).2 ⟨a, ha, hlive⟩)
  rw [composed_merged_kept hA hkeptA, hjson, composed_merged_kept hB hkeptB,
    composed_eq_iff ha hb hlive hlive'] at hcomposed
  have hk := congrArg (fun o => Json.Object.get o "updated_at") hcomposed
  simp only [sessionFields_updatedAt] at hk
  have htext := Json.str.inj (Option.some.inj hk)
  apply hne
  have hparse := congrArg parseIso8601Opt htext
  have hsa' : parseIso8601Opt (formatIso8601Utc (rowOf A ("", a)).updatedAtMs) = some a.updatedAt := hsa
  have hsb' : parseIso8601Opt (formatIso8601Utc (rowOf B ("", b)).updatedAtMs) = some b.updatedAt := hsb
  rw [hsa', hsb'] at hparse
  exact Option.some.inj hparse

theorem agree_live_live_iff (ha : A.sessions.get i = some a) (hb : B.sessions.get i = some b) (hlive : a.deletedAt = none)
    (hlive' : b.deletedAt = none) (hsa : Stable a.updatedAt) (hsb : Stable b.updatedAt) (hlt : b.updatedAt < a.updatedAt) :
    Agree EA.json (merged EA nowA A B wB) (merged EB nowB B A wA) i ↔ Survives EA.json nowB B A i a := by
  by_cases hi : i = ""
  · subst hi
    exact iff_of_false (not_agree_empty hjson hA hB ha hb hlive hlive' hsa hsb (Int64.ne_of_lt hlt).symm)
      fun hs => hs.named rfl
  have hlost : ¬ Wins A i b := by
    intro hw
    exact Int64.lt_irrefl (Int64.lt_trans hlt (hw a ha hlive))
  have hwins : Wins B i a := by
    intro q hq _
    rw [hb] at hq
    cases hq
    exact hlt
  exact agree_moved_iff hjson hA hB ha hlive hsa hi (sessionState_merged_lost hi hb hlive' hsb hlost) hwins

theorem agree_live_deleted_iff {d : Int64} (ha : A.sessions.get i = some a) (hb : B.sessions.get i = some b)
    (hlive : a.deletedAt = none) (hdel : b.deletedAt = some d) (hsa : Stable a.updatedAt) :
    Agree EA.json (merged EA nowA A B wB) (merged EB nowB B A wA) i ↔ d ≤ a.updatedAt ∧ Survives EA.json nowB B A i a := by
  have hdead : ¬ Live B i := not_live_of_deleted hb hdel
  by_cases hi : i = ""
  · subst hi
    refine iff_of_false (fun h => hdead ?_) fun hs => hs.2.named rfl
    have hliveA : Live (merged EA nowA A B wB) "" := (Live.congr (sessionState_merged_empty hb)).2 ⟨a, ha, hlive⟩
    exact (Live.congr (sessionState_merged_empty ha)).1 (h.1.1 hliveA)
  have hwins : Wins B i a := fun q hq hnone => absurd ⟨q, hq, hnone⟩ hdead
  obtain ⟨hliveA, hkept⟩ : (Live (merged EA nowA A B wB) i ↔ d ≤ a.updatedAt) ∧
      (d ≤ a.updatedAt → (merged EA nowA A B wB).sessionState i = A.sessionState i) :=
    live_merged_tombstone hi hb hdel ha hlive
  by_cases hle : d ≤ a.updatedAt
  · rw [agree_moved_iff hjson hA hB ha hlive hsa hi (hkept hle) hwins]
    exact (and_iff_right hle).symm
  · -- The deletion wins here, and the other side takes the row back.
    have hstored : StoredAs EB nowB B A wA (i, a) := storedAs_merged hi ha hlive hsa hwins
    refine iff_of_false (fun h => hle (hliveA.1 (h.1.2 ⟨_, hstored.parent, rfl⟩))) fun hs => hle hs.1

theorem agree_live_absent_iff (ha : A.sessions.get i = some a) (hb : B.sessions.get i = none) (hlive : a.deletedAt = none)
    (hsa : Stable a.updatedAt) :
    Agree EA.json (merged EA nowA A B wB) (merged EB nowB B A wA) i ↔ Survives EA.json nowB B A i a := by
  have hdead : ¬ Live B i := not_live_of_absent hb
  have hkept : (merged EA nowA A B wB).sessionState i = A.sessionState i := sessionState_merged_absent hb
  by_cases hi : i = ""
  · subst hi
    refine iff_of_false (fun h => hdead ?_) fun hs => hs.named rfl
    exact (Live.congr (sessionState_merged_empty ha)).1 (h.1.1 ((Live.congr hkept).2 ⟨a, ha, hlive⟩))
  · exact agree_moved_iff hjson hA hB ha hlive hsa hi hkept fun q hq hnone => absurd ⟨q, hq, hnone⟩ hdead

end

theorem agree_dead (hA : ¬ Live A i) (hB : ¬ Live B i) :
    Agree J (merged EA nowA A B wB) (merged EB nowB B A wA) i := by
  have hstep : ∀ {E : Env Text} {now : Int64} {D S : Db Text} {w : Pushed}, ¬ Live D i → ¬ Live S i →
      ¬ Live (merged E now D S w) i := by
    intro E now D S w hD hS
    rcases hs : S.sessions.get i with _ | p
    · rw [Live.congr (sessionState_merged_absent hs)]
      exact hD
    · rcases hdel : p.deletedAt with _ | d
      · exact absurd ⟨p, hs, hdel⟩ hS
      · exact not_live_merged_tombstone hs hdel hD
  exact agree_of_not_live (hstep hA hB) (hstep hB hA)

end Exchange

/-- **Convergence of an exchange.** For a session whose effective stamps differ, or that one side
lacks, the devices agree after merging each other's snapshots exactly when the live row that wins
survives its trip and no deletion on the other side is newer than it. -/
theorem converge_iff (EA EB : Env Text) (hjson : EA.json = EB.json) (nowA nowB : Int64) (A B : Db Text)
    (wA wB : Pushed) (i : String) (hA : A.RefsOk) (hB : B.RefsOk)
    (hsA : ∀ a, A.sessions.get i = some a → Stable a.updatedAt)
    (hsB : ∀ b, B.sessions.get i = some b → Stable b.updatedAt)
    (hdiff : ∀ a b, A.sessions.get i = some a → B.sessions.get i = some b → effectiveStamp a ≠ effectiveStamp b) :
    Agree EA.json (merged EA nowA A B wB) (merged EB nowB B A wA) i ↔ AgreeWhen EA.json nowA nowB A B i := by
  have hflip : Agree EA.json (merged EA nowA A B wB) (merged EB nowB B A wA) i ↔
      Agree EB.json (merged EB nowB B A wA) (merged EA nowA A B wB) i := by
    rw [hjson]
    exact ⟨Agree.symm, Agree.symm⟩
  unfold AgreeWhen
  rcases ha : A.sessions.get i with _ | a
  · rcases hb : B.sessions.get i with _ | b
    · exact iff_of_true (agree_dead (not_live_of_absent ha) (not_live_of_absent hb)) trivial
    · rcases hdel : b.deletedAt with _ | d
      · simp only [hdel, forall_const]
        rw [hflip, agree_live_absent_iff hjson.symm hB hA hb ha hdel (hsB b hb), hjson]
      · exact iff_of_true (agree_dead (not_live_of_absent ha) (not_live_of_deleted hb hdel)) (by simp [hdel])
  · rcases hb : B.sessions.get i with _ | b
    · rcases hdel : a.deletedAt with _ | d
      · simp only [hdel, forall_const]
        exact agree_live_absent_iff hjson hA hB ha hb hdel (hsA a ha)
      · exact iff_of_true (agree_dead (not_live_of_deleted ha hdel) (not_live_of_absent hb)) (by simp [hdel])
    rcases hdelA : a.deletedAt with _ | d
    · rcases hdelB : b.deletedAt with _ | d
      · have hne : a.updatedAt ≠ b.updatedAt := by
          have := hdiff a b ha hb
          unfold effectiveStamp at this
          rwa [hdelA, hdelB] at this
        simp only [hdelA, hdelB]
        split_ifs with hlt
        · exact agree_live_live_iff hjson hA hB ha hb hdelA hdelB (hsA a ha) (hsB b hb) hlt
        · have hgt : a.updatedAt < b.updatedAt :=
            Int64.lt_of_le_of_ne (Int64.not_lt.1 hlt) hne
          rw [hflip, agree_live_live_iff hjson.symm hB hA hb ha hdelB hdelA (hsB b hb) (hsA a ha) hgt, hjson]
      · simp only [hdelA, hdelB]
        exact agree_live_deleted_iff hjson hA hB ha hb hdelA hdelB (hsA a ha)
    · rcases hdelB : b.deletedAt with _ | d'
      · simp only [hdelA, hdelB]
        rw [hflip, agree_live_deleted_iff hjson.symm hB hA hb ha hdelB hdelA (hsB b hb), hjson]
      · simp only [hdelA, hdelB]
        exact iff_of_true (agree_dead (not_live_of_deleted ha hdelA) (not_live_of_deleted hb hdelB)) trivial

/-! ### An edit here, a newer deletion there -/

theorem sampleDevice_refsOk : (sampleDevice deletedAt).RefsOk where
  folderParent id row h := by cases h
  folder id p h f hf := by
    unfold sampleDevice at h
    rw [Table.get_set] at h
    split_ifs at h
    · cases h
      cases hf
    · cases h
  parent id d h := by
    unfold sampleDevice at h ⊢
    rw [Table.get_set] at h ⊢
    split_ifs at h ⊢
    · rfl
    · cases h
  details id d h := by
    unfold sampleDevice at h
    rw [Table.get_set] at h
    split_ifs at h
    · cases h
      rfl
    · cases h

def samplePush : Pushed := ⟨30, "1.0", "peer:30"⟩

theorem sampleDevice_stable (p : SessionParent ParsedText)
    (h : (sampleDevice deletedAt).sessions.get "s" = some p) : Stable p.updatedAt := by
  cases h
  show Stable 10
  decide +kernel

theorem sampleDevice_stamps (a b : SessionParent ParsedText) (ha : (sampleDevice none).sessions.get "s" = some a)
    (hb : (sampleDevice (some 20)).sessions.get "s" = some b) : effectiveStamp a ≠ effectiveStamp b := by
  cases ha
  cases hb
  decide +kernel

theorem converge_iff_sample :
    Agree plainEnv.json (merged plainEnv 40 (sampleDevice none) (sampleDevice (some 20)) samplePush)
        (merged plainEnv 50 (sampleDevice (some 20)) (sampleDevice none) samplePush) "s" ↔
      AgreeWhen plainEnv.json 40 50 (sampleDevice none) (sampleDevice (some 20)) "s" :=
  converge_iff plainEnv plainEnv rfl 40 50 (sampleDevice none) (sampleDevice (some 20)) samplePush samplePush "s"
    (sampleDevice_refsOk none) (sampleDevice_refsOk (some 20)) (sampleDevice_stable none) (sampleDevice_stable (some 20))
    sampleDevice_stamps

/-- A session edited at 10 on one device and deleted at 20 on the other: afterwards it is deleted on
the first and live on the second. -/
theorem converge_swapped : (sampleDevice none).RefsOk ∧ (sampleDevice (some 20)).RefsOk ∧
      (∀ a b, (sampleDevice none).sessions.get "s" = some a → (sampleDevice (some 20)).sessions.get "s" = some b →
        effectiveStamp a ≠ effectiveStamp b) ∧
      ¬ Agree plainEnv.json (merged plainEnv 40 (sampleDevice none) (sampleDevice (some 20)) samplePush)
        (merged plainEnv 50 (sampleDevice (some 20)) (sampleDevice none) samplePush) "s" := by
  refine ⟨sampleDevice_refsOk none, sampleDevice_refsOk (some 20), sampleDevice_stamps, fun h => ?_⟩
  have hdead : ((merged plainEnv 40 (sampleDevice none) (sampleDevice (some 20)) samplePush).sessions.get "s").map
      SessionParent.deletedAt = some (some 20) := by decide +kernel
  have hback : ((merged plainEnv 50 (sampleDevice (some 20)) (sampleDevice none) samplePush).sessions.get "s").map
      SessionParent.deletedAt = some none := by decide +kernel
  obtain ⟨p, hp, hlive⟩ := map_eq_some_iff.1 hback
  obtain ⟨q, hq, hnone⟩ := h.1.2 ⟨p, hp, hlive⟩
  rw [hq, map_some, hnone] at hdead
  cases hdead

end LetsFlutSsh.Archive
