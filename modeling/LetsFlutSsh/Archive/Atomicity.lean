import LetsFlutSsh.Archive.Tombstones

/-!
# A session entry that fails

A session is written by several statements without a savepoint. When the details row names a key or
a jump host that is missing, the parent row is already there.

* `Reported`: applying the entry adds an error text;
* `Retriable`: once the references resolve, the same entry is applied and stored whole;
* `RowAtomic`: what a reported entry should leave behind;
* `rowAtomic_iff`: a reported entry is atomic only outside a sync and only when the parent row it
  leaves is the one that was there.
-/

namespace LetsFlutSsh.Archive
open Lib Sessions

variable {Text : Type}

/-! ## Writing a row whole -/

/-- The parent and the details of `row` are stored, on top of what `db` had. -/
structure StoredWhole (db : Db Text) (row : SessionRow Text) (db' : Db Text) : Prop where
  parent : db'.sessions.get row.id = some (parentWritten (db.sessions.get row.id) row)
  details : db'.sshDetails.get row.id =
    if normaliseKind row.kind = kindSsh then some (detailsWritten row) else none

/-- An upsert fails after the parent row exactly when the SSH details name a missing row. -/
def detailsFail (db : Db Text) (row : SessionRow Text) : Bool :=
  normaliseKind row.kind = kindSsh && !refsOk db row

variable {row : SessionRow Text} {db : Db Text}

theorem upsert_of_not_detailsFail (hfolder : folderOk db row = true)
    (h : detailsFail db row = false) :
    (Sessions.upsert db row).2 = .ok () ∧ StoredWhole db row (Sessions.upsert db row).1 := by
  have hparent := upsert_parent db row hfolder
  rcases upsert_cases db row with ⟨hf, -⟩ | ⟨-, hkind, hrefs, -⟩ | ⟨-, hkind, -, hu⟩ | ⟨-, hkind, hu⟩
  · rw [hfolder] at hf
    cases hf
  · simp [detailsFail, hkind, hrefs] at h
  · refine ⟨by rw [hu], hparent, ?_⟩
    rw [hu, if_pos hkind]
    simp [dropOtherDetails]
  · refine ⟨by rw [hu], hparent, ?_⟩
    rw [hu, if_neg hkind]
    simp [dropOtherDetails]

theorem upsert_of_detailsFail (hfolder : folderOk db row = true)
    (h : detailsFail db row = true) :
    Sessions.upsert db row = (writeParent db row, .error (dbError "ssh_session_details upsert" fkFailed)) := by
  unfold detailsFail at h
  rw [Bool.and_eq_true, decide_eq_true_eq, Bool.not_eq_true'] at h
  rcases upsert_cases db row with ⟨hf, -⟩ | ⟨-, -, -, hu⟩ | ⟨-, -, hrefs, -⟩ | ⟨-, hkind, -⟩
  · rw [hfolder] at hf
    cases hf
  · exact hu
  · rw [h.2] at hrefs
    cases hrefs
  · exact absurd h.1 hkind

theorem sessionState_writeParent_iff (db : Db Text) (row : SessionRow Text) :
    (writeParent db row).sessionState row.id = db.sessionState row.id ↔
      db.sessions.get row.id = some (parentWritten (db.sessions.get row.id) row) := by
  unfold writeParent Db.sessionState
  simp only [Table.get_set, if_pos, Db.SessionState.mk.injEq, and_true]
  exact eq_comm

variable {v : Json} {done : List Json}

/-! ## The entry in its import -/

section Entry

variable (E : Env Text) (mode : ApplyMode) (options : Option ApplyOptions) (now : Int64)
variable (p : PendingImport Text) (db : Db Text) (items : List Json)

/-- The import when the entries `done` have been applied. -/
def before (done : List Json) : Applying Text := sessionsReached E mode options now p (db, {}) items done

def entryRow (v : Json) : SessionRow Text :=
  buildSessionRow E.json mode (folderTree E mode options now p (db, {}) items).1 now v

/-- The entry is written, as far as the rows live at the start of the stage tell. -/
def entryWrites (v : Json) : Bool :=
  writesSession mode (liveSessions mode (folderTree E mode options now p (db, {}) items).2.1) now v

/-- The import when the entry after `done` has been applied. -/
def after (done : List Json) (v : Json) : Applying Text :=
  sessionsReached E mode options now p (db, {}) items (done ++ [v])

def Reported (done : List Json) (v : Json) : Prop :=
  (after E mode options now p db items done v).2.errors ≠ (before E mode options now p db items done).2.errors

/-- Once what the entry refers to is there, applying it again counts it and stores it whole. -/
def Retriable (v : Json) (left : Db Text) : Prop :=
  ∀ (db₂ : Db Text) (o : ApplyOutcome) (folderIds : List (String × String)) (now₂ : Int64),
    db₂.sessionState (jsonString v "id") = left.sessionState (jsonString v "id") → MapsToFolders db₂ folderIds →
    refsOk db₂ (buildSessionRow E.json mode folderIds now₂ v) = true →
    (applyOneSession E.json mode folderIds (liveSessions mode db₂) now₂ v (db₂, o)).2.sessionsApplied =
        o.sessionsApplied + 1 ∧
      StoredWhole db₂ (buildSessionRow E.json mode folderIds now₂ v)
        (applyOneSession E.json mode folderIds (liveSessions mode db₂) now₂ v (db₂, o)).1

/-- What a reported entry should leave behind: the session as it was, also when the import ends
unless a later entry has the same id, and nothing that stops a retry. -/
structure RowAtomic (done : List Json) (v : Json) (rest : List Json) : Prop where
  unchanged : (after E mode options now p db items done v).1.sessionState (jsonString v "id") =
    (before E mode options now p db items done).1.sessionState (jsonString v "id")
  kept : (∀ w ∈ rest, jsonString w "id" ≠ jsonString v "id") →
    (runApply E mode options now p (db, {})).1.sessionState (jsonString v "id") =
      (before E mode options now p db items done).1.sessionState (jsonString v "id")
  retried : jsonString v "id" ≠ "" → Retriable E mode v (after E mode options now p db items done v).1

theorem after_eq (done : List Json) (v : Json) : after E mode options now p db items done v =
    applyOneSession E.json mode (folderTree E mode options now p (db, {}) items).1
      (liveSessions mode (folderTree E mode options now p (db, {}) items).2.1) now v
      (before E mode options now p db items done) := by
  unfold after before sessionsReached
  rw [sessionLoop_append]
  rfl

theorem before_maps (done : List Json) :
    MapsToFolders (before E mode options now p db items done).1 (folderTree E mode options now p (db, {}) items).1 :=
  foldl_invariant (I := fun s : Applying Text => MapsToFolders s.1 (folderTree E mode options now p (db, {}) items).1)
    (fun _ _ _ hs => mapsToFolders_applyOneSession hs)
    (applyFolderTree_grows E mode now items (afterKeys E mode options now p (db, {}))).2

theorem folderOk_entryRow (done : List Json) (v : Json) :
    folderOk (before E mode options now p db items done).1 (entryRow E mode options now p db items v) = true :=
  folderOk_buildSessionRow (before_maps E mode options now p db items done) E.json mode now v

variable {E mode options now p db items}

theorem after_of_fails (hw : entryWrites E mode options now p db items v = true)
    (hfail : detailsFail (before E mode options now p db items done).1 (entryRow E mode options now p db items v) = true) :
    after E mode options now p db items done v =
      (writeParent (before E mode options now p db items done).1 (entryRow E mode options now p db items v),
        (before E mode options now p db items done).2.push ("session " ++ jsonString v "id" ++ " upsert: " ++
          dbError "ssh_session_details upsert" fkFailed)) := by
  have hupsert := upsert_of_detailsFail (folderOk_entryRow E mode options now p db items done v) hfail
  rw [after_eq, applyOneSession_of_writes _ _ _ _ _ _ _ hw]
  unfold entryRow at hupsert
  rw [hupsert]
  rfl

theorem reported_of_not_fails (h : entryWrites E mode options now p db items v = false ∨
      detailsFail (before E mode options now p db items done).1 (entryRow E mode options now p db items v) = false)
    (hrep : Reported E mode options now p db items done v) : jsonString v "id" = "" := by
  by_contra hid
  apply hrep
  rw [after_eq]
  by_cases hw : entryWrites E mode options now p db items v = true
  · have hfail := h.resolve_left (by simp [hw])
    obtain ⟨hok, -⟩ := upsert_of_not_detailsFail (folderOk_entryRow E mode options now p db items done v) hfail
    rw [applyOneSession_of_writes _ _ _ _ _ _ _ hw]
    unfold entryRow at hok
    rw [hok]
  · unfold entryWrites writesSession at hw
    unfold applyOneSession
    rw [if_neg hid]
    split_ifs with htomb _ hlww
    · rfl
    · rfl
    · rfl
    · simp [hid, htomb, hlww] at hw

theorem sessionState_runApply_of_entry {text : Text} {rest : List Json}
    (hwant : (WantFlags.fromOptions options).sessions = true) (htext : p.sessionsJson = some text)
    (hitems : parseArray E.json text = .ok items) (hsplit : items = done ++ v :: rest)
    (hrest : ∀ w ∈ rest, jsonString w "id" ≠ jsonString v "id") :
    (runApply E mode options now p (db, {})).1.sessionState (jsonString v "id") =
      (after E mode options now p db items done v).1.sessionState (jsonString v "id") := by
  rw [sessionState_runApply E mode options now p (db, {}) hwant htext hitems]
  have hloop : sessionsReached E mode options now p (db, {}) items items =
      sessionLoop E.json mode (folderTree E mode options now p (db, {}) items).1
        (liveSessions mode (folderTree E mode options now p (db, {}) items).2.1) now rest
        (after E mode options now p db items done v) := by
    unfold after sessionsReached
    rw [← sessionLoop_append, List.append_assoc, List.singleton_append, ← hsplit]
  rw [hloop]
  exact sessionState_sessionLoop_ne E.json mode _ _ now hrest _

/-! ### Retrying -/

theorem retriable_archive (hmode : mode.isSync = false) (hid : jsonString v "id" ≠ "")
    (htomb : isTombstone v = false) (left : Db Text) : Retriable E mode v left := by
  intro db₂ o folderIds now₂ _ hmap hrefs
  have hw : writesSession mode (liveSessions mode db₂) now₂ v = true := by
    unfold writesSession
    simp [hid, htomb, hmode]
  have hnot : detailsFail db₂ (buildSessionRow E.json mode folderIds now₂ v) = false := by
    simp [detailsFail, hrefs]
  obtain ⟨hok, hwhole⟩ := upsert_of_not_detailsFail (folderOk_buildSessionRow hmap E.json mode now₂ v) hnot
  rw [applyOneSession_of_writes _ _ _ _ _ _ _ hw]
  refine ⟨?_, hwhole⟩
  rw [hok]

def blankKey : SshKeyRow where
  id := ""
  label := ""
  privateKey := ""
  publicKey := ""
  keyType := ""
  isGenerated := false
  createdAtMs := 0
  credentialId := none
  applicationString := none
  hasUserVerification := false
  agentPolicy := .ask
  backend := .software
  pkcs11Uri := none
  pkcs11TokenSerial := none
  pkcs11ObjectId := none
  pkcs11ObjectLabel := none
  importedAsStub := false

def supply (db : Db Text) (row : SessionRow Text) : Db Text :=
  { db with
    sshKeys := row.keyId.elim db.sshKeys fun k => db.sshKeys.set k ⟨blankKey, none⟩
    sessions := row.viaSessionId.elim db.sessions fun s =>
      if s = row.id then db.sessions else db.sessions.set s (parentWritten none row) }

theorem refsOk_supply (db : Db Text) (row : SessionRow Text) : refsOk (supply db row) row = true := by
  unfold refsOk supply
  rw [Bool.and_eq_true, Option.all_eq_true, Option.all_eq_true]
  constructor
  · intro k hk
    simp [hk]
  · intro s hs
    by_cases h : s = row.id
    · simp [h]
    · simp [hs, h]

theorem sessionState_supply (db : Db Text) (row : SessionRow Text) :
    (supply db row).sessionState row.id = db.sessionState row.id := by
  have hparent : (supply db row).sessions.get row.id = db.sessions.get row.id := by
    unfold supply
    rcases row.viaSessionId with _ | s
    · rfl
    · by_cases h : s = row.id
      · simp [h]
      · simp [h, Ne.symm h]
  unfold Db.sessionState
  rw [hparent]
  rfl

theorem not_retriable_sync (now : Int64) (row : SessionRow Text) {left : Db Text} (hmode : mode.isSync = true)
    (hid : jsonString v "id" ≠ "") (htomb : isTombstone v = false) (hrow : row.id = jsonString v "id") (hkey : row.keyId = jsonNonEmpty v "key_id")
    (hvia : row.viaSessionId = jsonNonEmpty v "via_session_id") (hstamp : row.updatedAtMs = peerUpdatedAt mode now v)
    (hleft : ∃ old, left.sessions.get row.id = some (parentWritten old row)) :
    ¬ Retriable E mode v left := by
  intro h
  obtain ⟨old, hold⟩ := hleft
  have hstate : (supply left row).sessionState (jsonString v "id") = left.sessionState (jsonString v "id") := by
    rw [← hrow]
    exact sessionState_supply left row
  have hrefs : refsOk (supply left row) (buildSessionRow E.json mode [] now v) = true := by
    have hsame : refsOk (supply left row) (buildSessionRow E.json mode [] now v) = refsOk (supply left row) row := by
      unfold refsOk
      rw [hkey, hvia, hrow]
      rfl
    rw [hsame, refsOk_supply]
  obtain ⟨happlied, -⟩ := h (supply left row) {} [] now hstate (by simp [MapsToFolders]) hrefs
  -- The live row has the peer's own stamp.
  have hlive : liveSessions mode (supply left row) (jsonString v "id") = some (peerUpdatedAt mode now v) := by
    unfold liveSessions Sessions.liveUpdatedAt
    rw [if_pos hmode]
    have hget : (supply left row).sessions.get (jsonString v "id") = some (parentWritten old row) := by
      rw [← hold, ← hrow]
      exact congrArg Db.SessionState.parent (sessionState_supply left row)
    rw [hget]
    simp [parentWritten, hstamp]
  have hlost : (mode.isSync && lwwPeerLoses (peerUpdatedAt mode now v) (liveSessions mode (supply left row)
      (jsonString v "id"))) = true := by
    rw [hlive, hmode]
    simp [lwwPeerLoses]
  unfold applyOneSession at happlied
  rw [if_neg hid, htomb, if_neg Bool.false_ne_true, if_pos hlost] at happlied
  cases happlied

/-- **Failed session entries.** A reported entry is atomic unless it was written and its details
named a missing row; then it is atomic only outside a sync, when the parent row was already the one
written. -/
theorem rowAtomic_iff (E : Env Text) (mode : ApplyMode) (options : Option ApplyOptions) (now : Int64)
    (p : PendingImport Text) (db : Db Text) (text : Text) (items done rest : List Json) (v : Json)
    (hwant : (WantFlags.fromOptions options).sessions = true) (htext : p.sessionsJson = some text)
    (hitems : parseArray E.json text = .ok items) (hsplit : items = done ++ v :: rest) :
    (Reported E mode options now p db items done v → RowAtomic E mode options now p db items done v rest) ↔
      entryWrites E mode options now p db items v = false ∨
      detailsFail (before E mode options now p db items done).1 (entryRow E mode options now p db items v) = false ∨
      mode.isSync = false ∧ (before E mode options now p db items done).1.sessions.get (jsonString v "id") =
          some (parentWritten ((before E mode options now p db items done).1.sessions.get (jsonString v "id"))
            (entryRow E mode options now p db items v)) := by
  have hrowId : (entryRow E mode options now p db items v).id = jsonString v "id" := rfl
  rw [← or_assoc]
  by_cases hnot : entryWrites E mode options now p db items v = false ∨
      detailsFail (before E mode options now p db items done).1 (entryRow E mode options now p db items v) = false
  · refine iff_of_true (fun hrep => ?_) (.inl hnot)
    have hempty := reported_of_not_fails hnot hrep
    have hsame : (after E mode options now p db items done v).1.sessionState (jsonString v "id") =
        (before E mode options now p db items done).1.sessionState (jsonString v "id") := by
      rw [after_eq, applyOneSession_fst_of_empty hempty]
    exact ⟨hsame, fun hrest => (sessionState_runApply_of_entry hwant htext hitems hsplit hrest).trans hsame,
      fun hid => absurd hempty hid⟩
  · rw [or_iff_right hnot]
    obtain ⟨hw, hfail⟩ := not_or.1 hnot
    rw [Bool.not_eq_false] at hw hfail
    have hafter := after_of_fails hw hfail
    have hrep : Reported E mode options now p db items done v := by
      unfold Reported
      rw [hafter]
      simp [ApplyOutcome.push]
    obtain ⟨hid, htomb⟩ : jsonString v "id" ≠ "" ∧ isTombstone v = false := by
      unfold entryWrites writesSession at hw
      rw [Bool.and_eq_true, Bool.and_eq_true, decide_eq_true_eq, Bool.not_eq_true'] at hw
      exact hw.1
    have hstate : (after E mode options now p db items done v).1.sessionState (jsonString v "id") =
        (before E mode options now p db items done).1.sessionState (jsonString v "id") ↔
        (before E mode options now p db items done).1.sessions.get (jsonString v "id") =
          some (parentWritten ((before E mode options now p db items done).1.sessions.get (jsonString v "id"))
            (entryRow E mode options now p db items v)) := by
      rw [hafter]
      exact sessionState_writeParent_iff _ (entryRow E mode options now p db items v)
    rw [forall_prop_of_true hrep]
    constructor
    · intro h
      refine ⟨Bool.eq_false_iff.2 fun hsync => ?_, hstate.1 h.unchanged⟩
      refine not_retriable_sync now (entryRow E mode options now p db items v) hsync hid htomb rfl rfl rfl rfl ?_
        (h.retried hid)
      refine ⟨(before E mode options now p db items done).1.sessions.get (jsonString v "id"), ?_⟩
      rw [hafter]
      simp [writeParent, hrowId]
    · rintro ⟨hmode, hparent⟩
      have hsame := hstate.2 hparent
      exact ⟨hsame, fun hrest => (sessionState_runApply_of_entry hwant htext hitems hsplit hrest).trans hsame,
        fun _ => retriable_archive hmode hid htomb _⟩

end Entry

/-! ### A jump host listed after its user -/

def jumpEntry (id : String) (via : Option String) : Json :=
  sessionRowToJson ParsedText.codec (rowFrom id { sampleParent none with label := id }
      (some { noDetails with host := "h", viaSessionId := via, updatedAt := 10 })) "" none

def jumpItems : List Json := [jumpEntry "app" (some "bastion"), jumpEntry "bastion" none]
def jumpSnapshot : PendingImport ParsedText := { sessionsJson := some (.json (.arr jumpItems)) }

theorem rowAtomic_iff_sample :
    (Reported plainEnv .sync none 40 jumpSnapshot Db.empty jumpItems [] (jumpEntry "app" (some "bastion")) →
      RowAtomic plainEnv .sync none 40 jumpSnapshot Db.empty jumpItems [] (jumpEntry "app" (some "bastion"))
        [jumpEntry "bastion" none]) ↔
      entryWrites plainEnv .sync none 40 jumpSnapshot Db.empty jumpItems (jumpEntry "app" (some "bastion")) = false ∨
      detailsFail (before plainEnv .sync none 40 jumpSnapshot Db.empty jumpItems []).1
        (entryRow plainEnv .sync none 40 jumpSnapshot Db.empty jumpItems (jumpEntry "app" (some "bastion"))) = false ∨
      ApplyMode.sync.isSync = false ∧ (before plainEnv .sync none 40 jumpSnapshot Db.empty jumpItems []).1.sessions.get
            (jsonString (jumpEntry "app" (some "bastion")) "id") =
          some (parentWritten ((before plainEnv .sync none 40 jumpSnapshot Db.empty jumpItems []).1.sessions.get
              (jsonString (jumpEntry "app" (some "bastion")) "id"))
            (entryRow plainEnv .sync none 40 jumpSnapshot Db.empty jumpItems (jumpEntry "app" (some "bastion")))) :=
  rowAtomic_iff plainEnv .sync none 40 jumpSnapshot Db.empty (.json (.arr jumpItems)) jumpItems []
    [jumpEntry "bastion" none] (jumpEntry "app" (some "bastion")) rfl rfl rfl rfl

/-- On a device without sessions the first entry fails, and its parent row stays. -/
theorem rowAtomic_jump_host_later :
    Reported plainEnv .sync none 40 jumpSnapshot Db.empty jumpItems [] (jumpEntry "app" (some "bastion")) ∧
      ¬ RowAtomic plainEnv .sync none 40 jumpSnapshot Db.empty jumpItems [] (jumpEntry "app" (some "bastion"))
        [jumpEntry "bastion" none] := by
  refine ⟨by unfold Reported; decide +kernel, fun h => ?_⟩
  have hparent := congrArg (fun st => st.parent.isSome) h.unchanged
  revert hparent
  decide +kernel

end LetsFlutSsh.Archive
