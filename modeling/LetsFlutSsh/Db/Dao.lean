import Mathlib.Data.List.Sort
import LetsFlutSsh.Db.Schema

/-!
# Statements on the tables

What each table's access functions do, statement by statement:

* `Sessions.upsert`: the parent row, then the details row of its kind; a failed second statement
  leaves the first one written;
* `Sessions.applyTombstone`, `Tags.applyTombstone`, …: a peer's deletion, gated on the row's stamp;
* `Sessions.listAllWithTombstones`, …: the rows in listing order;
* `Folders.ensureFolderPath`: find or create the folders of a path;
* `Tags.upsert`: fails when another live tag holds the name;
* `longerId`: a way to choose an id that is not in use.
-/

namespace LetsFlutSsh
open Lib

variable {Text : Type}

def fkFailed : String := "FOREIGN KEY constraint failed"

/-- `Display` of a database error. -/
def dbError (what reason : String) : String := "db: " ++ what ++ ": " ++ reason

variable (db : Db Text)
variable (id : String)
variable (ts : Int64)

/-! ## Sessions -/

namespace Sessions

def kindSsh : String := "ssh"
def kindWebdav : String := "webdav"
def kindS3 : String := "s3"

def normaliseKind (kind : String) : String := if kind = "" then kindSsh else kind

/-- The details columns a session without a details row reads as. -/
def noDetails : SshSessionDetails where
  host := ""
  port := 22
  user := ""
  authType := "password"
  password := ""
  keyPath := ""
  keyData := ""
  keyId := none
  passphrase := ""
  viaSessionId := none
  viaHost := none
  viaPort := none
  viaUser := none
  updatedAt := 0
  deletedAt := none

/-- `row_from` over the left join of `sessions` and `ssh_session_details`. -/
def rowFrom (id : String) (p : SessionParent Text) (details : Option SshSessionDetails) : SessionRow Text :=
  let j := details.getD noDetails
  { id := id
    label := p.label
    folderId := p.folderId
    kind := p.kind
    host := j.host
    port := j.port
    user := j.user
    authType := j.authType
    password := j.password
    keyPath := j.keyPath
    keyData := j.keyData
    keyId := j.keyId
    passphrase := j.passphrase
    sortOrder := p.sortOrder
    notes := p.notes
    lastConnectedAtMs := p.lastConnectedAt
    extras := p.extras
    viaSessionId := j.viaSessionId
    viaHost := j.viaHost
    viaPort := j.viaPort
    viaUser := j.viaUser
    createdAtMs := p.createdAt
    updatedAtMs := p.updatedAt }

/-- `ORDER BY sort_order ASC, label ASC`. -/
def listedBefore (a b : String × SessionParent Text) : Bool :=
  a.2.sortOrder < b.2.sortOrder || (a.2.sortOrder == b.2.sortOrder && a.2.label ≤ b.2.label)

/-- `list_all_with_tombstones`: every session with its deletion stamp, in listing order. -/
def listAllWithTombstones (db : Db Text) : List (SessionRow Text × Option Int64) :=
  (db.sessions.rows.mergeSort listedBefore).map fun e =>
    (rowFrom e.1 e.2 (db.sshDetails.get e.1), e.2.deletedAt)

def listAll (db : Db Text) : List (SessionRow Text) :=
  ((listAllWithTombstones db).filter fun e => e.2.isNone).map Prod.fst

/-- What the map built from `list_all` answers for an id: the stamp of the live row. -/
def liveUpdatedAt (db : Db Text) (id : String) : Option Int64 :=
  (db.sessions.get id).bind fun p => if p.deletedAt.isNone then some p.updatedAt else none

/-- `apply_tombstone`: mark the row deleted when the stamp beats its `updated_at`. -/
def applyTombstone (db : Db Text) (id : String) (deletedAtMs : Int64) : Db Text :=
  match db.sessions.get id with
  | none => db
  | some p =>
    if p.updatedAt < deletedAtMs then
      { db with sessions :=
          db.sessions.set id { p with deletedAt := some deletedAtMs, updatedAt := deletedAtMs } }
    else db

/-- The parent row the first statement of `upsert` writes: a conflict keeps `created_at`. -/
def parentWritten (old : Option (SessionParent Text)) (row : SessionRow Text) : SessionParent Text where
  label := row.label
  folderId := row.folderId
  kind := normaliseKind row.kind
  sortOrder := row.sortOrder
  notes := row.notes
  lastConnectedAt := row.lastConnectedAtMs
  extras := row.extras
  createdAt := (old.map SessionParent.createdAt).getD row.createdAtMs
  updatedAt := row.updatedAtMs
  deletedAt := none

/-- The details row `upsert_ssh_details` writes. -/
def detailsWritten (row : SessionRow Text) : SshSessionDetails where
  host := row.host
  port := row.port
  user := row.user
  authType := row.authType
  password := row.password
  keyPath := row.keyPath
  keyData := row.keyData
  keyId := row.keyId
  passphrase := row.passphrase
  viaSessionId := row.viaSessionId
  viaHost := row.viaHost
  viaPort := row.viaPort
  viaUser := row.viaUser
  updatedAt := row.updatedAtMs
  deletedAt := none

def upsertSshDetails (db : Db Text) (row : SessionRow Text) : Except String (Db Text) :=
  if (db.sessions.get row.id).isSome && db.refsResolve row.keyId row.viaSessionId then
    .ok { db with sshDetails := db.sshDetails.set row.id (detailsWritten row) }
  else .error (dbError "ssh_session_details upsert" fkFailed)

/-- The deletes of the other kinds' details rows at the end of `upsert`. -/
def dropOtherDetails (db : Db Text) (row : SessionRow Text) : Db Text :=
  { db with
    webdavDetails :=
      if normaliseKind row.kind ≠ kindWebdav then db.webdavDetails.filter (· ≠ row.id) else db.webdavDetails
    s3Details := if normaliseKind row.kind ≠ kindS3 then db.s3Details.filter (· ≠ row.id) else db.s3Details }

def folderOk (db : Db Text) (row : SessionRow Text) : Bool := row.folderId.all fun f => (db.folders.get f).isSome

/-- The first statement of `upsert`. -/
def writeParent (db : Db Text) (row : SessionRow Text) : Db Text :=
  { db with sessions := db.sessions.set row.id (parentWritten (db.sessions.get row.id) row) }

/-- `upsert`: the parent row, then the details row of its kind, then the stale details of the
other kinds. The database is returned as the failing statement leaves it. -/
def upsert (db : Db Text) (row : SessionRow Text) : Db Text × Except String Unit :=
  if folderOk db row then
    if normaliseKind row.kind = kindSsh then
      match upsertSshDetails (writeParent db row) row with
      | .error e => (writeParent db row, .error e)
      | .ok db' => (dropOtherDetails db' row, .ok ())
    else
      (dropOtherDetails { writeParent db row with sshDetails := db.sshDetails.erase row.id } row, .ok ())
  else (db, .error (dbError "sessions upsert" fkFailed))

/-- The references of a row's details resolve once its own parent row is there. -/
def refsOk (db : Db Text) (row : SessionRow Text) : Bool :=
  (row.keyId.all fun k => (db.sshKeys.get k).isSome) &&
    row.viaSessionId.all fun s => s = row.id || (db.sessions.get s).isSome

section

variable (db : Db Text) (row : SessionRow Text)

theorem refsResolve_writeParent : (writeParent db row).refsResolve row.keyId row.viaSessionId = refsOk db row := by
  unfold Db.refsResolve refsOk writeParent
  congr 2
  funext s
  by_cases h : s = row.id <;> simp [h]

theorem upsert_cases : (folderOk db row = false ∧ upsert db row = (db, .error (dbError "sessions upsert" fkFailed))) ∨
    (folderOk db row = true ∧ normaliseKind row.kind = kindSsh ∧ refsOk db row = false ∧
      upsert db row = (writeParent db row, .error (dbError "ssh_session_details upsert" fkFailed))) ∨
    (folderOk db row = true ∧ normaliseKind row.kind = kindSsh ∧ refsOk db row = true ∧
      upsert db row = (dropOtherDetails { writeParent db row with
        sshDetails := db.sshDetails.set row.id (detailsWritten row) } row, .ok ())) ∨
    (folderOk db row = true ∧ normaliseKind row.kind ≠ kindSsh ∧ upsert db row = (dropOtherDetails { writeParent db row with
        sshDetails := db.sshDetails.erase row.id } row, .ok ())) := by
  have hparent : ((writeParent db row).sessions.get row.id).isSome = true := by simp [writeParent]
  by_cases hfolder : folderOk db row = true
  · by_cases hkind : normaliseKind row.kind = kindSsh
    · by_cases hrefs : refsOk db row = true
      · refine .inr (.inr (.inl ⟨hfolder, hkind, hrefs, ?_⟩))
        rw [upsert, if_pos hfolder, if_pos hkind, upsertSshDetails, refsResolve_writeParent, hparent, hrefs]
        rfl
      · rw [Bool.not_eq_true] at hrefs
        refine .inr (.inl ⟨hfolder, hkind, hrefs, ?_⟩)
        rw [upsert, if_pos hfolder, if_pos hkind, upsertSshDetails, refsResolve_writeParent, hparent, hrefs]
        rfl
    · refine .inr (.inr (.inr ⟨hfolder, hkind, ?_⟩))
      rw [upsert, if_pos hfolder, if_neg hkind]
  · refine .inl ⟨Bool.not_eq_true _ ▸ hfolder, ?_⟩
    rw [upsert, if_neg hfolder]

theorem upsert_withoutSessions : (upsert db row).1.withoutSessions = db.withoutSessions := by
  rcases upsert_cases db row with ⟨-, h⟩ | ⟨-, -, -, h⟩ | ⟨-, -, -, h⟩ | ⟨-, -, h⟩ <;> rw [h] <;> rfl

theorem sessionState_upsert_ne {id : String} (h : id ≠ row.id) :
    (upsert db row).1.sessionState id = db.sessionState id := by
  have hdrop : ∀ db' : Db Text, (dropOtherDetails db' row).sessionState id = db'.sessionState id := by
    intro db'
    unfold dropOtherDetails Db.sessionState
    simp only [Db.SessionState.mk.injEq, true_and]
    constructor
    · split_ifs <;> simp [h]
    · split_ifs <;> simp [h]
  rcases upsert_cases db row with ⟨-, hu⟩ | ⟨-, -, -, hu⟩ | ⟨-, -, -, hu⟩ | ⟨-, -, hu⟩
  · rw [hu]
  · rw [hu]
    unfold writeParent Db.sessionState
    simp only [Table.get_set, if_neg h]
  · rw [hu, hdrop]
    unfold writeParent Db.sessionState
    simp only [Table.get_set, if_neg h]
  · rw [hu, hdrop]
    unfold writeParent Db.sessionState
    simp only [Table.get_set, Table.get_erase, if_neg h]

theorem upsert_parent (hfolder : folderOk db row = true) :
    (upsert db row).1.sessions.get row.id = some (parentWritten (db.sessions.get row.id) row) := by
  rcases upsert_cases db row with ⟨hf, -⟩ | ⟨-, -, -, hu⟩ | ⟨-, -, -, hu⟩ | ⟨-, -, hu⟩
  · rw [hf] at hfolder
    contradiction
  · rw [hu]
    simp [writeParent]
  · rw [hu]
    simp [writeParent, dropOtherDetails]
  · rw [hu]
    simp [writeParent, dropOtherDetails]

end

/-- A parent row under a peer's deletion: only a stamp that beats its own marks it. -/
def deleteParent (ts : Int64) (p : SessionParent Text) : SessionParent Text :=
  if p.updatedAt < ts then { p with deletedAt := some ts, updatedAt := ts } else p

theorem sessionState_applyTombstone : (applyTombstone db id ts).sessionState id =
    { db.sessionState id with parent := (db.sessions.get id).map (deleteParent ts) } := by
  unfold applyTombstone
  rcases hget : db.sessions.get id with _ | p
  · simp [Db.sessionState, hget]
  · unfold deleteParent
    dsimp only
    split_ifs with hlt
    · simp [Db.sessionState, hlt]
    · simp [Db.sessionState, hget, hlt]

theorem applyTombstone_withoutSessions :
    (applyTombstone db id ts).withoutSessions = db.withoutSessions := by
  unfold applyTombstone
  split
  · rfl
  · split_ifs <;> rfl

theorem sessionState_applyTombstone_ne {id id' : String} (h : id' ≠ id) :
    (applyTombstone db id ts).sessionState id' = db.sessionState id' := by
  unfold applyTombstone
  split
  · rfl
  · split_ifs
    · simp [Db.sessionState, h]
    · rfl

end Sessions

/-! ## Keys -/

namespace SshKeys

/-- What the map built from `list_all` answers for an id: the stamp of the live key. -/
def liveCreatedAt (db : Db Text) (id : String) : Option Int64 :=
  (db.sshKeys.get id).bind fun s => if s.deletedAt.isNone then some s.row.createdAtMs else none

/-- `ORDER BY created_at DESC`. -/
def listedBefore (a b : String × Stored SshKeyRow) : Bool := b.2.row.createdAtMs ≤ a.2.row.createdAtMs

def listAllWithTombstones (db : Db Text) : List (SshKeyRow × Option Int64) :=
  (db.sshKeys.rows.mergeSort listedBefore).map fun e => ({ e.2.row with id := e.1 }, e.2.deletedAt)

def listAll (db : Db Text) : List SshKeyRow :=
  ((listAllWithTombstones db).filter fun e => e.2.isNone).map Prod.fst

/-- `get`: the live key of an id. -/
def get (db : Db Text) (id : String) : Option SshKeyRow :=
  (db.sshKeys.get id).bind fun s => if s.deletedAt.isNone then some { s.row with id } else none

/-- `apply_tombstone`: only a live key older than the stamp is marked. -/
def applyTombstone (db : Db Text) (id : String) (deletedAtMs : Int64) : Db Text :=
  match db.sshKeys.get id with
  | none => db
  | some s =>
    if s.deletedAt.isNone && s.row.createdAtMs < deletedAtMs then
      { db with sshKeys := db.sshKeys.set id { s with deletedAt := some deletedAtMs } }
    else db

/-- `upsert`: every column is replaced and the tombstone cleared. -/
def upsert (db : Db Text) (row : SshKeyRow) : Db Text :=
  { db with sshKeys := db.sshKeys.set row.id ⟨row, none⟩ }

/-- `delete`: a live key is marked. -/
def delete (db : Db Text) (id : String) (nowMs : Int64) : Db Text :=
  match db.sshKeys.get id with
  | none => db
  | some s => if s.deletedAt.isNone then { db with sshKeys := db.sshKeys.set id { s with deletedAt := some nowMs } } else db

theorem get_upsert (row : SshKeyRow) :
    get (upsert db row) id = if id = row.id then some row else get db id := by
  unfold get upsert
  rw [Table.get_set]
  split
  · next h => simp [h]
  · rfl

theorem get_id {db : Db Text} {id : String} {row : SshKeyRow} (h : get db id = some row) : row.id = id := by
  obtain ⟨s, -, hs⟩ := Option.bind_eq_some_iff.1 h
  split at hs
  · rw [← Option.some.inj hs]
  · cases hs

theorem get_delete (nowMs : Int64) : get (delete db id nowMs) id = none := by
  unfold delete
  cases hid : db.sshKeys.get id with
  | none => simp [get, hid]
  | some s =>
    dsimp only
    split
    · simp [get]
    · next hgone => simpa [get, hid] using hgone

end SshKeys

/-! ## Tags -/

namespace Tags

/-- What the map built from `list_all` answers for an id: the stamp of the live tag. -/
def liveCreatedAt (db : Db Text) (id : String) : Option Int64 :=
  (db.tags.get id).bind fun s => if s.deletedAt.isNone then some s.row.createdAtMs else none

/-- `list_all`, in name order. -/
def listAll (db : Db Text) : List TagRow :=
  ((db.tags.rows.mergeSort fun a b => a.2.row.name ≤ b.2.row.name).filter fun e => e.2.deletedAt.isNone).map
    fun e => { e.2.row with id := e.1 }

/-- `apply_tombstone`: only a live tag older than the stamp is marked. -/
def applyTombstone (db : Db Text) (id : String) (deletedAtMs : Int64) : Db Text :=
  match db.tags.get id with
  | none => db
  | some s =>
    if s.deletedAt.isNone && s.row.createdAtMs < deletedAtMs then
      { db with tags := db.tags.set id { s with deletedAt := some deletedAtMs } }
    else db

/-- Another live tag holds the name (`idx_tags_name_live`). -/
def nameTaken (db : Db Text) (id name : String) : Bool :=
  db.tags.rows.any fun e => e.1 ≠ id && e.2.deletedAt.isNone && e.2.row.name == name

/-- `upsert`: a conflict replaces name and colour, keeps `created_at` and clears the tombstone. -/
def upsert (db : Db Text) (row : TagRow) : Except String (Db Text) :=
  if nameTaken db row.id row.name then
    .error (dbError "tags upsert" "UNIQUE constraint failed: tags.name")
  else
    let createdAt := ((db.tags.get row.id).map fun s => s.row.createdAtMs).getD row.createdAtMs
    .ok { db with tags := db.tags.set row.id ⟨{ row with createdAtMs := createdAt }, none⟩ }

/-- `INSERT OR IGNORE` of a link: a missing end is an error, a known link is kept. -/
def link (found : Bool) (what : String) (links : List (String × String)) (a b : String) :
    Except String (List (String × String)) :=
  if found then .ok (if (a, b) ∈ links then links else links ++ [(a, b)])
  else .error (dbError what fkFailed)

def linkSessionTag (db : Db Text) (sessionId tagId : String) : Except String (Db Text) :=
  (link ((db.sessions.get sessionId).isSome && (db.tags.get tagId).isSome) "session_tags insert"
    db.sessionTags sessionId tagId).map fun links => { db with sessionTags := links }

def linkFolderTag (db : Db Text) (folderId tagId : String) : Except String (Db Text) :=
  (link ((db.folders.get folderId).isSome && (db.tags.get tagId).isSome) "folder_tags insert"
    db.folderTags folderId tagId).map fun links => { db with folderTags := links }

end Tags

/-! ## Snippets -/

namespace Snippets

/-- `list_all`, in title order. -/
def listAll (db : Db Text) : List SnippetRow :=
  ((db.snippets.rows.mergeSort fun a b => a.2.row.title ≤ b.2.row.title).filter fun e => e.2.deletedAt.isNone).map
    fun e => { e.2.row with id := e.1 }

/-- What the map built from `list_all` answers for an id: the stamp of the live snippet. -/
def liveUpdatedAt (db : Db Text) (id : String) : Option Int64 :=
  (db.snippets.get id).bind fun s => if s.deletedAt.isNone then some s.row.updatedAtMs else none

/-- `apply_tombstone`: mark the row deleted when the stamp beats its `updated_at`. -/
def applyTombstone (db : Db Text) (id : String) (deletedAtMs : Int64) : Db Text :=
  match db.snippets.get id with
  | none => db
  | some s =>
    if s.row.updatedAtMs < deletedAtMs then
      { db with snippets :=
          db.snippets.set id ⟨{ s.row with updatedAtMs := deletedAtMs }, some deletedAtMs⟩ }
    else db

/-- `upsert`: a conflict keeps `created_at` and clears the tombstone. -/
def upsert (db : Db Text) (row : SnippetRow) : Db Text :=
  let createdAt := ((db.snippets.get row.id).map fun s => s.row.createdAtMs).getD row.createdAtMs
  { db with snippets := db.snippets.set row.id ⟨{ row with createdAtMs := createdAt }, none⟩ }

def linkSessionSnippet (db : Db Text) (sessionId snippetId : String) : Except String (Db Text) :=
  (Tags.link ((db.sessions.get sessionId).isSome && (db.snippets.get snippetId).isSome)
    "session_snippets insert" db.sessionSnippets sessionId snippetId).map
    fun links => { db with sessionSnippets := links }

end Snippets

/-! ## Folders -/

namespace Folders

/-- The segments of a path: `path.split('/')` without the empty ones. -/
def segments (path : String) : List String :=
  ((path.toList.splitOn '/').filter (· ≠ [])).map String.ofList

/-- `ORDER BY sort_order ASC, name ASC`. -/
def listedBefore (a b : String × FolderRow) : Bool :=
  a.2.sortOrder < b.2.sortOrder || (a.2.sortOrder == b.2.sortOrder && a.2.name ≤ b.2.name)

def listAll (db : Db Text) : List (String × FolderRow) := db.folders.rows.mergeSort listedBefore

/-- `upsert`; the parent of a row written here is always a folder just found or created. -/
def upsert (db : Db Text) (id : String) (row : FolderRow) : Except String (Db Text) :=
  if row.parentId.all fun f => f = id || (db.folders.get f).isSome then
    .ok { db with folders := db.folders.set id row }
  else .error (dbError "folders upsert" fkFailed)

/-- The map `(parent, name) → id` built from `list_all`; a later row wins. -/
def byParent (rows : List (String × FolderRow)) (parent : Option String) (name : String) : Option String :=
  (rows.reverse.find? fun e => e.2.parentId = parent ∧ e.2.name = name).map Prod.fst

/-- The loop of `ensure_folder_path` over the segments; `made` are the folders this call created. -/
def ensureSegments (mint : List String → String) (listed : List (String × FolderRow)) (nowMs : Int64) :
    Db Text → List (String × FolderRow) → Option String → List String → Db Text × Except String (Option String)
  | db, _, parent, [] => (db, .ok parent)
  | db, made, parent, seg :: segs =>
    match byParent (listed ++ made) parent seg with
    | some existing => ensureSegments mint listed nowMs db made (some existing) segs
    | none =>
      let id := mint db.folders.keys
      let row : FolderRow := ⟨seg, parent, 0, false, nowMs⟩
      match upsert db id row with
      | .error e => (db, .error e)
      | .ok db' => ensureSegments mint listed nowMs db' (made ++ [(id, row)]) (some id) segs

def ensureFolderPath (mint : List String → String) (db : Db Text) (path : String) (nowMs : Int64) :
    Db Text × Except String (Option String) :=
  if path = "" then (db, .ok none)
  else ensureSegments mint (listAll db) nowMs db [] none (segments path)

/-- Names from a folder up to its root, following parents until one is missing or seen before. -/
def namesUp (db : Db Text) : Nat → List String → Option String → List String
  | 0, _, _ => []
  | _, _, none => []
  | fuel + 1, seen, some id =>
    match db.folders.get id with
    | none => []
    | some row => if id ∈ seen then [] else row.name :: namesUp db fuel (id :: seen) row.parentId

/-- `build_folder_paths` at one folder: the names from the root down, joined by slashes. -/
def pathOf (db : Db Text) (id : String) : String :=
  "/".intercalate (namesUp db (db.folders.rows.length + 1) [] (some id)).reverse

end Folders

/-! ## Fresh ids -/

def longerThan : List String → Nat
  | [] => 1
  | u :: used => u.length + longerThan used

theorem length_lt_longerThan {u : String} {used : List String} (h : u ∈ used) : u.length < longerThan used := by
  have hpos : ∀ used, 0 < longerThan used := by
    intro used
    induction used with
    | nil => exact Nat.one_pos
    | cons u used ih => exact Nat.add_pos_right _ ih
  induction used with
  | nil => cases h
  | cons u' used ih =>
    rcases List.mem_cons.1 h with rfl | h
    · exact Nat.lt_add_of_pos_right (hpos used)
    · exact Nat.lt_add_left _ (ih h)

def longerId (used : List String) : String := String.ofList (List.replicate (longerThan used) 'f')

theorem longerId_fresh (used : List String) : longerId used ∉ used := by
  intro h
  have hlt := length_lt_longerThan h
  unfold longerId at hlt
  rw [String.length_ofList, List.length_replicate] at hlt
  omega

end LetsFlutSsh
