import LetsFlutSsh.Archive.Iso8601
import LetsFlutSsh.Db.Dao

/-!
# Composing a snapshot

The JSON entries of a `.lfs` archive, as the sync push composes them from a database:

* `PendingImport`: the entries of an archive, each a JSON text;
* `sessionRowToJson`, `buildKeyValue`, …: one row as JSON; a soft-deleted row travels with
  `tombstone` and `deleted_at_ms`;
* `composeSync`: the whole snapshot of a database.
-/

namespace LetsFlutSsh.Archive
open Lib Lib.Json

variable {Text : Type}

/-- The entries of an archive. The known hosts, the configuration, the tables hanging off sessions
and keys, and the recordings are left out. -/
structure PendingImport (Text : Type) where
  manifestJson : Option Text := none
  sessionsJson : Option Text := none
  keysJson : Option Text := none
  tagsJson : Option Text := none
  sessionTagsJson : Option Text := none
  folderTagsJson : Option Text := none
  snippetsJson : Option Text := none
  sessionSnippetsJson : Option Text := none
  emptyFoldersJson : Option Text := none

def insertTombstone (deletedAt : Option Int64) (obj : Object) : Object :=
  match deletedAt with
  | none => obj
  | some ts =>
    Object.insert "tombstone" (.bool true) <| Object.insert "deleted_at_ms" (.ofI64 ts) obj

def insertNonEmpty (k : String) (v : String) (obj : Object) : Object :=
  if v = "" then obj else Object.insert k (.str v) obj

/-! ## Sessions -/

section Sessions

variable (J : JsonText Text)

/-- `insert_session_extras`: only a stored text that parses to a non-empty object travels. -/
def insertSessionExtras (r : SessionRow Text) (obj : Object) : Object :=
  if J.isEmpty r.extras then obj
  else
    match J.fromStr r.extras with
    | .ok (.obj []) => obj
    | .ok (.obj m) => Object.insert "extras" (.obj m) obj
    | _ => obj

def insertSessionVia (r : SessionRow Text) (obj : Object) : Object :=
  let obj := insertNonEmpty "via_session_id" (r.viaSessionId.getD "") obj
  match r.viaHost, r.viaPort, r.viaUser with
  | some h, some p, some u =>
    if h ≠ "" ∧ u ≠ "" then
      Object.insert "via_override" (.obj (Object.insert "host" (.str h) (Object.insert "port" (.ofI64 p)
          (Object.insert "user" (.str u) [])))) obj
    else obj
  | _, _, _ => obj

/-- The members of `session_row_to_json` before the tombstone. -/
def sessionFields (r : SessionRow Text) (folderPath : String) : Object :=
  let obj := Object.insert "id" (.str r.id) []
  let obj := Object.insert "label" (.str r.label) obj
  let obj := Object.insert "folder" (.str folderPath) obj
  let obj := if r.kind ≠ Sessions.kindSsh then insertNonEmpty "kind" r.kind obj else obj
  let obj := Object.insert "host" (.str r.host) obj
  let obj := Object.insert "port" (.ofI64 r.port) obj
  let obj := Object.insert "user" (.str r.user) obj
  let obj := Object.insert "auth_type" (.str r.authType) obj
  let obj := insertNonEmpty "key_id" (r.keyId.getD "") obj
  let obj := Object.insert "key_path" (.str r.keyPath) obj
  let obj := Object.insert "created_at" (.str (formatIso8601Utc r.createdAtMs)) obj
  let obj := Object.insert "updated_at" (.str (formatIso8601Utc r.updatedAtMs)) obj
  let obj := insertSessionExtras J r obj
  let obj := insertSessionVia r obj
  let obj := Object.insert "password" (.str r.password) obj
  let obj := Object.insert "key_data" (.str r.keyData) obj
  let obj := Object.insert "passphrase" (.str r.passphrase) obj
  insertNonEmpty "notes" r.notes obj

def sessionRowToJson (r : SessionRow Text) (folderPath : String) (deletedAt : Option Int64) : Json :=
  .obj (insertTombstone deletedAt (sessionFields J r folderPath))

/-- The path text a session of `db` is composed with: none when it has no folder. -/
def folderPathOf (db : Db Text) (folderId : Option String) : String :=
  (folderId.bind fun f => (db.folders.get f).map fun _ => Folders.pathOf db f).getD ""

/-- `build_sessions_value` of a sync push: every session, tombstones included. -/
def buildSessionsValue (db : Db Text) : Json :=
  .arr ((Sessions.listAllWithTombstones db).map fun e =>
    sessionRowToJson J e.1 (folderPathOf db e.1.folderId) e.2)

end Sessions

/-! ## Keys -/

def bytesToJson (bs : List UInt8) : Json := .arr (bs.map fun b => .int b.toNat)

def insertOpt (k : String) (v : Option Json) (obj : Object) : Object :=
  match v with
  | none => obj
  | some v => Object.insert k v obj

/-- `build_key_value`: what travels depends on where the private half lives. -/
def buildKeyValue (k : SshKeyRow) (deletedAt : Option Int64) : Json :=
  let obj := Object.insert "id" (.str k.id) []
  let obj := Object.insert "label" (.str k.label) obj
  let obj := Object.insert "public_key" (.str k.publicKey) obj
  let obj := Object.insert "key_type" (.str k.keyType) obj
  let obj := Object.insert "is_generated" (.bool k.isGenerated) obj
  let obj := Object.insert "created_at" (.str (formatIso8601Utc k.createdAtMs)) obj
  let obj := Object.insert "backend" (.str k.backend.asDbStr) obj
  let obj :=
    match k.backend with
    | .software => Object.insert "private_key" (.str k.privateKey) obj
    | .fido2 =>
      let obj := insertOpt "credential_id" (k.credentialId.map bytesToJson) obj
      let obj := insertOpt "application_string" (k.applicationString.map .str) obj
      Object.insert "has_user_verification" (.bool k.hasUserVerification) obj
    | .pkcs11 =>
      let obj := insertOpt "pkcs11_uri" (k.pkcs11Uri.map .str) obj
      let obj := insertOpt "pkcs11_token_serial" (k.pkcs11TokenSerial.map .str) obj
      let obj := insertOpt "pkcs11_object_id" (k.pkcs11ObjectId.map bytesToJson) obj
      insertOpt "pkcs11_object_label" (k.pkcs11ObjectLabel.map .str) obj
    | _ => obj
  .obj (insertTombstone deletedAt obj)

/-- `build_manager_keys_value` of a sync push: every key, tombstones included. -/
def buildManagerKeysValue (db : Db Text) : Option Json :=
  if db.sshKeys.rows = [] then none
  else some (.arr ((SshKeys.listAllWithTombstones db).map fun e => buildKeyValue e.1 e.2))

/-! ## Tags and snippets -/

def tagValue (t : TagRow) (deletedAt : Option Int64) : Json :=
  let obj := Object.insert "id" (.str t.id) []
  let obj := Object.insert "name" (.str t.name) obj
  let obj := Object.insert "color" (t.color.elim .null .str) obj
  let obj := Object.insert "created_at" (.str (formatIso8601Utc t.createdAtMs)) obj
  .obj (insertTombstone deletedAt obj)

/-- `build_tags_value` of a sync push, in name order. -/
def buildTagsValue (db : Db Text) : Option Json :=
  if db.tags.rows = [] then none
  else some (.arr ((db.tags.rows.mergeSort fun a b => a.2.row.name ≤ b.2.row.name).map fun e =>
    tagValue { e.2.row with id := e.1 } e.2.deletedAt))

def snippetValue (s : SnippetRow) (deletedAt : Option Int64) : Json :=
  let obj := Object.insert "id" (.str s.id) []
  let obj := Object.insert "title" (.str s.title) obj
  let obj := Object.insert "command" (.str s.command) obj
  let obj := Object.insert "description" (.str s.description) obj
  let obj := Object.insert "created_at" (.str (formatIso8601Utc s.createdAtMs)) obj
  let obj := Object.insert "updated_at" (.str (formatIso8601Utc s.updatedAtMs)) obj
  .obj (insertTombstone deletedAt obj)

/-- `build_snippets_value` of a sync push, in title order. -/
def buildSnippetsValue (db : Db Text) : Option Json :=
  if db.snippets.rows = [] then none
  else some (.arr ((db.snippets.rows.mergeSort fun a b => a.2.row.title ≤ b.2.row.title).map fun e =>
    snippetValue { e.2.row with id := e.1 } e.2.deletedAt))

def linkValue (k₁ k₂ : String) (a b : String) : Json :=
  .obj (Object.insert k₁ (.str a) (Object.insert k₂ (.str b) []))

def arrayEntry (items : List Json) : Option Json := if items.isEmpty then none else some (.arr items)

/-- The ids linked to `a`. -/
def linkedTo (links : List (String × String)) (a : String) : List String :=
  (links.filter fun l => l.1 = a).map Prod.snd

/-- `build_session_tags_value` and `build_session_snippets_value`: the links of every listed session. -/
def sessionLinksValue (db : Db Text) (other : String) (links : List (String × String)) : Option Json :=
  arrayEntry ((Sessions.listAllWithTombstones db).flatMap fun e =>
    (linkedTo links e.1.id).map (linkValue "session_id" other e.1.id))

/-- `build_folder_tags_value`: folders travel by path. -/
def buildFolderTagsValue (db : Db Text) : Option Json :=
  arrayEntry ((Folders.listAll db).flatMap fun f =>
    (linkedTo db.folderTags f.1).map (linkValue "folder_path" "tag_id" (Folders.pathOf db f.1)))

/-! ## The snapshot -/

/-- `SchemaVersions::ARCHIVE`. -/
def schemaVersion : Int := 1

/-- `write_manifest` of a sync push. -/
def manifestValue (createdAtMs : Int64) (appVersion syncOrigin : String) : Json :=
  let obj := Object.insert "schema_version" (.int schemaVersion) []
  let obj := Object.insert "created_at" (.str (formatIso8601Utc createdAtMs)) obj
  let obj := insertNonEmpty "app_version" appVersion obj
  .obj (insertNonEmpty "sync_origin" syncOrigin obj)

/-- `build_zip` of a sync push: the entries of the snapshot composed from `db`. -/
def composeSync (J : JsonText Text) (db : Db Text) (createdAtMs : Int64) (appVersion syncOrigin : String) :
    PendingImport Text where
  manifestJson := some (J.toStr (manifestValue createdAtMs appVersion syncOrigin))
  sessionsJson := some (J.toStr (buildSessionsValue J db))
  keysJson := (buildManagerKeysValue db).map J.toStr
  tagsJson := (buildTagsValue db).map J.toStr
  sessionTagsJson :=
    if db.tags.rows = [] then none else (sessionLinksValue db "tag_id" db.sessionTags).map J.toStr
  folderTagsJson := if db.tags.rows = [] then none else (buildFolderTagsValue db).map J.toStr
  snippetsJson := (buildSnippetsValue db).map J.toStr
  sessionSnippetsJson :=
    if db.snippets.rows = [] then none
    else (sessionLinksValue db "snippet_id" db.sessionSnippets).map J.toStr
  emptyFoldersJson := none

end LetsFlutSsh.Archive
