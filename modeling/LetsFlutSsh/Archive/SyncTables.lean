import LetsFlutSsh.Archive.DbStore

/-!
# The whole database in a sync

The tables `Db` leaves out, and the merge of a peer's snapshot into all of them:

* `ChildTables`, `Whole`: known hosts, certificates, WebDAV and S3 details, bookmarks, port forwards,
  next to the main tables;
* `wholeStore`: all tables as a store of the import driver;
* `composeWhole`: the snapshot a sync push composes;
* `applyOneDetail`, `applyOneSftpBookmark`, `applyOnePortForwardRule`: one row of a table that hangs
  off sessions, with the last-writer-wins gate of the sync mode;
* `mergeWhole`: `merge_pending_into_local` with all its stages;
* `settled`: every row of the snapshot was applied, or lost to a newer one.
-/

namespace LetsFlutSsh.Archive
open Lib Lib.Json

variable {Text α : Type}

/-! ## Tables -/

structure HostKey where
  keyType : String
  keyBase64 : String
  addedAtMs : Int64
deriving DecidableEq

/-- A details row with the stamps of the sync. -/
structure Stamped (α : Type) where
  row : α
  updatedAt : Int64
  deletedAt : Option Int64

/-- The tables besides those of `Db`. The secrets of WebDAV and S3 sessions never travel and are left out. -/
@[ext]
structure ChildTables where
  knownHosts : Table (String × Int64) HostKey
  certificates : Table String CertRecord
  webdav : Table String (Stamped WebDavSessionRow)
  s3 : Table String (Stamped S3SessionRow)
  bookmarks : Table String (Stored SftpBookmarkRow)
  portForwards : Table String (Stored PortForwardRuleRow)

/-- All tables; `Db` lists the sessions that have WebDAV or S3 details. -/
structure Whole (Text : Type) where
  main : Db Text
  child : ChildTables
  webdavIds : main.webdavDetails = child.webdav.keys
  s3Ids : main.s3Details = child.s3.keys

namespace Whole

def of (main : Db Text) (child : ChildTables) : Whole Text :=
  ⟨{ main with webdavDetails := child.webdav.keys, s3Details := child.s3.keys }, child, rfl, rfl⟩

/-- The main tables after some statements: details they dropped are gone. -/
def withMain (w : Whole Text) (main : Db Text) : Whole Text :=
  of main { w.child with
      webdav := w.child.webdav.dropKeys fun id => id ∉ main.webdavDetails
      s3 := w.child.s3.dropKeys fun id => id ∉ main.s3Details }

end Whole

/-! ## Statements on the tables -/

namespace KnownHosts

/-- `ORDER BY host ASC, port ASC`. -/
def listedBefore (a b : (String × Int64) × HostKey) : Bool := a.1.1 < b.1.1 || (a.1.1 == b.1.1 && a.1.2 ≤ b.1.2)

def listAll (t : Table (String × Int64) HostKey) : List ((String × Int64) × HostKey) := t.rows.mergeSort listedBefore

/-- `upsert_by_host_port`: key and time are replaced. -/
def upsertByHostPort (t : Table (String × Int64) HostKey) (h : KnownHost) (addedAtMs : Int64) :
    Table (String × Int64) HostKey :=
  t.set (h.host, h.port) ⟨h.keyType, h.keyBase64, addedAtMs⟩

end KnownHosts

-- The statements of `webdav_sessions` and `s3_sessions`.
namespace Details

def listAllWithTombstones (t : Table String (Stamped α)) : List (String × Stamped α) :=
  t.rows.mergeSort fun a b => a.1 ≤ b.1

/-- `upsert_with_stamp`: the tombstone is cleared. -/
def upsertWithStamp (t : Table String (Stamped α)) (id : String) (row : α) (updatedAtMs : Int64) :
    Table String (Stamped α) :=
  t.set id ⟨row, updatedAtMs, none⟩

/-- `get_updated_at`: also of a deleted row. -/
def getUpdatedAt (t : Table String (Stamped α)) (id : String) : Option Int64 := (t.get id).map Stamped.updatedAt

/-- `apply_tombstone`: mark the row deleted when the stamp beats its `updated_at`. -/
def applyTombstone (t : Table String (Stamped α)) (id : String) (deletedAtMs : Int64) : Table String (Stamped α) :=
  match t.get id with
  | none => t
  | some s =>
    if s.updatedAt < deletedAtMs then t.set id { s with updatedAt := deletedAtMs, deletedAt := some deletedAtMs } else t

def deleteAll (now : Int64) (t : Table String (Stamped α)) : Table String (Stamped α) :=
  t.map fun s => if s.deletedAt.isNone then { s with updatedAt := now, deletedAt := some now } else s

end Details

namespace SftpBookmarks

/-- `ORDER BY session_id ASC, remote_path ASC`. -/
def listedBefore (a b : String × Stored SftpBookmarkRow) : Bool :=
  a.2.row.sessionId < b.2.row.sessionId ||
    (a.2.row.sessionId == b.2.row.sessionId && a.2.row.remotePath ≤ b.2.row.remotePath)

def listAllWithTombstones (t : Table String (Stored SftpBookmarkRow)) : List (String × Stored SftpBookmarkRow) :=
  t.rows.mergeSort listedBefore

/-- The stored row: a conflict keeps `created_at` and clears the tombstone. -/
def written (old : Option (Stored SftpBookmarkRow)) (row : SftpBookmarkRow) : Stored SftpBookmarkRow :=
  ⟨{ row with createdAtMs := (old.map fun s => s.row.createdAtMs).getD row.createdAtMs }, none⟩

def upsert (t : Table String (Stored SftpBookmarkRow)) (row : SftpBookmarkRow) : Table String (Stored SftpBookmarkRow) :=
  t.set row.id (written (t.get row.id) row)

/-- `apply_tombstone`: only a live bookmark older than the stamp is marked. -/
def applyTombstone (t : Table String (Stored SftpBookmarkRow)) (id : String) (deletedAtMs : Int64) :
    Table String (Stored SftpBookmarkRow) :=
  match t.get id with
  | none => t
  | some s =>
    if s.deletedAt.isNone && s.row.createdAtMs < deletedAtMs then t.set id { s with deletedAt := some deletedAtMs } else t

end SftpBookmarks

namespace PortForwards

/-- `ORDER BY session_id ASC, sort_order ASC, created_at ASC`. -/
def listedBefore (a b : String × Stored PortForwardRuleRow) : Bool :=
  a.2.row.sessionId < b.2.row.sessionId || (a.2.row.sessionId == b.2.row.sessionId &&
      (a.2.row.sortOrder < b.2.row.sortOrder ||
        (a.2.row.sortOrder == b.2.row.sortOrder && a.2.row.createdAtMs ≤ b.2.row.createdAtMs)))

def listAllWithTombstones (t : Table String (Stored PortForwardRuleRow)) : List (String × Stored PortForwardRuleRow) :=
  t.rows.mergeSort listedBefore

/-- The stored row: a conflict keeps `created_at` and clears the tombstone. -/
def written (old : Option (Stored PortForwardRuleRow)) (row : PortForwardRuleRow) (updatedAtMs : Int64) :
    Stored PortForwardRuleRow :=
  ⟨{ row with
      createdAtMs := (old.map fun s => s.row.createdAtMs).getD row.createdAtMs
      updatedAtMs := updatedAtMs }, none⟩

def upsertWithStamp (t : Table String (Stored PortForwardRuleRow)) (row : PortForwardRuleRow) (updatedAtMs : Int64) :
    Table String (Stored PortForwardRuleRow) :=
  t.set row.id (written (t.get row.id) row updatedAtMs)

/-- `apply_tombstone`: mark the rule deleted when the stamp beats its `updated_at`. -/
def applyTombstone (t : Table String (Stored PortForwardRuleRow)) (id : String) (deletedAtMs : Int64) :
    Table String (Stored PortForwardRuleRow) :=
  match t.get id with
  | none => t
  | some s =>
    if s.row.updatedAtMs < deletedAtMs then
      t.set id ⟨{ s.row with updatedAtMs := deletedAtMs }, some deletedAtMs⟩
    else t

def deleteAll (now : Int64) (t : Table String (Stored PortForwardRuleRow)) : Table String (Stored PortForwardRuleRow) :=
  t.map fun s => if s.deletedAt.isNone then ⟨{ s.row with updatedAtMs := now }, some now⟩ else s

end PortForwards

/-! ## The store of all tables -/

def onMain {β : Type} (call : Call (Db Text) β) : Call (Whole Text) β := fun w =>
  let r := call w.main
  (w.withMain r.1, r.2)

/-- A statement on the other tables. Its caller found the parent row, so no foreign key fails. -/
def onChild (f : ChildTables → ChildTables) : Call (Whole Text) Unit := fun w => (.of w.main (f w.child), .ok ())

/-- `delete_all` and `clear_all` of the other tables. -/
def clearChild (now : Int64) (c : ChildTables) : Cleared → ChildTables
  | .sftpBookmarks => { c with bookmarks := c.bookmarks.map (markDeleted now) }
  | .portForwardRules => { c with portForwards := PortForwards.deleteAll now c.portForwards }
  | .webdavSessionDetails => { c with webdav := Details.deleteAll now c.webdav }
  | .s3SessionDetails => { c with s3 := Details.deleteAll now c.s3 }
  | .knownHosts => { c with knownHosts := .empty }
  | _ => c

def wholeStore (E : Env Text) (now : Int64) : Store (Whole Text) Text where
  clear t w := (.of (clearTable now w.main t) (clearChild now w.child t), .ok ())
  listFingerprints := onMain (dbStore E now).listFingerprints
  upsertKey row := onMain ((dbStore E now).upsertKey row)
  mint w := (dbStore E now).mint w.main
  upsertFolder id row := onMain ((dbStore E now).upsertFolder id row)
  upsertSession row := onMain ((dbStore E now).upsertSession row)
  upsertTag row := onMain ((dbStore E now).upsertTag row)
  linkSessionTag a b := onMain ((dbStore E now).linkSessionTag a b)
  linkFolderTag a b := onMain ((dbStore E now).linkFolderTag a b)
  upsertSnippet row := onMain ((dbStore E now).upsertSnippet row)
  linkSessionSnippet a b := onMain ((dbStore E now).linkSessionSnippet a b)
  upsertKnownHost h := onChild fun c => { c with knownHosts := KnownHosts.upsertByHostPort c.knownHosts h now }
  listKeyIds := onMain (dbStore E now).listKeyIds
  listSessionIds := onMain (dbStore E now).listSessionIds
  upsertCertificate r := onChild fun c => { c with certificates := c.certificates.set r.keyId r }
  upsertWebdav r := onChild fun c => { c with webdav := Details.upsertWithStamp c.webdav r.sessionId r now }
  upsertS3 r := onChild fun c => { c with s3 := Details.upsertWithStamp c.s3 r.sessionId r now }
  upsertBookmark r := onChild fun c => { c with bookmarks := SftpBookmarks.upsert c.bookmarks r }
  upsertPortForward r := onChild fun c => { c with portForwards := PortForwards.upsertWithStamp c.portForwards r now }

/-! ## The snapshot -/

/-- `build_known_hosts`: a line `host:port keytype base64` for every host. -/
def buildKnownHosts (t : Table (String × Int64) HostKey) : String :=
  String.join ((KnownHosts.listAll t).map fun e =>
    e.1.1 ++ ":" ++ toString e.1.2.toInt ++ " " ++ e.2.keyType ++ " " ++ e.2.keyBase64 ++ "\n")

def certificateValue (c : CertRecord) : Json :=
  let obj := Object.insert "key_id" (.str c.keyId) []
  let obj := Object.insert "certificate" (bytesToJson c.certificate) obj
  let obj := Object.insert "valid_after" (.ofI64 c.validAfter) obj
  let obj := Object.insert "valid_before" (.ofI64 c.validBefore) obj
  let obj := Object.insert "principals" (.arr (c.principals.map .str)) obj
  let obj := Object.insert "critical_options"
    (.obj (c.criticalOptions.foldl (fun o e => Object.insert e.1 (.str e.2) o) [])) obj
  .obj (Object.insert "fingerprint" (.str c.fingerprint) obj)

/-- `build_ssh_key_certificates_value` of a sync push: every certificate, in key order. -/
def buildSshKeyCertificatesValue (t : Table String CertRecord) : Option Json :=
  arrayEntry ((t.rows.mergeSort fun a b => a.1 ≤ b.1).map fun e => certificateValue { e.2 with keyId := e.1 })

def insertFlag (k : String) (b : Bool) (obj : Object) : Object :=
  if b then Object.insert k (.bool true) obj else obj

def insertStamps (updatedAt : Int64) (deletedAt : Option Int64) (obj : Object) : Object :=
  insertTombstone deletedAt (Object.insert "updated_at_ms" (.ofI64 updatedAt) obj)

def webdavRowToValue (r : WebDavSessionRow) (updatedAt : Int64) (deletedAt : Option Int64) : Json :=
  let obj := Object.insert "session_id" (.str r.sessionId) []
  let obj := Object.insert "base_url" (.str r.baseUrl) obj
  let obj := Object.insert "username" (.str r.username) obj
  let obj := Object.insert "auth_method" (.str r.authMethod) obj
  let obj := insertOpt "trusted_cert_pem" (r.trustedCertPem.map .str) obj
  let obj := insertFlag "insecure_skip_verify" r.insecureSkipVerify obj
  let obj := Object.insert "credential_secret_id" (.str ("session.webdav." ++ r.sessionId)) obj
  .obj (insertStamps updatedAt deletedAt obj)

def s3RowToValue (r : S3SessionRow) (updatedAt : Int64) (deletedAt : Option Int64) : Json :=
  let obj := Object.insert "session_id" (.str r.sessionId) []
  let obj := Object.insert "access_key_id" (.str r.accessKeyId) obj
  let obj := Object.insert "region" (.str r.region) obj
  let obj := Object.insert "endpoint" (.str r.endpoint) obj
  let obj := Object.insert "path_style" (.bool r.pathStyle) obj
  let obj := Object.insert "default_bucket" (.str r.defaultBucket) obj
  let obj := Object.insert "default_prefix" (.str r.defaultPrefix) obj
  let obj := insertOpt "trusted_cert_pem" (r.trustedCertPem.map .str) obj
  let obj := insertFlag "insecure_skip_verify" r.insecureSkipVerify obj
  let obj := Object.insert "secret_access_key_secret_id" (.str ("session.s3." ++ r.sessionId)) obj
  .obj (insertStamps updatedAt deletedAt obj)

/-- `build_webdav_session_details_value` and `build_s3_session_details_value` of a sync push: the
details of every session, tombstones included. -/
def buildDetailsValue (value : String → Stamped α → Json) (db : Db Text) (t : Table String (Stamped α)) : Option Json :=
  arrayEntry (((Details.listAllWithTombstones t).filter fun e => (db.sessions.get e.1).isSome).map
    fun e => value e.1 e.2)

def bookmarkValue (r : SftpBookmarkRow) (deletedAt : Option Int64) : Json :=
  let obj := Object.insert "id" (.str r.id) []
  let obj := Object.insert "session_id" (.str r.sessionId) obj
  let obj := Object.insert "remote_path" (.str r.remotePath) obj
  let obj := Object.insert "label" (.str r.label) obj
  let obj := Object.insert "created_at" (.str (formatIso8601Utc r.createdAtMs)) obj
  .obj (insertTombstone deletedAt obj)

def buildSftpBookmarksValue (db : Db Text) (t : Table String (Stored SftpBookmarkRow)) : Option Json :=
  arrayEntry (((SftpBookmarks.listAllWithTombstones t).filter fun e => (db.sessions.get e.2.row.sessionId).isSome).map
    fun e => bookmarkValue { e.2.row with id := e.1 } e.2.deletedAt)

def portForwardRowToValue (r : PortForwardRuleRow) (deletedAt : Option Int64) : Json :=
  let obj := Object.insert "id" (.str r.id) []
  let obj := Object.insert "session_id" (.str r.sessionId) obj
  let obj := Object.insert "kind" (.str r.kind) obj
  let obj := Object.insert "bind_host" (.str r.bindHost) obj
  let obj := Object.insert "bind_port" (.ofI64 r.bindPort) obj
  let obj := Object.insert "remote_host" (.str r.remoteHost) obj
  let obj := Object.insert "remote_port" (.ofI64 r.remotePort) obj
  let obj := Object.insert "description" (.str r.description) obj
  let obj := Object.insert "enabled" (.bool r.enabled) obj
  let obj := Object.insert "sort_order" (.ofI64 r.sortOrder) obj
  let obj := Object.insert "created_at_ms" (.ofI64 r.createdAtMs) obj
  .obj (insertStamps r.updatedAtMs deletedAt obj)

def buildPortForwardRulesValue (db : Db Text) (t : Table String (Stored PortForwardRuleRow)) : Option Json :=
  arrayEntry (((PortForwards.listAllWithTombstones t).filter fun e => (db.sessions.get e.2.row.sessionId).isSome).map
    fun e => portForwardRowToValue { e.2.row with id := e.1 } e.2.deletedAt)

/-- `build_zip` of a sync push over all tables. -/
def composeWhole (J : JsonText Text) (S : Whole Text) (createdAtMs : Int64) (appVersion syncOrigin : String) :
    FullImport Text where
  toPendingImport := composeSync J S.main createdAtMs appVersion syncOrigin
  knownHostsText := let text := buildKnownHosts S.child.knownHosts; if text = "" then none else some text
  sshKeyCertificatesJson := (buildSshKeyCertificatesValue S.child.certificates).map J.toStr
  webdavSessionDetailsJson :=
    (buildDetailsValue (fun id s => webdavRowToValue { s.row with sessionId := id } s.updatedAt s.deletedAt)
      S.main S.child.webdav).map J.toStr
  s3SessionDetailsJson :=
    (buildDetailsValue (fun id s => s3RowToValue { s.row with sessionId := id } s.updatedAt s.deletedAt)
      S.main S.child.s3).map J.toStr
  sftpBookmarksJson := (buildSftpBookmarksValue S.main S.child.bookmarks).map J.toStr
  portForwardRulesJson := (buildPortForwardRulesValue S.main S.child.portForwards).map J.toStr

/-! ## Merging one row -/

def peerStamp (v : Json) : Option Int64 := jsonI64Opt v "updated_at_ms"

/-- `apply_one_webdav_session_detail` and `apply_one_s3_session_detail` of a sync pull. -/
def applyOneDetail (what : String) (build : Json → α) (count : DriverOutcome → DriverOutcome) (nowMs : Int64)
    (live : List String) (v : Json) (s : Running (Table String (Stamped α))) : Running (Table String (Stamped α)) :=
  let sessionId := jsonString v "session_id"
  if sessionId = "" then s
  else if isTombstone v then
    (Details.applyTombstone s.1 sessionId ((jsonI64Opt v "deleted_at_ms").getD 0), count s.2)
  else if sessionId ∈ live then
    -- The gate takes a missing stamp for the oldest, the row is stored as of now.
    if lwwPeerLoses ((peerStamp v).getD 0) (Details.getUpdatedAt s.1 sessionId) then s
    else (Details.upsertWithStamp s.1 sessionId (build v) ((peerStamp v).getD nowMs), count s.2)
  else (s.1, s.2.warn (what ++ " " ++ sessionId ++ ": parent session absent"))

def webdavRow (v : Json) : WebDavSessionRow where
  sessionId := jsonString v "session_id"
  baseUrl := jsonString v "base_url"
  username := jsonString v "username"
  authMethod := jsonString v "auth_method"
  trustedCertPem := jsonNonEmpty v "trusted_cert_pem"
  insecureSkipVerify := jsonFlag v "insecure_skip_verify"

def s3Row (v : Json) : S3SessionRow where
  sessionId := jsonString v "session_id"
  accessKeyId := jsonString v "access_key_id"
  region := jsonString v "region"
  endpoint := jsonString v "endpoint"
  pathStyle := jsonFlag v "path_style"
  defaultBucket := jsonString v "default_bucket"
  defaultPrefix := jsonString v "default_prefix"
  trustedCertPem := jsonNonEmpty v "trusted_cert_pem"
  insecureSkipVerify := jsonFlag v "insecure_skip_verify"

/-- `apply_one_sftp_bookmark` of a sync pull; `created` answers for the rows before the stage. -/
def applyOneSftpBookmark (nowMs : Int64) (live : List String) (created : String → Option Int64) (v : Json)
    (s : Running (Table String (Stored SftpBookmarkRow))) : Running (Table String (Stored SftpBookmarkRow)) :=
  let id := jsonString v "id"
  let sessionId := jsonString v "session_id"
  let count := fun o : DriverOutcome => { o with sftpBookmarksApplied := o.sftpBookmarksApplied + 1 }
  if id = "" ∨ sessionId = "" then s
  else if isTombstone v then
    (SftpBookmarks.applyTombstone s.1 id ((jsonI64Opt v "deleted_at_ms").getD 0), count s.2)
  else if sessionId ∈ live then
    let createdAtMs := parseIso8601OrNow (jsonString v "created_at") nowMs
    if lwwPeerLoses createdAtMs (created id) then s
    else
      (SftpBookmarks.upsert s.1
        { id := id
          sessionId := sessionId
          remotePath := jsonString v "remote_path"
          label := jsonString v "label"
          createdAtMs := createdAtMs }, count s.2)
  else (s.1, s.2.warn ("sftp_bookmark " ++ id ++ ": parent session " ++ sessionId ++ " absent"))

def portForwardRow (v : Json) : PortForwardRuleRow where
  id := jsonString v "id"
  sessionId := jsonString v "session_id"
  kind := jsonString v "kind"
  bindHost := jsonString v "bind_host"
  bindPort := jsonI64 v "bind_port"
  remoteHost := jsonString v "remote_host"
  remotePort := jsonI64 v "remote_port"
  description := jsonString v "description"
  enabled := ((v.member "enabled").bind asBool).getD true
  sortOrder := jsonI64 v "sort_order"
  createdAtMs := jsonI64 v "created_at_ms"
  updatedAtMs := (peerStamp v).getD 0

/-- `apply_one_port_forward_rule` of a sync pull; `updated` answers for the rows before the stage. -/
def applyOnePortForwardRule (live : List String) (updated : String → Option Int64) (v : Json)
    (s : Running (Table String (Stored PortForwardRuleRow))) : Running (Table String (Stored PortForwardRuleRow)) :=
  let id := jsonString v "id"
  let sessionId := jsonString v "session_id"
  let count := fun o : DriverOutcome => { o with portForwardRulesApplied := o.portForwardRulesApplied + 1 }
  if id = "" ∨ sessionId = "" then s
  else if isTombstone v then
    (PortForwards.applyTombstone s.1 id ((jsonI64Opt v "deleted_at_ms").getD 0), count s.2)
  else if sessionId ∈ live then
    if lwwPeerLoses ((peerStamp v).getD 0) (updated id) then s
    else (PortForwards.upsertWithStamp s.1 (portForwardRow v) ((peerStamp v).getD 0), count s.2)
  else (s.1, s.2.warn ("port_forward_rule " ++ id ++ ": parent session " ++ sessionId ++ " absent"))

/-! ## All stages -/

section Merge

variable (E : DriverEnv Text) (nowMs : Int64) (p : FullImport Text)

/-- The ids of `sessions::list_all`. -/
def liveSessionIds (db : Db Text) : List String := (Sessions.listAll db).map SessionRow.id

def overTable {τ : Type} (what : String) (entry : Option Text) (row : Json → Running τ → Running τ) (s : Running τ) :
    Running τ :=
  overRows E.json true what entry (fun items s => items.foldl (fun s v => row v s) s) s

/-- `apply_webdav_session_details`. -/
def syncWebdav (s : Running (Whole Text)) : Running (Whole Text) :=
  let r := overTable E "webdav_session_details" p.webdavSessionDetailsJson
    (applyOneDetail "webdav_session_details" webdavRow
      (fun o => { o with webdavSessionDetailsApplied := o.webdavSessionDetailsApplied + 1 }) nowMs
      (liveSessionIds s.1.main)) (s.1.child.webdav, s.2)
  (.of s.1.main { s.1.child with webdav := r.1 }, r.2)

/-- `apply_s3_session_details`. -/
def syncS3 (s : Running (Whole Text)) : Running (Whole Text) :=
  let r := overTable E "s3_session_details" p.s3SessionDetailsJson (applyOneDetail "s3_session_details" s3Row
      (fun o => { o with s3SessionDetailsApplied := o.s3SessionDetailsApplied + 1 }) nowMs
      (liveSessionIds s.1.main)) (s.1.child.s3, s.2)
  (.of s.1.main { s.1.child with s3 := r.1 }, r.2)

/-- `apply_sftp_bookmarks`. -/
def syncBookmarks (s : Running (Whole Text)) : Running (Whole Text) :=
  let created id := (s.1.child.bookmarks.get id).map fun b => b.row.createdAtMs
  let r := overTable E "sftp_bookmarks" p.sftpBookmarksJson
    (applyOneSftpBookmark nowMs (liveSessionIds s.1.main) created) (s.1.child.bookmarks, s.2)
  (.of s.1.main { s.1.child with bookmarks := r.1 }, r.2)

/-- `apply_port_forward_rules`. -/
def syncPortForwards (s : Running (Whole Text)) : Running (Whole Text) :=
  let updated id := (s.1.child.portForwards.get id).map fun f => f.row.updatedAtMs
  let r := overTable E "port_forward_rules" p.portForwardRulesJson
    (applyOnePortForwardRule (liveSessionIds s.1.main) updated) (s.1.child.portForwards, s.2)
  (.of s.1.main { s.1.child with portForwards := r.1 }, r.2)

/-- `apply_known_hosts`, the same in every mode. -/
def syncKnownHosts (s : Running (Whole Text)) : Running (Whole Text) :=
  p.knownHostsText.elim s fun text => driveKnownHosts (wholeStore E.toEnv nowMs) E.validBase64 text s

/-- `apply_ssh_key_certificates`, the same in every mode. -/
def syncCertificates (s : Running (Whole Text)) : Running (Whole Text) :=
  overChildren E true "ssh_key_certificates" "keys" (wholeStore E.toEnv nowMs).listKeyIds p.sshKeyCertificatesJson
    (driveCertificate (wholeStore E.toEnv nowMs) E.fromText) s

def syncMain (w : Whole Text) : Running (Whole Text) :=
  let m := mergePendingIntoLocal E.toEnv nowMs p.toPendingImport w.main
  (w.withMain m.1, { toApplyOutcome := m.2 })

/-- `merge_pending_into_local` on all tables. -/
def mergeWhole (w : Whole Text) : Running (Whole Text) :=
  let s := syncMain E nowMs p w
  let s := syncKnownHosts E nowMs p s
  let s := syncCertificates E nowMs p s
  let s := syncWebdav E nowMs p s
  let s := syncS3 E nowMs p s
  let s := syncBookmarks E nowMs p s
  syncPortForwards E p s

end Merge

/-! ## Rows that are left out -/

/-- The ids without which the stage of an entry passes over a row. -/
def rowIds (p : FullImport Text) : List (Option Text × List String) :=
  [(p.keysJson, ["id"]), (p.sessionsJson, ["id"]), (p.tagsJson, ["id"]), (p.snippetsJson, ["id"]),
    (p.sshKeyCertificatesJson, ["key_id"]), (p.webdavSessionDetailsJson, ["session_id"]),
    (p.s3SessionDetailsJson, ["session_id"]), (p.sftpBookmarksJson, ["id", "session_id"]),
    (p.portForwardRulesJson, ["id", "session_id"])]

/-- A line of known hosts, neither blank nor a comment, with fewer than three parts. -/
def cutLine (raw : List Char) : Bool :=
  let line := trim raw
  !line.isEmpty && line.head? ≠ some '#' && ((splitSpace line).2.bind fun rest => (splitSpace rest).2).isNone

/-- Some row is passed over without a word: it has no id, no name as a live tag, or is a line that is cut short. -/
def passedOver (J : JsonText Text) (p : FullImport Text) : Bool :=
  ((rowIds p).any fun e => (itemsOf J e.1).any fun v => e.2.any fun k => jsonString v k = "") ||
    ((itemsOf J p.tagsJson).any fun v => !isTombstone v && jsonString v "name" = "") ||
    p.knownHostsText.any fun text => (text.toList.splitOn '\n').any cutLine

/-- A merge of `p` with this outcome applied every row, or lost it to a newer one: no row failed, no link was skipped, no row
was left out without its parent, and none was passed over. -/
def settled (J : JsonText Text) (p : FullImport Text) (o : DriverOutcome) : Bool :=
  o.errors.isEmpty && o.warnings.isEmpty && o.linksSkipped = 0 && !passedOver J p

def noRows : Whole ParsedText := .of Db.empty ⟨.empty, .empty, .empty, .empty, .empty, .empty⟩

end LetsFlutSsh.Archive
