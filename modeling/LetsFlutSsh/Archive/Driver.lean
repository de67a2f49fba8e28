import LetsFlutSsh.Archive.Apply

/-!
# The import driver over any store

`run_apply` of a user's import with every table it writes, against a store that may refuse any call:

* `Store`: the calls of the driver; each returns the state it leaves and a value or an error;
* `DriverOutcome`: counters, errors and warnings of all stages;
* `runDriver`: the stages in their order, `driveX` for `apply_x`;
* `runReplaceClear`, `applyReplace`: the replace mode, which clears the chosen kinds first and runs
  in one transaction.
-/

namespace LetsFlutSsh.Archive
open Lib

variable {σ Text : Type}

/-! ## The store -/

/-- A call on the store: the state it leaves, and its value or its error. -/
abbrev Call (σ α : Type) := σ → σ × Except String α

inductive Cleared where
  | sftpBookmarks
  | portForwardRules
  | webdavSessionDetails
  | s3SessionDetails
  | sessions
  | folders
  | tags
  | snippets
  | knownHosts
deriving DecidableEq

def Cleared.label : Cleared → String
  | sftpBookmarks => "sftp_bookmarks"
  | portForwardRules => "port_forward_rules"
  | webdavSessionDetails => "webdav_session_details"
  | s3SessionDetails => "s3_session_details"
  | sessions => "sessions"
  | folders => "folders"
  | tags => "tags"
  | snippets => "snippets"
  | knownHosts => "known_hosts"

structure KnownHost where
  host : String
  port : Int64
  keyType : String
  keyBase64 : String

structure CertRecord where
  keyId : String
  certificate : List UInt8
  validAfter : Int64
  validBefore : Int64
  principals : List String
  criticalOptions : List (String × String)
  fingerprint : String

structure WebDavSessionRow where
  sessionId : String
  baseUrl : String
  username : String
  authMethod : String
  trustedCertPem : Option String
  insecureSkipVerify : Bool

structure S3SessionRow where
  sessionId : String
  accessKeyId : String
  region : String
  endpoint : String
  pathStyle : Bool
  defaultBucket : String
  defaultPrefix : String
  trustedCertPem : Option String
  insecureSkipVerify : Bool

structure SftpBookmarkRow where
  id : String
  sessionId : String
  remotePath : String
  label : String
  createdAtMs : Int64

structure PortForwardRuleRow where
  id : String
  sessionId : String
  kind : String
  bindHost : String
  bindPort : Int64
  remoteHost : String
  remotePort : Int64
  description : String
  enabled : Bool
  sortOrder : Int64
  createdAtMs : Int64
  updatedAtMs : Int64

/-- The access functions a user's import calls. Any call may fail, and may have changed the store
before it failed. -/
structure Store (σ Text : Type) where
  clear : Cleared → Call σ Unit
  listFingerprints : Call σ (List String)
  upsertKey : SshKeyRow → Call σ Unit
  mint : σ → String
  upsertFolder : String → FolderRow → Call σ Unit
  upsertSession : SessionRow Text → Call σ Unit
  upsertTag : TagRow → Call σ Unit
  linkSessionTag : String → String → Call σ Unit
  linkFolderTag : String → String → Call σ Unit
  upsertSnippet : SnippetRow → Call σ Unit
  linkSessionSnippet : String → String → Call σ Unit
  upsertKnownHost : KnownHost → Call σ Unit
  listKeyIds : Call σ (List String)
  listSessionIds : Call σ (List String)
  upsertCertificate : CertRecord → Call σ Unit
  upsertWebdav : WebDavSessionRow → Call σ Unit
  upsertS3 : S3SessionRow → Call σ Unit
  upsertBookmark : SftpBookmarkRow → Call σ Unit
  upsertPortForward : PortForwardRuleRow → Call σ Unit

/-! ## Archive, choice and outcome -/

/-- An archive with the entries that become database rows. -/
structure FullImport (Text : Type) extends PendingImport Text where
  knownHostsText : Option String := none
  sshKeyCertificatesJson : Option Text := none
  webdavSessionDetailsJson : Option Text := none
  s3SessionDetailsJson : Option Text := none
  sftpBookmarksJson : Option Text := none
  portForwardRulesJson : Option Text := none

structure DriverOptions extends ApplyOptions where
  applyKnownHosts : Bool

structure DriverOutcome extends ApplyOutcome where
  knownHostsApplied : Nat := 0
  sshKeyCertificatesApplied : Nat := 0
  webdavSessionDetailsApplied : Nat := 0
  s3SessionDetailsApplied : Nat := 0
  sftpBookmarksApplied : Nat := 0
  portForwardRulesApplied : Nat := 0
  warnings : List String := []
  rolledBack : Bool := false

namespace DriverOutcome

def fail (o : DriverOutcome) (e : String) : DriverOutcome := { o with errors := o.errors ++ [e] }

def warn (o : DriverOutcome) (w : String) : DriverOutcome := { o with warnings := o.warnings ++ [w] }

def skipLink (o : DriverOutcome) : DriverOutcome := { o with linksSkipped := o.linksSkipped + 1 }

end DriverOutcome

abbrev Running (σ : Type) := σ × DriverOutcome

/-- Make a call, count it when it succeeds and report it under `label` when it fails. -/
def attempt (call : Call σ Unit) (label : String) (count : DriverOutcome → DriverOutcome) (s : Running σ) : Running σ :=
  match call s.1 with
  | (db, .ok _) => (db, count s.2)
  | (db, .error e) => (db, s.2.fail (label ++ ": " ++ e))

def attemptLink (call : Call σ Unit) (label : String) (count : DriverOutcome → DriverOutcome) (s : Running σ) : Running σ :=
  match call s.1 with
  | (db, .ok _) => (db, count s.2)
  | (db, .error e) => (db, s.2.skipLink.fail (label ++ ": " ++ e))

/-- Read a list and go on with it; a failed read is reported under `label` and ends the stage. -/
def withList (call : Call σ (List String)) (label : String) (go : List String → Running σ → Running σ)
    (s : Running σ) : Running σ :=
  match call s.1 with
  | (db, .ok items) => go items (db, s.2)
  | (db, .error e) => (db, s.2.fail (label ++ ": " ++ e))

/-- Run a stage over an optional array entry; an entry that is no array is reported. -/
def overRows (J : JsonText Text) (want : Bool) (what : String) (entry : Option Text)
    (stage : List Json → Running σ → Running σ) (s : Running σ) : Running σ :=
  if want then
    entry.elim s fun text =>
      match parseArray J text with
      | .error e => (s.1, s.2.fail (what ++ " parse: " ++ e))
      | .ok items => stage items s
  else s

/-! ## Keys, folders, sessions -/

section Stages

variable (K : Store σ Text) (E : Env Text) (nowMs : Int64)

def driveKey (known : List String) (v : Json) (s : Running σ) : Running σ :=
  let fp := keyPubFingerprint E (jsonString v "public_key")
  if fp ≠ "" ∧ fp ∈ known then (s.1, { s.2 with keysSkippedDedup := s.2.keysSkippedDedup + 1 })
  else
    let row := buildKeyRow v nowMs
    if row.id = "" then (s.1, s.2.fail "key row missing id")
    else
      attempt (K.upsertKey row) ("key " ++ row.id ++ " upsert") (fun o => { o with keysApplied := o.keysApplied + 1 }) s

def driveKeys (items : List Json) (s : Running σ) : Running σ :=
  withList K.listFingerprints "keys metadata"
    (fun fps s => items.foldl (fun s v => driveKey K E nowMs (fps.filter (· ≠ "")) v s) s) s

/-- What the folder stages carry: the folders of the paths met and the next sort order. -/
structure Placing (σ : Type) where
  pathToId : List (String × String)
  sortOrder : Int64
  state : Running σ

/-- The loop of `materialise_folder_path`. -/
def driveSegments (errLabel : String) : List String → String → Option String → Placing σ → Placing σ
  | [], _, _, m => m
  | seg :: segs, accum, parent, m =>
    let accum := if accum = "" then seg else accum ++ "/" ++ seg
    match m.pathToId.lookup accum with
    | some existing => driveSegments errLabel segs accum (some existing) m
    | none =>
      let id := K.mint m.state.1
      match K.upsertFolder id ⟨seg, parent, m.sortOrder, false, nowMs⟩ m.state.1 with
      | (db, .ok _) =>
        driveSegments errLabel segs accum (some id)
          { pathToId := m.pathToId ++ [(accum, id)]
            sortOrder := m.sortOrder + 1
            state := (db, { m.state.2 with foldersApplied := m.state.2.foldersApplied + 1 }) }
      | (db, .error e) =>
        driveSegments errLabel segs accum none
          { m with
            sortOrder := m.sortOrder + 1
            state := (db, m.state.2.fail (errLabel ++ " " ++ accum ++ " upsert" ++ ": " ++ e)) }

/-- `materialise_folder_path`. -/
def driveFolderPath (errLabel path : String) (m : Placing σ) : Placing σ :=
  driveSegments K nowMs errLabel (Folders.segments path) "" none m

/-- `apply_folder_tree` of a user's import, on the parsed entries. -/
def driveFolderTree (items : List Json) (s : Running σ) : List (String × String) × Running σ :=
  let m := (folderPaths items).foldl (fun m path => driveFolderPath K nowMs "folder" path m) ⟨[], 0, s⟩
  (m.pathToId, m.state)

/-- `apply_one_session` of a user's import. -/
def driveSession (mode : ApplyMode) (folderIds : List (String × String)) (v : Json) (s : Running σ) : Running σ :=
  let id := jsonString v "id"
  if id = "" then (s.1, s.2.fail "session row missing id")
  else if isTombstone v then s
  else
    attempt (K.upsertSession (buildSessionRow E.json mode folderIds nowMs v)) ("session " ++ id ++ " upsert")
      (fun o => { o with sessionsApplied := o.sessionsApplied + 1 }) s

/-- `apply_folder_tree`, then `apply_sessions`. -/
def driveSessionsJson (mode : ApplyMode) (text : Text) (s : Running σ) : List (String × String) × Running σ :=
  match parseArray E.json text with
  | .error e => ([], (s.1, s.2.fail ("sessions parse: " ++ e)))
  | .ok items =>
    let r := driveFolderTree K nowMs items s
    (r.1, items.foldl (fun s v => driveSession K E nowMs mode r.1 v s) r.2)

/-- `apply_empty_folders` on the parsed paths. -/
def driveEmptyFolders (paths : List String) (pathToId : List (String × String)) (s : Running σ) :
    List (String × String) × Running σ :=
  let m := paths.foldl (fun m path =>
      if path = "" ∨ (m.pathToId.lookup path).isSome then m else driveFolderPath K nowMs "empty_folder" path m)
    ⟨pathToId, Int64.ofNat pathToId.length, s⟩
  (m.pathToId, m.state)

def driveSessionsPhase (mode : ApplyMode) (want : Bool) (pending : PendingImport Text) (s : Running σ) :
    List (String × String) × Running σ :=
  if want then
    let r := pending.sessionsJson.elim ([], s) fun text => driveSessionsJson K E nowMs mode text s
    pending.emptyFoldersJson.elim r fun text =>
      match parseStrings E.json text with
      | .error e => (r.1, (r.2.1, r.2.2.fail ("empty_folders parse: " ++ e)))
      | .ok paths => driveEmptyFolders K nowMs paths r.1 r.2
  else ([], s)

/-! ## Tags, snippets, links -/

def driveTag (v : Json) (s : Running σ) : Running σ :=
  let id := jsonString v "id"
  let name := jsonString v "name"
  if isTombstone v then s
  else if id = "" ∨ name = "" then s
  else
    attempt (K.upsertTag ⟨id, name, jsonNonEmpty v "color", parseIso8601OrNow (jsonString v "created_at") nowMs⟩)
      ("tag " ++ id ++ " upsert") (fun o => { o with tagsApplied := o.tagsApplied + 1 }) s

def driveSnippet (v : Json) (s : Running σ) : Running σ :=
  let id := jsonString v "id"
  let title := jsonString v "title"
  if id = "" then s
  else if isTombstone v then s
  else if title = "" then s
  else
    attempt (K.upsertSnippet
        { id := id
          title := title
          command := jsonString v "command"
          description := jsonString v "description"
          createdAtMs := parseIso8601OrNow (jsonString v "created_at") nowMs
          updatedAtMs := nowMs })
      ("snippet " ++ id ++ " upsert") (fun o => { o with snippetsApplied := o.snippetsApplied + 1 }) s

def driveSessionTag (v : Json) (s : Running σ) : Running σ :=
  let sessionId := jsonString v "session_id"
  let tagId := jsonString v "tag_id"
  if sessionId = "" ∨ tagId = "" then (s.1, s.2.skipLink)
  else
    attemptLink (K.linkSessionTag sessionId tagId) ("session_tag " ++ sessionId ++ "↔" ++ tagId)
      (fun o => { o with sessionTagsApplied := o.sessionTagsApplied + 1 }) s

def driveFolderTag (pathToId : List (String × String)) (v : Json) (s : Running σ) : Running σ :=
  let folderPath := jsonString v "folder_path"
  let tagId := jsonString v "tag_id"
  if folderPath = "" ∨ tagId = "" then (s.1, s.2.skipLink)
  else
    match pathToId.lookup folderPath with
    | none => (s.1, s.2.skipLink)
    | some folderId =>
      attemptLink (K.linkFolderTag folderId tagId) ("folder_tag " ++ folderPath ++ "↔" ++ tagId)
        (fun o => { o with folderTagsApplied := o.folderTagsApplied + 1 }) s

def driveSessionSnippet (v : Json) (s : Running σ) : Running σ :=
  let sessionId := jsonString v "session_id"
  let snippetId := jsonString v "snippet_id"
  if sessionId = "" ∨ snippetId = "" then (s.1, s.2.skipLink)
  else
    attemptLink (K.linkSessionSnippet sessionId snippetId) ("session_snippet " ++ sessionId ++ "↔" ++ snippetId)
      (fun o => { o with sessionSnippetsApplied := o.sessionSnippetsApplied + 1 }) s

/-! ## Known hosts -/

/-- `splitn(2, char::is_whitespace)`: what stands before and after the first white space. -/
def splitSpace (cs : List Char) : List Char × Option (List Char) :=
  (cs.takeWhile fun c => !isWhitespace c, (cs.dropWhile fun c => !isWhitespace c).tail?)

/-- `str::parse::<i64>`. -/
def parsePort (cs : List Char) : Option Int64 :=
  (parseI64 (utf8 (String.ofList cs))).bind fun n =>
    if -(2 ^ 63) ≤ n ∧ n < 2 ^ 63 then some (Int64.ofInt n) else none

/-- `host[:port]`; without a number after the last colon the port is 22. -/
def hostPort (cs : List Char) : String × Int64 :=
  let after := (cs.reverse.takeWhile (· ≠ ':')).reverse
  let before := (cs.reverse.dropWhile (· ≠ ':')).tail.reverse
  match if ':' ∈ cs then parsePort after else none with
  | some port => (String.ofList before, port)
  | none => (String.ofList cs, 22)

/-- One line of `apply_known_hosts`; `validBase64` is the decoder's check of the key. -/
def driveKnownHost (validBase64 : String → Bool) (raw : List Char) (s : Running σ) : Running σ :=
  let line := trim raw
  if line = [] ∨ line.head? = some '#' then s
  else
    match splitSpace line with
    | (host, some rest) =>
      match splitSpace rest with
      | (keyType, some key) =>
        if String.ofList key = "" ∨ validBase64 (String.ofList key) = false then
          (s.1, s.2.warn "known_hosts row skipped: invalid base64 key body")
        else
          let hp := hostPort host
          attempt (K.upsertKnownHost ⟨hp.1, hp.2, String.ofList keyType, String.ofList key⟩)
            ("known_host " ++ hp.1 ++ ":" ++ toString hp.2.toInt)
            (fun o => { o with knownHostsApplied := o.knownHostsApplied + 1 }) s
      | (_, none) => s
    | (_, none) => s

def driveKnownHosts (validBase64 : String → Bool) (text : String) (s : Running σ) : Running σ :=
  (text.toList.splitOn '\n').foldl (fun s line => driveKnownHost K validBase64 line s) s

/-! ## Tables that hang off keys and sessions -/

/-- `Vec<String>` from JSON. -/
def jsonStrings (v : Json) : Option (List String) :=
  v.asArray.bind fun items => if items.all fun x => x.asStr.isSome then some (items.filterMap Json.asStr) else none

/-- `BTreeMap<String, String>` from JSON. -/
def jsonStringMap (v : Json) : Option (List (String × String)) :=
  v.asObject.bind fun m =>
    if m.all fun e => e.2.asStr.isSome then some (m.filterMap fun e => e.2.asStr.map fun t => (e.1, t)) else none

/-- The principals of a certificate: an array, or an array encoded in a text. -/
def certPrincipals (fromText : String → Option Json) (v : Json) : List String :=
  match v.member "principals" with
  | some (.arr items) => items.filterMap Json.asStr
  | some (.str t) => ((fromText t).bind jsonStrings).getD []
  | _ => []

/-- The critical options of a certificate: an object, or an object encoded in a text. -/
def certCriticalOptions (fromText : String → Option Json) (v : Json) : List (String × String) :=
  match v.member "critical_options" with
  | some (.obj m) => m.filterMap fun e => e.2.asStr.map fun t => (e.1, t)
  | some (.str t) => ((fromText t).bind jsonStringMap).getD []
  | _ => []

def driveCertificate (fromText : String → Option Json) (liveKeys : List String) (v : Json) (s : Running σ) : Running σ :=
  let keyId := jsonString v "key_id"
  if keyId = "" then s
  else if keyId ∈ liveKeys then
    attempt (K.upsertCertificate
        { keyId := keyId
          certificate := (jsonBytes v "certificate").getD []
          validAfter := jsonI64 v "valid_after"
          validBefore := jsonI64 v "valid_before"
          principals := certPrincipals fromText v
          criticalOptions := certCriticalOptions fromText v
          fingerprint := jsonString v "fingerprint" })
      ("ssh_key_certificate " ++ keyId ++ " upsert")
      (fun o => { o with sshKeyCertificatesApplied := o.sshKeyCertificatesApplied + 1 }) s
  else (s.1, s.2.warn ("ssh_key_certificate " ++ keyId ++ ": parent key absent"))

/-- A row that hangs off the session `parent`: skipped without its ids or as a tombstone, dropped with
a warning when the session is not there. -/
def driveChild (live : List String) (incomplete : Bool) (parent absent : String) (call : Call σ Unit) (label : String)
    (count : DriverOutcome → DriverOutcome) (v : Json) (s : Running σ) : Running σ :=
  if incomplete then s
  else if isTombstone v then s
  else if parent ∈ live then attempt call label count s
  else (s.1, s.2.warn absent)

/-- `apply_one_webdav_session_detail` of a user's import. -/
def driveWebdav (live : List String) (v : Json) : Running σ → Running σ :=
  let sessionId := jsonString v "session_id"
  driveChild live (sessionId = "") sessionId ("webdav_session_details " ++ sessionId ++ ": parent session absent")
    (K.upsertWebdav
      { sessionId := sessionId
        baseUrl := jsonString v "base_url"
        username := jsonString v "username"
        authMethod := jsonString v "auth_method"
        trustedCertPem := jsonNonEmpty v "trusted_cert_pem"
        insecureSkipVerify := jsonFlag v "insecure_skip_verify" })
    ("webdav_session_details " ++ sessionId ++ " upsert")
    (fun o => { o with webdavSessionDetailsApplied := o.webdavSessionDetailsApplied + 1 }) v

def driveS3 (live : List String) (v : Json) : Running σ → Running σ :=
  let sessionId := jsonString v "session_id"
  driveChild live (sessionId = "") sessionId ("s3_session_details " ++ sessionId ++ ": parent session absent") (K.upsertS3
      { sessionId := sessionId
        accessKeyId := jsonString v "access_key_id"
        region := jsonString v "region"
        endpoint := jsonString v "endpoint"
        pathStyle := jsonFlag v "path_style"
        defaultBucket := jsonString v "default_bucket"
        defaultPrefix := jsonString v "default_prefix"
        trustedCertPem := jsonNonEmpty v "trusted_cert_pem"
        insecureSkipVerify := jsonFlag v "insecure_skip_verify" })
    ("s3_session_details " ++ sessionId ++ " upsert")
    (fun o => { o with s3SessionDetailsApplied := o.s3SessionDetailsApplied + 1 }) v

def driveBookmark (live : List String) (v : Json) : Running σ → Running σ :=
  let id := jsonString v "id"
  let sessionId := jsonString v "session_id"
  driveChild live (id = "" || sessionId = "") sessionId
    ("sftp_bookmark " ++ id ++ ": parent session " ++ sessionId ++ " absent")
    (K.upsertBookmark
      { id := id
        sessionId := sessionId
        remotePath := jsonString v "remote_path"
        label := jsonString v "label"
        createdAtMs := parseIso8601OrNow (jsonString v "created_at") nowMs })
    ("sftp_bookmark " ++ id ++ " upsert")
    (fun o => { o with sftpBookmarksApplied := o.sftpBookmarksApplied + 1 }) v

def drivePortForward (live : List String) (v : Json) : Running σ → Running σ :=
  let id := jsonString v "id"
  let sessionId := jsonString v "session_id"
  driveChild live (id = "" || sessionId = "") sessionId
    ("port_forward_rule " ++ id ++ ": parent session " ++ sessionId ++ " absent")
    (K.upsertPortForward
      { id := id
        sessionId := sessionId
        kind := jsonString v "kind"
        bindHost := jsonString v "bind_host"
        bindPort := jsonI64 v "bind_port"
        remoteHost := jsonString v "remote_host"
        remotePort := jsonI64 v "remote_port"
        description := jsonString v "description"
        enabled := ((v.member "enabled").bind Json.asBool).getD true
        sortOrder := jsonI64 v "sort_order"
        createdAtMs := jsonI64 v "created_at_ms"
        updatedAtMs := nowMs })
    ("port_forward_rule " ++ id ++ " upsert")
    (fun o => { o with portForwardRulesApplied := o.portForwardRulesApplied + 1 }) v

end Stages

/-! ## All stages -/

structure DriverEnv (Text : Type) extends Env Text where
  validBase64 : String → Bool
  fromText : String → Option Json

section Driver

variable (K : Store σ Text) (E : DriverEnv Text) (nowMs : Int64) (options : DriverOptions) (p : FullImport Text)

def driveTagsPhase (pathToId : List (String × String)) (s : Running σ) : Running σ :=
  let s := overRows E.json options.applyTags "tags" p.tagsJson
    (fun items s => items.foldl (fun s v => driveTag K nowMs v s) s) s
  let s := overRows E.json (options.applySessions && options.applyTags) "session_tags" p.sessionTagsJson
    (fun items s => items.foldl (fun s v => driveSessionTag K v s) s) s
  overRows E.json (options.applySessions && options.applyTags) "folder_tags" p.folderTagsJson
    (fun items s => items.foldl (fun s v => driveFolderTag K pathToId v s) s) s

def driveSnippetsPhase (s : Running σ) : Running σ :=
  let s := overRows E.json options.applySnippets "snippets" p.snippetsJson
    (fun items s => items.foldl (fun s v => driveSnippet K nowMs v s) s) s
  overRows E.json (options.applySessions && options.applySnippets) "session_snippets" p.sessionSnippetsJson
    (fun items s => items.foldl (fun s v => driveSessionSnippet K v s) s) s

/-- A stage over the rows of a table that hangs off the rows of another. -/
def overChildren (want : Bool) (what parents : String) (list : Call σ (List String)) (entry : Option Text)
    (row : List String → Json → Running σ → Running σ) (s : Running σ) : Running σ :=
  overRows E.json want what entry
    (fun items s => withList list (what ++ " list " ++ parents) (fun live s => items.foldl (fun s v => row live v s) s) s) s

def driveChildTables (s : Running σ) : Running σ :=
  let s := overChildren E options.applyKeys "ssh_key_certificates" "keys" K.listKeyIds p.sshKeyCertificatesJson
    (driveCertificate K E.fromText) s
  let s := overChildren E options.applySessions "webdav_session_details" "sessions" K.listSessionIds
    p.webdavSessionDetailsJson (driveWebdav K) s
  let s := overChildren E options.applySessions "s3_session_details" "sessions" K.listSessionIds
    p.s3SessionDetailsJson (driveS3 K) s
  let s := overChildren E options.applySessions "sftp_bookmarks" "sessions" K.listSessionIds
    p.sftpBookmarksJson (driveBookmark K nowMs) s
  overChildren E options.applySessions "port_forward_rules" "sessions" K.listSessionIds
    p.portForwardRulesJson (drivePortForward K nowMs) s

/-- `run_apply` of a user's import. -/
def runDriver (mode : ApplyMode) (s : Running σ) : Running σ :=
  let s := overRows E.json options.applyKeys "keys" p.keysJson (driveKeys K E.toEnv nowMs) s
  let r := driveSessionsPhase K E.toEnv nowMs mode options.applySessions p.toPendingImport s
  let s := driveTagsPhase K E nowMs options p r.1 r.2
  let s := driveSnippetsPhase K E nowMs options p s
  let s := if options.applyKnownHosts then
    p.knownHostsText.elim s fun text => driveKnownHosts K E.validBase64 text s else s
  driveChildTables K E nowMs options p s

/-! ## Replacing -/

/-- The tables cleared for the user's choice, children before their parents. -/
def clearedTables : List Cleared :=
  (if options.applySessions then
    [.sftpBookmarks, .portForwardRules, .webdavSessionDetails, .s3SessionDetails, .sessions, .folders] else []) ++
  (if options.applyTags then [.tags] else []) ++
  (if options.applySnippets then [.snippets] else []) ++
  (if options.applyKnownHosts then [.knownHosts] else [])

/-- `run_replace_clear`, with `record_clear`. -/
def runReplaceClear (s : Running σ) : Running σ :=
  (clearedTables options).foldl (fun s t => attempt (K.clear t) ("replace clear " ++ t.label) (fun o => o) s) s

def replaceRun (db : σ) : Running σ :=
  runDriver K E nowMs options p (.archiveImport true) (runReplaceClear K options (db, {}))

/-- How the statements around a transaction end: the error of each, if it fails. -/
structure TxResults where
  begin_ : Option String := none
  rollback : Option String := none
  commit : Option String := none

/-- `apply_pending_to_db` in replace mode: the store afterwards, the outcome the caller holds, and the
result of the call. A transaction that was not committed leaves no trace: it is rolled back when it
is dropped. -/
def applyReplace (tx : TxResults) (db : σ) : σ × DriverOutcome × Except String Unit :=
  match tx.begin_ with
  | some e => (db, {}, .error ("apply tx begin: " ++ e))
  | none =>
    let s := replaceRun K E nowMs options p db
    if s.2.errors ≠ [] then
      match tx.rollback with
      | some e => (db, s.2, .error ("apply tx rollback: " ++ e))
      | none => (db, { s.2 with rolledBack := true }, .ok ())
    else
      match tx.commit with
      | some e => (db, s.2, .error ("apply tx commit: " ++ e))
      | none => (s.1, s.2, .ok ())

end Driver

def plainDriverEnv : DriverEnv ParsedText :=
  { plainEnv with
    validBase64 := fun _ => true
    fromText := fun _ => none }

end LetsFlutSsh.Archive
