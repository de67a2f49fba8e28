import LetsFlutSsh.Lib.Text
import LetsFlutSsh.Archive.Compose

/-!
# Applying an archive

The driver that turns the entries of an archive into rows, in the order of its stages: keys,
folders with sessions, empty folders, tags with their links, snippets with their links.

* `ApplyMode`: a user's import (merge or replace) or a sync pull;
* `applyOneSession`, `applyOneKeySync`, `applyOneTag`, `applyOneSnippet`: one entry each, with the
  last-writer-wins gate of the sync mode;
* `runApply`: all stages; a failed row is reported and the rest goes on.
-/

namespace LetsFlutSsh.Archive
open Lib

variable {Text : Type}

/-- What the driver takes from outside: JSON texts, the hash of key texts, fresh folder ids. -/
structure Env (Text : Type) where
  json : JsonText Text
  sha256Hex : Bytes → String
  /-- A random id; `used` are the ids it must not hit. -/
  mint : (used : List String) → String
  mint_fresh : ∀ used, mint used ∉ used

inductive ApplyMode where
  | archiveImport (replaceMode : Bool)
  | sync

namespace ApplyMode

def isArchive : ApplyMode → Bool
  | archiveImport _ => true
  | sync => false

def isSync : ApplyMode → Bool
  | archiveImport _ => false
  | sync => true

end ApplyMode

structure ApplyOutcome where
  sessionsApplied : Nat := 0
  keysApplied : Nat := 0
  keysSkippedDedup : Nat := 0
  tagsApplied : Nat := 0
  snippetsApplied : Nat := 0
  foldersApplied : Nat := 0
  sessionTagsApplied : Nat := 0
  folderTagsApplied : Nat := 0
  sessionSnippetsApplied : Nat := 0
  linksSkipped : Nat := 0
  errors : List String := []

def ApplyOutcome.push (o : ApplyOutcome) (e : String) : ApplyOutcome := { o with errors := o.errors ++ [e] }

structure ApplyOptions where
  applySessions : Bool
  applyKeys : Bool
  applyTags : Bool
  applySnippets : Bool

/-- `WantFlags`: without options every kind is wanted. -/
structure WantFlags where
  keys : Bool
  sessions : Bool
  tags : Bool
  snippets : Bool

def WantFlags.fromOptions (options : Option ApplyOptions) : WantFlags where
  keys := options.all ApplyOptions.applyKeys
  sessions := options.all ApplyOptions.applySessions
  tags := options.all ApplyOptions.applyTags
  snippets := options.all ApplyOptions.applySnippets

/-! ## Reading entries -/

def jsonString (v : Json) (k : String) : String := ((v.member k).bind Json.asStr).getD ""
def jsonI64Opt (v : Json) (k : String) : Option Int64 := (v.member k).bind Json.asI64
def jsonI64 (v : Json) (k : String) : Int64 := (jsonI64Opt v k).getD 0

def jsonNonEmpty (v : Json) (k : String) : Option String :=
  ((v.member k).bind Json.asStr).filter (· ≠ "")

def jsonFlag (v : Json) (k : String) : Bool := ((v.member k).bind Json.asBool).getD false

def isTombstone (v : Json) : Bool := jsonFlag v "tombstone"

/-- `lww_peer_loses`: a tie keeps the local row. -/
def lwwPeerLoses (peerTs : Int64) (localTs : Option Int64) : Bool := localTs.any fun l => peerTs ≤ l

/-- `serde_json::from_str::<Vec<Value>>`. -/
def parseArray (J : JsonText Text) (text : Text) : Except String (List Json) :=
  match J.fromStr text with
  | .error e => .error e
  | .ok (.arr items) => .ok items
  | .ok _ => .error "invalid type: expected a sequence"

/-- The items of an array entry; an entry that is missing or no array has none. -/
def itemsOf (J : JsonText Text) (entry : Option Text) : List Json :=
  (entry.bind fun text => (parseArray J text).toOption).getD []

abbrev Applying (Text : Type) := Db Text × ApplyOutcome

/-- Run a stage over the items of an array entry; an entry that is no array is one error. -/
def overArray (J : JsonText Text) (what : String) (text : Text) (f : List Json → Applying Text → Applying Text)
    (s : Applying Text) : Applying Text :=
  match parseArray J text with
  | .error e => (s.1, s.2.push (what ++ " parse: " ++ e))
  | .ok items => f items s

/-! ## Keys -/

def jsonBytes (v : Json) (k : String) : Option (List UInt8) :=
  ((v.member k).bind Json.asArray).map fun items => items.filterMap fun b => b.asU64.map UInt64.toUInt8

/-- `build_key_row`: a device-bound key lands as a stub without its private half. -/
def buildKeyRow (v : Json) (nowMs : Int64) : SshKeyRow :=
  let backend := (((v.member "backend").bind Json.asStr).map KeyBackend.fromDb).getD .software
  let pkcs11 {α : Type} (x : Option α) : Option α := if backend = .pkcs11 then x else none
  { id := jsonString v "id"
    label := jsonString v "label"
    privateKey := if backend.isDeviceBound then "" else jsonString v "private_key"
    publicKey := jsonString v "public_key"
    keyType := jsonString v "key_type"
    isGenerated := jsonFlag v "is_generated"
    createdAtMs := parseIso8601OrNow (jsonString v "created_at") nowMs
    credentialId := jsonBytes v "credential_id"
    applicationString := (v.member "application_string").bind Json.asStr
    hasUserVerification := jsonFlag v "has_user_verification"
    agentPolicy := .ask
    backend := backend
    pkcs11Uri := pkcs11 ((v.member "pkcs11_uri").bind Json.asStr)
    pkcs11TokenSerial := pkcs11 ((v.member "pkcs11_token_serial").bind Json.asStr)
    pkcs11ObjectId := pkcs11 (jsonBytes v "pkcs11_object_id")
    pkcs11ObjectLabel := pkcs11 ((v.member "pkcs11_object_label").bind Json.asStr)
    importedAsStub := backend.isDeviceBound }

/-- A key's stamp in a sync snapshot; a missing one is the oldest. -/
def peerCreatedAt (v : Json) : Int64 := (parseIso8601Opt (jsonString v "created_at")).getD 0

/-- `apply_one_key_sync`; `live` answers for the rows live before the stage. -/
def applyOneKeySync (live : String → Option Int64) (nowMs : Int64) (v : Json) (s : Applying Text) : Applying Text :=
  let id := jsonString v "id"
  if id = "" then s
  else if isTombstone v then
    (SshKeys.applyTombstone s.1 id ((jsonI64Opt v "deleted_at_ms").getD 0), { s.2 with keysApplied := s.2.keysApplied + 1 })
  else if lwwPeerLoses (peerCreatedAt v) (live id) then s
  else
    (SshKeys.upsert s.1 { buildKeyRow v nowMs with id := id, createdAtMs := peerCreatedAt v },
      { s.2 with keysApplied := s.2.keysApplied + 1 })

/-- Line ends as `\n`. -/
def unixLines : List Char → List Char
  | [] => []
  | '\r' :: '\n' :: cs => '\n' :: unixLines cs
  | c :: cs => c :: unixLines cs

/-- `key_pub_fingerprint`: no fingerprint for a blank key. -/
def keyPubFingerprint (E : Env Text) (s : String) : String :=
  let trimmed := trim (unixLines s.toList)
  if trimmed = [] then "" else E.sha256Hex (utf8 (String.ofList trimmed))

/-- One key of a user's import: a key already there by fingerprint is skipped. -/
def applyOneKeyArchive (E : Env Text) (known : List String) (nowMs : Int64) (v : Json) (s : Applying Text) :
    Applying Text :=
  let fp := keyPubFingerprint E (jsonString v "public_key")
  if fp ≠ "" ∧ fp ∈ known then (s.1, { s.2 with keysSkippedDedup := s.2.keysSkippedDedup + 1 })
  else
    let row := buildKeyRow v nowMs
    if row.id = "" then (s.1, s.2.push "key row missing id")
    else (SshKeys.upsert s.1 row, { s.2 with keysApplied := s.2.keysApplied + 1 })

def knownFingerprints (E : Env Text) (db : Db Text) : List String :=
  ((db.sshKeys.rows.filter fun e => e.2.deletedAt.isNone).map fun e =>
    keyPubFingerprint E e.2.row.publicKey).filter (· ≠ "")

def applyKeyItems (E : Env Text) (mode : ApplyMode) (nowMs : Int64) (items : List Json) (s : Applying Text) :
    Applying Text :=
  if mode.isSync then
    let live := SshKeys.liveCreatedAt s.1
    items.foldl (fun s v => applyOneKeySync live nowMs v s) s
  else
    let known := knownFingerprints E s.1
    items.foldl (fun s v => applyOneKeyArchive E known nowMs v s) s

/-! ## Folders -/

/-- The distinct non-empty folder paths of the session entries, sorted. -/
def folderPaths (items : List Json) : List String :=
  ((items.filterMap fun v => jsonNonEmpty v "folder").dedup).mergeSort fun a b => a ≤ b

/-- `ensure_folder_paths_sync`: folders are reused by path. -/
def ensureFolderPathsSync (E : Env Text) (nowMs : Int64) :
    List String → List (String × String) → Applying Text → List (String × String) × Applying Text
  | [], out, s => (out, s)
  | path :: paths, out, s =>
    if path = "" ∨ (out.lookup path).isSome then ensureFolderPathsSync E nowMs paths out s
    else
      match Folders.ensureFolderPath E.mint s.1 path nowMs with
      | (db, .ok (some id)) => ensureFolderPathsSync E nowMs paths (out ++ [(path, id)]) (db, s.2)
      | (db, .ok none) => ensureFolderPathsSync E nowMs paths out (db, s.2)
      | (db, .error e) =>
        ensureFolderPathsSync E nowMs paths out (db, s.2.push ("sync merge folder ensure: " ++ e))

/-- What `materialise_folder_path` carries from segment to segment. -/
structure Materialising (Text : Type) where
  pathToId : List (String × String)
  sortOrder : Int64
  state : Applying Text

/-- The loop of `materialise_folder_path`: a fresh folder for every path not seen in this import. -/
def materialiseSegments (E : Env Text) (nowMs : Int64) (errLabel : String) :
    List String → String → Option String → Materialising Text → Materialising Text
  | [], _, _, m => m
  | seg :: segs, accum, parent, m =>
    let accum := if accum = "" then seg else accum ++ "/" ++ seg
    match m.pathToId.lookup accum with
    | some existing => materialiseSegments E nowMs errLabel segs accum (some existing) m
    | none =>
      let id := E.mint m.state.1.folders.keys
      match Folders.upsert m.state.1 id ⟨seg, parent, m.sortOrder, false, nowMs⟩ with
      | .ok db =>
        materialiseSegments E nowMs errLabel segs accum (some id)
          { pathToId := m.pathToId ++ [(accum, id)]
            sortOrder := m.sortOrder + 1
            state := (db, { m.state.2 with foldersApplied := m.state.2.foldersApplied + 1 }) }
      | .error e =>
        materialiseSegments E nowMs errLabel segs accum none
          { m with
            sortOrder := m.sortOrder + 1
            state := (m.state.1, m.state.2.push (errLabel ++ " " ++ accum ++ " upsert: " ++ e)) }

def materialiseFolderPath (E : Env Text) (nowMs : Int64) (errLabel path : String) (m : Materialising Text) :
    Materialising Text :=
  materialiseSegments E nowMs errLabel (Folders.segments path) "" none m

/-- `apply_folder_tree` on the parsed entries. -/
def applyFolderTree (E : Env Text) (mode : ApplyMode) (nowMs : Int64) (items : List Json) (s : Applying Text) :
    List (String × String) × Applying Text :=
  if mode.isSync then ensureFolderPathsSync E nowMs (folderPaths items) [] s
  else
    let m := (folderPaths items).foldl (fun m path => materialiseFolderPath E nowMs "folder" path m) ⟨[], 0, s⟩
    (m.pathToId, m.state)

/-- `apply_empty_folders` on the parsed paths. -/
def applyEmptyFolders (E : Env Text) (nowMs : Int64) (paths : List String) (pathToId : List (String × String))
    (s : Applying Text) : List (String × String) × Applying Text :=
  let m := paths.foldl (fun m path =>
      if path = "" ∨ (m.pathToId.lookup path).isSome then m
      else materialiseFolderPath E nowMs "empty_folder" path m)
    ⟨pathToId, Int64.ofNat pathToId.length, s⟩
  (m.pathToId, m.state)

/-- `serde_json::from_str::<Vec<String>>`. -/
def parseStrings (J : JsonText Text) (text : Text) : Except String (List String) :=
  match parseArray J text with
  | .error e => .error e
  | .ok items =>
    if items.all fun v => v.asStr.isSome then .ok (items.filterMap Json.asStr)
    else .error "invalid type: expected a string"

/-! ## Sessions -/

/-- A session's stamp: the peer's `updated_at` in a sync, now in an import. -/
def peerUpdatedAt (mode : ApplyMode) (nowMs : Int64) (v : Json) : Int64 :=
  if mode.isSync then (parseIso8601Opt (jsonString v "updated_at")).getD 0 else nowMs

/-- The `extras` column of an entry: a sync takes any value, an import only objects. -/
def extrasOf (J : JsonText Text) (mode : ApplyMode) (v : Json) : Text :=
  if mode.isSync then ((v.member "extras").map J.toStr).getD (J.toStr (.obj []))
  else (((v.member "extras").filter fun x => x.asObject.isSome).map J.toStr).getD J.emptyText

def buildSessionRow (J : JsonText Text) (mode : ApplyMode) (folderIds : List (String × String)) (nowMs : Int64)
    (v : Json) : SessionRow Text :=
  let via := v.member "via_override"
  { id := jsonString v "id"
    label := jsonString v "label"
    folderId := (jsonNonEmpty v "folder").bind fun p => folderIds.lookup p
    kind := (jsonNonEmpty v "kind").getD Sessions.kindSsh
    host := jsonString v "host"
    port := if mode.isSync then (jsonI64Opt v "port").getD 22 else jsonI64 v "port"
    user := jsonString v "user"
    authType := jsonString v "auth_type"
    password := jsonString v "password"
    keyPath := jsonString v "key_path"
    keyData := jsonString v "key_data"
    keyId := jsonNonEmpty v "key_id"
    passphrase := jsonString v "passphrase"
    sortOrder := 0
    notes := if mode.isSync then "" else jsonString v "notes"
    lastConnectedAtMs := none
    extras := extrasOf J mode v
    viaSessionId := jsonNonEmpty v "via_session_id"
    viaHost := via.bind fun o => (o.member "host").bind Json.asStr
    viaPort := via.bind fun o => (o.member "port").bind Json.asI64
    viaUser := via.bind fun o => (o.member "user").bind Json.asStr
    createdAtMs := parseIso8601OrNow (jsonString v "created_at") nowMs
    updatedAtMs := peerUpdatedAt mode nowMs v }

/-- `apply_one_session`; `live` answers for the rows live before the stage. -/
def applyOneSession (J : JsonText Text) (mode : ApplyMode) (folderIds : List (String × String))
    (live : String → Option Int64) (nowMs : Int64) (v : Json) (s : Applying Text) : Applying Text :=
  let id := jsonString v "id"
  if id = "" then
    if mode.isArchive then (s.1, s.2.push "session row missing id") else s
  else if isTombstone v then
    if mode.isSync then
      (Sessions.applyTombstone s.1 id ((jsonI64Opt v "deleted_at_ms").getD 0),
        { s.2 with sessionsApplied := s.2.sessionsApplied + 1 })
    else s
  else if mode.isSync && lwwPeerLoses (peerUpdatedAt mode nowMs v) (live id) then s
  else
    match Sessions.upsert s.1 (buildSessionRow J mode folderIds nowMs v) with
    | (db, .ok ()) => (db, { s.2 with sessionsApplied := s.2.sessionsApplied + 1 })
    | (db, .error e) => (db, s.2.push ("session " ++ id ++ " upsert: " ++ e))

def applySessionItems (J : JsonText Text) (mode : ApplyMode) (folderIds : List (String × String)) (nowMs : Int64)
    (items : List Json) (s : Applying Text) : Applying Text :=
  let live := if mode.isSync then Sessions.liveUpdatedAt s.1 else fun _ => none
  items.foldl (fun s v => applyOneSession J mode folderIds live nowMs v s) s

def applySessionsJson (E : Env Text) (mode : ApplyMode) (nowMs : Int64) (text : Text) (s : Applying Text) :
    List (String × String) × Applying Text :=
  match parseArray E.json text with
  | .error e => ([], (s.1, s.2.push ("sessions parse: " ++ e)))
  | .ok items =>
    let r := applyFolderTree E mode nowMs items s
    (r.1, applySessionItems E.json mode r.1 nowMs items r.2)

/-- `apply_sessions_phase`: returns the folder ids of the paths met. -/
def applySessionsPhase (E : Env Text) (mode : ApplyMode) (nowMs : Int64) (want : Bool) (pending : PendingImport Text)
    (s : Applying Text) : List (String × String) × Applying Text :=
  if want then
    let r := pending.sessionsJson.elim ([], s) fun text => applySessionsJson E mode nowMs text s
    pending.emptyFoldersJson.elim r fun text =>
      match parseStrings E.json text with
      | .error e => (r.1, (r.2.1, r.2.2.push ("empty_folders parse: " ++ e)))
      | .ok paths => applyEmptyFolders E nowMs paths r.1 r.2
  else ([], s)

/-! ## Tags and snippets -/

/-- `apply_one_tag`; `live` answers for the rows live before the stage. -/
def applyOneTag (mode : ApplyMode) (live : String → Option Int64) (nowMs : Int64) (v : Json) (s : Applying Text) :
    Applying Text :=
  let id := jsonString v "id"
  let name := jsonString v "name"
  if isTombstone v then
    if mode.isSync && id ≠ "" then
      (Tags.applyTombstone s.1 id ((jsonI64Opt v "deleted_at_ms").getD 0), { s.2 with tagsApplied := s.2.tagsApplied + 1 })
    else s
  else
    let peerTs := (parseIso8601Opt (jsonString v "created_at")).getD (if mode.isSync then 0 else nowMs)
    if id = "" ∨ name = "" then s
    else if mode.isSync && lwwPeerLoses peerTs (live id) then s
    else
      match Tags.upsert s.1 ⟨id, name, jsonNonEmpty v "color", peerTs⟩ with
      | .ok db => (db, { s.2 with tagsApplied := s.2.tagsApplied + 1 })
      | .error e => (s.1, s.2.push ("tag " ++ id ++ " upsert: " ++ e))

def applyTagItems (mode : ApplyMode) (nowMs : Int64) (items : List Json) (s : Applying Text) : Applying Text :=
  let live := if mode.isSync then Tags.liveCreatedAt s.1 else fun _ => none
  items.foldl (fun s v => applyOneTag mode live nowMs v s) s

/-- `apply_one_snippet`; `live` answers for the rows live before the stage. -/
def applyOneSnippet (mode : ApplyMode) (live : String → Option Int64) (nowMs : Int64) (v : Json)
    (s : Applying Text) : Applying Text :=
  let id := jsonString v "id"
  let title := jsonString v "title"
  if id = "" then s
  else if isTombstone v then
    if mode.isSync then
      (Snippets.applyTombstone s.1 id ((jsonI64Opt v "deleted_at_ms").getD 0),
        { s.2 with snippetsApplied := s.2.snippetsApplied + 1 })
    else s
  else if mode.isArchive && title = "" then s
  else
    let peerUpdated := (parseIso8601Opt (jsonString v "updated_at")).getD 0
    if mode.isSync && lwwPeerLoses peerUpdated (live id) then s
    else
      (Snippets.upsert s.1
        { id := id
          title := title
          command := jsonString v "command"
          description := jsonString v "description"
          createdAtMs := parseIso8601OrNow (jsonString v "created_at") nowMs
          updatedAtMs := if mode.isSync then peerUpdated else nowMs },
        { s.2 with snippetsApplied := s.2.snippetsApplied + 1 })

def applySnippetItems (mode : ApplyMode) (nowMs : Int64) (items : List Json) (s : Applying Text) : Applying Text :=
  let live := if mode.isSync then Snippets.liveUpdatedAt s.1 else fun _ => none
  items.foldl (fun s v => applyOneSnippet mode live nowMs v s) s

/-! ## Links -/

/-- The outcome of inserting one link: counted, or reported and skipped. -/
def applyLink (result : Except String (Db Text)) (count : ApplyOutcome → ApplyOutcome) (label : String)
    (s : Applying Text) : Applying Text :=
  match result with
  | .ok db => (db, count s.2)
  | .error e => (s.1, { s.2.push (label ++ ": " ++ e) with linksSkipped := s.2.linksSkipped + 1 })

def skipLink (s : Applying Text) : Applying Text := (s.1, { s.2 with linksSkipped := s.2.linksSkipped + 1 })

def applySessionTag (v : Json) (s : Applying Text) : Applying Text :=
  let sessionId := jsonString v "session_id"
  let tagId := jsonString v "tag_id"
  if sessionId = "" ∨ tagId = "" then skipLink s
  else
    applyLink (Tags.linkSessionTag s.1 sessionId tagId) (fun o => { o with sessionTagsApplied := o.sessionTagsApplied + 1 })
      ("session_tag " ++ sessionId ++ "↔" ++ tagId) s

def applyFolderTag (pathToId : List (String × String)) (v : Json) (s : Applying Text) : Applying Text :=
  let folderPath := jsonString v "folder_path"
  let tagId := jsonString v "tag_id"
  if folderPath = "" ∨ tagId = "" then skipLink s
  else
    match pathToId.lookup folderPath with
    | none => skipLink s
    | some folderId =>
      applyLink (Tags.linkFolderTag s.1 folderId tagId) (fun o => { o with folderTagsApplied := o.folderTagsApplied + 1 })
        ("folder_tag " ++ folderPath ++ "↔" ++ tagId) s

def applySessionSnippet (v : Json) (s : Applying Text) : Applying Text :=
  let sessionId := jsonString v "session_id"
  let snippetId := jsonString v "snippet_id"
  if sessionId = "" ∨ snippetId = "" then skipLink s
  else
    applyLink (Snippets.linkSessionSnippet s.1 sessionId snippetId)
      (fun o => { o with sessionSnippetsApplied := o.sessionSnippetsApplied + 1 })
      ("session_snippet " ++ sessionId ++ "↔" ++ snippetId) s

/-! ## All stages -/

def overEntry (J : JsonText Text) (want : Bool) (what : String) (entry : Option Text)
    (f : List Json → Applying Text → Applying Text) (s : Applying Text) : Applying Text :=
  if want then entry.elim s fun text => overArray J what text f s else s

/-- `run_apply`, up to the links of snippets. -/
def runApply (E : Env Text) (mode : ApplyMode) (options : Option ApplyOptions) (nowMs : Int64)
    (pending : PendingImport Text) (s : Applying Text) : Applying Text :=
  let want := WantFlags.fromOptions options
  let s := overEntry E.json want.keys "keys" pending.keysJson (applyKeyItems E mode nowMs) s
  let r := applySessionsPhase E mode nowMs want.sessions pending s
  let s := overEntry E.json want.tags "tags" pending.tagsJson (applyTagItems mode nowMs) r.2
  let s := overEntry E.json (want.sessions && want.tags) "session_tags" pending.sessionTagsJson
    (fun items s => items.foldl (fun s v => applySessionTag v s) s) s
  let s := overEntry E.json (want.sessions && want.tags) "folder_tags" pending.folderTagsJson
    (fun items s => items.foldl (fun s v => applyFolderTag r.1 v s) s) s
  let s := overEntry E.json want.snippets "snippets" pending.snippetsJson (applySnippetItems mode nowMs) s
  overEntry E.json (want.sessions && want.snippets) "session_snippets" pending.sessionSnippetsJson
    (fun items s => items.foldl (fun s v => applySessionSnippet v s) s) s

/-- `apply_pending_import` in merge mode. -/
def applyPendingImportMerge (E : Env Text) (options : ApplyOptions) (nowMs : Int64) (pending : PendingImport Text)
    (db : Db Text) : Applying Text :=
  runApply E (.archiveImport false) (some options) nowMs pending (db, {})

/-- `merge_pending_into_local`: a sync pull's merge; it commits whatever the rows reported. -/
def mergePendingIntoLocal (E : Env Text) (nowMs : Int64) (pending : PendingImport Text) (db : Db Text) : Applying Text :=
  runApply E .sync none nowMs pending (db, {})

/-! ## An environment of plain texts -/

def plainEnv : Env ParsedText where
  json := ParsedText.codec
  sha256Hex bs := String.ofList (bs.map fun b => Char.ofNat b.toNat)
  mint := longerId
  mint_fresh := longerId_fresh

end LetsFlutSsh.Archive
