import LetsFlutSsh.Qr.Decode

/-!
# Composing a QR payload

The exporter of the compact payload:

* `collectSessionRows`, `resolveSessionPem`: the chosen sessions and the key text of each;
* `KeyDedup`: key texts under short ids, one for each text;
* `buildManagerMeta`: the metadata of the stored keys that travel;
* `encodeSessionCompact`: one session with its defaults left out;
* `buildQrExportObject`, `qrExportPayload`: the payload.
-/

namespace LetsFlutSsh.Qr
open Lib Lib.Json Archive

variable {Text : Type}

structure QrExportOptions where
  includeSessions : Bool
  includeConfig : Bool
  includeKnownHosts : Bool
  includePasswords : Bool
  includeEmbeddedKeys : Bool
  includeManagerKeys : Bool
  includeAllManagerKeys : Bool
  includeTags : Bool
  includeSnippets : Bool

structure QrExportInput (Text : Type) where
  options : QrExportOptions
  selectedSessionIds : List String
  selectedEmptyFolders : List String
  configJson : Option Text

section Keys

variable (db : Db Text) (input : QrExportInput Text)

def collectSessionRows : List (SessionRow Text) :=
  if input.options.includeSessions then
    (Sessions.listAll db).filter fun s => s.id ∈ input.selectedSessionIds
  else []

def fromManager (s : SessionRow Text) : Bool := s.keyId.any fun k => k ≠ ""

def privateKeyOf (id : String) : String :=
  (((SshKeys.listAll db).find? fun k => k.id = id).map SshKeyRow.privateKey).getD ""

/-- `resolve_session_pems` at one session: its key text, and whether that is a stored key's. -/
def resolveSessionPem (s : SessionRow Text) : Option (String × Bool) :=
  let o := input.options
  if !(o.includeEmbeddedKeys || o.includeManagerKeys || o.includeAllManagerKeys) then none
  else if fromManager s && !(o.includeManagerKeys || o.includeAllManagerKeys) then none
  else if !fromManager s && !o.includeEmbeddedKeys then none
  else
    let pem := if fromManager s then privateKeyOf db (s.keyId.getD "") else s.keyData
    if pem = "" then none else some (pem, fromManager s)

/-- `KeyDedup`. Of several short ids for a session the latest is first. -/
structure KeyDedup where
  keyToShort : List (String × String) := []
  sessionShort : List (String × String) := []
  managerShorts : List String := []
  counter : Nat := 0

namespace KeyDedup

/-- The `n`-th short key id. -/
def shortKey (n : Nat) : String := "k" ++ toString n

def shortFor (d : KeyDedup) (pem : String) : String × KeyDedup :=
  match d.keyToShort.lookup pem with
  | some short => (short, d)
  | none =>
    (shortKey d.counter, { d with keyToShort := d.keyToShort ++ [(pem, shortKey d.counter)], counter := d.counter + 1 })

/-- One pass of `add_session_keys`. -/
def addSessionKey (d : KeyDedup) (s : SessionRow Text) : KeyDedup :=
  match resolveSessionPem db input s with
  | none => d
  | some (pem, manager) =>
    let r := d.shortFor pem
    { r.2 with
      sessionShort := (s.id, r.1) :: r.2.sessionShort
      managerShorts := if manager then r.1 :: r.2.managerShorts else r.2.managerShorts }

def addSessionKeys (d : KeyDedup) (rows : List (SessionRow Text)) : KeyDedup :=
  rows.foldl (addSessionKey db input) d

end KeyDedup

abbrev KeyMeta := String × String × String

def metaOf (k : SshKeyRow) : KeyMeta := (k.label, k.keyType, k.publicKey)

/-- One pass of `fold_all_manager_keys`; of several metadata of a short id the latest is first. -/
def foldManagerKey (r : KeyDedup × List (String × KeyMeta)) (k : SshKeyRow) : KeyDedup × List (String × KeyMeta) :=
  if k.privateKey = "" then r
  else
    let short := r.1.shortFor k.privateKey
    ({ short.2 with managerShorts := short.1 :: short.2.managerShorts }, (short.1, metaOf k) :: r.2)

def foldAllManagerKeys (d : KeyDedup) : KeyDedup × List (String × KeyMeta) :=
  (SshKeys.listAll db).foldl foldManagerKey (d, [])

/-- What the map from key texts to stored keys answers: the last key listed with the text. -/
def keyByPem (pem : String) : Option SshKeyRow := (SshKeys.listAll db).reverse.find? fun k => k.privateKey = pem

def fillReferencedManagerMeta (d : KeyDedup) : List (String × KeyMeta) :=
  d.managerShorts.filterMap fun short =>
    (d.keyToShort.find? fun e => e.2 = short).bind fun e => (keyByPem db e.1).map fun k => (short, metaOf k)

def buildManagerMeta (d : KeyDedup) : KeyDedup × List (String × KeyMeta) :=
  if input.options.includeAllManagerKeys then foldAllManagerKeys db d
  else if input.options.includeManagerKeys then (d, fillReferencedManagerMeta db d)
  else (d, [])

/-- The key texts of the payload and the metadata of its stored keys. -/
def exportedKeys : KeyDedup × List (String × KeyMeta) :=
  buildManagerMeta db input (KeyDedup.addSessionKeys db input {} (collectSessionRows db input))

end Keys

/-- The `km` object of `insert_key_maps`. -/
def keyMapValue (d : KeyDedup) : Option Json :=
  if d.keyToShort = [] then none
  else some (.obj (Object.extend [] (d.keyToShort.map fun e => (e.2, .str e.1))))

def metaValue (m : KeyMeta) : Json :=
  .obj (Object.insert "l" (.str m.1) (Object.insert "t" (.str m.2.1) (Object.insert "p" (.str m.2.2) [])))

/-- The `mk` object of `insert_key_maps`. -/
def managerMetaValue (infos : List (String × KeyMeta)) : Option Json :=
  if infos = [] then none
  else some (.obj (Object.extend [] (infos.map fun e => (e.1, metaValue e.2))))

/-- `u16::try_from(port.max(0)).unwrap_or(u16::MAX)`. -/
def clampPort (port : Int64) : Int64 := if port < 0 then 0 else if 65535 < port then 65535 else port

structure SessionCompactInputs where
  label : String
  host : String
  user : String
  port : Int64
  folder : String
  authType : String
  keyShort : Option String
  isManager : Bool
  includePasswords : Bool
  password : String

/-- `encode_session_compact`: defaults are left out. -/
def encodeSessionCompact (x : SessionCompactInputs) : Object :=
  let m := Object.insert "l" (.str x.label) []
  let m := Object.insert "h" (.str x.host) m
  let m := Object.insert "u" (.str x.user) m
  let m := insertOpt "p" (if x.port ≠ 22 then some (.ofI64 x.port) else none) m
  let m := insertOpt "g" (if x.folder ≠ "" then some (.str x.folder) else none) m
  let m := insertOpt "a" (if x.authType ≠ "password" then some (.str x.authType) else none) m
  let m := insertOpt "ki" (x.keyShort.map .str) m
  let m := insertOpt "mg" (if x.isManager then some (.int 1) else none) m
  insertOpt "pw" (if x.includePasswords ∧ x.password ≠ "" then some (.str x.password) else none) m

/-- The `n`-th short session id. -/
def shortSession (n : Nat) : String := "s" ++ toString n

def sessionIdToShort (rows : List (SessionRow Text)) : List (String × String) :=
  rows.zipIdx.map fun e => (e.1.id, shortSession e.2)

section Sections

variable (db : Db Text) (input : QrExportInput Text)

/-- One item of `build_sessions_array`. -/
def sessionEntry (d : KeyDedup) (shorts : List (String × String)) (s : SessionRow Text) : Object :=
  let keyShort := d.sessionShort.lookup s.id
  let m := encodeSessionCompact
    { label := s.label
      host := s.host
      user := s.user
      port := clampPort s.port
      folder := folderPathOf db s.folderId
      authType := s.authType
      keyShort := keyShort
      isManager := keyShort.any fun k => k ∈ d.managerShorts
      includePasswords := input.options.includePasswords
      password := s.password }
  insertOpt "i" ((shorts.lookup s.id).map .str) m

def buildSessionsArray (d : KeyDedup) (rows : List (SessionRow Text)) (shorts : List (String × String)) : List Json :=
  rows.map fun s => .obj (sessionEntry db input d shorts s)

/-- `append_config`. -/
def configValue (J : JsonText Text) : Option Json :=
  if input.options.includeConfig then
    input.configJson.bind fun text =>
      if J.isEmpty text then none
      else
        match J.fromStr text with
        | .ok v => some v
        | .error _ => none
  else none

/-- One item of the `tg` array. -/
def tagEntry (t : TagRow) : Json :=
  .obj (insertOpt "cl" (t.color.map .str) (Object.insert "n" (.str t.name) (Object.insert "i" (.str t.id) [])))

/-- One item of the `sn` array. -/
def snippetEntry (s : SnippetRow) : Json :=
  .obj (insertOpt "d" (if s.description ≠ "" then some (.str s.description) else none)
    (Object.insert "cm" (.str s.command) (Object.insert "t" (.str s.title) (Object.insert "i" (.str s.id) []))))

def sessionLinks (shorts : List (String × String)) (links : List (String × String)) (other : String) : List Json :=
  input.selectedSessionIds.flatMap fun sid =>
    (shorts.lookup sid).elim [] fun short => (linkedTo links sid).map (linkValue "si" other short)

def folderLinks : List Json :=
  (Folders.listAll db).flatMap fun f =>
    (linkedTo db.folderTags f.1).map (linkValue "fi" "ti" (Folders.pathOf db f.1))

/-- `append_tags` writes. -/
def withTags : Bool := input.options.includeTags && !(Tags.listAll db).isEmpty

/-- `append_snippets` writes. -/
def withSnippets : Bool := input.options.includeSnippets && !(Snippets.listAll db).isEmpty

def onlyIf (c : Bool) (v : Option Json) : Option Json := if c then v else none

/-- The value `build_qr_export_json` prints; `knownHosts` is what `build_known_hosts` returns. -/
def buildQrExportObject (J : JsonText Text) (knownHosts : String) : Object :=
  let rows := collectSessionRows db input
  let keys := exportedKeys db input
  let shorts := sessionIdToShort rows
  let o := input.options
  let p := Object.insert "v" (.ofI64 currentFormatVersion) []
  let p := insertOpt "km" (keyMapValue keys.1) p
  let p := insertOpt "mk" (managerMetaValue keys.2) p
  let p := insertOpt "s" (onlyIf o.includeSessions (some (.arr (buildSessionsArray db input keys.1 rows shorts)))) p
  let p := insertOpt "eg" (onlyIf o.includeSessions (arrayEntry (input.selectedEmptyFolders.map .str))) p
  let p := insertOpt "c" (configValue input J) p
  let p := insertOpt "kh" (onlyIf (o.includeKnownHosts && knownHosts ≠ "") (some (.str knownHosts))) p
  let p := insertOpt "tg" (onlyIf (withTags db input) (some (.arr ((Tags.listAll db).map tagEntry)))) p
  let p := insertOpt "st" (onlyIf (withTags db input) (arrayEntry (sessionLinks input shorts db.sessionTags "ti"))) p
  let p := insertOpt "ft" (onlyIf (withTags db input) (arrayEntry (folderLinks db))) p
  let p := insertOpt "sn" (onlyIf (withSnippets db input) (some (.arr ((Snippets.listAll db).map snippetEntry)))) p
  insertOpt "ss" (onlyIf (withSnippets db input) (arrayEntry (sessionLinks input shorts db.sessionSnippets "ni"))) p

def compressToPayload (W : Wire Text) (json : Text) : String := W.toBase64 (W.deflate (W.toUtf8 json))

def qrExportPayload (W : Wire Text) (J : JsonText Text) (knownHosts : String) : String :=
  compressToPayload W (J.toStr (.obj (buildQrExportObject db input J knownHosts)))

end Sections

end LetsFlutSsh.Qr
