import LetsFlutSsh.Lib.Table
import LetsFlutSsh.Lib.Json

/-!
# The database

The tables an archive import or a sync pull writes, with their keys and references:

* `FolderRow`, `SessionRow`, `SshKeyRow`, `TagRow`, `SnippetRow`: the rows callers exchange;
* `SessionParent`, `SshSessionDetails`: a session is stored as a slim parent and, for SSH, a
  details row;
* `Db`: one table per kind; a soft-deleted row keeps its place with a `deletedAt` stamp;
* `Db.RefsOk`: the foreign keys of the session rows.

`Text` is the type of stored JSON texts.
-/

namespace LetsFlutSsh
open Lib

/-- A row of `folders` besides its id. -/
structure FolderRow where
  name : String
  parentId : Option String
  sortOrder : Int64
  collapsed : Bool
  createdAtMs : Int64

/-- A session as the callers see it: the parent row joined with its SSH details. -/
structure SessionRow (Text : Type) where
  id : String
  label : String
  folderId : Option String
  kind : String
  host : String
  port : Int64
  user : String
  authType : String
  password : String
  keyPath : String
  keyData : String
  keyId : Option String
  passphrase : String
  sortOrder : Int64
  notes : String
  lastConnectedAtMs : Option Int64
  extras : Text
  viaSessionId : Option String
  viaHost : Option String
  viaPort : Option Int64
  viaUser : Option String
  createdAtMs : Int64
  updatedAtMs : Int64

/-- A row of `sessions` besides its id. -/
structure SessionParent (Text : Type) where
  label : String
  folderId : Option String
  kind : String
  sortOrder : Int64
  notes : String
  lastConnectedAt : Option Int64
  extras : Text
  createdAt : Int64
  updatedAt : Int64
  deletedAt : Option Int64

/-- A row of `ssh_session_details` besides its session id. -/
structure SshSessionDetails where
  host : String
  port : Int64
  user : String
  authType : String
  password : String
  keyPath : String
  keyData : String
  keyId : Option String
  passphrase : String
  viaSessionId : Option String
  viaHost : Option String
  viaPort : Option Int64
  viaUser : Option String
  updatedAt : Int64
  deletedAt : Option Int64

/-- Where a key's private half lives. -/
inductive KeyBackend where
  | software
  | fido2
  | pkcs11
  | tpm
  | enclave
  | hello
  | keystore
deriving DecidableEq

namespace KeyBackend

/-- `KeyBackend::from_db`: an unknown name is a software key. -/
def fromDb (s : String) : KeyBackend :=
  if s = "fido2" then fido2
  else if s = "pkcs11" then pkcs11
  else if s = "tpm" then tpm
  else if s = "enclave" then enclave
  else if s = "hello" then hello
  else if s = "keystore" then keystore
  else software

def asDbStr : KeyBackend → String
  | software => "software"
  | fido2 => "fido2"
  | pkcs11 => "pkcs11"
  | tpm => "tpm"
  | enclave => "enclave"
  | hello => "hello"
  | keystore => "keystore"

def isDeviceBound : KeyBackend → Bool
  | enclave | hello | tpm | keystore => true
  | _ => false

end KeyBackend

/-- When the in-process agent may sign with a key. -/
inductive AgentPolicy where
  | always
  | ask
  | deny
deriving DecidableEq

/-- A row of `ssh_keys` without the columns only the device that made the key fills. -/
structure SshKeyRow where
  id : String
  label : String
  privateKey : String
  publicKey : String
  keyType : String
  isGenerated : Bool
  createdAtMs : Int64
  credentialId : Option (List UInt8)
  applicationString : Option String
  hasUserVerification : Bool
  agentPolicy : AgentPolicy
  backend : KeyBackend
  pkcs11Uri : Option String
  pkcs11TokenSerial : Option String
  pkcs11ObjectId : Option (List UInt8)
  pkcs11ObjectLabel : Option String
  importedAsStub : Bool
deriving DecidableEq

structure TagRow where
  id : String
  name : String
  color : Option String
  createdAtMs : Int64
deriving DecidableEq

structure SnippetRow where
  id : String
  title : String
  command : String
  description : String
  createdAtMs : Int64
  updatedAtMs : Int64

/-- A stored row with its tombstone stamp. -/
structure Stored (α : Type) where
  row : α
  deletedAt : Option Int64
deriving DecidableEq

/-- The tables. Of the WebDAV and S3 details only the session ids that have one are kept. -/
@[ext]
structure Db (Text : Type) where
  folders : Table String FolderRow
  sessions : Table String (SessionParent Text)
  sshDetails : Table String SshSessionDetails
  webdavDetails : List String
  s3Details : List String
  sshKeys : Table String (Stored SshKeyRow)
  tags : Table String (Stored TagRow)
  snippets : Table String (Stored SnippetRow)
  sessionTags : List (String × String)
  folderTags : List (String × String)
  sessionSnippets : List (String × String)

namespace Db

variable {Text : Type}

def empty : Db Text where
  folders := .empty
  sessions := .empty
  sshDetails := .empty
  webdavDetails := []
  s3Details := []
  sshKeys := .empty
  tags := .empty
  snippets := .empty
  sessionTags := []
  folderTags := []
  sessionSnippets := []

/-- Everything stored about one session. -/
structure SessionState (Text : Type) where
  parent : Option (SessionParent Text)
  details : Option SshSessionDetails
  hasWebdav : Bool
  hasS3 : Bool

/-- What is stored about session `id`. -/
def sessionState (db : Db Text) (id : String) : SessionState Text where
  parent := db.sessions.get id
  details := db.sshDetails.get id
  hasWebdav := id ∈ db.webdavDetails
  hasS3 := id ∈ db.s3Details

/-- The database with the session tables blanked: what a write to them leaves alone. -/
def withoutSessions (db : Db Text) : Db Text :=
  { db with sessions := .empty, sshDetails := .empty, webdavDetails := [], s3Details := [] }

def withoutFolders (db : Db Text) : Db Text := { db with folders := .empty }
def withoutKeys (db : Db Text) : Db Text := { db with sshKeys := .empty }
def withoutTags (db : Db Text) : Db Text := { db with tags := .empty }
def withoutSnippets (db : Db Text) : Db Text := { db with snippets := .empty }
def withoutLinks (db : Db Text) : Db Text := { db with sessionTags := [], folderTags := [], sessionSnippets := [] }

/-- The key and jump-host references of a details row have a target. -/
def refsResolve (db : Db Text) (keyId viaSessionId : Option String) : Bool :=
  (keyId.all fun k => (db.sshKeys.get k).isSome) && viaSessionId.all fun s => (db.sessions.get s).isSome

/-- The foreign keys around the session rows hold: parents of folders, folders of sessions, and
sessions, keys and jump hosts of details rows. -/
structure RefsOk (db : Db Text) : Prop where
  folderParent : ∀ id row, db.folders.get id = some row → ∀ f, row.parentId = some f → (db.folders.get f).isSome
  folder : ∀ id p, db.sessions.get id = some p → ∀ f ∈ p.folderId, (db.folders.get f).isSome
  parent : ∀ id d, db.sshDetails.get id = some d → (db.sessions.get id).isSome
  details : ∀ id d, db.sshDetails.get id = some d → db.refsResolve d.keyId d.viaSessionId

end Db

end LetsFlutSsh
