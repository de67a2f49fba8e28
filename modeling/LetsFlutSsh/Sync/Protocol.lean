import LetsFlutSsh.Sync.Service

/-!
# Devices around one remote archive

Any number of devices push to and pull from one path of a server. A verb is cut into the steps
between which others can run; requests are served one at a time, replies may get lost, and every
device can have several verbs under way.

* `Version`: what the server stored, with who wrote it and what was sealed in it;
* `Verb`, `Device`, `World`: the state;
* `Action`, `World.step`: the steps;
* `Event`: what is judged afterwards: which version a push replaced, which version a pull skipped,
  each with the merges the device had done by then.
-/

namespace LetsFlutSsh.Sync
open Lib Config Archive

variable {Text : Type}

/-- A stored version, its writer and the entries sealed in its body. -/
structure Version (Text : Type) extends Stored where
  writer : Nat
  entries : FullImport Text

/-- A verb under way, with the settings it copied when it started. -/
inductive Verb (Text : Type) where
  /-- A push before it composes. -/
  | pushing (cfg : SyncConfig) (passphrase : String) (nowMs : Int64)
  /-- A push that waits for its `PUT`. -/
  | putting (cfg : SyncConfig) (nowMs : Int64) (body : Bytes) (entries : FullImport Text)
  /-- A push with the response to its `PUT`. -/
  | pushed (cfg : SyncConfig) (nowMs : Int64) (body : Bytes) (r : Response)
  /-- A pull that waits for its `GET`. -/
  | getting (cfg : SyncConfig) (passphrase : String)
  /-- A pull with the response to its `GET`, and the version that was there. -/
  | got (cfg : SyncConfig) (passphrase : String) (r : Response) (seen : Option (Version Text))
  /-- A pull that has merged. -/
  | stamping (cfg : SyncConfig) (etag sha256 : String) (o : DriverOutcome)
  /-- A pull that found nothing to merge. -/
  | ending (updated : Option SyncConfig)

/-- A snapshot merged into a database; every row of it was applied or lost to a newer one, or not. -/
structure Merge where
  body : Bytes
  settled : Bool

structure Device (Text : Type) where
  store : Store
  secrets : String → Option String
  db : Whole Text
  verbs : Nat → Option (Verb Text)
  merges : List Merge

/-- What is judged of a run. -/
inductive Event (Text : Type) where
  /-- A push replaced `old`. -/
  | replaced (device : Nat) (old : Version Text) (merges : List Merge)
  /-- A pull found `skipped` up to date. -/
  | upToDate (device : Nat) (skipped : Version Text) (merges : List Merge)

/-- The server and the devices. `history` are the versions ever stored. -/
structure World (Text : Type) where
  remote : Option (Version Text)
  history : List (Version Text)
  devices : Nat → Device Text
  log : List (Event Text)

/-- One step. The tag of a version is the server's choice, and so is whether it tells it. -/
inductive Action (Text : Type) where
  | edit (d : Nat) (db : Whole Text)
  | pushStart (d i : Nat) (nowMs : Int64)
  | pushCompose (d i : Nat) (createdAtMs : Int64) (salt : Bytes)
  | putServe (d i : Nat) (etag : EntityTag) (tell : Bool)
  | pushEnd (d i : Nat)
  | pullStart (d i : Nat)
  | getServe (d i : Nat) (tell : Bool)
  | pullRead (d i : Nat) (mergeMs : Int64)
  | pullEnd (d i : Nat) (nowMs : Int64)
  /-- A verb fails: a request or a reply is lost, or something before the request goes wrong. -/
  | drop (d i : Nat)

namespace Device

variable (dev : Device Text)

def setVerb (i : Nat) (verb : Option (Verb Text)) : Device Text :=
  { dev with verbs := Function.update dev.verbs i verb }

/-- End the verb `i` and write its settings back, if it has any. -/
def endVerb (i : Nat) (updated : Option SyncConfig) : Device Text :=
  match updated with
  | none => dev.setVerb i none
  | some u =>
    match persistSync u dev.store with
    | .error _ => dev.setVerb i none
    | .ok store => { dev.setVerb i none with store := store }

/-- What every verb starts with: its copy of the settings and the passphrase. -/
def prepare : Except SyncError (SyncConfig × String) := do
  let cfg ← Sync.prepare dev.store
  let _ ← readSecret dev.secrets cfg.webdavPasswordRef
  let passphrase ← readSecret dev.secrets cfg.passphraseRef
  pure (cfg, passphrase)

end Device

namespace World

variable (A : Actors Text) (ids : Nat → Bytes) (s : World Text)

def setDevice (d : Nat) (dev : Device Text) : World Text :=
  { s with devices := Function.update s.devices d dev }

def setVerb (d i : Nat) (verb : Option (Verb Text)) : World Text :=
  s.setDevice d ((s.devices d).setVerb i verb)

/-- A push composes its archive and sends it, unless it is the one pushed last. -/
def composed (installId : String) (db : Whole Text) (cfg : SyncConfig) (passphrase : String)
    (nowMs createdAtMs : Int64) (salt : Bytes) : Option (Verb Text) :=
  let origin := originStamp installId nowMs
  let body := composeArchive A db createdAtMs origin passphrase salt
  if pushSkips cfg (A.env.sha256Hex body) then none
  else
    match buildClient cfg with
    | .error _ => none
    | .ok () => some (.putting cfg nowMs body (composeWhole A.env.json db createdAtMs A.appVersion origin))

/-- The version a `PUT` replaces. -/
def replacing (d : Nat) : List (Event Text) :=
  s.remote.elim s.log fun old => .replaced d old (s.devices d).merges :: s.log

/-- The server serves the `PUT` of `v` by the verb `i` of `v.writer`. -/
def putServe (i : Nat) (cfg : SyncConfig) (nowMs : Int64) (v : Version Text) (tell : Bool) : World Text :=
  let answer := Server.put (s.remote.map Version.toStored) (pushIfMatch cfg) v.toStored tell
  let done := s.setVerb v.writer i (some (.pushed cfg nowMs v.body answer.2))
  if Server.accepts (s.remote.map Version.toStored) (pushIfMatch cfg) then
    { done with remote := some v, history := v :: s.history, log := s.replacing v.writer }
  else done

def pushUpdated (cfg : SyncConfig) (nowMs : Int64) (body : Bytes) (r : Response) : Option SyncConfig :=
  match pushOutcome A cfg nowMs body r with
  | .error _ => none
  | .ok (_, u) => some u

/-- A pull reads its response: it fails, finds nothing new, or merges. -/
def pullRead (d i : Nat) (cfg : SyncConfig) (passphrase : String) (r : Response) (seen : Option (Version Text))
    (mergeMs : Int64) : World Text :=
  match pullResponse A cfg passphrase (installIdOf (ids d)) r with
  | .error _ => s.setVerb d i none
  | .ok (.done o) =>
    let ended := s.setVerb d i (some (.ending o.updatedCfg))
    match o.result, seen with
    | .upToDate, some v => { ended with log := .upToDate d v (s.devices d).merges :: s.log }
    | _, _ => ended
  | .ok (.merge pending etag sha256) =>
    let merged := mergeWhole A.env mergeMs pending (s.devices d).db
    s.setDevice d { (s.devices d).setVerb i (some (.stamping cfg etag sha256 merged.2)) with
      db := merged.1, merges := ⟨r.body, settled A.env.json pending merged.2⟩ :: (s.devices d).merges }

def step : Action Text → Option (World Text)
  | .edit d db => some (s.setDevice d { s.devices d with db := db })
  | .pushStart d i nowMs =>
    if ((s.devices d).verbs i).isNone then
      match (s.devices d).prepare with
      | .error _ => none
      | .ok (cfg, passphrase) => some (s.setVerb d i (some (.pushing cfg passphrase nowMs)))
    else none
  | .pushCompose d i createdAtMs salt =>
    match (s.devices d).verbs i with
    | some (.pushing cfg passphrase nowMs) =>
      some (s.setVerb d i (composed A (installIdOf (ids d)) (s.devices d).db cfg passphrase nowMs createdAtMs salt))
    | _ => none
  | .putServe d i etag tell =>
    match (s.devices d).verbs i with
    | some (.putting cfg nowMs body entries) =>
      -- a fresh tag for every stored version
      if s.history.all fun v => v.etag.text ≠ etag.text then
        some (s.putServe i cfg nowMs ⟨⟨etag, body⟩, d, entries⟩ tell)
      else none
    | _ => none
  | .pushEnd d i =>
    match (s.devices d).verbs i with
    | some (.pushed cfg nowMs body r) =>
      some (s.setDevice d ((s.devices d).endVerb i (pushUpdated A cfg nowMs body r)))
    | _ => none
  | .pullStart d i =>
    if ((s.devices d).verbs i).isNone then
      match (s.devices d).prepare with
      | .error _ => none
      | .ok (cfg, passphrase) =>
        match buildClient cfg with
        | .error _ => none
        | .ok () => some (s.setVerb d i (some (.getting cfg passphrase)))
    else none
  | .getServe d i tell =>
    match (s.devices d).verbs i with
    | some (.getting cfg passphrase) =>
      some (s.setVerb d i (some (.got cfg passphrase
        (Server.get (s.remote.map Version.toStored) (buildIfNoneMatch cfg) tell) s.remote)))
    | _ => none
  | .pullRead d i mergeMs =>
    match (s.devices d).verbs i with
    | some (.got cfg passphrase r seen) => some (s.pullRead A ids d i cfg passphrase r seen mergeMs)
    | _ => none
  | .pullEnd d i nowMs =>
    match (s.devices d).verbs i with
    | some (.stamping cfg etag sha256 o) =>
      some (s.setDevice d ((s.devices d).endVerb i (pullMerged cfg nowMs etag sha256 o).updatedCfg))
    | some (.ending updated) => some (s.setDevice d ((s.devices d).endVerb i updated))
    | _ => none
  | .drop d i => some (s.setVerb d i none)

end World

end LetsFlutSsh.Sync
