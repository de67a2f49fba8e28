import LetsFlutSsh.Config.AppConfig

/-!
# The configuration store

The process-wide holder of the configuration. Every operation here runs under one lock and is one step; what is read
between two operations is a copy. (`flush` and `tick_if_due` of `Config.Persistence` write after they let go of the
lock.) Texts are taken at the level of JSON values.

* `Store.init`, `Store.getJson`, `Store.setJson`, `Store.getAppConfig`;
* `Store.updateSync`, `Store.updateSecurityProbeCache`, `Store.updateSecurityTier`: replace one slice;
* `storageCapRead`: the first half of `recorder_set_storage_cap`; the second is `Store.setJson`;
* `Store.Ready`: initialised, with values the clamping leaves alone.
-/

namespace LetsFlutSsh.Config
open Lib

/-- The state behind the lock. The time of the next write to disk is left out. -/
structure Store where
  filePath : Option String := none
  current : Option AppConfig := none
  pending : Option AppConfig := none

namespace Store

def put (c : AppConfig) (s : Store) : Store := { s with current := some c, pending := some c }

/-- `Store::init`; `file` is what was read at `path`: nothing, a parse error, or a value. -/
def init (path : String) (file : Option (Except String Json)) : Except String Store :=
  match file with
  | none => .ok ⟨some path, some AppConfig.default, none⟩
  | some (.error e) => .error ("config_store::init: parse " ++ path ++ ": " ++ e)
  | some (.ok v) => .ok ⟨some path, some (AppConfig.fromJsonValue v), none⟩

def getJson (s : Store) : Option Json := s.current.map AppConfig.toJsonValue
def getAppConfig (s : Store) : Option AppConfig := s.current

def setJson (value : Json) (s : Store) : Except String Store :=
  if s.filePath.isNone then .error "config_store: not initialised"
  else .ok (s.put (AppConfig.fromJsonValue value))

/-- The frame of the slice updates: `f` gives the new configuration, or nothing to skip the write. -/
def update (f : AppConfig → Option AppConfig) (s : Store) : Except String Store :=
  if s.filePath.isNone then .error "config_store: not initialised"
  else
    match s.current with
    | none => .error "config_store: no current state"
    | some current => .ok ((f current).elim s s.put)

def updateSync (sync : SyncConfig) (s : Store) : Except String Store :=
  s.update fun current => some { current with sync := sync.sanitized }

def updateSecurityProbeCache (caps : Option SecurityCapabilities) (s : Store) : Except String Store :=
  s.update fun current => some { current with securityProbeCache := caps }

/-- `Store::update_security_tier`: the modifiers stay; nothing is written when nothing changes. -/
def updateSecurityTier (tier : SecurityTier) (s : Store) : Except String Store :=
  s.update fun current =>
    let modifiers := (current.security.map SecurityConfig.modifiers).getD SecurityTierModifiers.default
    let resolved : SecurityConfig := ⟨tier, modifiers⟩
    if current.security = some resolved then none else some { current with security := some resolved }

end Store

/-- The first half of `recorder_set_storage_cap`: the current JSON with the new cap. -/
def storageCapRead (bytes : UInt64) (s : Store) : Except String Json :=
  match s.getJson with
  | none => .error "config_store not initialised"
  | some value =>
    match value.asObject with
    | none => .error "config_store snapshot not a JSON object"
    | some obj => .ok (.obj (Json.Object.insert "recordings_storage_cap_bytes" (.ofU64 bytes) obj))

/-- Values that clamping leaves alone, in the slices that are written on their own. -/
structure Clean (c : AppConfig) : Prop where
  sync : c.sync.sanitized = c.sync
  cap : AppConfig.sanitizedStorageCap c.recordingsStorageCapBytes = c.recordingsStorageCapBytes

/-- An initialised store that holds `c`. -/
structure Store.Ready (s : Store) (c : AppConfig) : Prop where
  path : s.filePath.isNone = false
  current : s.current = some c
  clean : Clean c

theorem sanitizedStorageCap_idem (bytes : UInt64) :
    AppConfig.sanitizedStorageCap (AppConfig.sanitizedStorageCap bytes) = AppConfig.sanitizedStorageCap bytes := by
  by_cases h : bytes = 0 ∨ bytes > AppConfig.maxRecordingsStorageCapBytes
  · rw [show AppConfig.sanitizedStorageCap bytes = AppConfig.defaultRecordingsStorageCapBytes from if_pos h]
    decide
  · have hid : AppConfig.sanitizedStorageCap bytes = bytes := if_neg h
    rw [hid, hid]

theorem clean_fromJsonObject (obj : Json.Object) : Clean (AppConfig.fromJsonObject obj) where
  sync := SyncConfig.sanitized_sanitized _
  cap := sanitizedStorageCap_idem _

theorem clean_fromJsonValue (v : Json) : Clean (AppConfig.fromJsonValue v) := by
  unfold AppConfig.fromJsonValue
  split
  · exact ⟨by decide, by decide⟩
  · exact clean_fromJsonObject _

namespace Store

variable {s : Store} {c : AppConfig}

theorem ready_init {path : String} {file : Option (Except String Json)} (h : init path file = .ok s) : ∃ c, s.Ready c := by
  rcases file with _ | (e | v)
  · cases h
    exact ⟨_, rfl, rfl, by decide, by decide⟩
  · cases h
  · cases h
    exact ⟨_, rfl, rfl, clean_fromJsonValue v⟩

theorem Ready.put (h : s.Ready c) {c' : AppConfig} (hc : Clean c') : (s.put c').Ready c' where
  path := h.path
  current := rfl
  clean := hc

theorem Ready.update (h : s.Ready c) (f : AppConfig → Option AppConfig) : s.update f = .ok ((f c).elim s s.put) := by
  unfold Store.update
  rw [h.path, h.current]
  rfl

theorem Ready.updateSync (h : s.Ready c) (sync : SyncConfig) :
    s.updateSync sync = .ok (s.put { c with sync := sync.sanitized }) := h.update _

theorem Ready.setJson (h : s.Ready c) (value : Json) : s.setJson value = .ok (s.put (AppConfig.fromJsonValue value)) := by
  unfold Store.setJson
  rw [h.path]
  rfl

theorem Ready.storageCapRead (h : s.Ready c) (bytes : UInt64) :
    storageCapRead bytes s = .ok (.obj (c.withStorageCap bytes)) := by
  unfold Config.storageCapRead getJson
  rw [h.current]
  rfl

end Store

end LetsFlutSsh.Config
