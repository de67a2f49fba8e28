import LetsFlutSsh.Config.Security

/-!
# The application configuration

`AppConfig` with its JSON form and the clamping of malformed values:

* `TerminalConfig`, `SshDefaults`, `UiConfig`, `BehaviorConfig`: the preferences;
* `SyncConfig`: the remote and what the last push and pull left behind;
* `validate`, `sanitized`: the range of each value, as an error text and as a clamp;
* `AppConfig.toJsonValue`, `AppConfig.fromJsonValue`: one flat object; `stripForExport`: its portable part;
* `fromJsonObject_withStorageCap_security`, `…_cap`: what is left of a configuration after its
  recordings cap was replaced in its JSON.
-/

namespace LetsFlutSsh.Config
open Lib
open Json (Object)

/-! ## Reading members -/

/-- A string member, or `d` when it is missing or of another type. -/
def strOr (json : Object) (k d : String) : String := ((json.get k).bind Json.asStr).getD d

def boolOr (json : Object) (k : String) (d : Bool) : Bool := ((json.get k).bind Json.asBool).getD d

def i64Or (json : Object) (k : String) (d : Int64) : Int64 := ((json.get k).bind Json.asI64).getD d

def f64Or (json : Object) (k : String) (d : Rat) : Rat := ((json.get k).bind Json.asF64).getD d

def clamp (x lo hi : Rat) : Rat := if x < lo then lo else if hi < x then hi else x

/-! ## Preferences -/

structure TerminalConfig where
  fontSize : Rat
  theme : String
  scrollback : Int64

namespace TerminalConfig

def validThemes : List String := ["dark", "light", "system"]

def maxScrollback : Int64 := 100000

def default : TerminalConfig := ⟨14, "system", 5000⟩

def validate (c : TerminalConfig) : Option String :=
  if ¬(6 ≤ c.fontSize ∧ c.fontSize ≤ 72) then some "Font size must be 6-72"
  else if c.theme ∉ validThemes then some "Theme must be one of: dark, light, system"
  else if c.scrollback < 100 then some "Scrollback must be at least 100"
  else none

def sanitized (c : TerminalConfig) : TerminalConfig where
  fontSize := clamp c.fontSize 6 72
  theme := if c.theme ∈ validThemes then c.theme else default.theme
  scrollback :=
    if c.scrollback < 100 then default.scrollback
    else if c.scrollback > maxScrollback then maxScrollback
    else c.scrollback

def toJsonObject (c : TerminalConfig) : Object :=
  Object.insert "font_size" (.float c.fontSize) <|
  Object.insert "theme" (.str c.theme) <|
  Object.insert "scrollback" (.ofI64 c.scrollback) []

def fromJsonObject (json : Object) : TerminalConfig :=
  sanitized
    { fontSize := f64Or json "font_size" default.fontSize
      theme := strOr json "theme" default.theme
      scrollback := i64Or json "scrollback" default.scrollback }

end TerminalConfig

structure SshDefaults where
  keepaliveSec : Int64
  defaultPort : Int64
  sshTimeoutSec : Int64
  verboseConnectionLog : Bool

namespace SshDefaults

def default : SshDefaults := ⟨30, 22, 10, false⟩

def validate (c : SshDefaults) : Option String :=
  if c.keepaliveSec < 0 then some "Keep-alive must be non-negative"
  else if ¬(1 ≤ c.defaultPort ∧ c.defaultPort ≤ 65535) then some "Port must be 1-65535"
  else if c.sshTimeoutSec < 1 then some "SSH timeout must be at least 1 second"
  else none

def sanitized (c : SshDefaults) : SshDefaults where
  keepaliveSec := if c.keepaliveSec < 0 then default.keepaliveSec else c.keepaliveSec
  defaultPort := if 1 ≤ c.defaultPort ∧ c.defaultPort ≤ 65535 then c.defaultPort else default.defaultPort
  sshTimeoutSec := if c.sshTimeoutSec < 1 then default.sshTimeoutSec else c.sshTimeoutSec
  verboseConnectionLog := c.verboseConnectionLog

def toJsonObject (c : SshDefaults) : Object :=
  Object.insert "keepalive_sec" (.ofI64 c.keepaliveSec) <|
  Object.insert "default_port" (.ofI64 c.defaultPort) <|
  Object.insert "ssh_timeout_sec" (.ofI64 c.sshTimeoutSec) <|
  Object.insert "verbose_connection_log" (.bool c.verboseConnectionLog) []

def fromJsonObject (json : Object) : SshDefaults :=
  sanitized
    { keepaliveSec := i64Or json "keepalive_sec" default.keepaliveSec
      defaultPort := i64Or json "default_port" default.defaultPort
      sshTimeoutSec := i64Or json "ssh_timeout_sec" default.sshTimeoutSec
      verboseConnectionLog := boolOr json "verbose_connection_log" default.verboseConnectionLog }

end SshDefaults

structure UiConfig where
  toastDurationMs : Int64
  windowWidth : Rat
  windowHeight : Rat
  uiScale : Rat
  showFolderSizes : Bool

namespace UiConfig

def default : UiConfig := ⟨4000, 1100, 650, 1, false⟩

def validate (c : UiConfig) : Option String :=
  if c.toastDurationMs < 500 then some "Toast duration must be at least 500ms"
  else if c.windowWidth < 200 then some "Window width must be at least 200"
  else if c.windowHeight < 200 then some "Window height must be at least 200"
  else if ¬(1 / 2 ≤ c.uiScale ∧ c.uiScale ≤ 2) then some "UI scale must be 0.5-2.0"
  else none

def sanitized (c : UiConfig) : UiConfig where
  toastDurationMs := if c.toastDurationMs < 500 then default.toastDurationMs else c.toastDurationMs
  windowWidth := if c.windowWidth < 200 then default.windowWidth else c.windowWidth
  windowHeight := if c.windowHeight < 200 then default.windowHeight else c.windowHeight
  uiScale := clamp c.uiScale (1 / 2) 2
  showFolderSizes := c.showFolderSizes

def toJsonObject (c : UiConfig) : Object :=
  Object.insert "toast_duration_ms" (.ofI64 c.toastDurationMs) <|
  Object.insert "window_width" (.float c.windowWidth) <|
  Object.insert "window_height" (.float c.windowHeight) <|
  Object.insert "ui_scale" (.float c.uiScale) <|
  Object.insert "show_folder_sizes" (.bool c.showFolderSizes) []

def fromJsonObject (json : Object) : UiConfig :=
  sanitized
    { toastDurationMs := i64Or json "toast_duration_ms" default.toastDurationMs
      windowWidth := f64Or json "window_width" default.windowWidth
      windowHeight := f64Or json "window_height" default.windowHeight
      uiScale := f64Or json "ui_scale" default.uiScale
      showFolderSizes := boolOr json "show_folder_sizes" default.showFolderSizes }

end UiConfig

inductive LogLevel where
  | info
  | warn
  | error

namespace LogLevel

def wireName : LogLevel → String
  | info => "info"
  | warn => "warn"
  | error => "error"

def fromWireName (s : String) : Option LogLevel :=
  if s = "info" then some info
  else if s = "warn" then some warn
  else if s = "error" then some error
  else none

@[simp] theorem fromWireName_wireName (l : LogLevel) : fromWireName l.wireName = some l := by
  cases l <;> rfl

end LogLevel

structure BehaviorConfig where
  logLevel : Option LogLevel
  checkUpdatesOnStart : Bool
  skippedVersion : Option String
  fido2PreferDirectHid : Bool

namespace BehaviorConfig

def default : BehaviorConfig := ⟨none, true, none, false⟩

def insertSome (k : String) (v : Option Json) (m : Object) : Object :=
  v.elim m fun v => Object.insert k v m

@[simp] theorem get_insertSome (k k' : String) (v : Option Json) (m : Object) :
    (insertSome k v m).get k' = if k' = k then v.or (m.get k') else m.get k' := by
  rcases v with _ | v <;> simp [insertSome]

/-- `BehaviorConfig::to_json_object`: an absent log level or version has no member. -/
def toJsonObject (c : BehaviorConfig) : Object :=
  insertSome "log_level" (c.logLevel.map fun l => .str l.wireName) <|
  Object.insert "check_updates_on_start" (.bool c.checkUpdatesOnStart) <|
  insertSome "skipped_version" (c.skippedVersion.map .str) <|
  Object.insert "fido2_prefer_direct_hid" (.bool c.fido2PreferDirectHid) []

def fromJsonObject (json : Object) : BehaviorConfig where
  logLevel := (((json.get "log_level").bind Json.asStr).bind LogLevel.fromWireName).or default.logLevel
  checkUpdatesOnStart := boolOr json "check_updates_on_start" default.checkUpdatesOnStart
  skippedVersion := (json.get "skipped_version").bind Json.asStr
  fido2PreferDirectHid := boolOr json "fido2_prefer_direct_hid" default.fido2PreferDirectHid

end BehaviorConfig

/-! ## Sync settings -/

/-- Where the encrypted archive goes, and what the last push and pull left behind. -/
structure SyncConfig where
  enabled : Bool
  webdavUrl : String
  webdavUsername : String
  webdavPasswordRef : String
  webdavAuthMethod : String
  passphraseRef : String
  remotePath : String
  lastPushedAtMs : Int64
  lastPulledAtMs : Int64
  lastPushedSha256 : String
  lastPushedEtag : String
  lastPulledEtag : String
  lastPulledSha256 : String
deriving DecidableEq

namespace SyncConfig

def validAuthMethods : List String := ["basic", "digest", "bearer"]

def default : SyncConfig where
  enabled := false
  webdavUrl := ""
  webdavUsername := ""
  webdavPasswordRef := "sync.webdav.password"
  webdavAuthMethod := "basic"
  passphraseRef := "sync.passphrase"
  remotePath := "letsflutssh.lfs"
  lastPushedAtMs := 0
  lastPulledAtMs := 0
  lastPushedSha256 := ""
  lastPushedEtag := ""
  lastPulledEtag := ""
  lastPulledSha256 := ""

def sanitized (c : SyncConfig) : SyncConfig where
  enabled := c.enabled
  webdavUrl := c.webdavUrl
  webdavUsername := c.webdavUsername
  webdavPasswordRef := if c.webdavPasswordRef = "" then default.webdavPasswordRef else c.webdavPasswordRef
  webdavAuthMethod := if c.webdavAuthMethod ∈ validAuthMethods then c.webdavAuthMethod else default.webdavAuthMethod
  passphraseRef := if c.passphraseRef = "" then default.passphraseRef else c.passphraseRef
  remotePath := if c.remotePath = "" then default.remotePath else c.remotePath
  lastPushedAtMs := if c.lastPushedAtMs < 0 then 0 else c.lastPushedAtMs
  lastPulledAtMs := if c.lastPulledAtMs < 0 then 0 else c.lastPulledAtMs
  lastPushedSha256 := c.lastPushedSha256
  lastPushedEtag := c.lastPushedEtag
  lastPulledEtag := c.lastPulledEtag
  lastPulledSha256 := c.lastPulledSha256

def toJsonObject (c : SyncConfig) : Object :=
  Object.insert "sync_enabled" (.bool c.enabled) <|
  Object.insert "sync_webdav_url" (.str c.webdavUrl) <|
  Object.insert "sync_webdav_username" (.str c.webdavUsername) <|
  Object.insert "sync_webdav_password_ref" (.str c.webdavPasswordRef) <|
  Object.insert "sync_webdav_auth_method" (.str c.webdavAuthMethod) <|
  Object.insert "sync_passphrase_ref" (.str c.passphraseRef) <|
  Object.insert "sync_remote_path" (.str c.remotePath) <|
  Object.insert "sync_last_pushed_at_ms" (.ofI64 c.lastPushedAtMs) <|
  Object.insert "sync_last_pulled_at_ms" (.ofI64 c.lastPulledAtMs) <|
  Object.insert "sync_last_pushed_sha256" (.str c.lastPushedSha256) <|
  Object.insert "sync_last_pushed_etag" (.str c.lastPushedEtag) <|
  Object.insert "sync_last_pulled_etag" (.str c.lastPulledEtag) <|
  Object.insert "sync_last_pulled_sha256" (.str c.lastPulledSha256) []

def fromJsonObject (json : Object) : SyncConfig :=
  sanitized
    { enabled := boolOr json "sync_enabled" default.enabled
      webdavUrl := strOr json "sync_webdav_url" default.webdavUrl
      webdavUsername := strOr json "sync_webdav_username" default.webdavUsername
      webdavPasswordRef := strOr json "sync_webdav_password_ref" default.webdavPasswordRef
      webdavAuthMethod := strOr json "sync_webdav_auth_method" default.webdavAuthMethod
      passphraseRef := strOr json "sync_passphrase_ref" default.passphraseRef
      remotePath := strOr json "sync_remote_path" default.remotePath
      lastPushedAtMs := i64Or json "sync_last_pushed_at_ms" default.lastPushedAtMs
      lastPulledAtMs := i64Or json "sync_last_pulled_at_ms" default.lastPulledAtMs
      lastPushedSha256 := strOr json "sync_last_pushed_sha256" default.lastPushedSha256
      lastPushedEtag := strOr json "sync_last_pushed_etag" default.lastPushedEtag
      lastPulledEtag := strOr json "sync_last_pulled_etag" default.lastPulledEtag
      lastPulledSha256 := strOr json "sync_last_pulled_sha256" default.lastPulledSha256 }

theorem sanitized_sanitized (c : SyncConfig) : c.sanitized.sanitized = c.sanitized := by
  simp only [sanitized, mk.injEq, true_and, and_true]
  refine ⟨?_, ?_, ?_, ?_, ?_, ?_⟩
  · split_ifs <;> rfl
  · split_ifs <;> rfl
  · split_ifs <;> rfl
  · split_ifs <;> rfl
  · split_ifs <;> rfl
  · split_ifs <;> rfl

section

variable {c : SyncConfig} (hc : c.sanitized = c)
include hc

theorem sanitized_stamped {pushedAt pulledAt : Int64} (hpush : 0 ≤ pushedAt) (hpull : 0 ≤ pulledAt)
    (pushedSha pushedEtag pulledEtag pulledSha : String) :
    let u : SyncConfig := { c with
      lastPushedAtMs := pushedAt, lastPulledAtMs := pulledAt, lastPushedSha256 := pushedSha,
      lastPushedEtag := pushedEtag, lastPulledEtag := pulledEtag, lastPulledSha256 := pulledSha }
    u.sanitized = u := by
  have hpush' : ¬ pushedAt < 0 := Int64.not_lt.mpr hpush
  have hpull' : ¬ pulledAt < 0 := Int64.not_lt.mpr hpull
  intro u
  conv_rhs => rw [show u = { c.sanitized with
    lastPushedAtMs := pushedAt, lastPulledAtMs := pulledAt, lastPushedSha256 := pushedSha,
    lastPushedEtag := pushedEtag, lastPulledEtag := pulledEtag, lastPulledSha256 := pulledSha } by rw [hc]]
  simp only [u, sanitized, hpush', hpull', if_false]

theorem lastPushedAtMs_nonneg : 0 ≤ c.lastPushedAtMs := by
  rw [← hc]
  unfold sanitized
  dsimp only
  split_ifs with h
  · decide
  · exact Int64.not_lt.mp h

theorem lastPulledAtMs_nonneg : 0 ≤ c.lastPulledAtMs := by
  rw [← hc]
  unfold sanitized
  dsimp only
  split_ifs with h
  · decide
  · exact Int64.not_lt.mp h

end

end SyncConfig

/-! ## The whole configuration -/

/-- Everything kept in `config.json`. -/
structure AppConfig where
  terminal : TerminalConfig
  ssh : SshDefaults
  ui : UiConfig
  behavior : BehaviorConfig
  transferWorkers : Int64
  maxHistory : Int64
  locale : Option String
  security : Option SecurityConfig
  securityProbeCache : Option SecurityCapabilities
  recordingsStorageCapBytes : UInt64
  sync : SyncConfig

namespace AppConfig

def supportedLocales : List String :=
  ["en", "ru", "zh", "de", "ja", "pt", "es", "fr", "ko", "ar", "fa", "tr", "vi", "id", "hi"]

def defaultRecordingsStorageCapBytes : UInt64 := 500 * 1024 * 1024

def maxRecordingsStorageCapBytes : UInt64 := 1024 * 1024 * 1024 * 1024

def defaultTransferWorkers : Int64 := 4

def maxTransferWorkers : Int64 := 10

/-- `SchemaVersions::CONFIG`. -/
def schemaVersion : Int := 1

def default : AppConfig where
  terminal := TerminalConfig.default
  ssh := SshDefaults.default
  ui := UiConfig.default
  behavior := BehaviorConfig.default
  transferWorkers := defaultTransferWorkers
  maxHistory := 500
  locale := none
  security := none
  securityProbeCache := none
  recordingsStorageCapBytes := defaultRecordingsStorageCapBytes
  sync := SyncConfig.default

def validate (c : AppConfig) : Option String :=
  c.terminal.validate.or <| c.ssh.validate.or <| c.ui.validate.or <|
    if c.transferWorkers < 1 then some "Transfer workers must be at least 1"
    else if c.maxHistory < 0 then some "Max history must be non-negative"
    else none

/-- The recordings cap after clamping: zero and absurd values become the default. -/
def sanitizedStorageCap (bytes : UInt64) : UInt64 :=
  if bytes = 0 ∨ bytes > maxRecordingsStorageCapBytes then defaultRecordingsStorageCapBytes else bytes

def sanitized (c : AppConfig) : AppConfig where
  terminal := c.terminal.sanitized
  ssh := c.ssh.sanitized
  ui := c.ui.sanitized
  behavior := c.behavior
  transferWorkers :=
    if c.transferWorkers < 1 then default.transferWorkers
    else if c.transferWorkers > maxTransferWorkers then maxTransferWorkers
    else c.transferWorkers
  maxHistory := if c.maxHistory < 0 then default.maxHistory else c.maxHistory
  locale := c.locale.filter fun l => l ∈ supportedLocales
  security := c.security
  securityProbeCache := c.securityProbeCache
  recordingsStorageCapBytes := sanitizedStorageCap c.recordingsStorageCapBytes
  sync := c.sync.sanitized

/-- The members of `to_json_value` before the locale, the security settings and the probe cache. -/
def preferencesToJson (c : AppConfig) : Object :=
  let m := Object.insert "config_schema_version" (.int schemaVersion) []
  let m := m.extend c.terminal.toJsonObject
  let m := m.extend c.ssh.toJsonObject
  let m := m.extend c.ui.toJsonObject
  let m := m.extend c.behavior.toJsonObject
  let m := Object.insert "transfer_workers" (.ofI64 c.transferWorkers) m
  let m := Object.insert "max_history" (.ofI64 c.maxHistory) m
  let m := Object.insert "recordings_storage_cap_bytes" (.ofU64 c.recordingsStorageCapBytes) m
  m.extend c.sync.toJsonObject

/-- The members of `to_json_value` without the security settings and the probe cache. -/
def portableToJson (c : AppConfig) : Object :=
  BehaviorConfig.insertSome "locale" (c.locale.map .str) c.preferencesToJson

/-- The members of `to_json_value`: one flat object; the probe cache is written even when absent. -/
def toJsonObject (c : AppConfig) : Object :=
  Object.insert "security_probe_cache"
    (c.securityProbeCache.elim .null SecurityCapabilities.toJsonValue)
    (securityToJson c.portableToJson c.security)

def toJsonValue (c : AppConfig) : Json := .obj c.toJsonObject

/-- `AppConfig::from_json_value` on the members of an object. -/
def fromJsonObject (obj : Object) : AppConfig :=
  sanitized
    { terminal := TerminalConfig.fromJsonObject obj
      ssh := SshDefaults.fromJsonObject obj
      ui := UiConfig.fromJsonObject obj
      behavior := BehaviorConfig.fromJsonObject obj
      transferWorkers := i64Or obj "transfer_workers" default.transferWorkers
      maxHistory := i64Or obj "max_history" default.maxHistory
      locale := (obj.get "locale").bind Json.asStr
      security := readSecurityConfig obj
      securityProbeCache := (obj.get "security_probe_cache").bind SecurityCapabilities.fromJsonValue
      recordingsStorageCapBytes :=
        ((obj.get "recordings_storage_cap_bytes").bind Json.asU64).getD default.recordingsStorageCapBytes
      sync := SyncConfig.fromJsonObject obj }

/-- `AppConfig::from_json_value`: anything but an object is the default configuration. -/
def fromJsonValue (value : Json) : AppConfig :=
  match value.asObject with
  | none => default
  | some obj => fromJsonObject obj

/-- The members that `strip_for_export` removes: the security settings and what is of this installation. -/
def perHostKeys : List String :=
  ["security_tier", "security_modifiers", "security_probe_cache", "config_schema_version", "sync_enabled", "sync_webdav_url",
    "sync_webdav_username", "sync_webdav_password_ref", "sync_webdav_auth_method", "sync_passphrase_ref", "sync_remote_path",
    "sync_last_pushed_at_ms", "sync_last_pulled_at_ms", "sync_last_pushed_sha256", "sync_last_pushed_etag",
    "sync_last_pulled_etag", "sync_last_pulled_sha256"]

def stripForExport : Json → Json
  | .obj m => .obj (m.filter fun e => e.1 ∉ perHostKeys)
  | value => value

/-! ## Reading back -/

theorem fromJsonObject_security (obj : Object) :
    (fromJsonObject obj).security = readSecurityConfig obj := rfl

theorem fromJsonObject_recordingsStorageCapBytes (obj : Object) :
    (fromJsonObject obj).recordingsStorageCapBytes = sanitizedStorageCap
      (((obj.get "recordings_storage_cap_bytes").bind Json.asU64).getD default.recordingsStorageCapBytes) := rfl

section StorageCap

variable (c : AppConfig) (bytes : UInt64)

def withStorageCap : Object :=
  Object.insert "recordings_storage_cap_bytes" (.ofU64 bytes) c.toJsonObject

theorem get_portableToJson_tier : c.portableToJson.get "security_tier" = none := by
  simp [portableToJson, preferencesToJson, TerminalConfig.toJsonObject, SshDefaults.toJsonObject,
    UiConfig.toJsonObject, BehaviorConfig.toJsonObject, SyncConfig.toJsonObject]

theorem get_withStorageCap {k : String} (hcap : k ≠ "recordings_storage_cap_bytes") (hprobe : k ≠ "security_probe_cache") :
    (c.withStorageCap bytes).get k = (securityToJson c.portableToJson c.security).get k := by
  unfold withStorageCap toJsonObject
  rw [Object.get_insert, Object.get_insert, if_neg hcap, if_neg hprobe]

theorem fromJsonObject_withStorageCap_security : (fromJsonObject (c.withStorageCap bytes)).security = c.security := by
  have hread : readSecurityConfig (c.withStorageCap bytes) =
      readSecurityConfig (securityToJson c.portableToJson c.security) := by
    apply readSecurityConfig_congr
    · exact c.get_withStorageCap bytes (by simp) (by simp)
    · exact c.get_withStorageCap bytes (by simp) (by simp)
  rw [fromJsonObject_security, hread, readSecurityConfig_toJson _ _ c.get_portableToJson_tier]

theorem fromJsonObject_withStorageCap_cap :
    (fromJsonObject (c.withStorageCap bytes)).recordingsStorageCapBytes = sanitizedStorageCap bytes := by
  have hget : (c.withStorageCap bytes).get "recordings_storage_cap_bytes" = some (.ofU64 bytes) := by
    simp [withStorageCap]
  rw [fromJsonObject_recordingsStorageCapBytes, hget, Option.bind_some, Json.asU64_ofU64, Option.getD_some]

end StorageCap

end AppConfig

end LetsFlutSsh.Config
