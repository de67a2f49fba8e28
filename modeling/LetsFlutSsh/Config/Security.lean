import LetsFlutSsh.Lib.Json

/-!
# Security settings in `config.json`

The security slice of the configuration and its JSON form:

* `SecurityTier`, `SecurityTierModifiers`, `SecurityConfig`: the chosen tier and its switches;
* `SecurityCapabilities`: the probe snapshot cached beside it.
-/

namespace LetsFlutSsh.Config
open Lib Lib.Json

inductive SecurityTier where
  | plaintext
  | keychain
  | hardware
  | paranoid
deriving DecidableEq

namespace SecurityTier

/-- The name of a tier in `config.json`. -/
def wireName : SecurityTier → String
  | plaintext => "plaintext"
  | keychain => "keychain"
  | hardware => "hardware"
  | paranoid => "paranoid"

def fromWireName (name : String) : Option SecurityTier :=
  if name = "plaintext" then some plaintext
  else if name = "keychain" then some keychain
  else if name = "hardware" then some hardware
  else if name = "paranoid" then some paranoid
  else none

@[simp] theorem fromWireName_wireName (t : SecurityTier) : fromWireName t.wireName = some t := by
  cases t <;> rfl

end SecurityTier

structure SecurityTierModifiers where
  password : Bool
  biometric : Bool
deriving DecidableEq

namespace SecurityTierModifiers

def default : SecurityTierModifiers := ⟨false, false⟩

def toJsonMap (m : SecurityTierModifiers) : Object :=
  Object.insert "password" (.bool m.password) <| Object.insert "biometric" (.bool m.biometric) []

/-- `from_json_map`: a missing switch is off. -/
def fromJsonMap (json : Object) : SecurityTierModifiers where
  password := ((json.get "password").bind asBool).getD default.password
  biometric := ((json.get "biometric").bind asBool).getD default.biometric

@[simp] theorem fromJsonMap_toJsonMap (m : SecurityTierModifiers) : fromJsonMap m.toJsonMap = m := by
  simp [fromJsonMap, toJsonMap]

end SecurityTierModifiers

structure SecurityConfig where
  tier : SecurityTier
  modifiers : SecurityTierModifiers
deriving DecidableEq

/-- `read_security_config`: no settings without a known tier name. -/
def readSecurityConfig (json : Object) : Option SecurityConfig := do
  let tierStr ← (json.get "security_tier").bind asStr
  let tier ← SecurityTier.fromWireName tierStr
  let modifiers := (((json.get "security_modifiers").bind asObject).map
    SecurityTierModifiers.fromJsonMap).getD SecurityTierModifiers.default
  some ⟨tier, modifiers⟩

/-- The members `to_json_value` writes for the security settings. -/
def securityToJson (json : Object) : Option SecurityConfig → Object
  | none => json
  | some sec =>
    Object.insert "security_modifiers" (.obj sec.modifiers.toJsonMap) <|
      Object.insert "security_tier" (.str sec.tier.wireName) json

theorem readSecurityConfig_congr {a b : Object} (htier : a.get "security_tier" = b.get "security_tier")
    (hmods : a.get "security_modifiers" = b.get "security_modifiers") :
    readSecurityConfig a = readSecurityConfig b := by
  unfold readSecurityConfig
  rw [htier, hmods]

theorem readSecurityConfig_toJson (json : Object) (sec : Option SecurityConfig) (h : json.get "security_tier" = none) :
    readSecurityConfig (securityToJson json sec) = sec := by
  unfold readSecurityConfig securityToJson
  rcases sec with _ | ⟨tier, modifiers⟩
  · simp [h]
  · simp

inductive KeyringProbeResult where
  | available
  | linuxNoSecretService
  | probeFailed

namespace KeyringProbeResult

/-- The name of a probe result in `config.json`. -/
def wireName : KeyringProbeResult → String
  | available => "available"
  | linuxNoSecretService => "linuxNoSecretService"
  | probeFailed => "probeFailed"

def fromWireName (name : String) : Option KeyringProbeResult :=
  if name = "available" then some available
  else if name = "linuxNoSecretService" then some linuxNoSecretService
  else if name = "probeFailed" then some probeFailed
  else none

@[simp] theorem fromWireName_wireName (r : KeyringProbeResult) : fromWireName r.wireName = some r := by
  cases r <;> rfl

end KeyringProbeResult

structure SecurityCapabilities where
  keychainAvailable : Bool
  hardwareVaultAvailable : Bool
  biometricAvailable : Bool
  fprintdAvailable : Bool
  isLinuxHost : Bool
  keychainProbe : KeyringProbeResult
  hardwareProbeCode : String

/-- `bool_or_false`: only a JSON `true` counts. -/
def boolOrFalse : Option Json → Bool
  | some (.bool true) => true
  | _ => false

namespace SecurityCapabilities

def toJsonValue (c : SecurityCapabilities) : Json :=
  .obj <|
    Object.insert "keychain_available" (.bool c.keychainAvailable) <|
    Object.insert "hardware_vault_available" (.bool c.hardwareVaultAvailable) <|
    Object.insert "biometric_available" (.bool c.biometricAvailable) <|
    Object.insert "fprintd_available" (.bool c.fprintdAvailable) <|
    Object.insert "is_linux_host" (.bool c.isLinuxHost) <|
    Object.insert "keychain_probe" (.str c.keychainProbe.wireName) <|
    Object.insert "hardware_probe_code" (.str c.hardwareProbeCode) []

/-- `from_json_value`: a malformed snapshot is dropped whole. -/
def fromJsonValue (value : Json) : Option SecurityCapabilities := do
  let obj ← value.asObject
  let probeName ← (obj.get "keychain_probe").bind asStr
  let probe ← KeyringProbeResult.fromWireName probeName
  let hardwareCode ← (obj.get "hardware_probe_code").bind asStr
  some
    { keychainAvailable := boolOrFalse (obj.get "keychain_available")
      hardwareVaultAvailable := boolOrFalse (obj.get "hardware_vault_available")
      biometricAvailable := boolOrFalse (obj.get "biometric_available")
      fprintdAvailable := boolOrFalse (obj.get "fprintd_available")
      isLinuxHost := boolOrFalse (obj.get "is_linux_host")
      keychainProbe := probe
      hardwareProbeCode := hardwareCode }

end SecurityCapabilities

end LetsFlutSsh.Config
