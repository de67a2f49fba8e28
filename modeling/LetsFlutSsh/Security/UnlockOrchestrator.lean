import LetsFlutSsh.Lib.Bytes
import LetsFlutSsh.Lib.Run
import LetsFlutSsh.Lib.SlashPath
import LetsFlutSsh.Lib.Threads
import LetsFlutSsh.Config.Store
import LetsFlutSsh.Security.RateLimit
import LetsFlutSsh.Security.TierMachine

/-!
# Security: the unlock orchestrators

`security/tier_unlock_orchestrator.rs`. Each orchestrator is a program; an operation is one access to what all of
them share, or one question to the world outside.

* `App`, `TierOp`, `Answers`, `TierOp.perform` : the shared state, the operations, and what they do;
* `runPostUnlockCascade`, `unlockPlaintext`, …, `commitBiometricUnlockFromSecret` : the orchestrators;
* `Call`, `System`, `Step`, `step` : any number of calls side by side, with everything else that moves the machine.
-/

namespace LetsFlutSsh.Security.Unlock
open Lib
open Config (SecurityTier)

/-! ## The shared state -/

inductive Event where
  | tierStateChanged (stateWireName : String)
  | sessionsChanged
  | keysChanged
  | knownHostsChanged
  | unlockCascadeReady (tierWire : String) (hasKey : Bool)
  | hardwareVaultUnlockPromptRequest (promptId : String) (pin : Option String)
  | hardwareVaultSealPromptRequest (promptId dbKeySecretId : String) (pinSecretId : Option String)

structure Db where
  path : String
  key : Bytes
  /-- Which of all the opens it came from. -/
  serial : Nat

/-- The database handle of the process; every open makes a new one. -/
structure DbSlot where
  db : Option Db := none
  opens : Nat := 0
  fresh : ∀ d, db = some d → d.serial < opens := by exact nofun

namespace DbSlot

/-- `AppState::db_init`, once the database is open. -/
def init (slot : DbSlot) (path : String) (key : Bytes) : DbSlot where
  db := some ⟨path, key, slot.opens⟩
  opens := slot.opens + 1
  fresh d hd := by
    cases hd
    exact Nat.lt_succ_self _

def close (slot : DbSlot) : DbSlot where
  opens := slot.opens

theorem init_db_ne (slot : DbSlot) (path : String) (key : Bytes) : (slot.init path key).db ≠ slot.db := by
  intro h
  exact Nat.lt_irrefl _ (slot.fresh _ h.symm)

end DbSlot

structure App where
  machine : Machine := .new .plaintext
  secrets : String → Option Bytes := fun _ => none
  dbSlot : DbSlot := {}
  configStore : Config.Store := {}
  rateLimiters : String → InMemoryRateLimiter := fun _ => {}
  supportDir : Option String := none
  /-- Milliseconds since the epoch. -/
  now : Int := 0
  bus : List Event := []

namespace App

def publish (s : App) (event : Event) : App := { s with bus := s.bus ++ [event] }

def putSecret (s : App) (id : String) (bytes : Bytes) : App :=
  { s with secrets := Function.update s.secrets id (some bytes) }

def dropSecret (s : App) (id : String) : App := { s with secrets := Function.update s.secrets id none }

/-- `SecretStore::rename`. -/
def renameSecret (s : App) (src dst : String) : Bool × App :=
  if src = dst then ((s.secrets src).isSome, s)
  else
    match s.secrets src with
    | none => (false, s)
    | some buf => (true, (s.dropSecret src).putSecret dst buf)

/-- What the machine's `dispatch` does, with the event it publishes. -/
def moveMachine (s : App) (move : Machine → Option TierState × Machine) : Option TierState × App :=
  match move s.machine with
  | (none, machine) => (none, { s with machine })
  | (some next, machine) => (some next, { s with machine }.publish (.tierStateChanged next.wireName))

def setLimiter (s : App) (id : String) (limiter : InMemoryRateLimiter) : App :=
  { s with rateLimiters := Function.update s.rateLimiters id limiter }

def lockAction (s : App) : App := { s with secrets := fun _ => none, dbSlot := s.dbSlot.close }

@[simp] theorem moveMachine_fst (s : App) (move : Machine → Option TierState × Machine) :
    (s.moveMachine move).1 = (move s.machine).1 := by
  unfold moveMachine
  split <;> simp_all

theorem renameSecret_snd (s : App) (src dst : String) : ∃ secrets, (s.renameSecret src dst).2 = { s with secrets } := by
  unfold renameSecret
  split
  · exact ⟨_, rfl⟩
  · split <;> exact ⟨_, rfl⟩

theorem moveMachine_snd (s : App) (move : Machine → Option TierState × Machine) :
    ∃ bus, (s.moveMachine move).2 = { s with machine := (move s.machine).2, bus } := by
  unfold moveMachine
  split
  · next h => exact ⟨s.bus, by simp [h]⟩
  · next h => exact ⟨_, by simp [h, publish]; rfl⟩

end App

def tierUnlockKeyId : String := "app.dbkey.active"

def dbFileName : String := "letsflutssh.db"

def keychainPwUnlockLimiterId : String := "tier_unlock.keychain_with_password"

def paranoidUnlockLimiterId : String := "tier_unlock.paranoid"

def hardwareUnlockLimiterId : String := "tier_unlock.hardware"

/-! ## Operations -/

inductive TierOp where
  | instanceDispatch (tier : SecurityTier) (event : TierEvent)
  | putSecret (id : String) (bytes : Bytes)
  | hasSecret (id : String)
  | getSecret (id : String)
  | takeSecret (id : String)
  | renameSecret (src dst : String)
  | supportDir
  | dbInit (path : String) (key : Bytes)
  | updateSecurityTier (tier : SecurityTier)
  | publish (event : Event)
  | limiterStatus (id : String)
  | recordFailure (id : String)
  | recordSuccess (id : String)
  | randomKey
  | generatePromptId
  | keychainRead
  | keychainWrite (bytes : Bytes)
  | verifyPassword (password : Bytes)
  | setPassword (password : Bytes)
  | clearGate
  | verifyAndDerive (password : Bytes)
  | enable (password : Bytes)
  /-- The request goes out on the bus, and the answer comes back. -/
  | unlockPrompt (promptId : String) (pin : Option String)
  | sealPrompt (promptId dbKeySecretId : String) (pinSecretId : Option String)

/-- What the world outside answers. A task that is joined, or a prompt that is awaited, may bring nothing. -/
structure Answers where
  dbOpen : Except String Unit := .ok ()
  randomKey : Bytes := []
  promptId : String := ""
  keychainRead : Except String (Option Bytes) := .ok none
  keychainWrite : Except String Unit := .ok ()
  verifyPassword : Except String Bool := .ok false
  setPassword : Except String Unit := .ok ()
  clearGate : Except String Unit := .ok ()
  verifyAndDerive : Option (Except String (Option Bytes)) := some (.ok none)
  enable : Option (Except String Bytes) := none
  unlockPrompt : Option (Except String (Option Bytes)) := none
  sealPrompt : Option (Except String Unit) := none

namespace TierOp

@[reducible] def Resp : TierOp → Type
  | instanceDispatch _ _ => Option TierState
  | putSecret _ _ | publish _ | recordFailure _ | recordSuccess _ => Unit
  | hasSecret _ | renameSecret _ _ => Bool
  | getSecret _ | takeSecret _ => Option Bytes
  | supportDir => Option String
  | generatePromptId => String
  | dbInit _ _ | updateSecurityTier _ | keychainWrite _ | setPassword _ | clearGate => Except String Unit
  | limiterStatus _ => RateLimitStatus
  | randomKey => Bytes
  | keychainRead => Except String (Option Bytes)
  | verifyPassword _ => Except String Bool
  | verifyAndDerive _ | unlockPrompt _ _ => Option (Except String (Option Bytes))
  | enable _ => Option (Except String Bytes)
  | sealPrompt _ _ _ => Option (Except String Unit)

def perform (o : Answers) : (op : TierOp) → App → op.Resp × App
  | instanceDispatch tier event, s => s.moveMachine fun m => m.instanceDispatch tier event
  | putSecret id bytes, s => ((), s.putSecret id bytes)
  | hasSecret id, s => ((s.secrets id).isSome, s)
  | getSecret id, s => (s.secrets id, s)
  | takeSecret id, s => (s.secrets id, s.dropSecret id)
  | renameSecret src dst, s => s.renameSecret src dst
  | supportDir, s => (s.supportDir, s)
  | dbInit path key, s =>
    (o.dbOpen, { s with dbSlot := if o.dbOpen.isOk then s.dbSlot.init path key else s.dbSlot })
  | updateSecurityTier tier, s =>
    let updated := s.configStore.updateSecurityTier tier
    (updated.map fun _ => (), { s with configStore := updated.toOption.getD s.configStore })
  | publish event, s => ((), s.publish event)
  | limiterStatus id, s => ((s.rateLimiters id).status s.now, s)
  | recordFailure id, s => ((), s.setLimiter id ((s.rateLimiters id).recordFailure s.now))
  | recordSuccess id, s => ((), s.setLimiter id (s.rateLimiters id).recordSuccess)
  | randomKey, s => (o.randomKey, s)
  | generatePromptId, s => (o.promptId, s)
  | keychainRead, s => (o.keychainRead, s)
  | keychainWrite _, s => (o.keychainWrite, s)
  | verifyPassword _, s => (o.verifyPassword, s)
  | setPassword _, s => (o.setPassword, s)
  | clearGate, s => (o.clearGate, s)
  | verifyAndDerive _, s => (o.verifyAndDerive, s)
  | enable _, s => (o.enable, s)
  | unlockPrompt promptId pin, s => (o.unlockPrompt, s.publish (.hardwareVaultUnlockPromptRequest promptId pin))
  | sealPrompt promptId dbKeySecretId pinSecretId, s =>
    (o.sealPrompt, s.publish (.hardwareVaultSealPromptRequest promptId dbKeySecretId pinSecretId))

end TierOp

/-! ## The orchestrators -/

inductive UnlockOutcome where
  | staged
  | wrongSecret
  | cancelled
  | pluginError (code : String)
  | corruption (detail : String)

abbrev Orchestrator := Prog TierOp TierOp.Resp

section Programs

def access (op : TierOp) : Orchestrator op.Resp := Prog.perform op

/-- `instance_dispatch`, whose answer nobody looks at. -/
def instanceDispatch (tier : SecurityTier) (event : TierEvent) : Orchestrator Unit := do
  let _ ← access (.instanceDispatch tier event)
  return ()

def stageKey (bytes : Bytes) : Orchestrator Unit := access (.putSecret tierUnlockKeyId bytes)

def publish (event : Event) : Orchestrator Unit := access (.publish event)

def runPostUnlockCascade (tier : SecurityTier) : Orchestrator Unit := do
  let hasKey ← access (.hasSecret tierUnlockKeyId)
  match ← access .supportDir with
  | none => publish (.unlockCascadeReady tier.wireName hasKey)
  | some dir =>
    let keyBytes ← access (.getSecret tierUnlockKeyId)
    let _ ← access (.dbInit (joinPath [dir, dbFileName]) (keyBytes.getD []))
    let _ ← access (.updateSecurityTier tier)
    publish .sessionsChanged
    publish .keysChanged
    publish .knownHostsChanged
    publish (.unlockCascadeReady tier.wireName hasKey)

/-- `UnlockFailed`, and what the caller is told. -/
def unlockFailed (tier : SecurityTier) (reason : UnlockFailureReason) (outcome : UnlockOutcome) :
    Orchestrator UnlockOutcome := do
  instanceDispatch tier (.unlockFailed reason)
  return outcome

def pluginUnavailable (tier : SecurityTier) (code : String) : Orchestrator UnlockOutcome :=
  unlockFailed tier (.pluginUnavailable code) (.pluginError code)

def corruption (tier : SecurityTier) (detail : String) : Orchestrator UnlockOutcome :=
  unlockFailed tier (.corruption detail) (.corruption detail)

def stageAndUnlock (tier : SecurityTier) (bytes : Bytes) : Orchestrator UnlockOutcome := do
  stageKey bytes
  instanceDispatch tier .unlockSucceeded
  runPostUnlockCascade tier
  return .staged

def unlockPlaintext : Orchestrator Unit := do
  instanceDispatch .plaintext .unlockRequested
  stageKey []
  instanceDispatch .plaintext .unlockSucceeded
  runPostUnlockCascade .plaintext

/-- The database key out of the system keychain; `missing` is what a caller without one is told. -/
def readKeychainKey (missing : String) : Orchestrator UnlockOutcome := do
  match ← access .keychainRead with
  | .ok key =>
    let bytes := key.getD []
    if bytes.isEmpty then pluginUnavailable .keychain missing else stageAndUnlock .keychain bytes
  | .error e => pluginUnavailable .keychain ("keychain_read_failed: " ++ e)

def unlockKeychain : Orchestrator UnlockOutcome := do
  instanceDispatch .keychain .unlockRequested
  readKeychainKey "missing_keychain_entry"

def unlockKeychainWithPassword (password : Bytes) : Orchestrator UnlockOutcome := do
  instanceDispatch .keychain .unlockRequested
  let l2Status ← access (.limiterStatus keychainPwUnlockLimiterId)
  if l2Status.isLocked then unlockFailed .keychain .wrongSecret .wrongSecret
  else
    match ← access (.verifyPassword password) with
    | .error detail => corruption .keychain detail
    | .ok false =>
      access (.recordFailure keychainPwUnlockLimiterId)
      unlockFailed .keychain .wrongSecret .wrongSecret
    | .ok true =>
      access (.recordSuccess keychainPwUnlockLimiterId)
      readKeychainKey "missing_keychain_entry_after_verify"

def unlockParanoid (password : Bytes) : Orchestrator UnlockOutcome := do
  instanceDispatch .paranoid .unlockRequested
  let pStatus ← access (.limiterStatus paranoidUnlockLimiterId)
  if pStatus.isLocked then unlockFailed .paranoid .wrongSecret .wrongSecret
  else
    match ← access (.verifyAndDerive password) with
    | some (.ok key) =>
      let bytes := key.getD []
      if bytes.isEmpty then
        access (.recordFailure paranoidUnlockLimiterId)
        unlockFailed .paranoid .wrongSecret .wrongSecret
      else
        access (.recordSuccess paranoidUnlockLimiterId)
        stageAndUnlock .paranoid bytes
    | some (.error detail) => corruption .paranoid detail
    | none => corruption .paranoid "Argon2id task panicked"

def unlockHardware (password : String) : Orchestrator UnlockOutcome := do
  instanceDispatch .hardware .unlockRequested
  if password.isEmpty then pluginUnavailable .hardware "hardware_password_required"
  else
    let hwStatus ← access (.limiterStatus hardwareUnlockLimiterId)
    if hwStatus.isLocked then pluginUnavailable .hardware "hardware_vault_rate_limited"
    else
      let promptId ← access .generatePromptId
      match ← access (.unlockPrompt promptId (some password)) with
      | some (.ok key) =>
        let bytes := key.getD []
        if bytes.isEmpty then
          access (.recordFailure hardwareUnlockLimiterId)
          unlockFailed .hardware .wrongSecret .wrongSecret
        else
          stageKey bytes
          access (.recordSuccess hardwareUnlockLimiterId)
          instanceDispatch .hardware .unlockSucceeded
          runPostUnlockCascade .hardware
          return .staged
      | some (.error detail) =>
        access (.recordFailure hardwareUnlockLimiterId)
        pluginUnavailable .hardware detail
      | none => pluginUnavailable .hardware "hardware_vault_prompt_cancelled"

def firstLaunchPlaintext : Orchestrator Unit := do
  instanceDispatch .plaintext .unlockRequested
  stageKey []
  instanceDispatch .plaintext .unlockSucceeded
  runPostUnlockCascade .plaintext

def firstLaunchParanoid (password : Bytes) : Orchestrator UnlockOutcome := do
  instanceDispatch .paranoid .unlockRequested
  match ← access (.enable password) with
  | some (.ok bytes) =>
    if bytes.isEmpty then corruption .paranoid "master_password::enable returned empty key"
    else stageAndUnlock .paranoid bytes
  | some (.error e) => corruption .paranoid e
  | none => corruption .paranoid "Argon2id task panicked"

def writeToKeychain (bytes : Bytes) : Orchestrator (Except String Unit) :=
  (access (.keychainWrite bytes)).mapError fun e => "keychain_write_failed: " ++ e

def firstLaunchKeychain : Orchestrator UnlockOutcome := do
  instanceDispatch .keychain .unlockRequested
  let key ← access .randomKey
  match ← writeToKeychain key with
  | .ok () => stageAndUnlock .keychain key
  | .error detail => pluginUnavailable .keychain detail

def firstLaunchKeychainWithPassword (password : Bytes) : Orchestrator UnlockOutcome := do
  instanceDispatch .keychain .unlockRequested
  match ← access (.setPassword password) with
  | .error detail => corruption .keychain detail
  | .ok () =>
    let key ← access .randomKey
    match ← writeToKeychain key with
    | .ok () => stageAndUnlock .keychain key
    | .error detail =>
      let _ ← access .clearGate
      pluginUnavailable .keychain detail

def sealDbKeySecretId (promptId : String) : String := "seal_prompt.db_key." ++ promptId
def sealPinSecretId (promptId : String) : String := "seal_prompt.pin." ++ promptId

def stagePin (promptId : String) : Option String → Orchestrator (Option String)
  | none => return none
  | some pin => do
    access (.putSecret (sealPinSecretId promptId) (utf8 pin))
    return some (sealPinSecretId promptId)

def sealKey (key : Bytes) (promptId : String) (pinSecretId : Option String) : Orchestrator UnlockOutcome := do
  match ← access (.sealPrompt promptId (sealDbKeySecretId promptId) pinSecretId) with
  | some (.ok ()) => stageAndUnlock .hardware key
  | some (.error detail) => pluginUnavailable .hardware detail
  | none => pluginUnavailable .hardware "hardware_vault_seal_prompt_cancelled"

def dropSealSecrets (promptId : String) (pinSecretId : Option String) : Orchestrator Unit := do
  let _ ← access (.takeSecret (sealDbKeySecretId promptId))
  match pinSecretId with
  | none => return ()
  | some id =>
    let _ ← access (.takeSecret id)
    return ()

def firstLaunchHardware (pin : Option String) : Orchestrator UnlockOutcome := do
  instanceDispatch .hardware .unlockRequested
  let key ← access .randomKey
  let promptId ← access .generatePromptId
  access (.putSecret (sealDbKeySecretId promptId) key)
  let pinSecretId ← stagePin promptId pin
  let outcome ← sealKey key promptId pinSecretId
  dropSealSecrets promptId pinSecretId
  return outcome

def commitBiometricUnlock (tier : SecurityTier) (bytes : Bytes) : Orchestrator Unit := do
  instanceDispatch tier .unlockRequested
  stageKey bytes
  instanceDispatch tier .unlockSucceeded
  runPostUnlockCascade tier

def promoteSecret (secretId : String) : Orchestrator Bool :=
  if secretId = tierUnlockKeyId then return true else access (.renameSecret secretId tierUnlockKeyId)

def commitBiometricUnlockFromSecret (tier : SecurityTier) (secretId : String) : Orchestrator Bool := do
  if ← access (.hasSecret secretId) then
    if ← promoteSecret secretId then
      instanceDispatch tier .unlockRequested
      instanceDispatch tier .unlockSucceeded
      runPostUnlockCascade tier
      return true
    else return false
  else return false

end Programs

/-! ## Calls side by side -/

inductive Call where
  | unlockPlaintext
  | unlockKeychain
  | unlockKeychainWithPassword (password : Bytes)
  | unlockParanoid (password : Bytes)
  | unlockHardware (password : String)
  | firstLaunchPlaintext
  | firstLaunchParanoid (password : Bytes)
  | firstLaunchKeychain
  | firstLaunchKeychainWithPassword (password : Bytes)
  | firstLaunchHardware (pin : Option String)
  | commitBiometricUnlock (tier : SecurityTier) (bytes : Bytes)
  | commitBiometricUnlockFromSecret (tier : SecurityTier) (secretId : String)

def Orchestrator.call {α : Type} (p : Orchestrator α) : Orchestrator Unit := do
  let _ ← p
  return ()

def Call.program : Call → Orchestrator Unit
  | unlockPlaintext => Unlock.unlockPlaintext
  | unlockKeychain => Unlock.unlockKeychain.call
  | unlockKeychainWithPassword password => (Unlock.unlockKeychainWithPassword password).call
  | unlockParanoid password => (Unlock.unlockParanoid password).call
  | unlockHardware password => (Unlock.unlockHardware password).call
  | firstLaunchPlaintext => Unlock.firstLaunchPlaintext
  | firstLaunchParanoid password => (Unlock.firstLaunchParanoid password).call
  | firstLaunchKeychain => Unlock.firstLaunchKeychain.call
  | firstLaunchKeychainWithPassword password => (Unlock.firstLaunchKeychainWithPassword password).call
  | firstLaunchHardware pin => (Unlock.firstLaunchHardware pin).call
  | commitBiometricUnlock tier bytes => Unlock.commitBiometricUnlock tier bytes
  | commitBiometricUnlockFromSecret tier secretId => (Unlock.commitBiometricUnlockFromSecret tier secretId).call

abbrev System := Threads TierOp TierOp.Resp App Unit

inductive Step where
  | begin (call : Call)
  /-- The next operation of a call. -/
  | act (i : Nat) (o : Answers)
  /-- `tier_machine_dispatch`. -/
  | dispatch (event : TierEvent)
  | setTier (tier : SecurityTier)
  | tryAdvance
  | cancelUnlock (tier : SecurityTier)
  | lockAction
  | secretsPut (id : String) (bytes : Bytes)
  | secretsDrop (id : String)
  | clock (now : Int)

def App.outside (s : App) : Step → App
  | .begin _ | .act _ _ => s
  | .dispatch event => (s.moveMachine fun m => m.dispatch event).2
  | .setTier tier => { s with machine := s.machine.setTier tier }
  | .tryAdvance => (s.moveMachine Machine.tryAdvance).2
  | .cancelUnlock tier => (s.moveMachine fun m => m.instanceDispatch tier (.unlockFailed .userCancelled)).2
  | .lockAction => s.lockAction
  | .secretsPut id bytes => s.putSecret id bytes
  | .secretsDrop id => s.dropSecret id
  | .clock now => { s with now }

def step (s : System) : Step → Option System
  | .begin call => some (s.spawn call.program)
  | .act i o => s.act TierOp.perform i o
  | l => some { s with shared := s.shared.outside l }

theorem step_cases {s t : System} {l : Step} (h : step s l = some t) :
    (∃ call, l = .begin call ∧ t = s.spawn call.program) ∨
    (∃ i o, l = .act i o ∧ s.act TierOp.perform i o = some t) ∨
    (∀ call, l ≠ .begin call) ∧ (∀ i o, l ≠ .act i o) ∧ t = { s with shared := s.shared.outside l } := by
  cases l with
  | begin call => exact .inl ⟨call, rfl, (Option.some.inj h).symm⟩
  | act i o => exact .inr (.inl ⟨i, o, rfl, h⟩)
  | _ => exact .inr (.inr ⟨by simp, by simp, (Option.some.inj h).symm⟩)

end LetsFlutSsh.Security.Unlock
