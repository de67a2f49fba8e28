import LetsFlutSsh.Security.UnlockOrchestrator

/-!
# Security: unlocking again, and wiping

What a call of `security/tier_unlock_orchestrator.rs` does to a machine that is unlocked already, and what a wipe of
`security/tier_machine.rs` leaves possible.

* `Call.run`, `Call.releases` : a call by itself, and the key it comes to;
* `harmless_of_guarded` : when no call disturbs an unlocked machine and a wipe is final.
-/

namespace LetsFlutSsh.Security.Unlock
open Lib Option Prog
open Config (SecurityTier)

def persistedTier (store : Config.Store) : Option SecurityTier :=
  (store.current.bind Config.AppConfig.security).map Config.SecurityConfig.tier

/-- The staged key, the open database and the persisted tier are the same. -/
structure Unchanged (s t : App) : Prop where
  key : t.secrets tierUnlockKeyId = s.secrets tierUnlockKeyId
  db : t.dbSlot.db = s.dbSlot.db
  tier : persistedTier t.configStore = persistedTier s.configStore

def Call.run (c : Call) (o : Answers) (s : App) : App := (c.program.finish TierOp.perform (fun _ => o) s).2

def Call.tier : Call → SecurityTier
  | unlockPlaintext | firstLaunchPlaintext => .plaintext
  | unlockKeychain | unlockKeychainWithPassword _ | firstLaunchKeychain | firstLaunchKeychainWithPassword _ => .keychain
  | unlockParanoid _ | firstLaunchParanoid _ => .paranoid
  | unlockHardware _ | firstLaunchHardware _ => .hardware
  | commitBiometricUnlock tier _ | commitBiometricUnlockFromSecret tier _ => tier

def nonempty (key : Option Bytes) : Option Bytes := if (key.getD []).isEmpty then none else some (key.getD [])

def Call.releases (o : Answers) (s : App) : Call → Option Bytes
  | unlockPlaintext | firstLaunchPlaintext => some []
  | unlockKeychain => o.keychainRead.toOption.bind nonempty
  | unlockKeychainWithPassword _ =>
    if ((s.rateLimiters keychainPwUnlockLimiterId).status s.now).isLocked then none
    else
      match o.verifyPassword with
      | .ok true => o.keychainRead.toOption.bind nonempty
      | _ => none
  | unlockParanoid _ =>
    if ((s.rateLimiters paranoidUnlockLimiterId).status s.now).isLocked then none
    else (o.verifyAndDerive.bind Except.toOption).bind nonempty
  | unlockHardware password =>
    if password.isEmpty then none
    else if ((s.rateLimiters hardwareUnlockLimiterId).status s.now).isLocked then none
    else (o.unlockPrompt.bind Except.toOption).bind nonempty
  | firstLaunchParanoid _ => (o.enable.bind Except.toOption).bind fun bytes => nonempty (some bytes)
  | firstLaunchKeychain => o.keychainWrite.toOption.map fun _ => o.randomKey
  | firstLaunchKeychainWithPassword _ =>
    o.setPassword.toOption.bind fun _ => o.keychainWrite.toOption.map fun _ => o.randomKey
  | firstLaunchHardware _ => (o.sealPrompt.bind Except.toOption).map fun _ => o.randomKey
  | commitBiometricUnlock _ bytes => some bytes
  | commitBiometricUnlockFromSecret _ secretId => s.secrets secretId

/-! ## What a call leaves -/

/-- What the cascade and its key are about. -/
structure Core where
  key : Option Bytes
  dbSlot : DbSlot
  configStore : Config.Store
  supportDir : Option String

def App.core (s : App) : Core := ⟨s.secrets tierUnlockKeyId, s.dbSlot, s.configStore, s.supportDir⟩

def Core.cascade (c : Core) (o : Answers) (tier : SecurityTier) : Core :=
  match c.supportDir with
  | none => c
  | some dir =>
    { c with
      dbSlot := if o.dbOpen.isOk then c.dbSlot.init (joinPath [dir, dbFileName]) (c.key.getD []) else c.dbSlot
      configStore := (c.configStore.updateSecurityTier tier).toOption.getD c.configStore }

def Core.commit (c : Core) (o : Answers) (tier : SecurityTier) : Option Bytes → Core
  | none => c
  | some key => { c with key := some key }.cascade o tier

variable {α : Type}
variable (password : Bytes)

section Core

variable (o : Answers) (s : App)

@[simp] theorem core_moveMachine (move : Machine → Option TierState × Machine) : (s.moveMachine move).2.core = s.core := by
  obtain ⟨bus, h⟩ := s.moveMachine_snd move
  rw [h]
  rfl

@[simp] theorem core_setLimiter (id : String) (l : InMemoryRateLimiter) : (s.setLimiter id l).core = s.core := rfl

@[simp] theorem core_stage (bytes : Bytes) : (s.putSecret tierUnlockKeyId bytes).core = { s.core with key := some bytes } := by
  simp [App.core, App.putSecret]

theorem core_putSecret {id : String} (h : id ≠ tierUnlockKeyId) (bytes : Bytes) : (s.putSecret id bytes).core = s.core := by
  simp [App.core, App.putSecret, h.symm]

theorem core_dropSecret {id : String} (h : id ≠ tierUnlockKeyId) : (s.dropSecret id).core = s.core := by
  simp [App.core, App.dropSecret, h.symm]

abbrev runs {α : Type} (p : Orchestrator α) (s : App) : α × App := p.finish TierOp.perform (fun _ => o) s

theorem runs_bind {β : Type} (p : Orchestrator α) (f : α → Orchestrator β) :
    runs o (p.bind f) s = runs o (f (runs o p s).1) (runs o p s).2 := finish_bind _ p f o s

theorem runs_access (op : TierOp) (f : op.Resp → Orchestrator α) :
    runs o ((access op).bind f) s = runs o (f (op.perform o s).1) (op.perform o s).2 := rfl

theorem core_cascade (tier : SecurityTier) : (runs o (runPostUnlockCascade tier) s).2.core = s.core.cascade o tier := by
  obtain ⟨machine, secrets, dbSlot, configStore, rateLimiters, _ | dir, now, bus⟩ := s
  · rfl
  · rfl

theorem core_unlockFailed (tier : SecurityTier) (reason : UnlockFailureReason) (outcome : UnlockOutcome) :
    (runs o (unlockFailed tier reason outcome) s).2.core = s.core := by
  change (s.moveMachine _).2.core = s.core
  rw [core_moveMachine]

theorem core_stageAndUnlock (tier : SecurityTier) (bytes : Bytes) :
    (runs o (stageAndUnlock tier bytes) s).2.core = s.core.commit o tier (some bytes) := by
  change (runs o ((runPostUnlockCascade tier).bind fun _ => .done UnlockOutcome.staged)
    ((s.putSecret tierUnlockKeyId bytes).moveMachine _).2).2.core = _
  rw [runs_bind]
  change (runs o (runPostUnlockCascade tier) _).2.core = _
  rw [core_cascade, core_moveMachine, core_stage]
  rfl

theorem nonempty_some (key : Option Bytes) (h : ¬ (key.getD []).isEmpty) : nonempty key = some (key.getD []) := if_neg h
theorem nonempty_none (key : Option Bytes) (h : (key.getD []).isEmpty) : nonempty key = none := if_pos h

theorem core_readKeychainKey (missing : String) : (runs o (readKeychainKey missing) s).2.core =
    s.core.commit o .keychain (o.keychainRead.toOption.bind nonempty) := by
  unfold readKeychainKey
  rw [bind_eq, runs_access, TierOp.perform]
  rcases o.keychainRead with e | key
  · exact core_unlockFailed ..
  dsimp only [Except.toOption, bind_some]
  split
  · next hempty =>
    rw [nonempty_none _ hempty]
    exact core_unlockFailed ..
  · next hempty =>
    rw [nonempty_some _ hempty]
    exact core_stageAndUnlock ..

theorem runs_dispatch (tier : SecurityTier) (event : TierEvent) : ∃ machine bus, ∀ (α : Type)
    (f : Unit → Orchestrator α), runs o ((instanceDispatch tier event).bind f) s = runs o (f ()) { s with machine, bus } := by
  obtain ⟨bus, h⟩ := s.moveMachine_snd fun m => m.instanceDispatch tier event
  refine ⟨(s.machine.instanceDispatch tier event).2, bus, fun α f => ?_⟩
  rw [← h]
  rfl

theorem core_commitBiometricUnlock (tier : SecurityTier) (bytes : Bytes) :
    (runs o (commitBiometricUnlock tier bytes) s).2.core = s.core.commit o tier (some bytes) := by
  change (runs o (runPostUnlockCascade tier)
    (((s.moveMachine _).2.putSecret tierUnlockKeyId bytes).moveMachine _).2).2.core = _
  rw [core_cascade, core_moveMachine, core_stage, core_moveMachine]
  rfl

theorem core_unlockKeychain : (runs o unlockKeychain s).2.core =
    s.core.commit o .keychain (o.keychainRead.toOption.bind nonempty) := by
  obtain ⟨machine, bus, hrun⟩ := runs_dispatch o s .keychain .unlockRequested
  rw [unlockKeychain, bind_eq, hrun, core_readKeychainKey]
  rfl

theorem core_unlockKeychainWithPassword : (runs o (unlockKeychainWithPassword password) s).2.core =
    s.core.commit o .keychain ((Call.unlockKeychainWithPassword password).releases o s) := by
  obtain ⟨machine, bus, hrun⟩ := runs_dispatch o s .keychain .unlockRequested
  rw [unlockKeychainWithPassword, bind_eq, hrun, bind_eq, runs_access, TierOp.perform, Call.releases]
  split
  · exact core_unlockFailed ..
  rw [bind_eq, runs_access, TierOp.perform]
  rcases o.verifyPassword with e | ⟨_ | _⟩
  · exact core_unlockFailed ..
  · rw [bind_eq, runs_access, core_unlockFailed]
    rfl
  · dsimp only
    rw [bind_eq, runs_access, core_readKeychainKey]
    rfl

theorem core_unlockParanoid : (runs o (unlockParanoid password) s).2.core =
    s.core.commit o .paranoid ((Call.unlockParanoid password).releases o s) := by
  obtain ⟨machine, bus, hrun⟩ := runs_dispatch o s .paranoid .unlockRequested
  rw [unlockParanoid, bind_eq, hrun, bind_eq, runs_access, TierOp.perform, Call.releases]
  split
  · exact core_unlockFailed ..
  rw [bind_eq, runs_access, TierOp.perform]
  rcases o.verifyAndDerive with _ | e | key
  · exact core_unlockFailed ..
  · exact core_unlockFailed ..
  · dsimp only [Except.toOption, bind_some]
    split
    · next hempty =>
      rw [nonempty_none _ hempty, bind_eq, runs_access, core_unlockFailed]
      rfl
    · next hempty =>
      rw [nonempty_some _ hempty, bind_eq, runs_access, core_stageAndUnlock]
      rfl

theorem core_unlockHardware (password : String) : (runs o (unlockHardware password) s).2.core =
    s.core.commit o .hardware ((Call.unlockHardware password).releases o s) := by
  obtain ⟨machine, bus, hrun⟩ := runs_dispatch o s .hardware .unlockRequested
  rw [unlockHardware, bind_eq, hrun, Call.releases]
  split
  · exact core_unlockFailed ..
  rw [bind_eq, runs_access, TierOp.perform]
  split
  · exact core_unlockFailed ..
  rw [bind_eq, runs_access, TierOp.perform, bind_eq, runs_access, TierOp.perform]
  rcases o.unlockPrompt with _ | e | key
  · exact core_unlockFailed ..
  · dsimp only
    rw [bind_eq, runs_access, pluginUnavailable, core_unlockFailed]
    rfl
  · dsimp only [Except.toOption, bind_some]
    split
    · next hempty =>
      rw [nonempty_none _ hempty, bind_eq, runs_access, core_unlockFailed]
      rfl
    next hempty =>
    rw [nonempty_some _ hempty]
    change (runs o ((runPostUnlockCascade .hardware).bind fun _ => .done UnlockOutcome.staged)
      (((App.putSecret _ tierUnlockKeyId _).setLimiter _ _).moveMachine _).2).2.core = _
    rw [runs_bind]
    change (runs o (runPostUnlockCascade .hardware) _).2.core = _
    rw [core_cascade, core_moveMachine, core_setLimiter, core_stage]
    rfl

theorem core_firstLaunchParanoid : (runs o (firstLaunchParanoid password) s).2.core =
    s.core.commit o .paranoid ((Call.firstLaunchParanoid password).releases o s) := by
  obtain ⟨machine, bus, hrun⟩ := runs_dispatch o s .paranoid .unlockRequested
  rw [firstLaunchParanoid, bind_eq, hrun, bind_eq, runs_access, TierOp.perform, Call.releases]
  rcases o.enable with _ | e | bytes
  · exact core_unlockFailed ..
  · exact core_unlockFailed ..
  · dsimp only [Except.toOption, bind_some]
    split
    · next hempty =>
      rw [nonempty_none (some bytes) hempty]
      exact core_unlockFailed ..
    · next hempty =>
      rw [nonempty_some (some bytes) hempty]
      exact core_stageAndUnlock ..

theorem runs_writeToKeychain (bytes : Bytes) (f : Except String Unit → Orchestrator α) :
    runs o ((writeToKeychain bytes).bind f) s = runs o (f (o.keychainWrite.mapError ("keychain_write_failed: " ++ ·))) s :=
  rfl

theorem core_firstLaunchKeychain : (runs o firstLaunchKeychain s).2.core =
    s.core.commit o .keychain (Call.firstLaunchKeychain.releases o s) := by
  obtain ⟨machine, bus, hrun⟩ := runs_dispatch o s .keychain .unlockRequested
  rw [firstLaunchKeychain, bind_eq, hrun, bind_eq, runs_access, TierOp.perform, bind_eq,
    runs_writeToKeychain, Call.releases]
  rcases o.keychainWrite with e | ⟨⟩
  · exact core_unlockFailed ..
  · exact core_stageAndUnlock ..

theorem core_firstLaunchKeychainWithPassword :
    (runs o (firstLaunchKeychainWithPassword password) s).2.core =
      s.core.commit o .keychain ((Call.firstLaunchKeychainWithPassword password).releases o s) := by
  obtain ⟨machine, bus, hrun⟩ := runs_dispatch o s .keychain .unlockRequested
  rw [firstLaunchKeychainWithPassword, bind_eq, hrun, bind_eq, runs_access, TierOp.perform, Call.releases]
  rcases o.setPassword with e | ⟨⟩
  · exact core_unlockFailed ..
  · rw [bind_eq, runs_access, TierOp.perform, bind_eq, runs_writeToKeychain]
    rcases o.keychainWrite with e | ⟨⟩
    · exact core_unlockFailed ..
    · exact core_stageAndUnlock ..

theorem sealDbKeySecretId_ne (promptId : String) : sealDbKeySecretId promptId ≠ tierUnlockKeyId := by
  intro h
  have hlist := congrArg String.toList h
  unfold sealDbKeySecretId tierUnlockKeyId at hlist
  simp at hlist

theorem sealPinSecretId_ne (promptId : String) : sealPinSecretId promptId ≠ tierUnlockKeyId := by
  intro h
  have hlist := congrArg String.toList h
  unfold sealPinSecretId tierUnlockKeyId at hlist
  simp at hlist

theorem core_stagePin (promptId : String) (pin : Option String) : (runs o (stagePin promptId pin) s).2.core = s.core ∧
    ∀ id, (runs o (stagePin promptId pin) s).1 = some id → id ≠ tierUnlockKeyId := by
  rcases pin with _ | pin
  · exact ⟨rfl, nofun⟩
  · refine ⟨core_putSecret s (sealPinSecretId_ne promptId) (utf8 pin), fun id hid => ?_⟩
    have hid' : some (sealPinSecretId promptId) = some id := hid
    rw [← Option.some.inj hid']
    exact sealPinSecretId_ne promptId

theorem core_sealKey (key : Bytes) (promptId : String) (pinSecretId : Option String) :
    (runs o (sealKey key promptId pinSecretId) s).2.core =
      s.core.commit o .hardware ((o.sealPrompt.bind Except.toOption).map fun _ => key) := by
  rw [sealKey, bind_eq, runs_access, TierOp.perform]
  rcases o.sealPrompt with _ | e | ⟨⟩
  · exact core_unlockFailed ..
  · exact core_unlockFailed ..
  · exact core_stageAndUnlock ..

theorem core_dropSealSecrets (promptId : String) {pinSecretId : Option String}
    (h : ∀ id, pinSecretId = some id → id ≠ tierUnlockKeyId) :
    (runs o (dropSealSecrets promptId pinSecretId) s).2.core = s.core := by
  have hkey := core_dropSecret s (sealDbKeySecretId_ne promptId)
  rcases pinSecretId with _ | id
  · exact hkey
  · change ((s.dropSecret _).dropSecret id).core = s.core
    rw [core_dropSecret _ (h id rfl), hkey]

theorem core_firstLaunchHardware (pin : Option String) : (runs o (firstLaunchHardware pin) s).2.core =
    s.core.commit o .hardware ((Call.firstLaunchHardware pin).releases o s) := by
  obtain ⟨machine, bus, hrun⟩ := runs_dispatch o s .hardware .unlockRequested
  rw [firstLaunchHardware, bind_eq, hrun, bind_eq, runs_access, TierOp.perform, bind_eq, runs_access,
    TierOp.perform, bind_eq, runs_access, TierOp.perform, Call.releases]
  rw [bind_eq, runs_bind, bind_eq, runs_bind, bind_eq, runs_bind]
  obtain ⟨hcore, hid⟩ := core_stagePin o (App.putSecret { s with machine, bus } (sealDbKeySecretId o.promptId) o.randomKey)
    o.promptId pin
  change (runs o (dropSealSecrets _ _) _).2.core = _
  rw [core_dropSealSecrets o _ _ hid, core_sealKey]
  rw [hcore, core_putSecret _ (sealDbKeySecretId_ne _)]
  rfl

theorem core_commitBiometricUnlockFromSecret (tier : SecurityTier) (secretId : String) :
    (runs o (commitBiometricUnlockFromSecret tier secretId) s).2.core = s.core.commit o tier (s.secrets secretId) := by
  have hunlock : ∀ s' : App, s'.core = { s.core with key := s.secrets secretId } → (s.secrets secretId).isSome → (runs o (do
        instanceDispatch tier .unlockRequested
        instanceDispatch tier .unlockSucceeded
        runPostUnlockCascade tier
        return true) s').2.core = s.core.commit o tier (s.secrets secretId) := by
    intro s' hs' hsome
    obtain ⟨key, hkey⟩ := isSome_iff_exists.1 hsome
    change (runs o ((runPostUnlockCascade tier).bind fun _ => .done true) ((s'.moveMachine _).2.moveMachine _).2).2.core = _
    rw [runs_bind]
    change (runs o (runPostUnlockCascade tier) _).2.core = _
    rw [core_cascade, core_moveMachine, core_moveMachine, hs', hkey]
    rfl
  rw [commitBiometricUnlockFromSecret, bind_eq, runs_access, TierOp.perform]
  rcases hkey : s.secrets secretId with _ | key
  · rfl
  dsimp only [isSome_some]
  rw [if_pos rfl, bind_eq, promoteSecret]
  rw [hkey] at hunlock
  split
  · next hid =>
    subst hid
    refine hunlock s ?_ rfl
    rw [← hkey]
    rfl
  · next hid =>
    rw [runs_access, TierOp.perform]
    have hrename : s.renameSecret secretId tierUnlockKeyId = (true, (s.dropSecret secretId).putSecret tierUnlockKeyId key) := by
      rw [App.renameSecret, if_neg hid, hkey]
    rw [hrename]
    refine hunlock _ ?_ rfl
    rw [core_stage, core_dropSecret s hid]

theorem run_call (p : Orchestrator α) : (runs o p.call s).2 = (runs o p s).2 := by
  rw [Orchestrator.call, bind_eq, runs_bind]
  rfl

theorem core_run (c : Call) : (c.run o s).core = s.core.commit o c.tier (c.releases o s) := by
  cases c with
  | unlockPlaintext => exact core_commitBiometricUnlock o s .plaintext []
  | firstLaunchPlaintext => exact core_commitBiometricUnlock o s .plaintext []
  | commitBiometricUnlock tier bytes => exact core_commitBiometricUnlock o s tier bytes
  | unlockKeychain => exact (congrArg App.core (run_call ..)).trans (core_unlockKeychain ..)
  | unlockKeychainWithPassword => exact (congrArg App.core (run_call ..)).trans (core_unlockKeychainWithPassword ..)
  | unlockParanoid => exact (congrArg App.core (run_call ..)).trans (core_unlockParanoid ..)
  | unlockHardware => exact (congrArg App.core (run_call ..)).trans (core_unlockHardware ..)
  | firstLaunchParanoid => exact (congrArg App.core (run_call ..)).trans (core_firstLaunchParanoid ..)
  | firstLaunchKeychain => exact (congrArg App.core (run_call ..)).trans (core_firstLaunchKeychain ..)
  | firstLaunchKeychainWithPassword =>
    exact (congrArg App.core (run_call ..)).trans (core_firstLaunchKeychainWithPassword ..)
  | firstLaunchHardware => exact (congrArg App.core (run_call ..)).trans (core_firstLaunchHardware ..)
  | commitBiometricUnlockFromSecret =>
    exact (congrArg App.core (run_call ..)).trans (core_commitBiometricUnlockFromSecret ..)

end Core

/-! ## A machine that is unlocked already -/

theorem persistedTier_update (store : Config.Store) (tier : SecurityTier) :
    persistedTier ((store.updateSecurityTier tier).toOption.getD store) =
      if store.filePath.isSome ∧ store.current.isSome then some tier else persistedTier store := by
  obtain ⟨_ | path, current, pending⟩ := store
  · rfl
  rcases current with _ | current
  · rfl
  rw [if_pos ⟨rfl, rfl⟩]
  simp only [Config.Store.updateSecurityTier, Config.Store.update, isNone_some, Bool.false_eq_true, if_false]
  split
  · next hsame =>
    change (current.security).map _ = some tier
    rw [hsame]
    rfl
  · rfl

/-- The cascade has nothing to do: no database opens, and the settings have the tier or cannot take it. -/
def Core.Settled (c : Core) (o : Answers) (tier : SecurityTier) : Prop :=
  c.supportDir = none ∨ o.dbOpen.isOk = false ∧
    (c.configStore.filePath = none ∨ c.configStore.current = none ∨ persistedTier c.configStore = some tier)

theorem Core.cascade_key (c : Core) (o : Answers) (tier : SecurityTier) : (c.cascade o tier).key = c.key := by
  unfold Core.cascade
  split <;> rfl

theorem Core.cascade_same_iff (c : Core) (o : Answers) (tier : SecurityTier) : (c.cascade o tier).dbSlot.db = c.dbSlot.db ∧
    persistedTier (c.cascade o tier).configStore = persistedTier c.configStore ↔ c.Settled o tier := by
  unfold Core.cascade Core.Settled
  split
  · next hdir => simp [hdir]
  next dir hdir =>
  have hdb : (if o.dbOpen.isOk then c.dbSlot.init (joinPath [dir, dbFileName]) (c.key.getD []) else c.dbSlot).db =
      c.dbSlot.db ↔ o.dbOpen.isOk = false := by
    split
    · next hopen => simp [DbSlot.init_db_ne, hopen]
    · next hopen => simp [hopen]
  rw [hdb, persistedTier_update, hdir]
  rcases c.configStore.filePath with _ | path
  · simp
  · rcases c.configStore.current with _ | current
    · simp
    · simp [eq_comm (a := some tier)]

theorem unchanged_iff_core (s t : App) : Unchanged s t ↔ t.core.key = s.core.key ∧ t.core.dbSlot.db = s.core.dbSlot.db ∧
    persistedTier t.core.configStore = persistedTier s.core.configStore :=
  ⟨fun h => ⟨h.key, h.db, h.tier⟩, fun ⟨hkey, hdb, htier⟩ => ⟨hkey, hdb, htier⟩⟩

theorem unchanged_run_iff (c : Call) (o : Answers) (s : App) : Unchanged s (c.run o s) ↔
    ∀ key, c.releases o s = some key → s.secrets tierUnlockKeyId = some key ∧ s.core.Settled o c.tier := by
  rw [unchanged_iff_core, core_run]
  rcases c.releases o s with _ | key
  · exact ⟨fun _ => nofun, fun _ => ⟨rfl, rfl, rfl⟩⟩
  have hsame := Core.cascade_same_iff { s.core with key := some key } o c.tier
  rw [Core.commit, Core.cascade_key]
  refine ⟨fun ⟨hkey, hrest⟩ k hk => ?_, fun h => ?_⟩
  · cases hk
    exact ⟨hkey.symm, hsame.1 hrest⟩
  · obtain ⟨hkey, hset⟩ := h key rfl
    exact ⟨hkey.symm, hsame.2 hset⟩

/-! ## A wipe -/

variable {s : App}

theorem App.moveMachine_wiping (h : s.machine.state = .wiping) {move : Machine → Option TierState × Machine}
    (hmove : ∀ m : Machine, m.state = .wiping → (move m).2.state = .wiping) :
    (s.moveMachine move).2.machine.state = .wiping := by
  obtain ⟨bus, heq⟩ := s.moveMachine_snd move
  rw [heq]
  exact hmove _ h

theorem TierOp.perform_wiping (o : Answers) (op : TierOp) (s : App) (h : s.machine.state = .wiping) :
    (op.perform o s).2.machine.state = .wiping := by
  cases op with
  | instanceDispatch tier event =>
    exact s.moveMachine_wiping h fun m hm => (m.setTier tier).dispatch_wiping event hm
  | renameSecret src dst =>
    obtain ⟨secrets, heq⟩ := s.renameSecret_snd src dst
    change (s.renameSecret src dst).2.machine.state = _
    rw [heq]
    exact h
  | _ => exact h

theorem Call.run_wiping (c : Call) (o : Answers) (h : s.machine.state = .wiping) :
    (c.run o s).machine.state = .wiping :=
  finish_invariant (J := fun s : App => s.machine.state = .wiping) TierOp.perform_wiping c.program _ h

theorem App.outside_wiping (h : s.machine.state = .wiping) (l : Step) :
    (s.outside l).machine.state = .wiping := by
  cases l with
  | dispatch event => exact s.moveMachine_wiping h fun m hm => m.dispatch_wiping event hm
  | tryAdvance => exact s.moveMachine_wiping h fun m hm => m.tryAdvance_wiping hm
  | cancelUnlock tier => exact s.moveMachine_wiping h fun m hm => (m.setTier tier).dispatch_wiping _ hm
  | _ => exact h

theorem step_wiping {s t : System} {l : Step} (hs : s.shared.machine.state = .wiping) (h : step s l = some t) :
    t.shared.machine.state = .wiping := by
  rcases step_cases h with ⟨call, -, rfl⟩ | ⟨i, o, -, hact⟩ | ⟨-, -, rfl⟩
  · exact hs
  · obtain ⟨op, next, -, rfl⟩ := Threads.act_cases hact
    exact op.perform_wiping o s.shared hs
  · exact s.shared.outside_wiping hs l

/-! ## Runs -/

/-- A step, or a call that nothing comes between. -/
inductive Move where
  | step (l : Step)
  | call (c : Call) (o : Answers)

def move (s : System) : Move → Option System
  | .step l => step s l
  | .call c o => some { s with shared := c.run o s.shared }

theorem move_wiping {s t : System} {m : Move} (hs : s.shared.machine.state = .wiping) (h : move s m = some t) :
    t.shared.machine.state = .wiping := by
  cases m with
  | step l => exact step_wiping hs h
  | call c o =>
    cases h
    exact c.run_wiping o hs

/-- **Unlocking again does nothing, and a wipe is final.** -/
structure Harmless (app : App) (ms : List Move) : Prop where
  reentry : ∀ pre c o post, ms = pre ++ .call c o :: post → ∀ s, run move { shared := app } pre = some s →
    s.shared.machine.state = .unlocked → Unchanged s.shared (c.run o s.shared)
  final : ∀ pre post, ms = pre ++ .step (.dispatch .wiped) :: post → ∀ mid, mid <+: post →
    ∀ s, run move { shared := app } (pre ++ .step (.dispatch .wiped) :: mid) = some s → s.shared.machine.state ≠ .unlocked

/-- A call that finds the machine unlocked comes to no key, or has nothing left to do with it. -/
def CallGuarded (s : System) : Move → Prop
  | .call c o => s.shared.machine.state = .unlocked → ∀ key, c.releases o s.shared = some key →
    s.shared.secrets tierUnlockKeyId = some key ∧ s.shared.core.Settled o c.tier
  | .step _ => True

def WipeGuarded (s : System) : Move → Prop
  | .step (.dispatch .wiped) => s.shared.machine.state ≠ .unlocking
  | _ => True

/-- **When it is harmless to unlock again, and a wipe is final.** The condition on the calls is exact. -/
theorem harmless_of_guarded (app : App) (ms : List Move) :
    (Along move CallGuarded { shared := app } ms → Along move WipeGuarded { shared := app } ms → Harmless app ms) ∧
    (Harmless app ms → Along move CallGuarded { shared := app } ms) := by
  refine ⟨fun hcalls hwipes => ⟨?_, ?_⟩, fun h => along_of_forall ?_⟩
  · rintro pre c o post rfl s hs hunlocked
    have hguarded := ((along_append hcalls).2 s hs).1 hunlocked
    exact (unchanged_run_iff c o s.shared).2 hguarded
  · rintro pre post rfl mid - s hs
    rw [run_append] at hs
    obtain ⟨u, hu, hrest⟩ := bind_eq_some_iff.1 hs
    obtain ⟨u', hu', hmid⟩ := run_cons hrest
    have hwiping : u'.shared.machine.state = .wiping := by
      have hguarded : u.shared.machine.state ≠ .unlocking := ((along_append hwipes).2 u hu).1
      cases hu'
      obtain ⟨bus, heq⟩ := u.shared.moveMachine_snd fun m => m.dispatch .wiped
      change (u.shared.moveMachine _).2.machine.state = _
      rw [heq]
      rw [Machine.dispatch_state]
      exact nextState_wiped_eq hguarded
    have hlast : s.shared.machine.state = .wiping :=
      run_keeps (I := fun s : System => s.shared.machine.state = .wiping) (fun _ _ _ hs h => move_wiping hs h) hwiping hmid
    rw [hlast]
    exact nofun
  · rintro pre (l | ⟨c, o⟩) post rfl s hs
    · trivial
    · intro hunlocked
      exact (unchanged_run_iff c o s.shared).1 (h.reentry pre c o post rfl s hs hunlocked)

def sampleApp : App where
  supportDir := some "/data"
  configStore := { filePath := some "/data/config.json", current := some Config.AppConfig.default }

/-- An unlock, a second one without a key, and a wipe. -/
theorem harmless_sample : Harmless sampleApp [.call .unlockKeychain { keychainRead := .ok (some [1]) },
    .call .unlockKeychain { keychainRead := .ok none }, .step (.dispatch .wiped)] := by
  refine (harmless_of_guarded sampleApp _).1 ?_ ?_
  · refine ⟨fun h => absurd h (by decide), fun s hs => ?_⟩
    cases hs
    refine ⟨fun _ key hkey => ?_, fun s hs => ?_⟩
    · cases hkey
    · cases hs
      exact ⟨trivial, fun _ _ => trivial⟩
  · refine ⟨trivial, fun s hs => ?_⟩
    cases hs
    refine ⟨trivial, fun s hs => ?_⟩
    cases hs
    refine ⟨?_, fun _ _ => trivial⟩
    change (_ : TierState) ≠ _
    decide

/-- A machine that was unlocked under the keychain's key gets the plaintext key, another database and another tier; and
a wipe in the middle of an unlock is followed by an unlocked machine. -/
theorem harmless_reentered :
    (∃ s, run move { shared := sampleApp } [.call .unlockKeychain { keychainRead := .ok (some [1]) }] = some s ∧
      s.shared.machine.state = .unlocked ∧ s.shared.secrets tierUnlockKeyId = some [1] ∧
      persistedTier s.shared.configStore = some .keychain ∧
      (Call.unlockPlaintext.run {} s.shared).secrets tierUnlockKeyId = some [] ∧
      persistedTier (Call.unlockPlaintext.run {} s.shared).configStore = some .plaintext) ∧
    ¬ Harmless sampleApp [.call .unlockKeychain { keychainRead := .ok (some [1]) }, .call .unlockPlaintext {}] ∧
    ¬ Harmless sampleApp [.step (.dispatch .unlockRequested), .step (.dispatch .wiped), .call .unlockPlaintext {}] := by
  refine ⟨⟨_, rfl, rfl, rfl, rfl, rfl, rfl⟩, fun h => ?_, fun h => ?_⟩
  · have hkey := (h.reentry [.call .unlockKeychain { keychainRead := .ok (some [1]) }] .unlockPlaintext {} [] rfl _ rfl
      rfl).key
    exact absurd hkey (by decide)
  · exact h.final [.step (.dispatch .unlockRequested)] [.call .unlockPlaintext {}] rfl [.call .unlockPlaintext {}]
      List.prefix_rfl _ rfl rfl

end LetsFlutSsh.Security.Unlock
