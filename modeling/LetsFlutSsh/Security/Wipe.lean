import LetsFlutSsh.Lib.Bytes
import LetsFlutSsh.Lib.Prog

/-!
# The destructive reset

* `managedFiles`, `managedKeys`, `Platform` : what the wipe has to get rid of;
* `Install` : the marker, what is there of the rest, the database handle and the cached secrets;
* `WipeOp`, `Fate`, `WipeOp.handle` : the steps of the wipe, what decides how one goes, and what it does;
* `sweepFiles`, `runDestructiveReset` : the sweep of the files, and the whole cascade;
* `Resumable` : every managed artefact is gone, or the next launch finds the marker (`wipe_resumable_iff`).

A step that is interrupted leaves what one of its outcomes leaves.
-/

namespace LetsFlutSsh.Security.Wipe
open Lib List

/-! ## The catalogue -/

def managedFiles : List String := [ ".tier-transition-pending", "keychain_enabled",
  "rate_limit_state.bin",
  "hardware_vault_android_bio.bin",
  "hardware_vault_password_overlay_android.bin",
  "hardware_vault_password_overlay_apple.bin",
  "hardware_vault_password_overlay_linux.bin",
  "hardware_vault_password_overlay_windows.bin",
  "security_pass_hash.bin",
  "hardware_vault.bin",
  "hardware_vault_android.bin",
  "hardware_vault_apple.bin",
  "hardware_vault_ios.bin",
  "hardware_vault_macos.bin",
  "hardware_vault_windows.bin",
  "hardware_vault_linux.bin",
  "hardware_vault_salt.bin",
  "credentials.kdf",
  "credentials.verify",
  "credentials.key",
  "config.json",
  "migration_history.json",
  "letsflutssh.db",
  "letsflutssh.db-wal",
  "letsflutssh.db-shm",
  "letsflutssh.db-journal",
  "lfs_core.db",
  "lfs_core.db-wal",
  "lfs_core.db-shm",
  "lfs_core.db-journal"]

def managedKeys : List String := [ "letsflutssh_encryption_key", "letsflutssh_biometric_encryption_key",
  "letsflutssh_keychain_probe",
  "letsflutssh_l2_pepper",
  "letsflutssh_bio_db_key"]

/-- The places that the wipe clears, the marker apart. -/
inductive Slot where
  | file (name : String)
  | log (entry : String)
  | key (name : String)
  /-- The persistent hardware key, and the one of the biometric overlay. -/
  | vaultKey
  | overlayKey
  deriving DecidableEq

def Slot.Managed : Slot → Prop
  | .file name => name ∈ managedFiles
  | .log _ => False
  | .key name => name ∈ managedKeys
  | .vaultKey | .overlayKey => True

inductive Platform where
  | linux
  | apple
  | android
  | windows
  | other

/-- What `hardware_tier_vault::clear` goes after. -/
def Platform.vaultSlots : Platform → List Slot
  | .linux => [.file "hardware_vault.bin"]
  | .apple => [.file "hardware_vault_apple.bin", .vaultKey, .file "hardware_vault_password_overlay_apple.bin", .overlayKey]
  | .android => [.file "hardware_vault_android.bin", .vaultKey, .file "hardware_vault_android_bio.bin", .overlayKey]
  | .windows => [.file "hardware_vault.bin", .vaultKey]
  | .other => []

/-- What `clear_biometric_password` goes after. -/
def Platform.overlaySlots : Platform → List Slot
  | .linux => [.file "hardware_vault_password_overlay_linux.bin"]
  | .apple => [.file "hardware_vault_password_overlay_apple.bin", .overlayKey]
  | .android => [.file "hardware_vault_android_bio.bin", .overlayKey]
  | .windows => [.file "hardware_vault_password_overlay_windows.bin", .overlayKey]
  | .other => []

/-! ## The marker -/

def wipePendingMagic : Bytes := [0x4c, 0x46, 0x57, 0x50]
def wipePendingVersion : UInt8 := 1
def wipePendingHeaderLen : Nat := wipePendingMagic.length + 1

/-- The content of the marker; the clock gives nothing where it stands before the epoch. -/
def pendingMarker (now : Option Nat) : Bytes :=
  let body := match now with
    | some millis => toString millis ++ "\n"
    | none => "0\n"
  wipePendingMagic ++ wipePendingVersion :: utf8 body

/-- `has_pending_wipe`, of the bytes at the path of the marker. -/
def hasPendingWipe (marker : Option Bytes) : Bool :=
  match marker with
  | none => false
  | some bytes =>
    if bytes.length < wipePendingHeaderLen then false
    else if bytes.take wipePendingMagic.length ≠ wipePendingMagic then false
    else if bytes[wipePendingMagic.length]? ≠ some wipePendingVersion then false
    else true

theorem hasPendingWipe_pendingMarker (now : Option Nat) : hasPendingWipe (some (pendingMarker now)) = true := by
  simp [hasPendingWipe, pendingMarker, wipePendingMagic, wipePendingHeaderLen]

/-! ## Steps -/

structure Install where
  marker : Option Bytes := none
  present : Slot → Bool
  dbOpen : Bool := false
  secretsCached : Bool := false

/-- `s` without what is gone. -/
def Install.free (s : Install) (gone : Slot → Bool) : Install :=
  { s with present := fun slot => s.present slot && !gone slot }

inductive WipeOp where
  | dbClose
  /-- The directory, then the atomic write. -/
  | writePendingMarker (data : Bytes)
  | clearSecrets
  /-- The body of the loop over the managed files. -/
  | sweepFile (name : String)
  | wipeLogsDir
  | clearPendingMarker
  | deleteKey (name : String)
  | clearHwVaultPrimary (p : Platform)
  | clearHwVaultBiometric (p : Platform)

inductive FileFate where
  | skipped
  | deleted
  | failed

inductive KeyWipeOutcome where
  | deleted
  | failed (detail : String)

def KeyWipeOutcome.isSuccess : KeyWipeOutcome → Bool
  | .deleted => true
  | .failed _ => false

@[reducible] def WipeOp.Resp : WipeOp → Type
  | .dbClose | .clearSecrets => Unit
  | .sweepFile _ => FileFate
  | .deleteKey _ => KeyWipeOutcome
  | _ => Bool

/-- What decides how a step goes: whether a check for a file sees it, whether the step reports success, and which
deletions go through. -/
structure Fate where
  sees : Bool := true
  ok : Bool := true
  frees : Slot → Bool := fun _ => true
  detail : String := ""

def WipeOp.frees (o : Fate) : WipeOp → Slot → Bool
  | .sweepFile name, slot => o.sees && slot = .file name && o.frees slot
  | .wipeLogsDir, .log entry => o.sees && o.frees (.log entry)
  | .deleteKey name, slot => slot = .key name && o.frees slot
  | .clearHwVaultPrimary p, slot => slot ∈ p.vaultSlots && o.frees slot
  | .clearHwVaultBiometric p, slot => slot ∈ p.overlaySlots && o.frees slot
  | _, _ => false

def WipeOp.handle (o : Fate) : (op : WipeOp) → Install → op.Resp × Install
  | .dbClose, s => ((), { s with dbOpen := false })
  | .writePendingMarker data, s => (o.ok, if o.ok then { s with marker := some data } else s)
  | .clearSecrets, s => ((), { s with secretsCached := false })
  | .sweepFile name, s =>
    if !(o.sees && s.present (.file name)) then (.skipped, s)
    else if o.frees (.file name) then (.deleted, s.free ((WipeOp.sweepFile name).frees o))
    else (.failed, s)
  | .wipeLogsDir, s => (o.ok, s.free (WipeOp.wipeLogsDir.frees o))
  | .clearPendingMarker, s =>
    if !(o.sees && s.marker.isSome) then (true, s)
    else if o.ok then (true, { s with marker := none })
    else (false, s)
  | .deleteKey name, s =>
    (if o.frees (.key name) then .deleted else .failed o.detail, s.free ((WipeOp.deleteKey name).frees o))
  | .clearHwVaultPrimary p, s => (o.ok, s.free ((WipeOp.clearHwVaultPrimary p).frees o))
  | .clearHwVaultBiometric p, s => (o.ok, s.free ((WipeOp.clearHwVaultBiometric p).frees o))

abbrev WipeProg := Prog WipeOp WipeOp.Resp

/-! ## The sweep and the cascade -/

structure FileSweepReport where
  deletedFiles : List String
  failedFiles : List String

structure DestructiveResetReport where
  deletedFiles : List String
  failedFiles : List String
  keychainPurgeSucceeded : Bool
  hwVaultCleared : Bool
  hwVaultBiometricCleared : Bool

/-- The loop of `sweep_files`. -/
def sweepLoop : List String → FileSweepReport → WipeProg FileSweepReport
  | [], report => .done report
  | name :: names, report => .call (.sweepFile name) fun
    | .skipped => sweepLoop names report
    | .deleted => sweepLoop names { report with deletedFiles := report.deletedFiles ++ [name] }
    | .failed => sweepLoop names { report with failedFiles := report.failedFiles ++ [name] }

def sweepFiles (now : Option Nat) : WipeProg FileSweepReport := do
  let _ ← .perform (.writePendingMarker (pendingMarker now))
  let _ ← .perform .clearSecrets
  let report ← sweepLoop managedFiles ⟨[], []⟩
  let _ ← .perform .wipeLogsDir
  let _ ← .perform .clearPendingMarker
  pure report

/-- `wipe_keychain::run`. -/
def purgeLoop : List String → List (String × KeyWipeOutcome) → WipeProg (List (String × KeyWipeOutcome))
  | [], report => .done report
  | name :: keys, report => .call (.deleteKey name) fun outcome => purgeLoop keys (report ++ [(name, outcome)])

def runDestructiveReset (p : Platform) (now : Option Nat) : WipeProg DestructiveResetReport := do
  let _ ← .perform .dbClose
  let fileReport ← sweepFiles now
  let kcReport ← purgeLoop managedKeys []
  let hwOk ← .perform (.clearHwVaultPrimary p)
  let hwBioOk ← .perform (.clearHwVaultBiometric p)
  pure {
    deletedFiles := fileReport.deletedFiles
    failedFiles := fileReport.failedFiles
    keychainPurgeSucceeded := kcReport.all fun entry => entry.2.isSuccess
    hwVaultCleared := hwOk
    hwVaultBiometricCleared := hwBioOk }

def sweepPlan (now : Option Nat) : List WipeOp :=
  .writePendingMarker (pendingMarker now) :: .clearSecrets ::
    (managedFiles.map .sweepFile ++ [.wipeLogsDir, .clearPendingMarker])

def resetPlan (p : Platform) (now : Option Nat) : List WipeOp :=
  .dbClose :: (sweepPlan now ++ (managedKeys.map .deleteKey ++ [.clearHwVaultPrimary p, .clearHwVaultBiometric p]))

theorem sweepLoop_performs (names : List String) (report : FileSweepReport) :
    (sweepLoop names report).Performs (names.map .sweepFile) := by
  induction names generalizing report with
  | nil => exact .done report
  | cons name names ih =>
    refine .call fun fate => ?_
    cases fate <;> exact ih _

theorem purgeLoop_performs (names : List String) (report : List (String × KeyWipeOutcome)) :
    (purgeLoop names report).Performs (names.map .deleteKey) := by
  induction names generalizing report with
  | nil => exact .done report
  | cons name names ih => exact .call fun outcome => ih _

theorem sweepFiles_performs (now : Option Nat) : (sweepFiles now).Performs (sweepPlan now) :=
  .call fun _ => .call fun _ => (sweepLoop_performs _ _).bind fun _ => .call fun _ => .call fun _ => .done _

theorem runDestructiveReset_performs (p : Platform) (now : Option Nat) :
    (runDestructiveReset p now).Performs (resetPlan p now) :=
  .call fun _ => (sweepFiles_performs now).bind fun _ =>
    (purgeLoop_performs _ _).bind fun _ => .call fun _ => .call fun _ => .done _

/-! ## What is left -/

abbrev Events := List (WipeOp × Fate)

def Events.leaves (es : Events) (s : Install) : Install := es.foldl (fun s e => (e.1.handle e.2 s).2) s

theorem present_handle (o : Fate) (op : WipeOp) (s : Install) (slot : Slot) :
    (op.handle o s).2.present slot = (s.present slot && !op.frees o slot) := by
  cases op with
  | sweepFile name =>
    simp only [WipeOp.handle]
    split
    · next h =>
      rcases eq_or_ne slot (.file name) with rfl | hne
      · simp only [Bool.not_eq_true', Bool.and_eq_false_iff] at h
        rcases h with h | h <;> simp [WipeOp.frees, h]
      · simp [WipeOp.frees, hne]
    · split
      · rfl
      · next h =>
        rcases eq_or_ne slot (.file name) with rfl | hne
        · simp [WipeOp.frees, h]
        · simp [WipeOp.frees, hne]
  | writePendingMarker data =>
    simp only [WipeOp.handle]
    split <;> simp [WipeOp.frees]
  | clearPendingMarker =>
    simp only [WipeOp.handle]
    split
    · simp [WipeOp.frees]
    · split <;> simp [WipeOp.frees]
  | dbClose | clearSecrets => simp [WipeOp.handle, WipeOp.frees]
  | wipeLogsDir | deleteKey _ | clearHwVaultPrimary _ | clearHwVaultBiometric _ => rfl

def Events.Deletes (es : Events) (slot : Slot) : Prop := ∃ e ∈ es, e.1.frees e.2 slot = true

theorem present_leaves (es : Events) (s : Install) (slot : Slot) :
    (es.leaves s).present slot = true ↔ s.present slot = true ∧ ¬ es.Deletes slot := by
  induction es generalizing s with
  | nil => simp [Events.leaves, Events.Deletes]
  | cons e es ih =>
    have hstep := ih (e.1.handle e.2 s).2
    rw [present_handle] at hstep
    refine hstep.trans ?_
    simp only [Events.Deletes, mem_cons, exists_eq_or_imp, Bool.and_eq_true, Bool.not_eq_true', not_or,
      Bool.not_eq_true, and_assoc]

/-! ## What becomes of the marker -/

def WipeOp.Marks (op : WipeOp) : Prop := ∃ data, hasPendingWipe (some data) = true ∧ op = .writePendingMarker data

def Events.Writes (es : Events) : Prop := ∃ e ∈ es, e.1.Marks ∧ e.2.ok = true

def Events.Clears (es : Events) : Prop := ∃ e ∈ es, e.1 = .clearPendingMarker ∧ e.2.sees = true ∧ e.2.ok = true

/-- The marker stands after these steps if it stood or they wrote it, and they did not take it away. -/
def Events.Tells (es : Events) : Prop := ∀ s : Install,
  hasPendingWipe (es.leaves s).marker = true ↔ (hasPendingWipe s.marker = true ∨ es.Writes) ∧ ¬ es.Clears

theorem writes_append {es fs : Events} : Events.Writes (es ++ fs) ↔ es.Writes ∨ fs.Writes := by
  simp only [Events.Writes, mem_append, or_and_right, exists_or]

theorem clears_append {es fs : Events} : Events.Clears (es ++ fs) ↔ es.Clears ∨ fs.Clears := by
  simp only [Events.Clears, mem_append, or_and_right, exists_or]

theorem tells_append {e f : Events} (hes : e.Tells) (hfs : f.Tells) (h : ¬ e.Clears ∨ ¬ f.Writes) :
    Events.Tells (e ++ f) := by
  intro s
  rw [Events.leaves, foldl_append]
  change hasPendingWipe (f.leaves (e.leaves s)).marker = true ↔ _
  rw [hfs, hes, writes_append, clears_append]
  tauto

theorem tells_single (op : WipeOp) (o : Fate) (hwrite : ∀ data, op = .writePendingMarker data → op.Marks) :
    Events.Tells [(op, o)] := by
  intro s
  have hwrites : Events.Writes [(op, o)] ↔ op.Marks ∧ o.ok = true := by simp [Events.Writes]
  have hclears : Events.Clears [(op, o)] ↔ op = .clearPendingMarker ∧ o.sees = true ∧ o.ok = true := by
    simp [Events.Clears]
  rw [hwrites, hclears]
  change hasPendingWipe (op.handle o s).2.marker = true ↔ _
  cases op with
  | writePendingMarker data =>
    have hmarks := hwrite data rfl
    obtain ⟨data', hdata, heq⟩ := hwrite data rfl
    cases heq
    simp only [WipeOp.handle]
    split
    · next hok => simp [hdata, hok, hmarks]
    · next hok => simp [hok]
  | clearPendingMarker =>
    simp only [WipeOp.handle, WipeOp.Marks]
    split
    · next h =>
      simp only [Bool.not_eq_true', Bool.and_eq_false_iff] at h
      rcases h with h | h
      · simp [h]
      · rw [Option.isSome_eq_false_iff, Option.isNone_iff_eq_none] at h
        simp [h, hasPendingWipe]
    · split
      · next h hok =>
        simp only [Bool.not_eq_true, Bool.not_eq_false', Bool.and_eq_true] at h
        simp [hasPendingWipe, hok, h.1]
      · next hok => simp [hok]
  | sweepFile name =>
    simp only [WipeOp.handle, WipeOp.Marks]
    split
    · simp
    · split <;> simp [Install.free]
  | dbClose | clearSecrets | wipeLogsDir | deleteKey _ | clearHwVaultPrimary _ | clearHwVaultBiometric _ =>
    simp [WipeOp.handle, WipeOp.Marks, Install.free]

theorem tells_of_noWrite {es : Events} (h : ∀ e ∈ es, ∀ data, e.1 ≠ .writePendingMarker data) : es.Tells := by
  induction es with
  | nil =>
    intro s
    simp [Events.leaves, Events.Writes, Events.Clears]
  | cons e es ih =>
    rw [forall_mem_cons] at h
    refine tells_append (e := [e]) (tells_single e.1 e.2 fun data heq => absurd heq (h.1 data)) (ih h.2) (.inr ?_)
    rintro ⟨f, hf, ⟨data, _, heq⟩, -⟩
    exact h.2 f hf data heq

theorem marks_pendingMarker (now : Option Nat) : (WipeOp.writePendingMarker (pendingMarker now)).Marks :=
  ⟨_, hasPendingWipe_pendingMarker now, rfl⟩

theorem tells_write {now : Option Nat} {rest : List WipeOp} (h : ∀ op ∈ rest, ∀ data, op ≠ .writePendingMarker data)
    (os : List Fate) : Events.Tells ((WipeOp.writePendingMarker (pendingMarker now) :: rest).zip os) := by
  rcases os with _ | ⟨o, os⟩
  · exact tells_of_noWrite nofun
  · refine tells_append (e := [(_, o)]) (tells_single _ o fun _ _ => marks_pendingMarker now) ?_ (.inl ?_)
    · exact tells_of_noWrite fun e he => h e.1 (of_mem_zip he).1
    · simp [Events.Clears]

theorem sweepPlan_tells (now : Option Nat) (os : List Fate) : Events.Tells ((sweepPlan now).zip os) := by
  refine tells_write (fun op hop data => ?_) os
  rintro rfl
  simp at hop

theorem resetPlan_tells (p : Platform) (now : Option Nat) (os : List Fate) : Events.Tells ((resetPlan p now).zip os) := by
  rcases os with _ | ⟨o, os⟩
  · exact tells_of_noWrite nofun
  · refine tells_append (e := [(_, o)]) (tells_single _ o nofun) (tells_write (fun op hop data => ?_) os) (.inl ?_)
    · rintro rfl
      simp at hop
    · simp [Events.Clears]

/-! ## Crash safety -/

/-- Every managed artefact is gone, or the next launch resumes the wipe. -/
def Resumable (s : Install) : Prop :=
  (∀ slot : Slot, slot.Managed → s.present slot = false) ∨ hasPendingWipe s.marker = true

/-- The steps that the run got to deleted every managed artefact that was there, or the marker stood before or was
written, and was not taken away. -/
def SafelyStopped (s : Install) (es : Events) : Prop :=
  (∀ slot : Slot, slot.Managed → s.present slot = true → es.Deletes slot) ∨
    (hasPendingWipe s.marker = true ∨ es.Writes) ∧ ¬ es.Clears

theorem resumable_leaves_iff {es : Events} (h : es.Tells) (s : Install) : Resumable (es.leaves s) ↔ SafelyStopped s es := by
  refine or_congr (forall_congr' fun slot => imp_congr_right fun _ => ?_) (h s)
  rw [← Bool.not_eq_true, present_leaves, not_and, not_not]

/-- **Crash safety of the wipe.** Whatever deletions fail and wherever the run stops, `run_destructive_reset` and
`sweep_files` leave every managed artefact gone or the marker in place, if and only if they stopped safely. -/
theorem wipe_resumable_iff (p : Platform) (now : Option Nat) (s : Install) (os : List Fate) :
    (Resumable ((runDestructiveReset p now).exec WipeOp.handle os s).2 ↔ SafelyStopped s ((resetPlan p now).zip os)) ∧
      (Resumable ((sweepFiles now).exec WipeOp.handle os s).2 ↔ SafelyStopped s ((sweepPlan now).zip os)) := by
  constructor
  · rw [(runDestructiveReset_performs p now).exec]
    exact resumable_leaves_iff (resetPlan_tells p now os) s
  · rw [(sweepFiles_performs now).exec]
    exact resumable_leaves_iff (sweepPlan_tells now os) s

/-- Nothing fails and the cascade stops right behind the sweep: the marker is gone, the keychain entry is not. -/
theorem wipe_stopped_before_keychain : ¬ ∀ (p : Platform) (now : Option Nat) (s : Install) (os : List Fate),
    Resumable ((runDestructiveReset p now).exec WipeOp.handle os s).2 := by
  intro h
  have hstop := h .linux none { present := fun slot => slot = .key "letsflutssh_l2_pepper" } (List.replicate 35 {})
  rw [(runDestructiveReset_performs .linux none).exec] at hstop
  rcases hstop with hgone | hpending
  · have hkey := hgone (.key "letsflutssh_l2_pepper") (by simp [Slot.Managed, managedKeys])
    revert hkey
    decide +kernel
  · revert hpending
    decide +kernel

end LetsFlutSsh.Security.Wipe
