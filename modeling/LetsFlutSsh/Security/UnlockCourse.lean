import LetsFlutSsh.Security.UnlockOrchestrator

/-!
# Security: the course of an unlock

What the calls of `security/tier_unlock_orchestrator.rs` have in common: a call asks its limiter, tries the secret, tells
the limiter, and unlocks or fails.

* `TierOp.verifies`, `TierOp.rejects` : the operations that try a secret, and the answers that find it wrong;
* `Phase` : where a call stands with its limiter;
* `Course` : what notes on a call have to keep, one rule for each kind of operation;
* `Course.program` : then every call keeps to them.
-/

namespace LetsFlutSsh.Security.Unlock
open Lib Prog
open Config (SecurityTier)

def TierOp.verifies : TierOp → Option String
  | .verifyPassword _ => some keychainPwUnlockLimiterId
  | .verifyAndDerive _ => some paranoidUnlockLimiterId
  | .unlockPrompt _ _ => some hardwareUnlockLimiterId
  | _ => none

def TierOp.rejects : (op : TierOp) → op.Resp → Bool
  | .verifyPassword _, .ok verified => !verified
  | .verifyAndDerive _, some (.ok key) => (key.getD []).isEmpty
  | .unlockPrompt _ _, some (.ok key) => (key.getD []).isEmpty
  | _, _ => false

/-- Where a call stands with a limiter. -/
inductive Phase where
  | outside
  /-- The limiter let it pass. -/
  | passed
  /-- It tried a wrong secret, and has not told the limiter. -/
  | tried
  /-- It tried a secret that was not wrong. -/
  | free
  | astray
  deriving DecidableEq

/-- The operations that neither ask a limiter, nor try a secret, nor unlock. -/
def TierOp.plain : TierOp → Bool
  | .instanceDispatch _ .unlockSucceeded | .limiterStatus _ | .recordFailure _ | .recordSuccess _ | .verifyPassword _
  | .verifyAndDerive _ | .unlockPrompt _ _ => false
  | _ => true

variable {Q α : Type} {note : Q → (op : TierOp) → op.Resp → Q} {I F : Q → Prop} {J : String → Phase → Q → Prop}

/-- **The course of a call.** `J k p` is what the notes are in the phase `p` with the limiter `k`, `I` what they are
before an operation, and `F` what they are at the end. -/
structure Course (note : Q → (op : TierOp) → op.Resp → Q) (I F : Q → Prop) (J : String → Phase → Q → Prop) : Prop where
  held : ∀ {q}, F q → I q
  after : ∀ {k p q}, J k p q → F q
  plain : ∀ {k p q op} r, op.plain = true → J k p q → J k p (note q op r)
  status : ∀ {k q} status, J k .outside q →
    J k (if status.isLocked then .outside else .passed) (note q (.limiterStatus k) status)
  verify : ∀ {k q} op r, op.verifies = some k → J k .passed q →
    J k (if op.rejects r then .tried else .free) (note q op r)
  failure : ∀ {k q} r, J k .tried q → J k .outside (note q (.recordFailure k) r)
  failure_free : ∀ {k q} r, J k .free q → J k .free (note q (.recordFailure k) r)
  success : ∀ {k q} r, J k .free q → J k .free (note q (.recordSuccess k) r)
  unlocks : ∀ {k p q} tier r, J k p q →
    (runPostUnlockCascade tier).Keeps note I (fun _ => F) (note q (.instanceDispatch tier .unlockSucceeded) r)
  dropped : ∀ {q} id r, F q → F (note q (.takeSecret id) r)

namespace Course

variable (w : Course note I F J)
include w

variable {k : String} {p : Phase} {q : Q} {tier : SecurityTier} {op : TierOp} {E : α → Q → Prop}

theorem before (h : J k p q) : I q := w.held (w.after h)

theorem step (h : J k p q) (hop : op.plain = true) {next : op.Resp → Orchestrator α}
    (hnext : ∀ r, J k p (note q op r) → (next r).Keeps note I E (note q op r)) : (Prog.call op next).Keeps note I E q :=
  ⟨w.before h, fun r => hnext r (w.plain r hop h)⟩

theorem failed (h : J k p q) (reason : UnlockFailureReason) (outcome : UnlockOutcome) :
    (unlockFailed tier reason outcome).Keeps note I (fun _ => F) q :=
  w.step h rfl fun _ h => w.after h

theorem unlocked (h : J k p q) (a : α) : Keeps note I (fun _ => F) (do
    instanceDispatch tier .unlockSucceeded
    runPostUnlockCascade tier
    return a : Orchestrator α) q :=
  ⟨w.before h, fun r => (w.unlocks tier r h).bind fun _ _ hF => hF⟩

theorem stageAndUnlock (h : J k p q) (bytes : Bytes) : (stageAndUnlock tier bytes).Keeps note I (fun _ => F) q :=
  w.step h rfl fun _ h => w.unlocked h _

theorem readKeychainKey (h : J k p q) (missing : String) : (readKeychainKey missing).Keeps note I (fun _ => F) q := by
  refine w.step h rfl fun answer h => ?_
  rcases answer with e | key
  · exact w.failed h _ _
  · simp only [bind_done]
    split
    · exact w.failed h _ _
    · exact w.stageAndUnlock h _

theorem commit (h : J k p q) (tier : SecurityTier) (bytes : Bytes) :
    (commitBiometricUnlock tier bytes).Keeps note I (fun _ => F) q :=
  w.step h rfl fun _ h => w.step h rfl fun _ h => ⟨w.before h, fun r => w.unlocks tier r h⟩

/-- The limiter is asked first; a call that it lets pass goes on. -/
theorem asked (h : J k .outside q) {failed passed : Orchestrator α} (hfailed : ∀ q, J k .outside q → failed.Keeps note I E q)
    (hpassed : ∀ q, J k .passed q → passed.Keeps note I E q) :
    (Prog.call (.limiterStatus k) fun status => if status.isLocked then failed else passed).Keeps note I E q := by
  refine ⟨w.before h, fun status => ?_⟩
  have hstatus := w.status status h
  cases hlocked : status.isLocked
  · simp only [hlocked] at hstatus ⊢
    exact hpassed _ hstatus
  · simp only [hlocked] at hstatus ⊢
    exact hfailed _ hstatus

theorem wrong (h : J k .tried q) {next : Unit → Orchestrator α} (hnext : ∀ q, J k .outside q → (next ()).Keeps note I E q) :
    (Prog.call (.recordFailure k) next).Keeps note I E q :=
  ⟨w.before h, fun _ => hnext _ (w.failure () h)⟩

/-- An empty key is a wrong secret. -/
theorem tried {key : Bytes} {right : Orchestrator UnlockOutcome} (h : J k (if key.isEmpty then .tried else .free) q)
    (hright : J k .free q → right.Keeps note I (fun _ => F) q) :
    Keeps note I (fun _ => F) (if key.isEmpty then do
      access (.recordFailure k)
      unlockFailed tier .wrongSecret .wrongSecret
    else right) q := by
  split
  · next hempty =>
    rw [if_pos hempty] at h
    exact w.wrong h fun _ h => w.failed h _ _
  · next hempty =>
    rw [if_neg hempty] at h
    exact hright h

theorem keychainWithPassword (password : Bytes) (h : J keychainPwUnlockLimiterId .outside q) :
    (unlockKeychainWithPassword password).Keeps note I (fun _ => F) q := by
  refine w.step h rfl fun _ h => w.asked h (fun _ h => w.failed h _ _) fun _ h => ⟨w.before h, fun verified => ?_⟩
  have hverify := w.verify (.verifyPassword password) verified rfl h
  rcases verified with e | ⟨_ | _⟩
  · exact w.failed hverify _ _
  · exact w.wrong hverify fun _ h => w.failed h _ _
  · exact ⟨w.before hverify, fun _ => w.readKeychainKey (w.success () hverify) _⟩

theorem paranoid (password : Bytes) (h : J paranoidUnlockLimiterId .outside q) :
    (unlockParanoid password).Keeps note I (fun _ => F) q := by
  refine w.step h rfl fun _ h => w.asked h (fun _ h => w.failed h _ _) fun _ h => ⟨w.before h, fun derived => ?_⟩
  have hverify := w.verify (.verifyAndDerive password) derived rfl h
  rcases derived with _ | e | key
  · exact w.failed hverify _ _
  · exact w.failed hverify _ _
  · exact w.tried hverify fun h => ⟨w.before h, fun _ => w.stageAndUnlock (w.success () h) _⟩

theorem hardware (password : String) (h : J hardwareUnlockLimiterId .outside q) :
    (unlockHardware password).Keeps note I (fun _ => F) q := by
  refine w.step h rfl fun _ h => ?_
  split
  · exact w.failed h _ _
  refine w.asked h (fun _ h => w.failed h _ _) fun _ h => w.step h rfl fun promptId h => ⟨w.before h, fun unsealed => ?_⟩
  have hverify := w.verify (.unlockPrompt promptId (some password)) unsealed rfl h
  rcases unsealed with _ | e | key
  · exact w.failed hverify _ _
  · exact ⟨w.before hverify, fun _ => w.failed (w.failure_free () hverify) _ _⟩
  · exact w.tried hverify fun h => w.step h rfl fun _ h => ⟨w.before h, fun _ => w.unlocked (w.success () h) _⟩

theorem launchParanoid (password : Bytes) (h : J k p q) : (firstLaunchParanoid password).Keeps note I (fun _ => F) q := by
  refine w.step h rfl fun _ h => w.step h rfl fun enabled h => ?_
  rcases enabled with _ | e | bytes
  · exact w.failed h _ _
  · exact w.failed h _ _
  · simp only [bind_done]
    split
    · exact w.failed h _ _
    · exact w.stageAndUnlock h _

theorem launchKeychain (h : J k p q) : firstLaunchKeychain.Keeps note I (fun _ => F) q := by
  refine w.step h rfl fun _ h => w.step h rfl fun key h => w.step h rfl fun written h => ?_
  rcases written with e | ⟨⟩
  · exact w.failed h _ _
  · exact w.stageAndUnlock h _

theorem launchKeychainWithPassword (password : Bytes) (h : J k p q) :
    (firstLaunchKeychainWithPassword password).Keeps note I (fun _ => F) q := by
  refine w.step h rfl fun _ h => w.step h rfl fun gate h => ?_
  rcases gate with e | ⟨⟩
  · exact w.failed h _ _
  · refine w.step h rfl fun key h => w.step h rfl fun written h => ?_
    rcases written with e | ⟨⟩
    · exact w.step h rfl fun _ h => w.failed h _ _
    · exact w.stageAndUnlock h _

theorem launchHardware (pin : Option String) (h : J k p q) : (firstLaunchHardware pin).Keeps note I (fun _ => F) q := by
  refine w.step h rfl fun _ h => w.step h rfl fun key h => w.step h rfl fun promptId h => w.step h rfl fun _ h => ?_
  have hpin : ∀ q, J k p q → (stagePin promptId pin).Keeps note I (fun _ => J k p) q := by
    intro q h
    rcases pin with _ | pin
    · exact h
    · exact w.step h rfl fun _ h => h
  have hseal : ∀ pinSecretId q, J k p q → (sealKey key promptId pinSecretId).Keeps note I (fun _ => F) q := by
    intro pinSecretId q h
    refine w.step h rfl fun sealed h => ?_
    rcases sealed with _ | e | ⟨⟩
    · exact w.failed h _ _
    · exact w.failed h _ _
    · exact w.stageAndUnlock h _
  change Keeps _ _ _ ((stagePin promptId pin).bind _) _
  refine (hpin _ h).bind fun pinSecretId q h => (hseal pinSecretId q h).bind fun outcome q hF => ⟨w.held hF, fun r => ?_⟩
  have hdropped := w.dropped (sealDbKeySecretId promptId) r hF
  rcases pinSecretId with _ | id
  · exact hdropped
  · exact ⟨w.held hdropped, fun r => w.dropped id r hdropped⟩

theorem commitFromSecret (secretId : String) (h : J k p q) :
    (commitBiometricUnlockFromSecret tier secretId).Keeps note I (fun _ => F) q := by
  refine w.step h rfl fun found h => ?_
  rcases found with _ | _
  · exact w.after h
  have hpromote : ∀ q, J k p q → (promoteSecret secretId).Keeps note I (fun _ => J k p) q := by
    intro q h
    unfold promoteSecret
    split
    · exact h
    · exact w.step h rfl fun _ h => h
  change Keeps _ _ _ ((promoteSecret secretId).bind _) _
  refine (hpromote _ h).bind fun promoted q h => ?_
  rcases promoted with _ | _
  · exact w.after h
  · exact w.step h rfl fun _ h => w.unlocked h _

theorem program (h : ∀ k, J k .outside q) (call : Call) : call.program.Keeps note I (fun _ => F) q := by
  have hcall : ∀ {α : Type} {p : Orchestrator α}, p.Keeps note I (fun _ => F) q → p.call.Keeps note I (fun _ => F) q :=
    fun hp => hp.bind fun _ _ hF => hF
  cases call with
  | unlockPlaintext => exact w.commit (h "") .plaintext []
  | firstLaunchPlaintext => exact w.commit (h "") .plaintext []
  | commitBiometricUnlock tier bytes => exact w.commit (h "") tier bytes
  | unlockKeychain => exact hcall (w.step (h "") rfl fun _ h => w.readKeychainKey h _)
  | unlockKeychainWithPassword password => exact hcall (w.keychainWithPassword password (h _))
  | unlockParanoid password => exact hcall (w.paranoid password (h _))
  | unlockHardware password => exact hcall (w.hardware password (h _))
  | firstLaunchParanoid password => exact hcall (w.launchParanoid password (h ""))
  | firstLaunchKeychain => exact hcall (w.launchKeychain (h ""))
  | firstLaunchKeychainWithPassword password => exact hcall (w.launchKeychainWithPassword password (h ""))
  | firstLaunchHardware pin => exact hcall (w.launchHardware pin (h ""))
  | commitBiometricUnlockFromSecret tier secretId => exact hcall (w.commitFromSecret secretId (h ""))

end Course

end LetsFlutSsh.Security.Unlock
