import LetsFlutSsh.Db.Schema
import LetsFlutSsh.Lib.Bytes
import LetsFlutSsh.Lib.Threads
import LetsFlutSsh.SshAgent.PerKeyConfirm

/-!
# SSH agent: what a request does, and the backends

* `Op` : what a request reaches outside of itself, one access each: the key table, the certificates, the parking lot of
  prompts, the signers;
* `BackendKind`, `dispatchSign` : the dispatcher of `ssh_agent/backends.rs`; what a signer does with the token, the TPM or
  the platform is one operation.
-/

namespace LetsFlutSsh.SshAgent
open Lib

inductive BackendKind where
  | software
  | fido2
  | pkcs11
  | enclave
  | hello
  | tpm
  | keystore
deriving DecidableEq

def BackendKind.fromRow (row : SshKeyRow) : BackendKind :=
  match row.backend with
  | .fido2 => .fido2
  | .pkcs11 => .pkcs11
  | .enclave => .enclave
  | .hello => .hello
  | .tpm => .tpm
  | .keystore => .keystore
  | .software => .software

structure SignOutput where
  algorithm : String
  signature : Bytes

inductive BackendError where
  | signer (detail : String)
  | softwareKeyRefused
  | fidoUvNotSupportedViaAgent (keyLabel fingerprint : String)

/-- A signer, with the flags of the request where it reads them. -/
inductive Signer where
  | fido2
  | pkcs11 (flags : UInt32)
  | enclave
  | hello (flags : UInt32)
  | tpm (flags : UInt32)

inductive Op where
  /-- `ssh_keys::list_all`. -/
  | listRows
  /-- `ssh_key_certificates::get`. -/
  | lookupCert (keyId : String)
  | enqueue (keyId keyLabel : String) (requester : Option String)
  | publishPrompt (prompt : PendingPrompt)
  /-- The receiving half of a prompt, under the time-out. -/
  | awaitDecision (rx : Nat)
  /-- `ssh_keys::get` and `ssh_keys::upsert` under one hold of the connection. -/
  | persistPolicy (keyId : String) (policy : AgentPolicy)
  | sign (signer : Signer) (row : SshKeyRow) (data : Bytes)

/-- What an operation answers; an error of the database is its text. -/
abbrev Op.Resp : Op → Type
  | .listRows => Except String (List SshKeyRow)
  | .lookupCert _ => Except String (Option Bytes)
  | .enqueue _ _ _ => PendingPrompt × Nat
  | .publishPrompt _ => Unit
  | .awaitDecision _ => Received
  | .persistPolicy _ _ => Except String Unit
  | .sign _ _ _ => Except BackendError SignOutput

abbrev Handler (α : Type) := Prog Op Op.Resp α

def Signer.invoke (signer : Signer) (row : SshKeyRow) (data : Bytes) : Handler (Except BackendError SignOutput) :=
  .perform (Op.sign signer row data)

/-- `fingerprint_for_row`, with what `ssh-key` and SHA-256 make of the stored text. -/
def fingerprintForRow (formatFingerprint : String → Option String) (row : SshKeyRow) : String :=
  (formatFingerprint row.publicKey).getD "unknown"

def uvNotSupportedError (formatFingerprint : String → Option String) (row : SshKeyRow) : BackendError :=
  .fidoUvNotSupportedViaAgent row.label (fingerprintForRow formatFingerprint row)

/-- `fido2_sign`: a credential that wants a PIN is refused, since the agent cannot ask for one. -/
def fido2Sign (formatFingerprint : String → Option String) (row : SshKeyRow) (data : Bytes) :
    Handler (Except BackendError SignOutput) :=
  if row.hasUserVerification then .done (.error (uvNotSupportedError formatFingerprint row))
  else Signer.fido2.invoke row data

def keystoreSign : Handler (Except BackendError SignOutput) :=
  .done (.error (.signer "keystore: Android Hardware Keystore is reachable only on Android in-app sessions"))

def dispatchSignByKind (formatFingerprint : String → Option String) (kind : BackendKind) (row : SshKeyRow) (data : Bytes)
    (flags : UInt32) : Handler (Except BackendError SignOutput) :=
  match kind with
  | .software => .done (.error .softwareKeyRefused)
  | .fido2 => fido2Sign formatFingerprint row data
  | .pkcs11 => (Signer.pkcs11 flags).invoke row data
  | .enclave => Signer.enclave.invoke row data
  | .hello => (Signer.hello flags).invoke row data
  | .tpm => (Signer.tpm flags).invoke row data
  | .keystore => keystoreSign

def dispatchSign (formatFingerprint : String → Option String) (row : SshKeyRow) (data : Bytes) (flags : UInt32) :
    Handler (Except BackendError SignOutput) :=
  dispatchSignByKind formatFingerprint (.fromRow row) row data flags

theorem dispatchSign_cases (formatFingerprint : String → Option String) (row : SshKeyRow) (data : Bytes) (flags : UInt32) :
    (∃ e, dispatchSign formatFingerprint row data flags = .done (.error e)) ∨ BackendKind.fromRow row ≠ .software ∧
        ∃ signer : Signer, dispatchSign formatFingerprint row data flags = signer.invoke row data := by
  unfold dispatchSign
  cases BackendKind.fromRow row with
  | software => exact Or.inl ⟨_, rfl⟩
  | fido2 =>
    simp only [dispatchSignByKind, fido2Sign]
    split
    · exact Or.inl ⟨_, rfl⟩
    · exact Or.inr ⟨nofun, _, rfl⟩
  | pkcs11 => exact Or.inr ⟨nofun, _, rfl⟩
  | enclave => exact Or.inr ⟨nofun, _, rfl⟩
  | hello => exact Or.inr ⟨nofun, _, rfl⟩
  | tpm => exact Or.inr ⟨nofun, _, rfl⟩
  | keystore => exact Or.inl ⟨_, rfl⟩

end LetsFlutSsh.SshAgent
