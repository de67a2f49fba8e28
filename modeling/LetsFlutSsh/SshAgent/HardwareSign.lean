import LetsFlutSsh.Lib.Text
import LetsFlutSsh.SshAgent.Backends
import LetsFlutSsh.SshAgent.Devices

/-!
# SSH agent: what the backends do with the devices

* `sshAlgorithmForTpm`, `sshAlgorithmForHello`, `sshAlgorithmForPkcs11` : the name of the algorithm in the answer;
* `pkcs11Sign`, `enclaveSign`, `helloSign`, `tpmSign`, `fido2SignDevice` : the signers of `ssh_agent/backends.rs`;
* `hardwareSign` : `dispatch_sign` with its signers.
-/

namespace LetsFlutSsh.SshAgent
open Lib Ssh

def wantsSha256 (flags : UInt32) : Prop := flags &&& 0x02 ≠ 0
def wantsSha512 (flags : UInt32) : Prop := flags &&& 0x04 ≠ 0

instance (flags : UInt32) : Decidable (wantsSha256 flags) := inferInstanceAs (Decidable (_ ≠ _))

instance (flags : UInt32) : Decidable (wantsSha512 flags) := inferInstanceAs (Decidable (_ ≠ _))

def sshAlgorithmForTpm (keyType : String) (flags : UInt32) : String :=
  if keyType = "rsa" ∨ keyType = "ssh-rsa" ∨ keyType = "rsa-2048" then
    if wantsSha512 flags then "rsa-sha2-512" else "rsa-sha2-256"
  else if keyType = "ecdsa-p256" ∨ keyType = "ecdsa-sha2-nistp256" then "ecdsa-sha2-nistp256"
  else keyType

def sshAlgorithmForHello (keyType : String) (flags : UInt32) : String :=
  if keyType = "rsa" ∨ keyType = "ssh-rsa" ∨ keyType = "rsa-2048" then
    if wantsSha256 flags then "rsa-sha2-256" else "rsa-sha2-512"
  else if keyType = "ecdsa-p256" ∨ keyType = "ecdsa-sha2-nistp256" then "ecdsa-sha2-nistp256"
  else if keyType = "ecdsa-p384" ∨ keyType = "ecdsa-sha2-nistp384" then "ecdsa-sha2-nistp384"
  else keyType

def sshAlgorithmForPkcs11 (keyType : String) (flags : UInt32) : String :=
  if keyType = "rsa" ∨ keyType = "ssh-rsa" then
    if wantsSha256 flags then "rsa-sha2-256" else "rsa-sha2-512"
  else if keyType = "ecdsa-p256" ∨ keyType = "ecdsa-sha2-nistp256" then "ecdsa-sha2-nistp256"
  else if keyType = "ecdsa-p384" ∨ keyType = "ecdsa-sha2-nistp384" then "ecdsa-sha2-nistp384"
  else if keyType = "ecdsa-p521" ∨ keyType = "ecdsa-sha2-nistp521" then "ecdsa-sha2-nistp521"
  else if keyType = "ed25519" ∨ keyType = "ssh-ed25519" then "ssh-ed25519"
  else keyType

/-! ## Errors -/

def pkcs11Error (s : String) : BackendError := .signer ("pkcs11: " ++ s)

def enclaveError (s : String) : BackendError := .signer ("enclave: " ++ s)

def helloError (s : String) : BackendError := .signer ("hello: " ++ s)

def tpmError (s : String) : BackendError := .signer ("tpm-ssh: " ++ s)

def fido2Error (s : String) : BackendError := .signer ("fido2: " ++ s)

/-- `ok_or_else` on a column of the row. -/
def column {α : Type} (value : Option α) (e : BackendError) : Device (Except BackendError α) :=
  match value with
  | none => .done (.error e)
  | some a => .done (.ok a)

variable (host : Host)

/-! ## PKCS#11 -/

/-- The loop over the slots: the first token with this serial number. -/
def matchSlot (module : Nat) (tokenSerial : Option String) : List Nat → Device (Option Nat)
  | [] => .done none
  | slot :: slots =>
    (Prog.perform (DeviceOp.tokenSerial module slot)).bind fun serial =>
    if serial.any (fun serial => tokenSerial = some (String.ofList (trim serial.toList))) then .done (some slot)
    else matchSlot module tokenSerial slots

def pinText : Option Bytes → Except BackendError (Option String)
  | none => .ok none
  | some bytes =>
    match fromUtf8 bytes with
    | none => .error (pkcs11Error "pin: cached entry not utf-8")
    | some pin => .ok (some pin)

def pkcs11Sign (row : HardwareRow) (data : Bytes) (flags : UInt32) : Device (Except BackendError SignOutput) :=
  (column row.pkcs11ModulePath (pkcs11Error "row missing pkcs11_module_path")).andThen fun modulePath =>
  (column row.pkcs11ObjectId (pkcs11Error "row missing pkcs11_object_id")).andThen fun objectId =>
  ((Prog.perform (DeviceOp.loadModule modulePath)).mapError fun e => pkcs11Error ("load module: " ++ e.display)).andThen
    fun module =>
  ((Prog.perform (DeviceOp.getSlotsWithToken module)).mapError fun e => pkcs11Error ("get_slots: " ++ e)).andThen
    fun slots =>
  (matchSlot module row.pkcs11TokenSerial slots).bind fun matched =>
  (column matched (pkcs11Error "unplugged: matching token not present")).andThen fun slot =>
  (Prog.perform (DeviceOp.getSecret ("pkcs11.pin." ++ row.id))).bind fun pinBytes =>
  (Prog.done (pinText pinBytes)).andThen fun pin =>
  let algorithm := sshAlgorithmForPkcs11 row.keyType flags
  ((signWithPkcs11 host module slot pin objectId algorithm data).mapError fun e => pkcs11Error e.display).andThen
    fun signature => .done (.ok ⟨algorithm, signature⟩)

/-! ## The Secure Enclave -/

def enclaveSign (row : HardwareRow) (data : Bytes) : Device (Except BackendError SignOutput) :=
  match host.platform with
  | .macos =>
    (column row.enclaveTag (enclaveError "row missing enclave_tag")).andThen fun applicationTag =>
    ((appleSeSign applicationTag data).mapError enclaveError).andThen fun der =>
    (Prog.done ((wire (ecdsaDerToSshMpint host.usize der)).mapError .signer)).andThen fun sigBlob =>
    .done (.ok ⟨"ecdsa-sha2-nistp256", sigBlob⟩)
  | _ => .done (.error (enclaveError "Apple Secure Enclave unavailable on this platform"))

/-! ## Windows Hello -/

def helloWire : HelloSignature → Except BackendError Bytes
  | .ecdsaRaw bytes => (wire (ecdsaRawConcatToSshMpint host.usize bytes)).mapError .signer
  | .rsaPkcs1V15 bytes => .ok bytes

def helloSign (row : HardwareRow) (data : Bytes) (flags : UInt32) : Device (Except BackendError SignOutput) :=
  match host.platform with
  | .windows =>
    (column row.helloCredentialName (helloError "row missing hello_credential_name")).andThen fun credentialName =>
    (Prog.done ((SshKeyAlgo.fromKeyType row.keyType).mapError fun e =>
      helloError ("unknown key_type " ++ row.keyType ++ ": " ++ e))).andThen fun algo =>
    let algorithm := sshAlgorithmForHello row.keyType flags
    ((signForSsh host credentialName algo data algorithm).mapError helloError).andThen fun raw =>
    (Prog.done (helloWire host raw)).andThen fun signature => .done (.ok ⟨algorithm, signature⟩)
  | _ => .done (.error (helloError "Windows Hello unavailable on this platform"))

/-! ## TPM 2.0 -/

def tpmAuth (keyId : String) (pinRequired : Bool) : Device (Except BackendError (Option Bytes)) :=
  if pinRequired then
    (Prog.perform (DeviceOp.getSecret ("tpm.pin." ++ keyId))).bind fun pin =>
    match pin with
    | some z => .done (.ok (some z))
    | none => .done (.error (tpmError "tpm pin required but not cached"))
  else .done (.ok none)

def tpmWire : TpmSshSignature → Except BackendError Bytes
  | .ecdsaP256RawConcat bytes => (wire (ecdsaRawConcatToSshMpint host.usize bytes)).mapError .signer
  | .rsa2048 bytes => .ok bytes

def tpmSignTssEsapi (keyId keyType : String) (pinRequired : Bool) (blob : Option Bytes) (data : Bytes) :
    Device (Except BackendError Bytes) :=
  (column blob (tpmError "tss-esapi row missing tpm_blob")).andThen fun blob =>
  ((importBlob blob).mapError fun e => tpmError ("import_blob: " ++ e)).andThen fun key =>
  (Prog.done ((TpmSshAlgorithm.fromKeyType keyType).mapError fun e => tpmError ("key_type: " ++ e))).andThen fun rowAlgo =>
  if key.algorithm ≠ rowAlgo then
    .done (.error (tpmError ("blob algorithm " ++ key.algorithm.debug ++ " does not match row key_type " ++ keyType)))
  else
    (tpmAuth keyId pinRequired).andThen fun auth =>
    ((tpmSshSign host key auth data).mapError tpmError).andThen fun sig => .done (tpmWire host sig)

def tpmSignCngSilent (keyType : String) (cngName : Option String) (data : Bytes) (algorithm : String) :
    Device (Except BackendError Bytes) :=
  (column cngName (tpmError "cng-pcp row missing cng_key_name")).andThen fun credentialName =>
  (Prog.done ((SshKeyAlgo.fromKeyType keyType).mapError fun e => tpmError ("key_type: " ++ e))).andThen fun algo =>
  ((signForSshSilent host credentialName algo data algorithm).mapError tpmError).andThen fun raw =>
  .done (helloWire host raw)

def unknownProvider (provider : String) : BackendError := tpmError ("unknown tpm_provider " ++ host.debug provider)

def tpmSign (row : HardwareRow) (data : Bytes) (flags : UInt32) : Device (Except BackendError SignOutput) :=
  let algorithm := sshAlgorithmForTpm row.keyType flags
  match host.platform with
  | .linux =>
    (column row.tpmProvider (tpmError "row missing tpm_provider")).andThen fun provider =>
    if provider = "tss-esapi" then
      (tpmSignTssEsapi host row.id row.keyType row.tpmPinRequired row.tpmBlob data).andThen fun raw =>
        .done (.ok ⟨algorithm, raw⟩)
    else .done (.error (unknownProvider host provider))
  | .windows =>
    (column row.tpmProvider (tpmError "row missing tpm_provider")).andThen fun provider =>
    if provider = "cng-pcp" then
      (tpmSignCngSilent host row.keyType row.cngKeyName data algorithm).andThen fun raw => .done (.ok ⟨algorithm, raw⟩)
    else .done (.error (unknownProvider host provider))
  | .macos => .done (.error (tpmError "TPM 2.0 SSH keys unavailable on this platform"))

/-! ## Security keys -/

def sshAlgorithmFromKeyType (keyType : String) : Except BackendError SkAlgorithm :=
  if keyType = "sk-ssh-ed25519@openssh.com" then .ok .skEd25519
  else if keyType = "sk-ecdsa-sha2-nistp256@openssh.com" then .ok .skEcdsaSha2NistP256
  else .error (fido2Error ("agent: key_type " ++ host.debug keyType ++ " not a recognised sk-* shape"))

def wireAlgorithmLabel : SkAlgorithm → String
  | .skEd25519 => "sk-ssh-ed25519@openssh.com"
  | .skEcdsaSha2NistP256 => "sk-ecdsa-sha2-nistp256@openssh.com"

/-- `fido2_sign`, for a credential that wants no PIN. -/
def fido2SignDevice (row : HardwareRow) (data : Bytes) : Device (Except BackendError SignOutput) :=
  (column row.credentialId (fido2Error "row missing credential_id")).andThen fun credentialId =>
  (column row.applicationString (fido2Error "row missing application_string")).andThen fun application =>
  (Prog.done (sshAlgorithmFromKeyType host row.keyType)).andThen fun algorithm =>
  ((signSkBlobOnly host algorithm credentialId application none data).mapError .signer).andThen fun signature =>
  .done (.ok ⟨wireAlgorithmLabel algorithm, signature⟩)

/-! ## The dispatcher -/

/-- `dispatch_sign`. -/
def hardwareSign (formatFingerprint : String → Option String) (row : HardwareRow) (data : Bytes) (flags : UInt32) :
    Device (Except BackendError SignOutput) :=
  match BackendKind.fromRow row.toSshKeyRow with
  | .software => .done (.error .softwareKeyRefused)
  | .fido2 =>
    if row.hasUserVerification then .done (.error (uvNotSupportedError formatFingerprint row.toSshKeyRow))
    else fido2SignDevice host row data
  | .pkcs11 => pkcs11Sign host row data flags
  | .enclave => enclaveSign host row data
  | .hello => helloSign host row data flags
  | .tpm => tpmSign host row data flags
  | .keystore =>
    .done (.error (.signer "keystore: Android Hardware Keystore is reachable only on Android in-app sessions"))

variable {host}

end LetsFlutSsh.SshAgent
