import LetsFlutSsh.Db.Schema
import LetsFlutSsh.Lib.Calls
import LetsFlutSsh.Ssh.EcdsaDer
import LetsFlutSsh.Tpm.TcgPem

/-!
# SSH agent: the devices that sign

* `DeviceOp` : what a signer asks of a token, the TPM, the Secure Enclave, the Windows key store or a security key;
* `signWithPkcs11`, `tpmSshSign`, `signForSsh`, `appleSeSign`, `signSkBlobOnly` : the signers; what is hashed before a
  device sees it, and what the device is told about it.

A device signs the digest that it is given. Its errors are texts.
-/

namespace LetsFlutSsh.SshAgent
open Lib Ssh Tpm

inductive Platform where
  | linux
  | macos
  | windows

inductive HashAlg where
  | sha256
  | sha384
  | sha512
deriving DecidableEq

/-- What the build gives: the platform with the width of its integers, SHA-2, and how `{:?}` prints a text. -/
structure Host where
  platform : Platform
  usize : Usize
  digest : HashAlg → Bytes → Bytes
  debug : String → String

/-- A row of `ssh_keys` with the columns that the devices need. -/
structure HardwareRow extends SshKeyRow where
  pkcs11ModulePath : Option String
  enclaveTag : Option Bytes
  helloCredentialName : Option String
  tpmBlob : Option Bytes
  tpmProvider : Option String
  tpmPinRequired : Bool
  cngKeyName : Option String

/-! ## Operations -/

/-- `CKA_KEY_TYPE`. -/
inductive KeyType where
  | rsa
  | ec
  | ecEdwards
  | other (ckk : Nat)

/-- The mechanisms of `C_Sign` in use: `CKM_EDDSA` without a hash, `CKM_ECDSA`, `CKM_RSA_PKCS`. -/
inductive Mechanism where
  | eddsaPure
  | ecdsa
  | rsaPkcs

inductive Pkcs11Error where
  | initFailed (s : String)
  | tokenAbsent
  | tokenUnplugged (s : String)
  | wrongPin (remainingTries : Option Nat)
  | pinLocked
  | pinPadCancelled
  | timeout
  | signRefused (s : String)
  | unsupportedKeyType (s : String)
  | unsupportedCryptokiVersion (s : String)
  | other (s : String)

def Pkcs11Error.display : Pkcs11Error → String
  | .initFailed s => "init: " ++ s
  | .tokenAbsent => "no token present in any reader"
  | .tokenUnplugged s => "unplugged: " ++ s
  | .wrongPin (some n) => "wrong pin: " ++ toString n ++ " tries remaining"
  | .wrongPin none => "wrong pin: token did not report counter"
  | .pinLocked => "pin locked: token user PIN is locked"
  | .pinPadCancelled => "cancelled: pin-pad cancel"
  | .timeout => "timeout: pin-pad / sign timeout"
  | .signRefused s => "sign refused: " ++ s
  | .unsupportedKeyType s => "unsupported key type: " ++ s
  | .unsupportedCryptokiVersion s => "unsupported cryptoki version: " ++ s
  | .other s => s

/-- `TpmSshStorage`, with the private part as the TPM reads it. -/
inductive TpmSshStorage where
  /-- The fields are `private` and `public`. -/
  | blob (privkey pubkey : Bytes)
  | persistentHandle (handle : UInt32)

/-- `SignatureScheme`, with the hash that it names. -/
inductive SignatureScheme where
  | ecDsa (hashScheme : HashAlg)
  | rsaSsa (hashScheme : HashAlg)

/-- The public area of a TPM object, as far as the signer looks at it. -/
inductive PublicArea where
  | ecc
  | rsa
  | other

/-- `Signature` of `tss-esapi`. -/
inductive TpmSignature where
  | ecDsa (r s : Bytes)
  | rsaSsa (signature : Bytes)
  | other

/-- `SkAssertion`, without the user handle. -/
structure SkAssertion where
  signature : Bytes
  authenticatorData : Bytes

/-- Modules, slots, sessions and keys are numbers. -/
inductive DeviceOp where
  /-- The store of secrets of the app. -/
  | getSecret (id : String)
  | loadModule (path : String)
  | getSlotsWithToken (module : Nat)
  /-- The serial number in the answer of `get_token_info`. -/
  | tokenSerial (module slot : Nat)
  /-- `with_session`: the warm session, or a new one with its login. -/
  | withSession (module slot : Nat) (pin : Option String)
  /-- `find_objects` for private keys with this `CKA_ID`. -/
  | findPrivateKeys (session : Nat) (ckaId : Bytes)
  /-- The key types in the answer of `get_attributes`. -/
  | keyTypes (session key : Nat)
  /-- `C_Sign`. -/
  | ckSign (session key : Nat) (mechanism : Mechanism) (input : Bytes)
  /-- `fido2::get_assertion`; the challenge is the hash of what is to be signed. -/
  | getAssertion (credentialId : Bytes) (application : String) (challenge : Bytes) (pin : Option String)
  /-- `load_private_key`. -/
  | loadPrivateKey (applicationTag : Bytes)
  /-- `SecKeyCreateSignature` with the algorithm that hashes the message itself. -/
  | secKeySign (key : Nat) (messageHash : HashAlg) (message : Bytes)
  /-- `open_provider` and `open_existing_key`. -/
  | openKey (name : String)
  /-- `NCryptSignHash`; the padding of RSA names the hash. -/
  | signHash (key : Nat) (padding : Option HashAlg) (hash : Bytes)
  /-- `PublicBuffer::unmarshall` and `Public::try_from`. -/
  | unmarshallPublic (pubkey : Bytes)
  /-- `open_context`, and the PIN as an `Auth`. -/
  | openContext (auth : Option Bytes)
  /-- The session with the TPM: the key is loaded or found, and `TPM2_Sign` signs. -/
  | tpm2Sign (storage : TpmSshStorage) (auth : Option Bytes) (digest : Bytes) (scheme : SignatureScheme)

/-- A signature of the TPM comes with what `{:?}` prints of it. -/
abbrev DeviceOp.Resp : DeviceOp → Type
  | .getSecret _ => Option Bytes
  | .loadModule _ => Except Pkcs11Error Nat
  | .getSlotsWithToken _ => Except String (List Nat)
  | .tokenSerial _ _ => Option String
  | .withSession _ _ _ => Except Pkcs11Error Nat
  | .findPrivateKeys _ _ => Except Pkcs11Error (List Nat)
  | .keyTypes _ _ => Except Pkcs11Error (List KeyType)
  | .ckSign _ _ _ _ => Except Pkcs11Error Bytes
  | .getAssertion _ _ _ _ => Except String SkAssertion
  | .loadPrivateKey _ => Except String (Option Nat)
  | .secKeySign _ _ _ => Except String Bytes
  | .openKey _ => Except String Nat
  | .signHash _ _ _ => Except String Bytes
  | .unmarshallPublic _ => Except String PublicArea
  | .openContext _ => Except String Unit
  | .tpm2Sign _ _ _ _ => Except String (TpmSignature × String)

abbrev Device (α : Type) := Prog DeviceOp DeviceOp.Resp α

/-- What `ssh::wire` and the TPM's file format stop with; a panic ends the task. -/
def stopText : Stop → String
  | .auth text => "auth error: " ++ text
  | .panic => "task panicked"

def wire (r : Except Stop Bytes) : Except String Bytes := r.mapError stopText

variable (host : Host)

def sha256 (data : Bytes) : Bytes := host.digest .sha256 data
def sha384 (data : Bytes) : Bytes := host.digest .sha384 data
def sha512 (data : Bytes) : Bytes := host.digest .sha512 data

/-! ## PKCS#11 -/

def mapSignErr : Pkcs11Error → Pkcs11Error
  | .other s => .signRefused s
  | e => e

def signEd25519 (session key : Nat) (toSign : Bytes) : Device (Except Pkcs11Error Bytes) :=
  ((Prog.perform (DeviceOp.ckSign session key .eddsaPure toSign)).mapError mapSignErr).andThen fun raw => .done (
    if raw.length ≠ 64 then
      .error (.signRefused ("ed25519 token returned " ++ toString raw.length ++ " bytes; expected 64"))
    else .ok (pushSshString [] raw))

/-- `sign_ecdsa`, after the digest. -/
def signEcdsaDigest (session key : Nat) (digest : Bytes) : Device (Except Pkcs11Error Bytes) :=
  ((Prog.perform (DeviceOp.ckSign session key .ecdsa digest)).mapError mapSignErr).andThen fun raw => .done (
    if raw = [] ∨ raw.length % 2 ≠ 0 then
      .error (.signRefused ("ecdsa token returned odd-length raw signature (" ++ toString raw.length ++ " bytes)"))
    else
      let half := raw.length / 2
      .ok (pushSshMpint (pushSshMpint [] (raw.take half)) (raw.drop half)))

def signEcdsa (session key : Nat) (algorithm : String) (toSign : Bytes) : Device (Except Pkcs11Error Bytes) :=
  if algorithm = "ecdsa-sha2-nistp256" then signEcdsaDigest session key (sha256 host toSign)
  else if algorithm = "ecdsa-sha2-nistp384" then signEcdsaDigest session key (sha384 host toSign)
  else if algorithm = "ecdsa-sha2-nistp521" then signEcdsaDigest session key (sha512 host toSign)
  else .done (.error (.signRefused ("ecdsa algorithm " ++ host.debug algorithm ++ " not recognised")))

/-- The head of a `DigestInfo` of SHA-256. -/
def digestInfoSha256 : Bytes :=
  [0x30, 0x31, 0x30, 0x0d, 0x06, 0x09, 0x60, 0x86, 0x48, 0x01, 0x65, 0x03, 0x04, 0x02, 0x01, 0x05, 0x00, 0x04, 0x20]

/-- The head of a `DigestInfo` of SHA-512. -/
def digestInfoSha512 : Bytes :=
  [0x30, 0x51, 0x30, 0x0d, 0x06, 0x09, 0x60, 0x86, 0x48, 0x01, 0x65, 0x03, 0x04, 0x02, 0x03, 0x05, 0x00, 0x04, 0x40]

def rsaDigestinfoSha256 (input : Bytes) : Bytes := digestInfoSha256 ++ sha256 host input
def rsaDigestinfoSha512 (input : Bytes) : Bytes := digestInfoSha512 ++ sha512 host input

/-- `sign_rsa`, after the `DigestInfo`. -/
def signRsaDigestinfo (session key : Nat) (digestInfo : Bytes) : Device (Except Pkcs11Error Bytes) :=
  ((Prog.perform (DeviceOp.ckSign session key .rsaPkcs digestInfo)).mapError mapSignErr).andThen fun raw =>
    .done (.ok (pushSshString [] raw))

def signRsa (session key : Nat) (algorithm : String) (toSign : Bytes) : Device (Except Pkcs11Error Bytes) :=
  if algorithm = "rsa-sha2-256" then signRsaDigestinfo session key (rsaDigestinfoSha256 host toSign)
  else if algorithm = "rsa-sha2-512" then signRsaDigestinfo session key (rsaDigestinfoSha512 host toSign)
  else .done (.error (.signRefused
    ("rsa algorithm " ++ host.debug algorithm ++ " not recognised (old ssh-rsa SHA-1 is refused)")))

/-- `sign_with_pkcs11`: what kind of key the token has decides, not the name of the algorithm. -/
def signWithPkcs11 (module slot : Nat) (pin : Option String) (ckaId : Bytes) (algorithm : String) (toSign : Bytes) :
    Device (Except Pkcs11Error Bytes) :=
  (Prog.perform (DeviceOp.withSession module slot pin)).andThen fun session =>
  (Prog.perform (DeviceOp.findPrivateKeys session ckaId)).andThen fun handles =>
  match handles.head? with
  | none => .done (.error (.tokenUnplugged "no private key with matching CKA_ID"))
  | some key =>
    (Prog.perform (DeviceOp.keyTypes session key)).andThen fun types =>
    match types.getLast? with
    | none => .done (.error (.other "private key missing KeyType"))
    | some .ecEdwards => signEd25519 session key toSign
    | some .ec => signEcdsa host session key algorithm toSign
    | some .rsa => signRsa host session key algorithm toSign
    | some (.other ckk) =>
      .done (.error (.unsupportedKeyType ("CKK " ++ toString ckk ++ " cannot be signed for SSH")))

/-! ## TPM 2.0 on Linux -/

inductive TpmSshAlgorithm where
  | ecdsaP256
  | rsa2048
deriving DecidableEq

/-- `{:?}`. -/
def TpmSshAlgorithm.debug : TpmSshAlgorithm → String
  | .ecdsaP256 => "EcdsaP256"
  | .rsa2048 => "Rsa2048"

/-- `TpmError::Crypto`, printed. -/
def crypto (s : String) : String := "crypto: " ++ s

def TpmSshAlgorithm.fromKeyType (keyType : String) : Except String TpmSshAlgorithm :=
  if keyType = "ecdsa-p256" ∨ keyType = "ecdsa-sha2-nistp256" then .ok .ecdsaP256
  else if keyType = "rsa" ∨ keyType = "ssh-rsa" ∨ keyType = "rsa-2048" then .ok .rsa2048
  else .error (crypto ("unknown key_type for TPM SSH key: " ++ keyType))

/-- `TpmSshKey`, without the public key. -/
structure TpmSshKey where
  algorithm : TpmSshAlgorithm
  storage : TpmSshStorage

/-- What `tpm_tcg_pem` stops with. -/
def haltText : Halt → String
  | .crypto s => crypto s
  | .panic => "task panicked"

def importBlob (blob : Bytes) : Device (Except String TpmSshKey) :=
  match Tpm.decode blob with
  | .error e => .done (.error (crypto ("tpm-ssh import: " ++ haltText e)))
  | .ok envelope =>
    (Prog.perform (DeviceOp.unmarshallPublic envelope.pubkey)).andThen fun area =>
    match area with
    | .ecc => .done (.ok ⟨.ecdsaP256, .blob envelope.privkey envelope.pubkey⟩)
    | .rsa => .done (.ok ⟨.rsa2048, .blob envelope.privkey envelope.pubkey⟩)
    | .other => .done (.error (crypto "tpm-ssh import: unsupported public algorithm"))

def unmarshallTpm2b (buf : Bytes) : Option Bytes :=
  if buf.length < 2 then none
  else if 2 + bigEndian (buf.take 2) > buf.length then none
  else some ((buf.drop 2).take (bigEndian (buf.take 2)))

def padLeftTo32 (buf : Bytes) : Bytes := List.replicate (32 - min buf.length 32) 0 ++ buf.take (min buf.length 32)

inductive TpmSshSignature where
  | ecdsaP256RawConcat (bytes : Bytes)
  | rsa2048 (bytes : Bytes)

def extractSignatureBytes (sig : TpmSignature) (printed : String) (alg : TpmSshAlgorithm) : Except String TpmSshSignature :=
  match sig, alg with
  | .ecDsa r s, .ecdsaP256 => .ok (.ecdsaP256RawConcat (padLeftTo32 r ++ padLeftTo32 s))
  | .rsaSsa signature, .rsa2048 => .ok (.rsa2048 signature)
  | _, _ => .error (crypto ("tpm-ssh sign: signature variant mismatch (got " ++ printed ++ " for " ++ alg.debug ++ ")"))

def tpmDigest (alg : TpmSshAlgorithm) (data : Bytes) : Bytes :=
  match alg with
  | .ecdsaP256 | .rsa2048 => sha256 host data

def tpmScheme : TpmSshAlgorithm → SignatureScheme
  | .ecdsaP256 => .ecDsa .sha256
  | .rsa2048 => .rsaSsa .sha256

def signPersistentMode (alg : TpmSshAlgorithm) (handle : UInt32) (auth : Option Bytes) (data : Bytes) :
    Device (Except String TpmSshSignature) :=
  (Prog.perform (DeviceOp.tpm2Sign (.persistentHandle handle) auth (tpmDigest host alg data) (tpmScheme alg))).andThen
    fun sig => .done (extractSignatureBytes sig.1 sig.2 alg)

def signBlobMode (alg : TpmSshAlgorithm) (privkey pubkey : Bytes) (auth : Option Bytes) (data : Bytes) :
    Device (Except String TpmSshSignature) :=
  (Prog.perform (DeviceOp.unmarshallPublic pubkey)).andThen fun _ =>
  match unmarshallTpm2b privkey with
  | none => .done (.error (crypto "tpm-ssh sign: malformed TPM2B_PRIVATE"))
  | some inner =>
    (Prog.perform (DeviceOp.tpm2Sign (.blob inner pubkey) auth (tpmDigest host alg data) (tpmScheme alg))).andThen
      fun sig => .done (extractSignatureBytes sig.1 sig.2 alg)

/-- `tpm_ssh::sign`. -/
def tpmSshSign (key : TpmSshKey) (auth : Option Bytes) (data : Bytes) : Device (Except String TpmSshSignature) :=
  (Prog.perform (DeviceOp.openContext auth)).andThen fun _ =>
  match key.storage with
  | .blob privkey pubkey => signBlobMode host key.algorithm privkey pubkey auth data
  | .persistentHandle handle => signPersistentMode host key.algorithm handle auth data

/-! ## The Windows key store -/

inductive SshKeyAlgo where
  | ecdsaP256
  | ecdsaP384
  | rsa2048

def backend (s : String) : String := "hello: " ++ s

def SshKeyAlgo.fromKeyType (keyType : String) : Except String SshKeyAlgo :=
  if keyType = "ecdsa-p256" ∨ keyType = "ecdsa-sha2-nistp256" then .ok .ecdsaP256
  else if keyType = "ecdsa-p384" ∨ keyType = "ecdsa-sha2-nistp384" then .ok .ecdsaP384
  else if keyType = "rsa" ∨ keyType = "ssh-rsa" ∨ keyType = "rsa-2048" then .ok .rsa2048
  else .error (backend ("unknown key_type for Hello row: " ++ keyType))

inductive HelloSignature where
  | ecdsaRaw (bytes : Bytes)
  | rsaPkcs1V15 (bytes : Bytes)

def signHashEcdsa (key : Nat) (hash : Bytes) : Device (Except String HelloSignature) :=
  (Prog.perform (DeviceOp.signHash key none hash)).andThen fun raw => .done (.ok (.ecdsaRaw raw))

def signHashRsaPkcs1 (key : Nat) (hash : Bytes) (padAlg : HashAlg) : Device (Except String HelloSignature) :=
  (Prog.perform (DeviceOp.signHash key (some padAlg) hash)).andThen fun sig => .done (.ok (.rsaPkcs1V15 sig))

/-- The two signers of the key store; `expected` begins the refusal of another name. -/
def signWithKeyStore (expected credentialName : String) (algo : SshKeyAlgo) (data : Bytes) (algorithm : String) :
    Device (Except String HelloSignature) :=
  (Prog.perform (DeviceOp.openKey credentialName)).andThen fun key =>
  match algo with
  | .ecdsaP256 => signHashEcdsa key (sha256 host data)
  | .ecdsaP384 => signHashEcdsa key (sha384 host data)
  | .rsa2048 =>
    if algorithm = "rsa-sha2-256" then signHashRsaPkcs1 key (sha256 host data) .sha256
    else if algorithm = "rsa-sha2-512" then signHashRsaPkcs1 key (sha512 host data) .sha512
    else .done (.error (backend (expected ++ " expected rsa-sha2-256/512, got " ++ algorithm)))

def signForSsh (credentialName : String) (algo : SshKeyAlgo) (data : Bytes) (algorithm : String) :
    Device (Except String HelloSignature) :=
  signWithKeyStore host "rsa-pkcs1v15 sign" credentialName algo data algorithm

def signForSshSilent (credentialName : String) (algo : SshKeyAlgo) (data : Bytes) (algorithm : String) :
    Device (Except String HelloSignature) :=
  signWithKeyStore host "rsa-pkcs1v15 silent-tpm sign" credentialName algo data algorithm

/-! ## The Secure Enclave -/

/-- `apple_se_ssh::sign`; the platform hashes the message. -/
def appleSeSign (applicationTag data : Bytes) : Device (Except String Bytes) :=
  (Prog.perform (DeviceOp.loadPrivateKey applicationTag)).andThen fun key =>
  match key with
  | none => .done (.error "enclave: key not found")
  | some key => .perform (DeviceOp.secKeySign key .sha256 data)

/-! ## Security keys -/

/-- The two algorithms that `ssh_algorithm_from_key_type` gives. -/
inductive SkAlgorithm where
  | skEd25519
  | skEcdsaSha2NistP256

def SkAssertion.sshFlags (a : SkAssertion) : UInt8 := a.authenticatorData[32]?.getD 0

def SkAssertion.sshCounter (a : SkAssertion) : Nat :=
  if 37 ≤ a.authenticatorData.length then bigEndian ((a.authenticatorData.drop 33).take 4) else 0

def encodeSkSignature (algorithm : SkAlgorithm) (rawSignature : Bytes) (flags : UInt8) (counter : Nat) :
    Except String Bytes :=
  match algorithm with
  | .skEd25519 =>
    if rawSignature.length ≠ 64 then
      .error ("auth error: fido2 signer: sk-ed25519 raw signature must be 64 bytes, got " ++ toString rawSignature.length)
    else .ok (rawSignature ++ flags :: beU32 counter)
  | .skEcdsaSha2NistP256 => (wire (ecdsaDerToSshMpint host.usize rawSignature)).map fun rs => rs ++ flags :: beU32 counter

def signSkBlobOnly (algorithm : SkAlgorithm) (credentialId : Bytes) (application : String) (pin : Option String)
    (toSign : Bytes) : Device (Except String Bytes) :=
  (Prog.perform (DeviceOp.getAssertion credentialId application (sha256 host toSign) pin)).andThen fun assertion =>
    .done (encodeSkSignature host algorithm assertion.signature assertion.sshFlags assertion.sshCounter)

end LetsFlutSsh.SshAgent
