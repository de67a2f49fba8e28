import LetsFlutSsh.Db.Schema
import LetsFlutSsh.Lib.Prog
import LetsFlutSsh.Security.SecretStore

/-!
# Credentials of a connect attempt

* `Slot`, `Slot.id` : the ids `<slot>.<owner>` of the secret store (`Slot.id_inj`);
* `isTransient`, `isKeyed` : the ids that do not outlive an attempt, and those of them that a key names;
* `prepareAuth` : the auth reference of an attempt, with the secrets staged for it;
* `runAuthWithCredentialPrompts` : the dial, with the prompts for what is missing;
* `connectAttempt` : an attempt from its beginning to its caller's last step.
-/

namespace LetsFlutSsh.Connection
open Lib List

/-! ## Ids of secrets -/

/-- What stands before the owner in the id of a secret. -/
inductive Slot where
  | sessPassword
  | sessKey
  | sessPassphrase
  | keyPriv
  | keyCert
  | keyPassphrase
  | keyPin
  | tpmPin
  | pkcs11Pin
  | connKey
  | connPassphrase
  | connPassword
  deriving DecidableEq

namespace Slot

def text : Slot → String
  | sessPassword => "sess.password."
  | sessKey => "sess.key."
  | sessPassphrase => "sess.passphrase."
  | keyPriv => "key.priv."
  | keyCert => "key.cert."
  | keyPassphrase => "key.passphrase."
  | keyPin => "key.pin."
  | tpmPin => "tpm.pin."
  | pkcs11Pin => "pkcs11.pin."
  | connKey => "conn.key."
  | connPassphrase => "conn.passphrase."
  | connPassword => "conn.password."

def id (slot : Slot) (owner : String) : String := slot.text ++ owner

def all : List Slot :=
  [sessPassword, sessKey, sessPassphrase, keyPriv, keyCert, keyPassphrase, keyPin, tpmPin, pkcs11Pin, connKey, connPassphrase,
    connPassword]

def isKeyed : Slot → Bool
  | keyPassphrase | keyPin | tpmPin | pkcs11Pin => true
  | _ => false

def isFresh : Slot → Bool
  | connKey | connPassphrase | connPassword => true
  | _ => false

theorem mem_all (slot : Slot) : slot ∈ all := by
  cases slot <;> decide

variable {a b : Slot} {owner owner' : String}

theorem eq_of_isPrefixOf (h : a.text.toList.isPrefixOf b.text.toList = true) : a = b := by
  have hall : ∀ a ∈ all, ∀ b ∈ all, a.text.toList.isPrefixOf b.text.toList = true → a = b := by decide +kernel
  exact hall a (mem_all a) b (mem_all b) h

theorem toList_id (slot : Slot) (owner : String) : (slot.id owner).toList = slot.text.toList ++ owner.toList :=
  String.toList_append

theorem isPrefixOf_id : a.text.toList.isPrefixOf (b.id owner).toList = true ↔ a = b := by
  rw [toList_id]
  constructor
  · intro h
    rcases prefix_or_prefix_of_prefix ( isPrefixOf_iff_prefix.1 h) (prefix_append _ _) with h | h
    · exact eq_of_isPrefixOf ( isPrefixOf_iff_prefix.2 h)
    · exact (eq_of_isPrefixOf ( isPrefixOf_iff_prefix.2 h)).symm
  · rintro rfl
    exact isPrefixOf_iff_prefix.2 (prefix_append _ _)

theorem id_inj : a.id owner = b.id owner' ↔ a = b ∧ owner = owner' := by
  constructor
  · intro h
    have hslot : a = b := by
      have hbegins : a.text.toList.isPrefixOf (a.id owner).toList = true := isPrefixOf_id.2 rfl
      rw [h] at hbegins
      exact isPrefixOf_id.1 hbegins
    subst hslot
    have hlist := congrArg String.toList h
    rw [toList_id, toList_id, append_cancel_left_eq] at hlist
    exact ⟨rfl, String.toList_injective hlist⟩
  · rintro ⟨rfl, rfl⟩
    rfl

end Slot

def hasSlot (p : Slot → Bool) (id : String) : Bool :=
  Slot.all.any fun slot => p slot && slot.text.toList.isPrefixOf id.toList

theorem hasSlot_id (p : Slot → Bool) (slot : Slot) (owner : String) : hasSlot p (slot.id owner) = p slot := by
  rw [Bool.eq_iff_iff, hasSlot, any_eq_true]
  simp only [Bool.and_eq_true, Slot.isPrefixOf_id]
  constructor
  · rintro ⟨_, -, hp, rfl⟩
    exact hp
  · exact fun hp => ⟨slot, Slot.mem_all slot, hp, rfl⟩

def isKeyed (id : String) : Bool := hasSlot Slot.isKeyed id
def isTransient (id : String) : Bool := hasSlot (fun slot => slot.isKeyed || slot.isFresh) id

/-! ## What an attempt asks for -/

structure PrepareAuthInput where
  sessionId : Option String := none
  keyId : String := ""
  keyData : String := ""
  password : String := ""
  passphrase : String := ""
  pin : String := ""

structure SessionSecrets where
  password : String
  keyData : String
  passphrase : String

/-- A row of the key manager, as far as it makes an auth reference. -/
structure ManagerKey where
  publicKey : String
  keyType : String
  backend : KeyBackend := .software
  credentialId : Option Bytes := none
  applicationString : Option String := none
  hasUserVerification : Bool := false
  enclaveTag : Option Bytes := none
  helloCredentialName : Option String := none
  tpmProvider : Option String := none
  tpmPinRequired : Bool := false
  tpmBlob : Option Bytes := none
  cngKeyName : Option String := none
  keystoreAlias : Option String := none
  pkcs11ModulePath : Option String := none
  pkcs11TokenSerial : Option String := none
  pkcs11ObjectId : Option Bytes := none

inductive PreparedAuthRef where
  | password (secretId : String)
  | pubkey (keySecretId : String) (passphraseSecretId : Option String)
  | pubkeyCert (keySecretId certSecretId : String) (passphraseSecretId : Option String)
  | pubkeySk (publicOpenssh : String) (credentialId : Bytes) (application : String) (hasUserVerification : Bool)
      (pinSecretId : Option String)
  | pubkeySkCert (publicOpenssh : String) (credentialId : Bytes) (application : String) (hasUserVerification : Bool)
      (certSecretId : String) (pinSecretId : Option String)
  | pubkeyPkcs11 (publicOpenssh modulePath tokenSerial : String) (ckaId : Bytes) (keyType : String)
      (pinSecretId : Option String)
  | pubkeyEnclave (publicOpenssh : String) (applicationTag : Bytes)
  | pubkeyHello (publicOpenssh credentialName keyType : String)
  | pubkeyTpm (publicOpenssh provider : String) (blob : Option Bytes) (cngKeyName : Option String) (keyType : String)
      (pinSecretId : Option String)
  | pubkeyKeystore (publicOpenssh keystoreAlias keyType : String)

def PreparedAuthRef.secretIds : PreparedAuthRef → List String
  | .password secretId => [secretId]
  | .pubkey key passphrase => key :: passphrase.toList
  | .pubkeyCert key cert passphrase => key :: cert :: passphrase.toList
  | .pubkeySkCert _ _ _ _ cert pin => cert :: pin.toList
  | .pubkeySk _ _ _ _ pin | .pubkeyPkcs11 _ _ _ _ _ pin | .pubkeyTpm _ _ _ _ _ pin => pin.toList
  | .pubkeyEnclave _ _ | .pubkeyHello _ _ _ | .pubkeyKeystore _ _ _ => []

structure PreparedAuth where
  auth : PreparedAuthRef
  transientSecretIds : List String

/-- The errors that a connect attempt tells apart; `other` holds the text of the rest. -/
inductive Error where
  | connect (message : String)
  | authFailed (message : String)
  | auth (message : String)
  | keyParse (message : String)
  | passphraseRequired
  | passphraseIncorrect
  | hostKeyRejected
  | db (message : String)
  | other (text : String)

inductive CredentialPromptKind where
  | password
  | passphrase

namespace Attempt

/-- The operations of an attempt: on the database, on the secret store, on what is random, and those in which it shows. -/
inductive Op where
  | sessionSecrets (sessionId : String)
  | managerKey (keyId : String)
  | privateKey (keyId : String)
  | certificate (keyId : String)
  | randomHandle
  | randomUuid
  | put (id : String) (bytes : Bytes)
  | get (id : String)
  | dropId (id : String)
  /-- The caller has the reference, and connects. -/
  | connectAsync (auth : PreparedAuthRef)
  | promptCredential (sessionId : String) (kind : CredentialPromptKind)
  | runAuth (auth : PreparedAuthRef)
  /-- The attempt is connected or disconnected. -/
  | settle (result : Except Error Unit)

def Op.Resp : Op → Type
  | .sessionSecrets _ => Except Error (Option SessionSecrets)
  | .managerKey _ => Except Error (Option ManagerKey)
  | .privateKey _ => Except Error (Option String)
  | .certificate _ => Except Error (Option Bytes)
  | .randomHandle | .randomUuid => String
  | .get _ => Option Bytes
  | .promptCredential _ _ => Option Bytes
  | .runAuth _ => Except Error Unit
  | .put _ _ | .dropId _ | .connectAsync _ | .settle _ => Unit

end Attempt

open Attempt

abbrev Connect := Prog Op Op.Resp

/-! ## The auth reference -/

def putUnlessEmpty (id text : String) : Connect Unit :=
  if text = "" then .done () else .call (.put id (utf8 text)) .done

/-- `sessions::stage_secrets_into_store`. -/
def stageSessionSecrets (sessionId : String) : Connect (Except Error (Option SessionSecrets)) :=
  .call (.sessionSecrets sessionId) fun
    | .error e => .done (.error e)
    | .ok none => .done (.ok none)
    | .ok (some row) =>
      (putUnlessEmpty (Slot.sessPassword.id sessionId) row.password).bind fun _ =>
        (putUnlessEmpty (Slot.sessKey.id sessionId) row.keyData).bind fun _ =>
          (putUnlessEmpty (Slot.sessPassphrase.id sessionId) row.passphrase).bind fun _ => .done (.ok (some row))

/-- `ssh_keys::stage_secret_into_store`. -/
def stagePrivateKey (keyId : String) : Connect (Except Error Bool) :=
  .call (.privateKey keyId) fun
    | .error e => .done (.error e)
    | .ok none => .done (.ok false)
    | .ok (some pem) =>
      if pem = "" then .done (.ok false) else .call (.put (Slot.keyPriv.id keyId) (utf8 pem)) fun _ => .done (.ok true)

/-- `ssh_key_certificates::stage_secret_into_store`. -/
def stageCertificate (keyId : String) : Connect (Except Error Bool) :=
  .call (.certificate keyId) fun
    | .error e => .done (.error e)
    | .ok none => .done (.ok false)
    | .ok (some bytes) =>
      if bytes = [] then .done (.ok false) else .call (.put (Slot.keyCert.id keyId) bytes) fun _ => .done (.ok true)

def savedPassphraseId (sessionId : String) (staged : SessionSecrets) : Option String :=
  if staged.passphrase = "" then none else some (Slot.sessPassphrase.id sessionId)

def savedAuth (sessionId : String) (staged : SessionSecrets) (passphraseId : Option String) : Option PreparedAuth :=
  if staged.keyData ≠ "" then some ⟨.pubkey (Slot.sessKey.id sessionId) passphraseId, []⟩
  else if staged.password ≠ "" then some ⟨.password (Slot.sessPassword.id sessionId), []⟩
  else none

/-- `try_saved_session`, with the id of the session's passphrase. -/
def trySavedSession (input : PrepareAuthInput) : Connect (Except Error (Option PreparedAuth × Option String)) :=
  match input.sessionId with
  | none => .done (.ok (none, none))
  | some sessionId =>
    (stageSessionSecrets sessionId).andThen fun
      | none => .done (.ok (none, none))
      | some staged =>
        let passphraseId := savedPassphraseId sessionId staged
        .done (.ok (savedAuth sessionId staged passphraseId, passphraseId))

/-- A secret that was typed for this attempt, staged under the id; nothing is staged where none is called for. -/
def stageTyped (wanted : Bool) (id text : String) : Connect (Option String) :=
  if wanted && text ≠ "" then .call (.put id (utf8 text)) fun _ => .done (some id) else .done none

def stagePin (wanted : Bool) (slot : Slot) (input : PrepareAuthInput) : Connect (Option String) :=
  stageTyped wanted (slot.id input.keyId) input.pin

/-- `ok_or_else`, for the columns of a row. -/
def column {α : Type} (value : Option α) (message : String) : Connect (Except Error α) :=
  .done (value.elim (.error (.auth message)) .ok)

def enclaveRef (row : ManagerKey) : Connect (Except Error PreparedAuth) :=
  (column row.enclaveTag "enclave row missing enclave_tag").andThen fun tag =>
    .done (.ok ⟨.pubkeyEnclave row.publicKey tag, []⟩)

def helloRef (row : ManagerKey) : Connect (Except Error PreparedAuth) :=
  (column row.helloCredentialName "hello row missing hello_credential_name").andThen fun name =>
    .done (.ok ⟨.pubkeyHello row.publicKey name row.keyType, []⟩)

def tpmRef (row : ManagerKey) (input : PrepareAuthInput) : Connect (Except Error PreparedAuth) :=
  (column row.tpmProvider "tpm row missing tpm_provider").andThen fun provider =>
    (stagePin row.tpmPinRequired .tpmPin input).bind fun pin =>
      .done (.ok ⟨.pubkeyTpm row.publicKey provider row.tpmBlob row.cngKeyName row.keyType pin, pin.toList⟩)

def keystoreRef (row : ManagerKey) : Connect (Except Error PreparedAuth) :=
  (column row.keystoreAlias "keystore row missing keystore_alias").andThen fun keystoreAlias =>
    .done (.ok ⟨.pubkeyKeystore row.publicKey keystoreAlias row.keyType, []⟩)

def pkcs11Ref (row : ManagerKey) (input : PrepareAuthInput) : Connect (Except Error PreparedAuth) :=
  (column row.pkcs11ModulePath "pkcs11 row missing module_path").andThen fun modulePath =>
    (column row.pkcs11TokenSerial "pkcs11 row missing token_serial").andThen fun tokenSerial =>
      (column row.pkcs11ObjectId "pkcs11 row missing object_id").andThen fun ckaId =>
        (stagePin true .pkcs11Pin input).bind fun pin =>
          .done (.ok ⟨.pubkeyPkcs11 row.publicKey modulePath tokenSerial ckaId row.keyType pin, pin.toList⟩)

/-- `sk_ref`: a certificate that is paired with the key wins. -/
def skRef (row : ManagerKey) (input : PrepareAuthInput) (credentialId : Bytes) (application : String) :
    Connect (Except Error PreparedAuth) :=
  (stagePin row.hasUserVerification .keyPin input).bind fun pin =>
    (stageCertificate input.keyId).andThen fun paired =>
      .done (.ok ⟨if paired then
            .pubkeySkCert row.publicKey credentialId application row.hasUserVerification (Slot.keyCert.id input.keyId) pin
          else .pubkeySk row.publicKey credentialId application row.hasUserVerification pin,
        pin.toList⟩)

def softwarePubkeyAuth (input : PrepareAuthInput) (sessionPassphraseId : Option String) :
    Connect (Except Error (Option PreparedAuth)) :=
  (stagePrivateKey input.keyId).andThen fun present =>
    if !present then .done (.ok none)
    else
      (stageTyped sessionPassphraseId.isNone (Slot.keyPassphrase.id input.keyId) input.passphrase).bind fun typed =>
        let passphraseId := typed.or sessionPassphraseId
        let key := Slot.keyPriv.id input.keyId
        (stageCertificate input.keyId).andThen fun paired =>
          .done (.ok (some
            ⟨if paired then .pubkeyCert key (Slot.keyCert.id input.keyId) passphraseId else .pubkey key passphraseId,
            typed.toList⟩))

def tryManagerKey (input : PrepareAuthInput) (sessionPassphraseId : Option String) :
    Connect (Except Error (Option PreparedAuth)) :=
  if input.keyId = "" then .done (.ok none)
  else
    .call (.managerKey input.keyId) fun
      | .error e => .done (.error e)
      | .ok none => .done (.ok none)
      | .ok (some row) =>
        let hardware (ref : Connect (Except Error PreparedAuth)) := ref.andThen fun prepared => .done (.ok (some prepared))
        match row.backend with
        | .enclave => hardware (enclaveRef row)
        | .hello => hardware (helloRef row)
        | .tpm => hardware (tpmRef row input)
        | .keystore => hardware (keystoreRef row)
        | .pkcs11 => hardware (pkcs11Ref row input)
        | _ =>
          match row.credentialId, row.applicationString with
          | some credentialId, some application => hardware (skRef row input credentialId application)
          | _, _ => softwarePubkeyAuth input sessionPassphraseId

def quickConnectFallback (input : PrepareAuthInput) (sessionPassphraseId : Option String) : Connect PreparedAuth :=
  .call .randomHandle fun transientId =>
    if input.keyData ≠ "" then
      let keySecretId := Slot.connKey.id transientId
      .call (.put keySecretId (utf8 input.keyData)) fun _ =>
        (stageTyped sessionPassphraseId.isNone (Slot.connPassphrase.id transientId) input.passphrase).bind fun typed =>
          .done ⟨.pubkey keySecretId (typed.or sessionPassphraseId), keySecretId :: typed.toList⟩
    else
      -- An empty password is staged too.
      let secretId := Slot.connPassword.id transientId
      .call (.put secretId (utf8 input.password)) fun _ => .done ⟨.password secretId, [secretId]⟩

def prepareAuth (input : PrepareAuthInput) : Connect (Except Error PreparedAuth) :=
  (trySavedSession input).andThen fun
    | (some prepared, _) => .done (.ok prepared)
    | (none, sessionPassphraseId) =>
      (tryManagerKey input sessionPassphraseId).andThen fun
        | some prepared => .done (.ok prepared)
        | none => (quickConnectFallback input sessionPassphraseId).bind fun prepared => .done (.ok prepared)

/-! ## The dial -/

def maxCredentialPrompts : Nat := 3

/-- `ensure_passphrase_slot`, with the reference that it leaves; a reference without such a slot is not asked for one. -/
def ensurePassphraseSlot : PreparedAuthRef → Connect (Option (String × PreparedAuthRef))
  | .pubkey key (some slot) => .done (some (slot, .pubkey key (some slot)))
  | .pubkeyCert key cert (some slot) => .done (some (slot, .pubkeyCert key cert (some slot)))
  | .pubkey key none =>
    .call .randomUuid fun uuid =>
      let slot := Slot.connPassphrase.id uuid
      .done (some (slot, .pubkey key (some slot)))
  | .pubkeyCert key cert none =>
    .call .randomUuid fun uuid =>
      let slot := Slot.connPassphrase.id uuid
      .done (some (slot, .pubkeyCert key cert (some slot)))
  | _ => .done none

def isRecoverable (e : Error) (auth : PreparedAuthRef) : Bool :=
  match e, auth with
  | .passphraseRequired, .pubkey _ _ | .passphraseRequired, .pubkeyCert _ _ _ | .passphraseIncorrect, .pubkey _ _
  | .passphraseIncorrect, .pubkeyCert _ _ _ => true
  | _, _ => false

/-- The loop of `run_auth_with_credential_prompts`, with the prompts that it has left. -/
def authLoop (sessionId : String) : Nat → PreparedAuthRef → Connect (Except Error Unit)
  | 0, auth => .call (.runAuth auth) .done
  | left + 1, auth =>
    .call (.runAuth auth) fun
      | .ok () => .done (.ok ())
      | .error e =>
        if !isRecoverable e auth then .done (.error e)
        else
          .call (.promptCredential sessionId .passphrase) fun
            | none => .done (.error e)
            | some secret =>
              (ensurePassphraseSlot auth).bind fun
                | none => .done (.error e)
                | some (slot, auth') => .call (.put slot secret) fun _ => authLoop sessionId left auth'

def promptForPassword (sessionId : String) (auth : PreparedAuthRef) : Connect Unit :=
  match auth with
  | .password secretId =>
    .call (.get secretId) fun stored =>
      if (stored.getD []).isEmpty then
        .call (.promptCredential sessionId .password) fun
          | none => .done ()
          | some secret => .call (.put secretId secret) .done
      else .done ()
  | _ => .done ()

def runAuthWithCredentialPrompts (sessionId : String) (auth : PreparedAuthRef) : Connect (Except Error Unit) :=
  (promptForPassword sessionId auth).bind fun _ => authLoop sessionId maxCredentialPrompts auth

def dropMany : List String → Connect Unit
  | [] => .done ()
  | id :: ids => .call (.dropId id) fun _ => dropMany ids

/-- An attempt: the caller prepares it, connects, and drops what `prepare_auth` told it to once the attempt has settled. -/
def connectAttempt (id : String) (input : PrepareAuthInput) : Connect (Except Error Unit) :=
  (prepareAuth input).andThen fun prepared =>
    .call (.connectAsync prepared.auth) fun _ =>
      (runAuthWithCredentialPrompts (input.sessionId.getD id) prepared.auth).bind fun result =>
        .call (.settle result) fun _ => (dropMany prepared.transientSecretIds).bind fun _ => .done result

end LetsFlutSsh.Connection
