import LetsFlutSsh.SshAgent.Agent

/-!
# SSH agent: what is listed and what is signed

The listing walks all rows of the key table. A signature request picks the first row with its key, and spreads its checks
over the endpoint and the backend.

* `tableAnswers` : what the key table answers; the prompt and the signers are left open;
* `Listed` : a blob is among the identities that are listed;
* `EndpointRefusal`, `Refused` : the endpoint refuses a request itself, before it comes to a prompt or to a signer;
* `FirstDecides` : the first row of a key decides for all its rows (`listed_iff_not_refused_iff`, `listed_and_refused`).
-/

namespace LetsFlutSsh.SshAgent
open Lib List

/-! ## Keys on the wire -/

/-- The bytes of a key are its own, and no certificate has them. -/
structure Wire.Distinct {KeyData : Type} (w : Wire KeyData) : Prop where
  key : ∀ a b blob, w.encodeKeyData a = some blob → w.encodeKeyData b = some blob → a = b
  certificate : ∀ text blob keyData, w.certToBytes text = some blob → w.encodeKeyData keyData ≠ some blob

/-! ## What the table alone decides -/

/-- What the key table answers; the prompt and the signers are left open. -/
def tableAnswers (rows : List SshKeyRow) (certificates : String → Option Bytes) : (op : Op) → Option op.Resp
  | .listRows => some (.ok rows)
  | .lookupCert keyId => some (.ok (certificates keyId))
  | .enqueue _ _ _ => none
  | .publishPrompt _ => none
  | .awaitDecision _ => none
  | .persistPolicy _ _ => none
  | .sign _ _ _ => none

variable {KeyData : Type}

section Table

variable (w : Wire KeyData) (rows : List SshKeyRow) (certificates : String → Option Bytes)

def Listed (blob : Bytes) : Prop :=
  ∃ advertised, (buildAdvertised w rows).upTo (tableAnswers rows certificates) = .ok (.ok advertised) ∧
    blob ∈ advertised.map Advertised.keyBlob

/-- The refusals of the endpoint itself: the row lookup, the software check, the policy and the user verification. -/
inductive EndpointRefusal : AgentError → Prop
  | unknownKey : EndpointRefusal (.other "ssh-agent: unknown key")
  | software : EndpointRefusal (.other "ssh-agent: software keys are never signed through this endpoint")
  | denied : EndpointRefusal (.other "ssh-agent: this key is policy-denied")
  | userVerification (keyLabel fingerprint : String) :
    EndpointRefusal (mapBackendError w (.fidoUvNotSupportedViaAgent keyLabel fingerprint))

/-- The endpoint refuses the request itself, and comes to no prompt and to no signer. -/
def Refused (request : Handler (Except AgentError Signature)) : Prop :=
  ∃ e, request.upTo (tableAnswers rows certificates) = .ok (.error e) ∧ EndpointRefusal w e

variable [DecidableEq KeyData]

def hasKey (keyData : KeyData) (row : SshKeyRow) : Bool := w.fromOpenssh row.publicKey = some keyData

/-- The user is asked although the key wants a PIN: that check comes after the prompt. -/
def asksInVain (row : SshKeyRow) : Bool :=
  BackendKind.fromRow row = .fido2 && row.hasUserVerification && row.agentPolicy = .ask

/-- The first row of a key decides for all its rows: either it may be listed, or a later row that may be listed is there
exactly when the user is asked for the first one in vain. -/
def FirstDecides (keyData : KeyData) : Prop :=
  ∀ first, rows.find? (hasKey w keyData) = some first → rowIsPublishable first = false →
    (asksInVain first = true ↔ ∃ row ∈ rows, hasKey w keyData row ∧ rowIsPublishable row)

end Table

variable {certificates : String → Option Bytes} {rows : List SshKeyRow} {w : Wire KeyData}

/-! ## The listing -/

section Listing

def identitiesOf (w : Wire KeyData) (certificates : String → Option Bytes) (row : SshKeyRow) : List Advertised :=
  if rowIsPublishable row then
    match bareKeyBlob w row with
    | none => []
    | some bare => advertise w row bare (certificates row.id)
  else []

theorem buildAdvertised_upTo (listed : List SshKeyRow) : (buildAdvertised w listed).upTo (tableAnswers rows certificates) =
    .ok (.ok (listed.flatMap (identitiesOf w certificates))) := by
  induction listed with
  | nil => rfl
  | cons row listed ih =>
    rw [buildAdvertised, flatMap_cons, identitiesOf]
    cases rowIsPublishable row with
    | false => exact ih
    | true =>
      simp only [Bool.not_true, Bool.false_eq_true, if_false, if_true]
      cases bareKeyBlob w row with
      | none => exact ih
      | some bare =>
        have hcert : (Prog.perform (Op.lookupCert row.id) : Handler (Except String (Option Bytes))).upTo
            (tableAnswers rows certificates) = .ok (.ok (certificates row.id)) := rfl
        rw [Prog.upTo_andThen_ok hcert, Prog.upTo_andThen_ok ih]
        rfl

theorem mem_advertise {row : SshKeyRow} {bare blob : Bytes} {certificate : Option Bytes} :
    blob ∈ (advertise w row bare certificate).map Advertised.keyBlob ↔
      blob = bare ∨ certificate.bind (certBlob w) = some blob := by
  unfold advertise
  cases certificate.bind (certBlob w) with
  | none => simp
  | some other => simp [eq_comm]

variable [DecidableEq KeyData]

theorem listed_iff (hw : w.Distinct) {keyData : KeyData} {blob : Bytes} (hblob : w.encodeKeyData keyData = some blob) :
    Listed w rows certificates blob ↔ ∃ row ∈ rows, hasKey w keyData row ∧ rowIsPublishable row := by
  unfold Listed
  rw [buildAdvertised_upTo]
  simp only [Except.ok.injEq, exists_eq_left', map_flatMap, mem_flatMap]
  refine exists_congr fun row => and_congr_right fun _ => ?_
  unfold identitiesOf
  cases hpub : rowIsPublishable row with
  | false => simp
  | true =>
    simp only [if_true, and_true, hasKey, decide_eq_true_eq]
    constructor
    · intro hmem
      cases hbare : bareKeyBlob w row with
      | none => simp [hbare] at hmem
      | some bare =>
        rw [hbare] at hmem
        rcases mem_advertise.1 hmem with rfl | hcert
        · obtain ⟨stored, hstored, henc⟩ := Option.bind_eq_some_iff.1 hbare
          rw [hstored, hw.key stored keyData blob henc hblob]
        · obtain ⟨text, -, hcert⟩ := Option.bind_eq_some_iff.1 hcert
          obtain ⟨text', -, hbytes⟩ := Option.bind_eq_some_iff.1 hcert
          exact absurd hblob (hw.certificate _ blob keyData hbytes)
    · intro hkey
      have hbare : bareKeyBlob w row = some blob := by
        rw [bareKeyBlob, hkey]
        exact hblob
      rw [hbare]
      exact mem_advertise.2 (Or.inl rfl)

end Listing

/-! ## The request -/

section Signing

theorem not_refused_of_open {request : Handler (Except AgentError Signature)} {op : Op}
    (h : request.upTo (tableAnswers rows certificates) = .error op) : ¬Refused w rows certificates request := by
  rintro ⟨e, he, -⟩
  rw [h] at he
  cases he

theorem refused_of_error {request : Handler (Except AgentError Signature)} {e : AgentError}
    (h : request.upTo (tableAnswers rows certificates) = .ok (.error e)) (he : EndpointRefusal w e) :
    Refused w rows certificates request := ⟨e, h, he⟩

theorem refused_congr {p q : Handler (Except AgentError Signature)}
    (h : p.upTo (tableAnswers rows certificates) = q.upTo (tableAnswers rows certificates)) :
    Refused w rows certificates p ↔ Refused w rows certificates q := by
  unfold Refused
  rw [h]

/-- The character that tells what a signer reports from the refusals. -/
def AgentError.twelfth : AgentError → Option Char
  | .other message => message.toList[11]?
  | .extensionFailure => none

theorem twelfth_signer (detail : String) : (mapBackendError w (.signer detail)).twelfth = some 'a' := by
  have htext : mapBackendError w (.signer detail) = .other ("ssh-agent: " ++ ("agent signer failed: " ++ detail)) := rfl
  rw [htext]
  simp [AgentError.twelfth]

theorem EndpointRefusal.twelfth {e : AgentError} (h : EndpointRefusal w e) : e.twelfth ≠ some 'a' := by
  cases h with
  | unknownKey => simp [AgentError.twelfth]
  | software => simp [AgentError.twelfth]
  | denied => simp [AgentError.twelfth]
  | userVerification keyLabel fingerprint =>
    have htext : mapBackendError w (.fidoUvNotSupportedViaAgent keyLabel fingerprint) =
        .other ("ssh-agent: " ++ ("fido2 key " ++ w.debug keyLabel ++ " (fingerprint " ++ fingerprint ++
          ") requires user-verification; " ++
          "ssh-agent cannot collect a PIN over the agent wire — use a direct connection instead")) := rfl
    rw [htext]
    simp [AgentError.twelfth]

theorem not_endpointRefusal_signer (detail : String) : ¬EndpointRefusal w (mapBackendError w (.signer detail)) :=
  fun h => h.twelfth (twelfth_signer detail)

def accepted (row : SshKeyRow) : Bool := rowIsPublishable row || asksInVain row

theorem dispatchSign_refused_iff {row : SshKeyRow} (hhardware : BackendKind.fromRow row ≠ .software) (data : Bytes)
    (flags : UInt32) :
    Refused w rows certificates
        (((dispatchSign w.fingerprint row data flags).mapError (mapBackendError w)).andThen fun out =>
          .done (signatureOf w out)) ↔
      (BackendKind.fromRow row = .fido2 ∧ row.hasUserVerification = true) := by
  have hsigner : ∀ signer : Signer, ¬Refused w rows certificates
      (((signer.invoke row data).mapError (mapBackendError w)).andThen fun out => .done (signatureOf w out)) :=
    fun signer => not_refused_of_open rfl
  unfold dispatchSign
  cases hkind : BackendKind.fromRow row with
  | software => exact absurd hkind hhardware
  | fido2 =>
    simp only [dispatchSignByKind, fido2Sign, true_and]
    cases row.hasUserVerification with
    | true => exact iff_of_true (refused_of_error rfl (.userVerification _ _)) rfl
    | false => exact iff_of_false (hsigner .fido2) Bool.false_ne_true
  | pkcs11 => exact iff_of_false (hsigner (.pkcs11 flags)) (by simp)
  | enclave => exact iff_of_false (hsigner .enclave) (by simp)
  | hello => exact iff_of_false (hsigner (.hello flags)) (by simp)
  | tpm => exact iff_of_false (hsigner (.tpm flags)) (by simp)
  | keystore =>
    refine iff_of_false ?_ (by simp)
    rintro ⟨e, he, hrefusal⟩
    cases he
    exact not_endpointRefusal_signer _ hrefusal

theorem runSign_refused_iff {ep : Endpoint} (hunlocked : ep.locked = false) (row : SshKeyRow) (data : Bytes)
    (flags : UInt32) : Refused w rows certificates (runSign w ep row data flags) ↔ accepted row = false := by
  unfold runSign accepted rowIsPublishable asksInVain
  rw [hunlocked, if_neg Bool.false_ne_true]
  by_cases hsoftware : BackendKind.fromRow row = .software
  · rw [if_pos hsoftware]
    exact iff_of_true (refused_of_error rfl .software) (by simp [hsoftware])
  rw [if_neg hsoftware]
  cases hpolicy : row.agentPolicy with
  | deny => exact iff_of_true (refused_of_error rfl .denied) (by simp)
  | ask =>
    refine iff_of_false (not_refused_of_open rfl) ?_
    cases row.hasUserVerification <;> simp [hsoftware]
  | always =>
    refine (dispatchSign_refused_iff hsoftware data flags).trans ?_
    simp [hsoftware]

variable [DecidableEq KeyData]

theorem findRowByKeydata_upTo (keyData : KeyData) (f : String → AgentError) :
    ((findRowByKeydata w keyData).mapError f).upTo (tableAnswers rows certificates) =
      .ok (.ok (rows.find? (hasKey w keyData))) := rfl

theorem sign_refused_iff {ep : Endpoint} (hunlocked : ep.locked = false) (keyData : KeyData) (data : Bytes)
    (flags : UInt32) :
    Refused w rows certificates (sign w ep keyData data flags) ↔
      ∀ first, rows.find? (hasKey w keyData) = some first → accepted first = false := by
  refine (refused_congr (Prog.upTo_andThen_ok (findRowByKeydata_upTo keyData _) _)).trans ?_
  cases rows.find? (hasKey w keyData) with
  | none => exact iff_of_true (refused_of_error rfl .unknownKey) (by simp)
  | some row =>
    simp only [Option.some.injEq, forall_eq']
    exact runSign_refused_iff hunlocked row data flags

/-- **A key is listed exactly when a request for it is not refused, if and only if its first row decides for all.** -/
theorem listed_iff_not_refused_iff (hw : w.Distinct) {ep : Endpoint} (hunlocked : ep.locked = false) {keyData : KeyData}
    {blob : Bytes} (hblob : w.encodeKeyData keyData = some blob) (data : Bytes) (flags : UInt32) :
    (Listed w rows certificates blob ↔ ¬Refused w rows certificates (sign w ep keyData data flags)) ↔
      FirstDecides w rows keyData := by
  rw [listed_iff hw hblob, sign_refused_iff hunlocked, FirstDecides]
  cases hfirst : rows.find? (hasKey w keyData) with
  | none =>
    have hnone : ¬∃ row ∈ rows, hasKey w keyData row ∧ rowIsPublishable row := by
      rintro ⟨row, hrow, hkey, -⟩
      exact find?_eq_none.1 hfirst row hrow hkey
    simp [hnone]
  | some first =>
    simp only [Option.some.injEq, forall_eq', accepted]
    cases hpub : rowIsPublishable first with
    | true =>
      have hlisted : ∃ row ∈ rows, hasKey w keyData row ∧ rowIsPublishable row :=
        ⟨first, mem_of_find?_eq_some hfirst, find?_some hfirst, hpub⟩
      simp [hlisted]
    | false =>
      simp only [Bool.false_or, Bool.not_eq_false, forall_const]
      exact iff_comm

end Signing

/-! ## A table that the two read differently -/

/-- The key of the sample on a smart card, after a copy of it whose private half is stored. -/
def twiceStored : List SshKeyRow := [{ sampleRow .ask with id := "k0", backend := .software }, sampleRow .ask]

theorem sampleWire_distinct : sampleWire.Distinct where
  key a b blob ha hb := Option.some.inj (ha.trans hb.symm)
  certificate text blob keyData h := by cases h

/-- The key is listed, and a request for it is refused. -/
theorem listed_and_refused : ¬(Listed sampleWire twiceStored (fun _ => none) sampleKeyBlob ↔
      ¬Refused sampleWire twiceStored (fun _ => none) (sign sampleWire {} sampleKeyBlob [7] 0)) := by
  have hlisted : Listed sampleWire twiceStored (fun _ => none) sampleKeyBlob :=
    (listed_iff sampleWire_distinct rfl).2 ⟨sampleRow .ask, by simp [twiceStored], rfl, rfl⟩
  have hrefused : Refused sampleWire twiceStored (fun _ => none) (sign sampleWire {} sampleKeyBlob [7] 0) := by
    refine (sign_refused_iff rfl sampleKeyBlob [7] 0).2 fun first hfirst => ?_
    cases hfirst
    rfl
  exact fun h => h.1 hlisted hrefused

theorem listed_iff_not_refused_iff_sample : (Listed sampleWire [sampleRow .ask] (fun _ => none) sampleKeyBlob ↔
        ¬Refused sampleWire [sampleRow .ask] (fun _ => none) (sign sampleWire {} sampleKeyBlob [7] 0)) ↔
      FirstDecides sampleWire [sampleRow .ask] sampleKeyBlob :=
  listed_iff_not_refused_iff sampleWire_distinct rfl rfl [7] 0

end LetsFlutSsh.SshAgent
