import LetsFlutSsh.SshAgent.Backends

/-!
# SSH agent: the endpoint

`ssh_agent/endpoint.rs`, the session of one connection. The key types, the messages and their encodings come from
`ssh-key`, `ssh-encoding` and `ssh-agent-lib`: they are a parameter.

* `Wire`, `Request`, `Response` : that parameter;
* `findRowByKeydata`, `runSign` : the row behind a key, and the gate before the signer;
* `handle` : `Session::handle` with the verbs of the endpoint;
* `Allowed`, `Lawful` : the signers are only called with permission, as far as the request itself can tell
  (`runSign_lawful`, `handle_keeping`).
-/

namespace LetsFlutSsh.SshAgent
open Lib

inductive KeyConstraint where
  | lifetime (seconds : UInt32)
  | confirm
  | extension (name : String)

/-- A request; of the keys to add or remove nothing is read. -/
inductive Request (KeyData : Type) where
  | requestIdentities
  | signRequest (keyData : KeyData) (data : Bytes) (flags : UInt32)
  | addIdentity
  | addIdConstrained (constraints : List KeyConstraint)
  | removeIdentity
  | removeAllIdentities
  | addSmartcardKey
  | addSmartcardKeyConstrained
  | removeSmartcardKey
  | lock (password : String)
  | unlock (password : String)
  | extension (name : String)

structure Signature where
  algorithm : String
  data : Bytes

structure Identity (KeyData : Type) where
  credential : KeyData
  comment : String

inductive Response (KeyData : Type) where
  | identitiesAnswer (identities : List (Identity KeyData))
  | signResponse (signature : Signature)
  | success
  | failure
  | extensionFailure

inductive AgentError where
  | other (message : String)
  | extensionFailure

/-- What the wire libraries do with keys, signatures and messages. -/
structure Wire (KeyData : Type) where
  /-- `PublicKey::from_openssh`, its key data. -/
  fromOpenssh : String → Option KeyData
  /-- `KeyData::encode`. -/
  encodeKeyData : KeyData → Option Bytes
  /-- `Certificate::from_bytes`, its public key. -/
  certFromBytes : Bytes → Except String KeyData
  /-- `Certificate::from_openssh`, then `to_bytes`. -/
  certToBytes : String → Option Bytes
  /-- The fingerprint of an encoded key. -/
  formatFingerprint : Bytes → String
  /-- `Algorithm::new`. -/
  newAlgorithm : String → Except String String
  /-- `Signature::new`. -/
  newSignature : String → Bytes → Except String Signature
  /-- `Signature::encode_prefixed`. -/
  encodeSignature : Signature → Except String Bytes
  /-- `Request::decode`. -/
  decodeRequest : Bytes → Except String (Request KeyData)
  /-- `Response::encode`. -/
  encodeResponse : Response KeyData → Option Bytes
  /-- The `Debug` form of a text. -/
  debug : String → String

variable {KeyData : Type}

namespace Wire

variable (w : Wire KeyData)

def fingerprint (publicKey : String) : Option String :=
  (w.fromOpenssh publicKey).bind fun keyData => (w.encodeKeyData keyData).map w.formatFingerprint

end Wire

structure Endpoint where
  locked : Bool := false

section Session

variable [DecidableEq KeyData] (w : Wire KeyData)

def listRows : Handler (Except String (List SshKeyRow)) := .perform Op.listRows

/-- The first row whose stored text is the key; a row that does not parse is skipped. -/
def findRowByKeydata (target : KeyData) : Handler (Except String (Option SshKeyRow)) :=
  listRows.andThen fun rows => .done (.ok (rows.find? fun row => w.fromOpenssh row.publicKey = some target))

def parseAlgorithmLabel (label : String) : Except String String :=
  (w.newAlgorithm label).mapError fun e => s!"unknown algorithm label {label}: {e}"

def BackendError.display (debug : String → String) : BackendError → String
  | .signer detail => s!"agent signer failed: {detail}"
  | .softwareKeyRefused => "software keys are never exposed through the agent endpoint"
  | .fidoUvNotSupportedViaAgent keyLabel fingerprint =>
    s!"fido2 key {debug keyLabel} (fingerprint {fingerprint}) requires user-verification; " ++
      "ssh-agent cannot collect a PIN over the agent wire — use a direct connection instead"

def mapBackendError (e : BackendError) : AgentError := .other s!"ssh-agent: {e.display w.debug}"

def refusedAdd : AgentError :=
  .other "ssh-agent: external clients cannot add or remove keys via this endpoint"

def refusedDestinationConstraint : AgentError :=
  .other ("ssh-agent in LetsFLUTssh does not enforce destination constraints; " ++ "use a per-key signer or omit -h")

def destinationConstraintNames : List String :=
  ["restrict-destination-v00@openssh.com", "restrict-destination-v01@openssh.com"]

def firstDestinationConstraintName (constraints : List KeyConstraint) : Option String :=
  constraints.findSome? fun
    | .extension name => if name ∈ destinationConstraintNames then some name else none
    | _ => none

/-- `peer_requester`: no platform resolves the peer yet. -/
def peerRequester : Option String := none

/-- The dialog of a key under `ask`. -/
def askUser (row : SshKeyRow) : Handler (Except AgentError Unit) :=
  (Prog.perform (Op.enqueue row.id row.label peerRequester)).bind fun parked =>
  (Prog.perform (Op.publishPrompt parked.1)).bind fun _ =>
  (Prog.perform (Op.awaitDecision parked.2)).bind fun received =>
  match received.decision with
  | .deny => .done (.error (.other "ssh-agent: user denied"))
  | .authorizeAndRemember =>
    -- a write that fails is only logged
    (Prog.perform (Op.persistPolicy row.id .always)).bind fun _ => .done (.ok ())
  | .authorizeOnce => .done (.ok ())

def signatureOf (out : SignOutput) : Except AgentError Signature :=
  match parseAlgorithmLabel w out.algorithm with
  | .error e => .error (.other s!"ssh-agent: {e}")
  | .ok algorithm =>
    (w.newSignature algorithm out.signature).mapError fun e => .other s!"ssh-agent: encode signature: {e}"

def runSign (ep : Endpoint) (row : SshKeyRow) (data : Bytes) (flags : UInt32) : Handler (Except AgentError Signature) :=
  if ep.locked then .done (.error (.other "agent is locked"))
  else if BackendKind.fromRow row = .software then
    .done (.error (.other "ssh-agent: software keys are never signed through this endpoint"))
  else if row.agentPolicy = .deny then .done (.error (.other "ssh-agent: this key is policy-denied"))
  else
    (if row.agentPolicy = .ask then askUser row else .done (.ok ())).andThen fun _ =>
      ((dispatchSign w.fingerprint row data flags).mapError (mapBackendError w)).andThen fun out => .done (signatureOf w out)

def requestIdentities (ep : Endpoint) : Handler (Except AgentError (List (Identity KeyData))) :=
  if ep.locked then .done (.ok [])
  else
    (listRows.mapError fun e => .other s!"ssh-agent: list rows: {e}").andThen fun rows =>
      .done (.ok (rows.filterMap fun row =>
        if BackendKind.fromRow row = .software then none
        else if row.agentPolicy = .deny then none
        else (w.fromOpenssh row.publicKey).map fun keyData => ⟨keyData, row.label⟩))

def sign (ep : Endpoint) (keyData : KeyData) (data : Bytes) (flags : UInt32) : Handler (Except AgentError Signature) :=
  ((findRowByKeydata w keyData).mapError fun e => AgentError.other s!"ssh-agent: lookup row: {e}").andThen fun
    | none => .done (.error (.other "ssh-agent: unknown key"))
    | some row => runSign w ep row data flags

def addIdentityConstrained (constraints : List KeyConstraint) : AgentError :=
  match firstDestinationConstraintName constraints with
  | some _ => refusedDestinationConstraint
  | none => refusedAdd

def lock (_ep : Endpoint) : Endpoint := ⟨true⟩

def unlock (_ep : Endpoint) : Endpoint := ⟨false⟩

/-- `Session::extension`: the answer to a known extension is empty. -/
def extension (name : String) : Except AgentError Unit :=
  if name = "session-bind@openssh.com" then .ok () else .error .extensionFailure

/-- `Session::handle`, with the session that it leaves. -/
def handle (ep : Endpoint) : Request KeyData → Handler (Except AgentError (Response KeyData) × Endpoint)
  | .requestIdentities => (requestIdentities w ep).bind fun r => .done (r.map .identitiesAnswer, ep)
  | .signRequest keyData data flags => (sign w ep keyData data flags).bind fun r => .done (r.map .signResponse, ep)
  | .addIdentity => .done (.error refusedAdd, ep)
  | .addIdConstrained constraints => .done (.error (addIdentityConstrained constraints), ep)
  | .removeIdentity => .done (.error refusedAdd, ep)
  | .removeAllIdentities => .done (.error refusedAdd, ep)
  | .addSmartcardKey => .done (.error refusedAdd, ep)
  | .addSmartcardKeyConstrained => .done (.error refusedAdd, ep)
  | .removeSmartcardKey => .done (.error refusedAdd, ep)
  | .lock _ => .done (.ok .success, lock ep)
  | .unlock _ => .done (.ok .success, unlock ep)
  | .extension name => .done ((extension name).map fun _ => .success, ep)

def sessionLeft (ep : Endpoint) : Request KeyData → Endpoint
  | .lock _ => lock ep
  | .unlock _ => unlock ep
  | _ => ep

end Session

abbrev Event := Sigma Op.Resp

def Op.signedRow : Op → Option SshKeyRow
  | .sign _ row _ => some row
  | _ => none

/-- The request made a prompt for the row, and the user's answer to it was no refusal. -/
def Answered (before : List Event) (row : SshKeyRow) : Prop :=
  ∃ prompt rx d, (⟨.enqueue row.id row.label peerRequester, (prompt, rx)⟩ : Event) ∈ before ∧
    (⟨.awaitDecision rx, .decided d⟩ : Event) ∈ before ∧ d ≠ .deny

variable {row : SshKeyRow}

theorem Answered.mono {q q' : List Event} (h : Answered q row) (hq : q ⊆ q') : Answered q' row := by
  obtain ⟨prompt, rx, d, hminted, hdecided, hd⟩ := h
  exact ⟨prompt, rx, d, hq hminted, hq hdecided, hd⟩

/-- A request may sign with a row: what it saw before says so. -/
structure Allowed (ep : Endpoint) (before : List Event) (row : SshKeyRow) : Prop where
  unlocked : ep.locked = false
  hardware : BackendKind.fromRow row ≠ .software
  read : ∃ rows, (⟨.listRows, .ok rows⟩ : Event) ∈ before ∧ row ∈ rows
  notDenied : row.agentPolicy ≠ .deny
  permitted : row.agentPolicy = .always ∨ Answered before row

def Lawful (ep : Endpoint) : List Event → Prop :=
  Since fun before event => ∀ row, event.1.signedRow = some row → Allowed ep before row

/-- What a handler keeps to: it stays lawful, and ends as `E` says. -/
abbrev Keeping {α : Type} (ep : Endpoint) (p : Handler α) (E : α → List Event → Prop) (q : List Event) : Prop :=
  p.Keeps Threads.keepEvents (Lawful ep) (fun a q => Lawful ep q ∧ E a q) q

section Permission

variable {w : Wire KeyData} {ep : Endpoint} {q : List Event}

theorem Lawful.other (h : Lawful ep q) (op : Op) (hop : op.signedRow = none) (r : op.Resp) :
    Lawful ep (Threads.keepEvents q op r) := by
  refine since_concat.2 ⟨h, fun row hrow => ?_⟩
  rw [hop] at hrow
  cases hrow

theorem Lawful.sign (h : Lawful ep q) {signer : Signer} {data : Bytes} (hrow : Allowed ep q row)
    (r : Op.Resp (.sign signer row data)) : Lawful ep (Threads.keepEvents q (.sign signer row data) r) := by
  refine since_concat.2 ⟨h, fun row' hrow' => ?_⟩
  cases hrow'
  exact hrow

theorem listRows_keeping (h : Lawful ep q) : Keeping ep listRows
    (fun r q' => ∀ rows, r = .ok rows → (⟨.listRows, .ok rows⟩ : Event) ∈ q') q := by
  refine ⟨h, fun r => ⟨h.other _ rfl r, ?_⟩⟩
  rintro rows rfl
  exact Threads.mem_keepEvents q .listRows _

theorem findRowByKeydata_keeping [DecidableEq KeyData] (h : Lawful ep q) (target : KeyData) : Keeping ep (findRowByKeydata w target)
    (fun r q' => ∀ row, r = .ok (some row) → ∃ rows, (⟨.listRows, .ok rows⟩ : Event) ∈ q' ∧ row ∈ rows) q := by
  refine (listRows_keeping h).andThen ?_ ?_
  · intro e q' h'
    refine ⟨h'.1, fun row hrow => ?_⟩
    cases hrow
  · intro rows q' h'
    refine ⟨h'.1, fun row hrow => ⟨rows, h'.2 rows rfl, ?_⟩⟩
    rw [Except.ok.injEq] at hrow
    exact List.mem_of_find?_eq_some hrow

theorem askUser_keeping (h : Lawful ep q) (row : SshKeyRow) : Keeping ep (askUser row)
    (fun r q' => q ⊆ q' ∧ (r = .ok () → Answered q' row)) q := by
  refine ⟨h, fun parked => ?_⟩
  have h₁ := h.other (.enqueue row.id row.label peerRequester) rfl parked
  have hq₁ := Threads.subset_keepEvents q (Op.enqueue row.id row.label peerRequester) parked
  have hminted := Threads.mem_keepEvents q (Op.enqueue row.id row.label peerRequester) parked
  generalize Threads.keepEvents q (Op.enqueue row.id row.label peerRequester) parked = q₁ at h₁ hq₁ hminted ⊢
  refine ⟨h₁, fun published => ?_⟩
  have h₂ := h₁.other (.publishPrompt parked.1) rfl published
  have hq₂ := Threads.subset_keepEvents q₁ (Op.publishPrompt parked.1) published
  generalize Threads.keepEvents q₁ (Op.publishPrompt parked.1) published = q₂ at h₂ hq₂ ⊢
  refine ⟨h₂, fun received => ?_⟩
  have h₃ := h₂.other (.awaitDecision parked.2) rfl received
  have hq₃ := Threads.subset_keepEvents q₂ (Op.awaitDecision parked.2) received
  have hdecided := Threads.mem_keepEvents q₂ (Op.awaitDecision parked.2) received
  generalize Threads.keepEvents q₂ (Op.awaitDecision parked.2) received = q₃ at h₃ hq₃ hdecided ⊢
  have hq := List.Subset.trans hq₁ (List.Subset.trans hq₂ hq₃)
  cases received with
  | closed => exact ⟨h₃, hq, nofun⟩
  | elapsed => exact ⟨h₃, hq, nofun⟩
  | decided d =>
    have hanswered : d ≠ .deny → Answered q₃ row := fun hd =>
      ⟨parked.1, parked.2, d, hq₃ (hq₂ hminted), hdecided, hd⟩
    cases d with
    | deny => exact ⟨h₃, hq, nofun⟩
    | authorizeOnce => exact ⟨h₃, hq, fun _ => hanswered nofun⟩
    | authorizeAndRemember =>
      refine ⟨h₃, fun stored => ?_⟩
      have hq₄ := Threads.subset_keepEvents q₃ (Op.persistPolicy row.id .always) stored
      exact ⟨h₃.other (.persistPolicy row.id .always) rfl stored, List.Subset.trans hq hq₄,
        fun _ => (hanswered nofun).mono hq₄⟩

theorem runSign_lawful (h : Lawful ep q) (data : Bytes) (flags : UInt32)
    (hread : ∃ rows, (⟨.listRows, .ok rows⟩ : Event) ∈ q ∧ row ∈ rows) :
    Keeping ep (runSign w ep row data flags) (fun _ _ => True) q := by
  unfold runSign
  split
  · exact ⟨h, trivial⟩
  next hlocked =>
  split
  · exact ⟨h, trivial⟩
  next hhardware =>
  split
  · exact ⟨h, trivial⟩
  next hdeny =>
  have hconfirmed : Keeping ep (if row.agentPolicy = .ask then askUser row else .done (.ok ()))
      (fun r q' => r = .ok () → Allowed ep q' row) q := by
    obtain ⟨rows, hrows, hrow⟩ := hread
    split
    · refine (askUser_keeping h row).conseq fun r q' h' => ⟨h'.1, fun hr => ?_⟩
      exact ⟨Bool.eq_false_of_not_eq_true hlocked, hhardware, ⟨rows, h'.2.1 hrows, hrow⟩, hdeny, .inr (h'.2.2 hr)⟩
    next hask =>
    have halways : row.agentPolicy = .always := by
      cases hpolicy : row.agentPolicy with
      | always => rfl
      | ask => exact absurd hpolicy hask
      | deny => exact absurd hpolicy hdeny
    exact ⟨h, fun _ => ⟨Bool.eq_false_of_not_eq_true hlocked, hhardware, ⟨rows, hrows, hrow⟩, hdeny, .inl halways⟩⟩
  refine hconfirmed.andThen (fun e q' h' => ⟨h'.1, trivial⟩) fun _ q' h' => ?_
  have hsigned : Keeping ep ((dispatchSign w.fingerprint row data flags).mapError (mapBackendError w))
      (fun _ _ => True) q' := by
    obtain ⟨e, heq⟩ | ⟨-, signer, heq⟩ := dispatchSign_cases w.fingerprint row data flags
    · rw [heq]
      exact ⟨h'.1, trivial⟩
    · rw [heq]
      exact ⟨h'.1, fun r => ⟨h'.1.sign (h'.2 rfl) r, trivial⟩⟩
  exact hsigned.andThen (fun e q'' h'' => h'') fun out q'' h'' => h''

theorem requestIdentities_lawful (h : Lawful ep q) : Keeping ep (requestIdentities w ep) (fun _ _ => True) q := by
  unfold requestIdentities
  split
  · exact ⟨h, trivial⟩
  · exact ⟨h, fun r => by cases r <;> exact ⟨h.other _ rfl _, trivial⟩⟩

theorem sign_lawful [DecidableEq KeyData] (h : Lawful ep q) (keyData : KeyData) (data : Bytes) (flags : UInt32) :
    Keeping ep (sign w ep keyData data flags) (fun _ _ => True) q := by
  have hfound : Keeping ep ((findRowByKeydata w keyData).mapError fun e => AgentError.other s!"ssh-agent: lookup row: {e}")
      (fun r q' => ∀ row, r = .ok (some row) → ∃ rows, (⟨.listRows, .ok rows⟩ : Event) ∈ q' ∧ row ∈ rows) q := by
    refine (findRowByKeydata_keeping h keyData).bind fun r q' h' => ?_
    cases r with
    | error e =>
      refine ⟨h'.1, fun row hrow => ?_⟩
      cases hrow
    | ok found =>
      refine ⟨h'.1, fun row hrow => ?_⟩
      cases hrow
      exact h'.2 row rfl
  refine hfound.andThen (fun e q' h' => ⟨h'.1, trivial⟩) fun found q' h' => ?_
  cases found with
  | none => exact ⟨h'.1, trivial⟩
  | some row => exact runSign_lawful h'.1 data flags (h'.2 row rfl)

theorem handle_keeping [DecidableEq KeyData] (h : Lawful ep q) (request : Request KeyData) :
    Keeping ep (handle w ep request) (fun r _ => r.2 = sessionLeft ep request) q := by
  cases request with
  | requestIdentities => exact (requestIdentities_lawful h).bind fun r q' h' => ⟨h'.1, rfl⟩
  | signRequest keyData data flags => exact (sign_lawful h keyData data flags).bind fun r q' h' => ⟨h'.1, rfl⟩
  | addIdentity => exact ⟨h, rfl⟩
  | addIdConstrained constraints => exact ⟨h, rfl⟩
  | removeIdentity => exact ⟨h, rfl⟩
  | removeAllIdentities => exact ⟨h, rfl⟩
  | addSmartcardKey => exact ⟨h, rfl⟩
  | addSmartcardKeyConstrained => exact ⟨h, rfl⟩
  | removeSmartcardKey => exact ⟨h, rfl⟩
  | lock password => exact ⟨h, rfl⟩
  | unlock password => exact ⟨h, rfl⟩
  | extension name => exact ⟨h, rfl⟩

end Permission

end LetsFlutSsh.SshAgent
