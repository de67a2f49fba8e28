import LetsFlutSsh.SshAgent.Identities

/-!
# SSH agent: one frame

`ssh_agent/loop_runner.rs`. A frame is answered on one of three paths: the listing, a signature in certificate form, or
the typed path of `ssh-agent-lib`.

* `isCertAlgorithm`, `peekCert`, `signCertRequest` : the certificate path;
* `dispatchPayload` : the answer to a frame, with the session that it leaves;
* `sessionAfter` : that session (`dispatchPayload_keeping`: every frame is lawful and leaves it).
-/

namespace LetsFlutSsh.SshAgent
open Lib

def requestIdentitiesMsgId : UInt8 := 11

def signRequestMsgId : UInt8 := 13
def signResponseMsgId : UInt8 := 14

def certAlgorithmSuffix : String := "-cert-v01@openssh.com"

def maxFrameLen : Nat := 256 * 1024

/-- `SSH_AGENT_FAILURE`. -/
def failurePayload : Bytes := [5]

variable {KeyData : Type}

section Frames

variable [DecidableEq KeyData] (w : Wire KeyData)

/-- The algorithm name at the head of a key blob is that of a certificate. -/
def isCertAlgorithm (keyBlob : Bytes) : Bool :=
  match decodeU32 keyBlob with
  | none => false
  | some (algoLen, rest) =>
    if 4 + algoLen.toNat > keyBlob.length then false
    else
      match fromUtf8 (rest.take algoLen.toNat) with
      | none => false
      | some algorithm => certAlgorithmSuffix.toList.isSuffixOf algorithm.toList

def encodeSignResponse (signature : Signature) : Except String Bytes :=
  (w.encodeSignature signature).map fun inner => signResponseMsgId :: inner

def signCertRequest (ep : Endpoint) (keyBlob data : Bytes) (flags : UInt32) : Handler Bytes :=
  match w.certFromBytes keyBlob with
  | .error _ => .done failurePayload
  | .ok bare =>
    (findRowByKeydata w bare).bind fun
      | .error _ => .done failurePayload
      | .ok none => .done failurePayload
      | .ok (some row) =>
        (runSign w ep row data flags).bind fun
          | .error _ => .done failurePayload
          | .ok signature => .done ((encodeSignResponse w signature).toOption.getD failurePayload)

/-- The key blob of a request in certificate form, and what follows it. -/
def peekCert (body : Bytes) : Option (Bytes × Bytes) := (decodeString body).filter fun r => isCertAlgorithm r.1

def signWithCert (ep : Endpoint) (keyBlob rest : Bytes) : Handler Bytes :=
  match decodeString rest with
  | none => .done failurePayload
  | some (data, rest) =>
    match decodeU32 rest with
    | none => .done failurePayload
    | some (flags, _) => signCertRequest w ep keyBlob data flags

def trySignWithCert (ep : Endpoint) (body : Bytes) : Option (Handler Bytes) :=
  (peekCert body).map fun r => signWithCert w ep r.1 r.2

def identitiesPayload (ep : Endpoint) : Handler (Except String Bytes) :=
  if ep.locked then .done ((encodeIdentitiesAnswer []).mapError fun e => s!"encode empty identities: {e}")
  else
    (listRows.mapError fun e => s!"list rows: {e}").andThen fun rows =>
      ((buildAdvertised w rows).mapError fun e => s!"build advertised: {e}").andThen fun advertised =>
        .done ((encodeIdentitiesAnswer advertised).mapError fun e => s!"encode: {e}")

/-- `encode_typed_response`, or the failure where it fails. -/
def encodeTypedResponse (response : Response KeyData) : Bytes := (w.encodeResponse response).getD failurePayload

def responseOf : Except AgentError (Response KeyData) → Response KeyData
  | .ok response => response
  | .error .extensionFailure => .extensionFailure
  | .error (.other _) => .failure

def dispatchTyped (ep : Endpoint) (payload : Bytes) : Handler (Bytes × Endpoint) :=
  match w.decodeRequest payload with
  | .error _ => .done (failurePayload, ep)
  | .ok request => (handle w ep request).bind fun r => .done (encodeTypedResponse w (responseOf r.1), r.2)

def dispatchPayload (ep : Endpoint) : Bytes → Handler (Bytes × Endpoint)
  | [] => .done (failurePayload, ep)
  | msgId :: body =>
    if msgId = requestIdentitiesMsgId then
      (identitiesPayload w ep).bind fun r => .done (r.toOption.getD failurePayload, ep)
    else
      match if msgId = signRequestMsgId then trySignWithCert w ep body else none with
      | some reply => reply.bind fun bytes => .done (bytes, ep)
      | none => dispatchTyped w ep (msgId :: body)

/-- The session after a frame: only LOCK and UNLOCK on the typed path change it. -/
def sessionAfter (ep : Endpoint) : Bytes → Endpoint
  | [] => ep
  | msgId :: body =>
    if msgId = requestIdentitiesMsgId ∨ msgId = signRequestMsgId ∧ (peekCert body).isSome then ep
    else
      match w.decodeRequest (msgId :: body) with
      | .error _ => ep
      | .ok request => sessionLeft ep request

end Frames

section Permission

variable {w : Wire KeyData} {ep : Endpoint} {q : List Event}

theorem identitiesPayload_lawful (h : Lawful ep q) : Keeping ep (identitiesPayload w ep) (fun _ _ => True) q := by
  unfold identitiesPayload
  split
  · exact ⟨h, trivial⟩
  · have hrows : Keeping ep (listRows.mapError fun e => s!"list rows: {e}") (fun _ _ => True) q :=
      (listRows_keeping h).bind fun r q' h' => ⟨h'.1, trivial⟩
    refine hrows.andThen (fun e q' h' => h') fun rows q' h' => ?_
    have hbuilt : Keeping ep ((buildAdvertised w rows).mapError fun e => s!"build advertised: {e}")
        (fun _ _ => True) q' := (buildAdvertised_lawful h'.1 rows).bind fun r q'' h'' => h''
    exact hbuilt.andThen (fun e q'' h'' => h'') fun advertised q'' h'' => h''

variable [DecidableEq KeyData]

theorem signCertRequest_lawful (h : Lawful ep q) (keyBlob data : Bytes) (flags : UInt32) :
    Keeping ep (signCertRequest w ep keyBlob data flags) (fun _ _ => True) q := by
  unfold signCertRequest
  split
  · exact ⟨h, trivial⟩
  next bare hcert =>
  refine (findRowByKeydata_keeping h bare).bind fun r q' h' => ?_
  match r with
  | .error e => exact ⟨h'.1, trivial⟩
  | .ok none => exact ⟨h'.1, trivial⟩
  | .ok (some row) =>
    refine (runSign_lawful h'.1 data flags (h'.2 row rfl)).bind fun signed q'' h'' => ?_
    cases signed <;> exact h''

theorem signWithCert_lawful (h : Lawful ep q) (keyBlob rest : Bytes) :
    Keeping ep (signWithCert w ep keyBlob rest) (fun _ _ => True) q := by
  unfold signWithCert
  split
  · exact ⟨h, trivial⟩
  · split
    · exact ⟨h, trivial⟩
    · exact signCertRequest_lawful h _ _ _

theorem dispatchPayload_keeping (h : Lawful ep q) (payload : Bytes) :
    Keeping ep (dispatchPayload w ep payload) (fun r _ => r.2 = sessionAfter w ep payload) q := by
  rcases payload with _ | ⟨msgId, body⟩
  · exact ⟨h, rfl⟩
  rw [dispatchPayload, sessionAfter]
  rcases Decidable.em (msgId = requestIdentitiesMsgId) with hlist | hlist
  · rw [if_pos hlist, if_pos (Or.inl hlist)]
    exact (identitiesPayload_lawful h).bind fun r q' h' => ⟨h'.1, rfl⟩
  rw [if_neg hlist]
  have htyped : Keeping ep (dispatchTyped w ep (msgId :: body)) (fun r _ => r.2 = match w.decodeRequest (msgId :: body) with
      | .error _ => ep
      | .ok request => sessionLeft ep request) q := by
    unfold dispatchTyped
    rcases w.decodeRequest (msgId :: body) with e | request
    · exact ⟨h, rfl⟩
    · exact (handle_keeping h request).bind fun r q' h' => h'
  rcases Decidable.em (msgId = signRequestMsgId) with hsign | hsign
  · rw [if_pos hsign, trySignWithCert]
    rcases peekCert body with _ | ⟨keyBlob, rest⟩
    · rw [if_neg (by simp [hlist])]
      exact htyped
    · rw [if_pos (Or.inr ⟨hsign, rfl⟩)]
      exact (signWithCert_lawful h keyBlob rest).bind fun bytes q' h' => ⟨h'.1, rfl⟩
  · rw [if_neg hsign, if_neg (by simp [hlist, hsign])]
    exact htyped

end Permission

end LetsFlutSsh.SshAgent
