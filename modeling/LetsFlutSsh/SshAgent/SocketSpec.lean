import LetsFlutSsh.SshAgent.Agent
import LetsFlutSsh.SshAgent.Framing

/-!
# SSH agent: what is answered

* `WellFormed`, `dispatchPayload_malformed` : a malformed request is a failure that does nothing;
* `decodeIdentitiesAnswer` : the client's side of the listing, `decodeIdentitiesAnswer_encode` : the listing can be read back;
* `socket_spec` : the whole stream.
-/

namespace LetsFlutSsh.SshAgent
open Lib List Option Prog

variable {b : Bytes}

section Malformed

variable {KeyData : Type} [DecidableEq KeyData] {w : Wire KeyData} {ep : Endpoint}

/-- A request to sign whose key blob has the name of a certificate at its head. -/
def CertForm (payload : Bytes) : Prop :=
  ∃ keyBlob rest, payload = signRequestMsgId :: frameOf keyBlob ++ rest ∧ isCertAlgorithm keyBlob = true

/-- A listing, a request to sign with a certificate, or any other request that `ssh-agent-lib` reads. -/
def WellFormed (w : Wire KeyData) (payload : Bytes) : Prop :=
  (∃ body, payload = requestIdentitiesMsgId :: body) ∨
  (∃ keyBlob data rest flags bare, payload = signRequestMsgId :: frameOf keyBlob ++ frameOf data ++ encodeU32 flags ++ rest ∧
    isCertAlgorithm keyBlob = true ∧ w.certFromBytes keyBlob = .ok bare) ∨
  ¬ CertForm payload ∧ ∃ request, w.decodeRequest payload = .ok request

theorem decodeString_frameOf (h : b.length ≤ 0xFFFFF) (rest : Bytes) :
    decodeString (frameOf b ++ rest) = some (b, rest) := by
  have hlen : (UInt32.ofNat b.length).toNat = b.length := toNat_ofNat_of_lt (h.trans_lt (by decide))
  unfold decodeString frameOf
  rw [append_assoc, decodeU32_encodeU32, bind_some]
  rw [hlen, if_pos h]
  exact readExact_append rfl rest

theorem eq_of_decodeString {bs rest : Bytes} (h : decodeString bs = some (b, rest)) : bs = frameOf b ++ rest := by
  obtain ⟨⟨n, body⟩, hlen, h⟩ := bind_eq_some_iff.1 h
  split_ifs at h
  have hb := (readExact_length h).1
  unfold readExact at h
  split_ifs at h
  cases h
  rw [decodeU32_eq_some hlen, frameOf, hb, UInt32.ofNat_toNat, append_assoc, take_append_drop]

theorem dispatchPayload_malformed {payload : Bytes} (hfits : Fits payload) (h : ¬ WellFormed w payload) :
    dispatchPayload w ep payload = .done (failurePayload, ep) := by
  rcases payload with _ | ⟨msgId, body⟩
  · exact absurd hfits.1 (lt_irrefl 0)
  have hlist : msgId ≠ requestIdentitiesMsgId := fun heq => h (.inl ⟨body, congrArg (· :: body) heq⟩)
  have htyped : ¬ CertForm (msgId :: body) → dispatchTyped w ep (msgId :: body) = .done (failurePayload, ep) := by
    intro hform
    unfold dispatchTyped
    cases hdecode : w.decodeRequest (msgId :: body) with
    | error e => rfl
    | ok request => exact absurd (.inr (.inr ⟨hform, request, hdecode⟩)) h
  rw [dispatchPayload, if_neg hlist]
  rcases Decidable.em (msgId = signRequestMsgId) with rfl | hsign
  · rw [if_pos rfl, trySignWithCert]
    cases hpeek : peekCert body with
    | none =>
      refine htyped ?_
      rintro ⟨keyBlob, rest, heq, hcert⟩
      have hbody : body = frameOf keyBlob ++ rest := (List.cons.inj heq).2
      have hsmall : keyBlob.length ≤ 0xFFFFF := by
        have hlen := hfits.2
        rw [hbody, length_cons, length_append, length_frameOf, maxFrameLen] at hlen
        omega
      unfold peekCert at hpeek
      rw [hbody, decodeString_frameOf hsmall, filter_some, if_pos hcert] at hpeek
      cases hpeek
    | some read =>
      obtain ⟨keyBlob, rest⟩ := read
      obtain ⟨hblob, hcert⟩ := filter_eq_some_iff.1 hpeek
      rw [map_some]
      dsimp only
      unfold signWithCert
      split
      · rfl
      next data rest' hdata =>
      split
      · rfl
      next flags rest'' hflags =>
      unfold signCertRequest
      cases hbare : w.certFromBytes keyBlob with
      | error e => rfl
      | ok bare =>
        refine absurd (.inr (.inl ⟨keyBlob, data, rest'', flags, bare, ?_, hcert, hbare⟩)) h
        rw [eq_of_decodeString hblob, eq_of_decodeString hdata, decodeU32_eq_some hflags]
        simp only [append_assoc, cons_append]
  · rw [if_neg hsign]
    refine htyped ?_
    rintro ⟨keyBlob, rest, heq, -⟩
    exact hsign (List.cons.inj heq).1

theorem answers_malformed {payload : Bytes} (hfits : Fits payload) (h : ¬ WellFormed w payload)
    (ending : Except SocketError Unit) (payloads : List Bytes) :
    answers w ending ep (payload :: payloads) =
      (answers w ending ep payloads).bind fun served => .done (served.prepend (frameOf failurePayload)) := by
  have hsmall : failurePayload.length < 2 ^ 32 := by decide
  rw [answers, dispatchPayload_malformed hfits h, bind_done]
  rw [if_pos hsmall]

end Malformed

def readString (bs : Bytes) : Option (Bytes × Bytes) := (decodeU32 bs).bind fun r => readExact r.1.toNat r.2

def readAdvertised (bs : Bytes) : Option (Advertised × Bytes) :=
  (readString bs).bind fun keyBlob => (readString keyBlob.2).bind fun comment =>
    (fromUtf8 comment.1).map fun text => (⟨keyBlob.1, text⟩, comment.2)

def readIdentities : Nat → Bytes → Option (List Advertised × Bytes)
  | 0, bs => some ([], bs)
  | n + 1, bs =>
    (readAdvertised bs).bind fun first => (readIdentities n first.2).map fun others => (first.1 :: others.1, others.2)

def decodeIdentitiesAnswer : Bytes → Option (List Advertised)
  | [] => none
  | msgId :: body =>
    if msgId = identitiesAnswerMsgId then
      (decodeU32 body).bind fun count => (readIdentities count.1.toNat count.2).bind fun read =>
        if read.2 = [] then some read.1 else none
    else none

variable {bytes : Bytes}

theorem encodeString_eq_ok (h : encodeString b = .ok bytes) : b.length < 2 ^ 32 ∧ bytes = frameOf b := by
  unfold encodeString at h
  split_ifs at h with hlen
  cases h
  exact ⟨hlen, rfl⟩

theorem readString_frameOf (h : b.length < 2 ^ 32) (rest : Bytes) :
    readString (frameOf b ++ rest) = some (b, rest) := by
  unfold readString frameOf
  rw [append_assoc, decodeU32_encodeU32, bind_some]
  rw [toNat_ofNat_of_lt h]
  exact readExact_append rfl rest

theorem readAdvertised_encode {a : Advertised} (h : encodeAdvertised a = .ok bytes) (rest : Bytes) :
    readAdvertised (bytes ++ rest) = some (a, rest) := by
  unfold encodeAdvertised at h
  cases hkey : encodeString a.keyBlob with
  | error e =>
    rw [hkey] at h
    cases h
  | ok keyBlob =>
    cases hcomment : encodeString (utf8 a.comment) with
    | error e =>
      rw [hkey, hcomment] at h
      cases h
    | ok comment =>
      rw [hkey, hcomment] at h
      cases h
      obtain ⟨hkeylen, rfl⟩ := encodeString_eq_ok hkey
      obtain ⟨hlen, rfl⟩ := encodeString_eq_ok hcomment
      unfold readAdvertised
      rw [append_assoc, readString_frameOf hkeylen, bind_some]
      rw [readString_frameOf hlen, bind_some, fromUtf8_utf8, map_some]

theorem readIdentities_encode {advertised : List Advertised} {identities : List Bytes}
    (h : advertised.mapM encodeAdvertised = .ok identities) (rest : Bytes) :
    readIdentities advertised.length (identities.flatten ++ rest) = some (advertised, rest) := by
  induction advertised generalizing identities with
  | nil =>
    cases h
    rfl
  | cons a advertised ih =>
    rw [mapM_cons] at h
    cases hfirst : encodeAdvertised a with
    | error e =>
      rw [hfirst] at h
      cases h
    | ok bytes =>
      cases hothers : advertised.mapM encodeAdvertised with
      | error e =>
        rw [hfirst, hothers] at h
        cases h
      | ok others =>
        rw [hfirst, hothers] at h
        cases h
        rw [length_cons, readIdentities, flatten_cons, append_assoc, readAdvertised_encode hfirst, bind_some]
        rw [ih hothers, map_some]

theorem decodeIdentitiesAnswer_encode {advertised : List Advertised} (hcount : advertised.length < 2 ^ 32)
    (h : encodeIdentitiesAnswer advertised = .ok bytes) : decodeIdentitiesAnswer bytes = some advertised := by
  unfold encodeIdentitiesAnswer at h
  cases hidentities : advertised.mapM encodeAdvertised with
  | error e =>
    rw [hidentities] at h
    cases h
  | ok identities =>
    rw [hidentities] at h
    cases h
    have hread := readIdentities_encode hidentities []
    rw [append_nil] at hread
    dsimp only
    rw [cons_append, decodeIdentitiesAnswer, if_pos rfl, decodeU32_encodeU32, bind_some]
    rw [toNat_ofNat_of_lt hcount, hread, bind_some, if_pos rfl]

/-- **The stream of frames.** The loop answers the complete frames one after the other, whatever the pieces they arrive in,
until a reply is too large; a malformed frame is a failure that changes no other answer; a listing of fewer identities than
32 bits count can be read back. -/
theorem socket_spec {KeyData : Type} [DecidableEq KeyData] (w : Wire KeyData) :
    (∀ input, ∃ (payloads : List Bytes) (tail : Bytes), input = payloads.flatMap frameOf ++ tail ∧
      (∀ payload ∈ payloads, Fits payload) ∧ Stuck tail ∧ ∀ ep cuts,
        handleSocket w ep input cuts = answers w (endingOf tail) ep payloads ∧
        ∀ {ι σ : Type} (handle : ι → (op : Op) → σ → op.Resp × σ) (s t : σ) (served : Served),
          Prog.Ends handle (handleSocket w ep input cuts) s served t →
          (served.written.length = payloads.length ∧ served.result = endingOf tail) ∨
            served.written.length < payloads.length ∧ ∃ reply : Bytes, 2 ^ 32 ≤ reply.length ∧
              served.result = .error (replyTooLarge reply)) ∧
    (∀ payload, Fits payload → ¬ WellFormed w payload → ∀ ending ep payloads, answers w ending ep (payload :: payloads) =
        (answers w ending ep payloads).bind fun served => .done (served.prepend (frameOf failurePayload))) ∧
    ∀ advertised bytes, advertised.length < 2 ^ 32 → encodeIdentitiesAnswer advertised = .ok bytes →
      decodeIdentitiesAnswer bytes = some advertised := by
  refine ⟨fun input => ?_, fun payload hfits h ending ep payloads => answers_malformed hfits h ending payloads,
    fun advertised bytes hcount h => decodeIdentitiesAnswer_encode hcount h⟩
  obtain ⟨payloads, tail, rfl, hall, hstuck⟩ := exists_frames input
  refine ⟨payloads, tail, rfl, hall, hstuck, fun ep cuts => ⟨handleSocket_eq w hall hstuck ep cuts, ?_⟩⟩
  intro ι σ handle s t served hends
  rw [handleSocket_eq w hall hstuck ep cuts] at hends
  exact length_written hends

def labelled (n : Nat) : SshKeyRow := { sampleRow .always with label := String.ofList (List.replicate n 'a') }

def holding (rows : List SshKeyRow) (_ : Unit) (op : Op) (_ : Unit) : op.Resp × Unit :=
  match op with
  | .listRows => (.ok rows, ())
  | .lookupCert _ => (.ok none, ())
  | .enqueue keyId keyLabel requester => ((⟨"", keyId, keyLabel, requester⟩, 0), ())
  | .publishPrompt _ => ((), ())
  | .awaitDecision _ => (.closed, ())
  | .persistPolicy _ _ => (.ok (), ())
  | .sign _ _ _ => (.error (.signer ""), ())

theorem length_utf8_replicate (n : Nat) : (utf8 (String.ofList (List.replicate n 'a'))).length = n := by
  rw [utf8_eq_flatMap, String.toList_ofList]
  induction n with
  | zero => rfl
  | succ n ih =>
    rw [replicate_succ, flatMap_cons, length_append, ih, Nat.add_comm]
    rfl

theorem ends_buildAdvertised (rows : List SshKeyRow) (n count : Nat) :
    Prog.Ends (holding rows) (buildAdvertised sampleWire (List.replicate count (labelled n))) ()
      (.ok (List.replicate count ⟨sampleKeyBlob, (labelled n).label⟩)) () := by
  induction count with
  | zero => exact ends_done.2 ⟨rfl, rfl⟩
  | succ count ih =>
    have hpublishable : rowIsPublishable (labelled n) = true := rfl
    have hblob : bareKeyBlob sampleWire (labelled n) = some sampleKeyBlob := rfl
    rw [replicate_succ, replicate_succ, buildAdvertised, hpublishable, hblob]
    refine ends_andThen.2 ⟨none, (), ends_perform.2 ⟨(), rfl⟩, ends_andThen.2 ⟨_, (), ih, ?_⟩⟩
    exact ends_done.2 ⟨rfl, rfl⟩

theorem encodeIdentitiesAnswer_labelled {n : Nat} (hn : n < 2 ^ 32) (count : Nat) :
    ∃ bytes, encodeIdentitiesAnswer (List.replicate count ⟨sampleKeyBlob, (labelled n).label⟩) = .ok bytes ∧
      count * n ≤ bytes.length := by
  have hkey : encodeString sampleKeyBlob = .ok (frameOf sampleKeyBlob) := if_pos (by decide +kernel)
  have hlabel : encodeString (utf8 (labelled n).label) = .ok (frameOf (utf8 (labelled n).label)) :=
    if_pos (by rwa [labelled, length_utf8_replicate])
  have hone : encodeAdvertised ⟨sampleKeyBlob, (labelled n).label⟩ =
      .ok (frameOf sampleKeyBlob ++ frameOf (utf8 (labelled n).label)) := by
    unfold encodeAdvertised
    rw [hkey, hlabel]
    rfl
  have hlen : n ≤ (frameOf sampleKeyBlob ++ frameOf (utf8 (labelled n).label)).length := by
    rw [length_append, length_frameOf (utf8 _), labelled, length_utf8_replicate]
    omega
  have hall : ∃ identities, (List.replicate count (⟨sampleKeyBlob, (labelled n).label⟩ : Advertised)).mapM encodeAdvertised =
      .ok identities ∧ count * n ≤ identities.flatten.length := by
    induction count with
    | zero => exact ⟨[], rfl, by simp⟩
    | succ count ih =>
      obtain ⟨identities, hidentities, hlong⟩ := ih
      refine ⟨(frameOf sampleKeyBlob ++ frameOf (utf8 (labelled n).label)) :: identities, ?_, ?_⟩
      · rw [replicate_succ, mapM_cons, hone, hidentities]
        rfl
      · rw [flatten_cons, length_append, Nat.succ_mul]
        omega
  obtain ⟨identities, hidentities, hlong⟩ := hall
  refine ⟨_, by rw [encodeIdentitiesAnswer, hidentities]; rfl, ?_⟩
  rw [length_append]
  omega

/-- Five keys with labels of 900,000,000 letters: the listing has no length in 32 bits, and the request is not answered. -/
theorem listing_not_answered : ¬ ∀ served t, Prog.Ends (holding (List.replicate 5 (labelled (9 * 10 ^ 8))))
    (handleSocket sampleWire ⟨false⟩ (frameOf [requestIdentitiesMsgId]) []) () served t → served.written.length = 1 := by
  intro h
  have hfits : ∀ payload ∈ [[requestIdentitiesMsgId]], Fits payload := by decide
  have hstuck : Stuck [] := by
    intro payload rest hfits heq
    have hlen := congrArg List.length heq
    rw [length_append, length_frameOf, length_nil] at hlen
    omega
  have hloop := handleSocket_eq sampleWire hfits hstuck ⟨false⟩ []
  rw [flatMap_singleton, append_nil] at hloop
  obtain ⟨bytes, hencode, hlong⟩ := encodeIdentitiesAnswer_labelled (show 9 * 10 ^ 8 < 2 ^ 32 by decide) 5
  have hlarge : ¬ bytes.length < 2 ^ 32 := by omega
  rw [hloop] at h
  have hlisted : Ends (holding (List.replicate 5 (labelled (9 * 10 ^ 8)))) (identitiesPayload sampleWire ⟨false⟩) ()
      (.ok bytes) () := by
    refine ends_andThen.2 ⟨_, (), ends_mapError.2 (ends_perform.2 ⟨(), rfl⟩), ?_⟩
    refine ends_andThen.2 ⟨_, (), ends_mapError.2 (ends_buildAdvertised _ _ 5), ?_⟩
    exact ends_done.2 ⟨by rw [hencode]; rfl, rfl⟩
  have hended : Ends (holding (List.replicate 5 (labelled (9 * 10 ^ 8))))
      (answers sampleWire (endingOf []) ⟨false⟩ [[requestIdentitiesMsgId]]) ()
      ⟨[], ⟨false⟩, .error (replyTooLarge bytes)⟩ () := by
    rw [answers]
    refine ends_bind.2 ⟨(bytes, ⟨false⟩), (), ?_, ?_⟩
    · rw [dispatchPayload, if_pos rfl]
      exact ends_bind.2 ⟨.ok bytes, (), hlisted, ends_done.2 ⟨rfl, rfl⟩⟩
    · rw [if_neg hlarge]
      exact ends_done.2 ⟨rfl, rfl⟩
  exact absurd (h _ _ hended) Nat.zero_ne_one

end LetsFlutSsh.SshAgent
