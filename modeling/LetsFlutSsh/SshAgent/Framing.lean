import LetsFlutSsh.Lib.CutReads
import LetsFlutSsh.SshAgent.LoopRunner

/-!
# SSH agent: the stream of frames

`handle_socket` in `ssh_agent/loop_runner.rs`.

* `handleSocket` : the loop, over a stream of bytes that arrives in pieces;
* `answers` : the requests one after the other, each with the session that the one before leaves.
-/

namespace LetsFlutSsh.SshAgent
open Lib List

/-! ## The loop -/

inductive SocketError where
  | unexpectedEof
  | other (message : String)

/-- What the loop has written, and how it ends. -/
structure Served where
  written : List Bytes
  session : Endpoint
  result : Except SocketError Unit

def frameOf (payload : Bytes) : Bytes := encodeU32 (.ofNat payload.length) ++ payload

def replyTooLarge (payload : Bytes) : SocketError := .other s!"agent: reply too large ({payload.length} bytes)"

def writeFrame (payload : Bytes) : Except SocketError Bytes :=
  if payload.length < 2 ^ 32 then .ok (frameOf payload) else .error (replyTooLarge payload)

def invalidFrameLength (frameLen : Nat) : SocketError := .other s!"agent: invalid frame length {frameLen}"

def Served.prepend (frame : Bytes) (served : Served) : Served := { served with written := frame :: served.written }

variable {KeyData : Type}

section Loop

variable [DecidableEq KeyData] (w : Wire KeyData)

def handleSocket (ep : Endpoint) (input : Bytes) (cuts : List Nat) : Handler Served :=
  match _hheader : readInCuts 4 input cuts with
  | none => .done ⟨[], ep, .ok ()⟩
  | some (lenBytes, rest, cuts) =>
    let frameLen := (ofBeBytes lenBytes).toNat
    if frameLen = 0 ∨ frameLen > maxFrameLen then .done ⟨[], ep, .error (invalidFrameLength frameLen)⟩
    else
      match _hpayload : readInCuts frameLen rest cuts with
      | none => .done ⟨[], ep, .error .unexpectedEof⟩
      | some (payload, rest, cuts) =>
        (dispatchPayload w ep payload).bind fun reply =>
          match writeFrame reply.1 with
          | .error e => .done ⟨[], reply.2, .error e⟩
          | .ok frame => (handleSocket reply.2 rest cuts).bind fun served => .done (served.prepend frame)
termination_by input.length
decreasing_by
  have h := length_of_readInCuts _hheader
  have h' := length_of_readInCuts _hpayload
  omega

/-! ## What it is for -/

/-- Requests one after the other; a reply that has no length in 32 bits ends the connection. -/
def answers (ending : Except SocketError Unit) (ep : Endpoint) : List Bytes → Handler Served
  | [] => .done ⟨[], ep, ending⟩
  | payload :: payloads =>
    (dispatchPayload w ep payload).bind fun reply =>
      if reply.1.length < 2 ^ 32 then
        (answers ending reply.2 payloads).bind fun served => .done (served.prepend (frameOf reply.1))
      else .done ⟨[], reply.2, .error (replyTooLarge reply.1)⟩

end Loop

def Fits (payload : Bytes) : Prop := 0 < payload.length ∧ payload.length ≤ maxFrameLen

instance (payload : Bytes) : Decidable (Fits payload) := inferInstanceAs (Decidable (_ ∧ _))

def Stuck (tail : Bytes) : Prop := ∀ payload rest, Fits payload → tail ≠ frameOf payload ++ rest

def endingOf (tail : Bytes) : Except SocketError Unit :=
  match decodeU32 tail with
  | none => .ok ()
  | some (frameLen, _) =>
    if frameLen.toNat = 0 ∨ frameLen.toNat > maxFrameLen then .error (invalidFrameLength frameLen.toNat)
    else .error .unexpectedEof

/-! ## Lengths and strings -/

variable (n : UInt32)

theorem length_encodeU32 : (encodeU32 n).length = 4 := by
  unfold encodeU32
  rw [length_reverse, length_leBytes]

theorem ofBeBytes_encodeU32 : ofBeBytes (encodeU32 n) = n := by
  unfold ofBeBytes encodeU32
  rw [reverse_reverse, ofLeBytes_leBytes n.toNat_lt]
  exact UInt32.ofNat_toNat

theorem decodeU32_encodeU32 (rest : Bytes) : decodeU32 (encodeU32 n ++ rest) = some (n, rest) := by
  unfold decodeU32
  rw [readExact_append (length_encodeU32 n), Option.map_some, ofBeBytes_encodeU32]

theorem toNat_ofNat_of_lt {n : Nat} (h : n < 2 ^ 32) : (UInt32.ofNat n).toNat = n := by
  rw [UInt32.toNat_ofNat', Nat.mod_eq_of_lt h]

theorem encodeU32_ofBeBytes {bs : Bytes} (h : bs.length = 4) : encodeU32 (ofBeBytes bs) = bs := by
  have hlen : bs.reverse.length = 4 := by rw [length_reverse, h]
  have hlt : ofLeBytes bs.reverse < 2 ^ 32 := by
    have hbound := ofLeBytes_lt bs.reverse
    rw [hlen] at hbound
    exact hbound
  have hword := leBytes_ofLeBytes bs.reverse
  rw [hlen] at hword
  unfold encodeU32 ofBeBytes
  rw [toNat_ofNat_of_lt hlt, hword, reverse_reverse]

theorem decodeU32_eq_some {bs rest : Bytes} {n : UInt32} (h : decodeU32 bs = some (n, rest)) :
    bs = encodeU32 n ++ rest := by
  obtain ⟨⟨word, rest'⟩, hread, heq⟩ := Option.map_eq_some_iff.1 h
  obtain ⟨rfl, rfl⟩ := Prod.mk.inj heq
  have hlen := (readExact_length hread).1
  unfold readExact at hread
  split_ifs at hread
  cases hread
  rw [encodeU32_ofBeBytes hlen, take_append_drop]

theorem length_frameOf (payload : Bytes) : (frameOf payload).length = 4 + payload.length := by
  rw [frameOf, length_append, length_encodeU32]

variable {payload : Bytes}

theorem Fits.toNat (h : Fits payload) : (UInt32.ofNat payload.length).toNat = payload.length :=
  toNat_ofNat_of_lt (h.2.trans_lt (by decide))

/-! ## The frames of a stream -/

theorem exists_frames (input : Bytes) : ∃ (payloads : List Bytes) (tail : Bytes), input = payloads.flatMap frameOf ++ tail ∧
    (∀ payload ∈ payloads, Fits payload) ∧ Stuck tail := by
  induction hlen : input.length using Nat.strongRecOn generalizing input with
  | ind n ih =>
    rcases Classical.em (Stuck input) with hstuck | hframe
    · exact ⟨[], input, rfl, nofun, hstuck⟩
    unfold Stuck at hframe
    push Not at hframe
    obtain ⟨payload, rest, hfits, rfl⟩ := hframe
    rw [length_append, length_frameOf] at hlen
    obtain ⟨payloads, tail, rfl, hall, hstuck⟩ := ih rest.length (by omega) rest rfl
    refine ⟨payload :: payloads, tail, ?_, forall_mem_cons.2 ⟨hfits, hall⟩, hstuck⟩
    rw [flatMap_cons, append_assoc]

section Loop

variable [DecidableEq KeyData] {w : Wire KeyData} {ep : Endpoint}

section Steps

variable {input lenBytes rest rest' : Bytes} {cuts cuts' cuts'' : List Nat}

theorem handleSocket_header_none (h : readInCuts 4 input cuts = none) :
    handleSocket w ep input cuts = .done ⟨[], ep, .ok ()⟩ := by
  rw [handleSocket]
  split
  · rfl
  · next heq =>
    rw [h] at heq
    cases heq

section

variable (h : readInCuts 4 input cuts = some (lenBytes, rest, cuts'))
include h

theorem handleSocket_invalid (hinvalid : (ofBeBytes lenBytes).toNat = 0 ∨ (ofBeBytes lenBytes).toNat > maxFrameLen) :
    handleSocket w ep input cuts = .done ⟨[], ep, .error (invalidFrameLength (ofBeBytes lenBytes).toNat)⟩ := by
  rw [handleSocket]
  split
  · next heq =>
    rw [h] at heq
    cases heq
  · next heq =>
    rw [h] at heq
    cases heq
    exact if_pos hinvalid

section

variable (hvalid : ¬((ofBeBytes lenBytes).toNat = 0 ∨ (ofBeBytes lenBytes).toNat > maxFrameLen))
include hvalid

theorem handleSocket_payload_none (hpayload : readInCuts (ofBeBytes lenBytes).toNat rest cuts' = none) :
    handleSocket w ep input cuts = .done ⟨[], ep, .error .unexpectedEof⟩ := by
  rw [handleSocket]
  split
  · next heq =>
    rw [h] at heq
    cases heq
  next heq =>
  rw [h] at heq
  cases heq
  rw [if_neg hvalid]
  split
  · rfl
  · next heq =>
    rw [hpayload] at heq
    cases heq

theorem handleSocket_payload (hpayload : readInCuts (ofBeBytes lenBytes).toNat rest cuts' = some (payload, rest', cuts'')) :
    handleSocket w ep input cuts = (dispatchPayload w ep payload).bind fun reply =>
      match writeFrame reply.1 with
      | .error e => .done ⟨[], reply.2, .error e⟩
      | .ok frame => (handleSocket w reply.2 rest' cuts'').bind fun served => .done (served.prepend frame) := by
  rw [handleSocket]
  split
  · next heq =>
    rw [h] at heq
    cases heq
  next heq =>
  rw [h] at heq
  cases heq
  rw [if_neg hvalid]
  split
  · next heq =>
    rw [hpayload] at heq
    cases heq
  · next heq =>
    rw [hpayload] at heq
    cases heq
    rfl

end

end

end Steps

theorem handleSocket_stuck {tail : Bytes} (h : Stuck tail) (cuts : List Nat) :
    handleSocket w ep tail cuts = .done ⟨[], ep, endingOf tail⟩ := by
  unfold endingOf decodeU32 readExact
  rcases Nat.lt_or_ge tail.length 4 with hshort | hlong
  · rw [handleSocket_header_none (readInCuts_eq_none hshort cuts), if_neg hshort.not_ge]
    rfl
  obtain ⟨cuts', hheader⟩ := readInCuts_eq_some hlong cuts
  rw [if_pos hlong, Option.map_some]
  dsimp only
  split_ifs with hinvalid
  · exact handleSocket_invalid hheader hinvalid
  refine handleSocket_payload_none hheader hinvalid (readInCuts_eq_none (Nat.lt_of_not_ge fun hle => ?_) cuts')
  -- A frame of that length would be complete.
  have hfour : (tail.take 4).length = 4 := by rw [length_take, Nat.min_eq_left hlong]
  have hlen : ((tail.drop 4).take (ofBeBytes (tail.take 4)).toNat).length = (ofBeBytes (tail.take 4)).toNat := by
    rw [length_take, Nat.min_eq_left hle]
  have hframe : tail = frameOf ((tail.drop 4).take (ofBeBytes (tail.take 4)).toNat) ++
      (tail.drop 4).drop (ofBeBytes (tail.take 4)).toNat := by
    rw [frameOf, hlen, UInt32.ofNat_toNat, encodeU32_ofBeBytes hfour, append_assoc, take_append_drop, take_append_drop]
  refine h _ _ ⟨?_, ?_⟩ hframe
  · rw [hlen]
    omega
  · rw [hlen]
    omega

theorem handleSocket_frame (w : Wire KeyData) (ep : Endpoint) (h : Fits payload) (rest : Bytes)
    (cuts : List Nat) :
    ∃ cuts', handleSocket w ep (frameOf payload ++ rest) cuts = (dispatchPayload w ep payload).bind fun reply =>
      match writeFrame reply.1 with
      | .error e => .done ⟨[], reply.2, .error e⟩
      | .ok frame => (handleSocket w reply.2 rest cuts').bind fun served => .done (served.prepend frame) := by
  have hsplit : frameOf payload ++ rest = encodeU32 (.ofNat payload.length) ++ (payload ++ rest) := append_assoc _ _ _
  have hlong : 4 ≤ (frameOf payload ++ rest).length := by
    rw [length_append, length_frameOf]
    omega
  obtain ⟨cuts', hheader⟩ := readInCuts_eq_some hlong cuts
  rw [hsplit, take_left' (length_encodeU32 _), drop_left' (length_encodeU32 _)] at hheader
  have hlen : (ofBeBytes (encodeU32 (.ofNat payload.length))).toNat = payload.length := by
    rw [ofBeBytes_encodeU32, h.toNat]
  have henough : payload.length ≤ (payload ++ rest).length := by
    rw [length_append]
    exact Nat.le_add_right _ _
  obtain ⟨cuts'', hbody⟩ := readInCuts_eq_some henough cuts'
  rw [take_left, drop_left] at hbody
  rw [hsplit]
  refine ⟨cuts'', handleSocket_payload hheader ?_ ?_⟩
  · rw [hlen]
    exact not_or.2 ⟨h.1.ne', h.2.not_gt⟩
  · rw [hlen]
    exact hbody

theorem handleSocket_eq (w : Wire KeyData) {payloads : List Bytes} {tail : Bytes}
    (h : ∀ payload ∈ payloads, Fits payload) (hstuck : Stuck tail)
    (ep : Endpoint) (cuts : List Nat) :
    handleSocket w ep (payloads.flatMap frameOf ++ tail) cuts = answers w (endingOf tail) ep payloads := by
  induction payloads generalizing ep cuts with
  | nil => exact handleSocket_stuck hstuck cuts
  | cons payload payloads ih =>
    obtain ⟨hfits, hall⟩ := forall_mem_cons.1 h
    rw [flatMap_cons, append_assoc]
    obtain ⟨cuts', hframe⟩ := handleSocket_frame w ep hfits (payloads.flatMap frameOf ++ tail) cuts
    rw [hframe, answers]
    refine congrArg (Prog.bind _) (funext fun reply => ?_)
    unfold writeFrame
    split_ifs with hsmall
    · rw [ih hall]
    · rfl

theorem length_written {ι σ : Type} {handle : ι → (op : Op) → σ → op.Resp × σ} {ending : Except SocketError Unit}
    {payloads : List Bytes} {s t : σ} {served : Served} (h : Prog.Ends handle (answers w ending ep payloads) s served t) :
    (served.written.length = payloads.length ∧ served.result = ending) ∨
      served.written.length < payloads.length ∧ ∃ reply : Bytes, 2 ^ 32 ≤ reply.length ∧
        served.result = .error (replyTooLarge reply) := by
  induction payloads generalizing ep s t served with
  | nil =>
    obtain ⟨rfl, -⟩ := Prog.ends_done.1 h
    exact .inl ⟨rfl, rfl⟩
  | cons payload payloads ih =>
    rw [answers, Prog.ends_bind] at h
    obtain ⟨reply, u, -, h⟩ := h
    split_ifs at h with hsmall
    · obtain ⟨served', v, hrest, h⟩ := Prog.ends_bind.1 h
      obtain ⟨rfl, -⟩ := Prog.ends_done.1 h
      refine (ih hrest).imp (fun hall => ⟨congrArg (· + 1) hall.1, hall.2⟩) fun hcut => ⟨?_, hcut.2⟩
      exact Nat.succ_lt_succ hcut.1
    · obtain ⟨rfl, -⟩ := Prog.ends_done.1 h
      exact .inr ⟨Nat.succ_pos _, reply.1, not_lt.1 hsmall, rfl⟩

end Loop

end LetsFlutSsh.SshAgent
