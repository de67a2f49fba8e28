import Mathlib.Logic.Equiv.List
import LetsFlutSsh.Lib.Run
import LetsFlutSsh.Security.RateLimit
import LetsFlutSsh.Security.KeychainGate

/-!
# Security: the rate limiter on disk

`security/persisted_rate_limit.rs` and `security/persisted_rate_limit_actor.rs`:

* `encodeState`, `decodeState` : the authenticated frame of the state file (`decodeState_encode`);
* `Registry`, `initOrGet`, `recordFailure`, `recordSuccess`, `clear` : the actor, whose writes run in the background;
* `step` : the calls on one id, and the completion of the spawned writes in any order;
* `serialised` : the steps of a run that keeps calls and writes in order; `Ordered` : what holds in such a run;
* `reflects_of_serialised` : then the state file holds what the last call set.
-/

namespace LetsFlutSsh.Security
open Lib Lib.Json Option Function

/-! ## The frame -/

structure PersistedState where
  failureCount : Int64
  nextRetryAtMillis : Option Int64
  deriving DecidableEq

def payloadJson (st : PersistedState) : Json :=
  .obj [("failure_count", .ofI64 st.failureCount), ("next_retry_at_millis", st.nextRetryAtMillis.elim .null .ofI64)]

def frameJson (payload hmac : String) : Json := .obj [("hmac", .str hmac), ("payload", .str payload)]

/-- The JSON printer and parser, the base64 engine and the hashes that the frame is made with. -/
structure FrameCodec where
  toText : Json → String
  fromStr : String → Except String Json
  encode64 : Bytes → String
  decode64 : String → Except String Bytes
  hmacSha256 : Bytes → Bytes → Bytes
  hkdfSha256 : Bytes → Bytes → Bytes → Bytes
  decode_encode : ∀ b, decode64 (encode64 b) = .ok b
  fromStr_payload : ∀ st, fromStr (toText (payloadJson st)) = .ok (payloadJson st)
  fromStr_frame : ∀ a b, fromStr (toText (frameJson (encode64 a) (encode64 b))) = .ok (frameJson (encode64 a) (encode64 b))

def signingKeyHkdfInfo : Bytes := utf8 "lfs/persisted-rate-limit/v2"
def signingKeyHkdfSalt : Bytes := utf8 "lfs/persisted-rate-limit/salt/v2"

section Frame

variable (C : FrameCodec)

def deriveSigningKey (gateHmac : Bytes) : Bytes := C.hkdfSha256 gateHmac signingKeyHkdfSalt signingKeyHkdfInfo

def encodeState (state : PersistedState) (gateHmac : Bytes) : Bytes :=
  let payload := utf8 (C.toText (payloadJson state))
  let hmac := C.hmacSha256 (deriveSigningKey C gateHmac) payload
  utf8 (C.toText (frameJson (C.encode64 payload) (C.encode64 hmac)))

/-- `decode_state`; nothing for a frame that was tampered with. -/
def decodeState (bytes gateHmac : Bytes) : Option PersistedState := do
  let text ← fromUtf8 bytes
  let frame ← (C.fromStr text).toOption
  let obj ← frame.asObject
  let payload64 ← (obj.get "payload").bind asStr
  let hmac64 ← (obj.get "hmac").bind asStr
  let payloadBytes ← (C.decode64 payload64).toOption
  let claimed ← (C.decode64 hmac64).toOption
  if claimed ≠ C.hmacSha256 (deriveSigningKey C gateHmac) payloadBytes then none
  else
    let payloadText ← fromUtf8 payloadBytes
    let payload ← (C.fromStr payloadText).toOption
    let payloadObj ← payload.asObject
    return {
      failureCount := ((payloadObj.get "failure_count").bind asI64).getD 0
      nextRetryAtMillis := (payloadObj.get "next_retry_at_millis").bind asI64 }

theorem decodeState_encode (state : PersistedState) (gateHmac : Bytes) :
    decodeState C (encodeState C state gateHmac) gateHmac = some state := by
  obtain ⟨count, next⟩ := state
  have hnext : (Object.get [("failure_count", ofI64 count), ("next_retry_at_millis", next.elim .null .ofI64)]
      "next_retry_at_millis").bind asI64 = next := by
    rw [Object.get_cons, if_neg (by decide), Object.get_cons, if_pos rfl]
    rcases next with _ | n
    · rfl
    · exact asI64_ofI64 n
  have hcount : (Object.get [("failure_count", ofI64 count), ("next_retry_at_millis", next.elim .null .ofI64)]
      "failure_count").bind asI64 = some count := by
    rw [Object.get_cons, if_pos rfl]
    exact asI64_ofI64 count
  have hpayload : ∀ p h : String, (Object.get [("hmac", .str h), ("payload", .str p)] "payload").bind asStr = some p := by
    intro p h
    rw [Object.get_cons, if_neg (by decide), Object.get_cons, if_pos rfl]
    rfl
  have hhmac : ∀ p h : String, (Object.get [("hmac", .str h), ("payload", .str p)] "hmac").bind asStr = some h := by
    intro p h
    rw [Object.get_cons, if_pos rfl]
    rfl
  have hok : ∀ {α : Type} (a : α), (Except.ok a : Except String α).toOption = some a := fun _ => rfl
  unfold decodeState encodeState
  simp only [fromUtf8_utf8, C.fromStr_frame, hok, bind_eq_bind, bind_some]
  simp only [frameJson, asObject_obj, bind_some, hpayload, hhmac, C.decode_encode, hok, fromUtf8_utf8,
    C.fromStr_payload, ne_eq, not_true_eq_false, if_false]
  simp only [payloadJson, asObject_obj, bind_some, hnext, hcount, getD_some]
  rfl

end Frame

/-! ## The actor -/

structure Entry where
  filePath : String
  hmacKey : Bytes
  state : Option PersistedState
  loaded : Bool
  /-- The handle of the write that was spawned last. -/
  pendingWrite : Option Nat

/-- A write that was spawned and has not completed. -/
structure SpawnedWrite where
  handle : Nat
  filePath : String
  hmacKey : Bytes
  state : PersistedState

/-- The registry, the files, and the writes on their way to them. -/
structure Registry where
  inner : String → Option Entry
  files : String → Option Bytes
  writes : List SpawnedWrite := []
  spawned : Nat := 0

variable {e : Entry}

section Actor

variable (C : FrameCodec)

def lastSlot : Nat := backoffSchedule.length - 1

/-- `read_state`: nothing on disk is a fresh state, a frame that does not verify the longest cooldown. -/
def readState (path : String) (hmacKey : Bytes) (now : Int64) (files : String → Option Bytes) : PersistedState :=
  match files path with
  | none => { failureCount := 0, nextRetryAtMillis := none }
  | some raw =>
    match decodeState C raw hmacKey with
    | some state => state
    | none =>
      { failureCount := Int64.ofNat lastSlot
        nextRetryAtMillis := some (now + Int64.ofNat (backoffSchedule.getLast?.getD 0) * 1000) }

def snapshotStatus (entry : Entry) (now : Int64) : RateLimitStatus :=
  if entry.loaded then
    match entry.state with
    | none => { failureCount := 0, cooldownRemainingMs := 0 }
    | some state =>
      { failureCount := (max state.failureCount 0).toUInt64.toUInt32.toNat
        cooldownRemainingMs :=
          match state.nextRetryAtMillis with
          | some next => (max (next - now) 0).toInt
          | none => 0 }
  else { failureCount := 0, cooldownRemainingMs := 0 }

/-- `write_state_sync`, when the disk goes along with it. -/
def writeStateSync (path : String) (hmacKey : Bytes) (state : PersistedState) (io : Bool)
    (files : String → Option Bytes) : String → Option Bytes :=
  if io then update files path (some (encodeState C state hmacKey)) else files

/-- `write_state_async`: spawned where there is a runtime, else done on the spot. -/
def writeStateAsync (path : String) (hmacKey : Bytes) (state : PersistedState) (runtime io : Bool) (r : Registry) :
    Option Nat × Registry :=
  if runtime then
    (some r.spawned, { r with writes := r.writes ++ [⟨r.spawned, path, hmacKey, state⟩], spawned := r.spawned + 1 })
  else (none, { r with files := writeStateSync C path hmacKey state io r.files })

namespace Registry

def setEntry (r : Registry) (id : String) (entry : Option Entry) : Registry :=
  { r with inner := update r.inner id entry }

def initOrGet (r : Registry) (id filePath : String) (hmacKey : Bytes) (now : Int64) : RateLimitStatus × Registry :=
  let entry := (r.inner id).getD { filePath, hmacKey, state := none, loaded := false, pendingWrite := none }
  let entry :=
    if entry.filePath ≠ filePath ∨ entry.hmacKey ≠ hmacKey then
      { entry with filePath, hmacKey, state := none, loaded := false }
    else entry
  let entry :=
    if entry.loaded then entry
    else { entry with state := some (readState C entry.filePath entry.hmacKey now r.files), loaded := true }
  (snapshotStatus entry now, r.setEntry id (some entry))

def status (r : Registry) (id : String) (now : Int64) : RateLimitStatus :=
  match r.inner id with
  | some entry => snapshotStatus entry now
  | none => { failureCount := 0, cooldownRemainingMs := 0 }

/-- The state that an entry goes on with, written in the background. -/
def store (r : Registry) (id : String) (entry : Entry) (state : PersistedState) (runtime io : Bool) : Registry :=
  let (handle, r) := writeStateAsync C entry.filePath entry.hmacKey state runtime io r
  r.setEntry id (some { entry with state := some state, loaded := true, pendingWrite := handle })

/-- The state after one more failure: the cooldown is never shortened. -/
def failed (current : PersistedState) (now : Int64) : PersistedState :=
  let nextCount := min (current.failureCount + 1) (Int64.ofNat lastSlot)
  let secs := if nextCount < 0 then 0 else backoffSchedule.getD nextCount.toInt.toNat 0
  { failureCount := nextCount
    nextRetryAtMillis :=
      match if secs = 0 then none else some (now + Int64.ofNat secs * 1000), current.nextRetryAtMillis with
      | some new, some prev => some (max new prev)
      | some new, none => some new
      | none, prev => prev }

/-- `record_failure`; the clock is read twice. -/
def recordFailure (r : Registry) (id : String) (now later : Int64) (runtime io : Bool) : RateLimitStatus × Registry :=
  match r.inner id with
  | none => ({ failureCount := 0, cooldownRemainingMs := 0 }, r)
  | some entry =>
    let state := failed (entry.state.getD { failureCount := 0, nextRetryAtMillis := none }) now
    let r := r.store C id entry state runtime io
    (r.status id later, r)

def recordSuccess (r : Registry) (id : String) (runtime io : Bool) : Registry :=
  match r.inner id with
  | none => r
  | some entry => r.store C id entry { failureCount := 0, nextRetryAtMillis := none } runtime io

/-- `clear`: the writes on their way stay on their way. -/
def clear (r : Registry) (id : String) (io : Bool) : Registry :=
  match r.inner id with
  | none => r
  | some entry =>
    { r.setEntry id none with files := if io then update r.files entry.filePath none else r.files }

def settle (r : Registry) (w : SpawnedWrite) (k : Nat) (io : Bool) : Registry :=
  { r with
    files := writeStateSync C w.filePath w.hmacKey w.state io r.files
    writes := r.writes.eraseIdx k }

end Registry

/-! ## Calls and completions -/

/-- A call on the id, or the completion of a write; `io` is whether the disk goes along. -/
inductive Event where
  | recordFailure (now later : Int64) (runtime io : Bool)
  | recordSuccess (runtime io : Bool)
  | clear (io : Bool)
  | settle (k : Nat) (io : Bool)

/-- The registry, with what the last call set (`some none` when it cleared the state). -/
structure History where
  registry : Registry
  lastSet : Option (Option PersistedState) := none

def History.called (h : History) (id : String) (r : Registry) : History :=
  if (h.registry.inner id).isSome then { registry := r, lastSet := some ((r.inner id).bind Entry.state) } else h

def step (id : String) (h : History) : Event → Option History
  | .recordFailure now later runtime io => some (h.called id (h.registry.recordFailure C id now later runtime io).2)
  | .recordSuccess runtime io => some (h.called id (h.registry.recordSuccess C id runtime io))
  | .clear io => some (h.called id (h.registry.clear id io))
  | .settle k io => h.registry.writes[k]?.map fun w => { h with registry := h.registry.settle C w k io }

/-- An id that was registered, and files; no write is on its way. -/
def History.start (others : String → Option Entry) (id : String) (entry : Entry) (files : String → Option Bytes) :
    History where
  registry := { inner := update others id (some entry), files }

def Holds (hmacKey : Bytes) (content : Option Bytes) : Option PersistedState → Prop
  | none => content = none
  | some state => ∃ raw, content = some raw ∧ decodeState C raw hmacKey = some state

def Reflects (entry : Entry) (h : History) : Prop :=
  ∀ set, h.lastSet = some set → Holds C entry.hmacKey (h.registry.files entry.filePath) set

/-- The newest write goes through, and only when no other is on its way; a write on the spot and `clear` find none on its
way, and go through. -/
def serialised (id : String) (h : History) : Event → Bool
  | .recordFailure _ _ runtime io | .recordSuccess runtime io =>
    (h.registry.inner id).isNone || runtime || (h.registry.writes.isEmpty && io)
  | .clear io => (h.registry.inner id).isNone || (h.registry.writes.isEmpty && io)
  | .settle k io => k + 1 ≠ h.registry.writes.length || (k = 0 && io)

variable {C} {id : String} {h h' : History} {ev : Event} {entry : Entry}

/-! ## What a step can do -/

def stored (C : FrameCodec) (id : String) (h : History) (e : Entry) (st : PersistedState) (runtime io : Bool) : History where
  registry := h.registry.store C id e st runtime io
  lastSet := some (some st)

def cleared (id : String) (h : History) (io : Bool) : History where
  registry := h.registry.clear id io
  lastSet := some none

theorem called_of_some (he : h.registry.inner id = some e) (r : Registry) :
    h.called id r = { registry := r, lastSet := some ((r.inner id).bind Entry.state) } := by
  have hsome : (h.registry.inner id).isSome = true := by rw [he]; rfl
  exact if_pos hsome

theorem called_of_none (he : h.registry.inner id = none) (r : Registry) : h.called id r = h := by
  have hnone : ¬ (h.registry.inner id).isSome = true := by rw [he]; exact nofun
  exact if_neg hnone

theorem called_store (he : h.registry.inner id = some e) (st : PersistedState) (runtime io : Bool) :
    h.called id (h.registry.store C id e st runtime io) = stored C id h e st runtime io := by
  rw [called_of_some he]
  unfold stored Registry.store Registry.setEntry
  dsimp only
  rw [update_self]
  rfl

theorem step_cases (hstep : step C id h ev = some h') : h' = h ∨
    (∃ e st runtime io, h.registry.inner id = some e ∧ h' = stored C id h e st runtime io ∧
      (serialised id h ev = true → runtime = true ∨ h.registry.writes = [] ∧ io = true)) ∨
    (∃ e io, h.registry.inner id = some e ∧ h' = cleared id h io ∧
      (serialised id h ev = true → h.registry.writes = [] ∧ io = true)) ∨
    ∃ k io w, h.registry.writes[k]? = some w ∧ h' = { h with registry := h.registry.settle C w k io } ∧
      (serialised id h ev = true → k + 1 = h.registry.writes.length → k = 0 ∧ io = true) := by
  rcases ev with ⟨now, later, runtime, io⟩ | ⟨runtime, io⟩ | io | ⟨k, io⟩
  case recordFailure =>
    cases hstep
    rcases he : h.registry.inner id with _ | e
    · exact .inl (called_of_none he _)
    · right; left
      refine ⟨e, Registry.failed (e.state.getD ⟨0, none⟩) now, runtime, io, rfl, ?_, ?_⟩
      · rw [← called_store he]
        unfold Registry.recordFailure
        rw [he]
      · simp [serialised, he]
  case recordSuccess =>
    cases hstep
    rcases he : h.registry.inner id with _ | e
    · exact .inl (called_of_none he _)
    · right; left
      refine ⟨e, ⟨0, none⟩, runtime, io, rfl, ?_, ?_⟩
      · rw [← called_store he]
        unfold Registry.recordSuccess
        rw [he]
      · simp [serialised, he]
  case clear =>
    cases hstep
    rcases he : h.registry.inner id with _ | e
    · exact .inl (called_of_none he _)
    right; right; left
    refine ⟨e, io, rfl, ?_, by simp [serialised, he]⟩
    have hgone : ((h.registry.clear id io).inner id).bind Entry.state = none := by
      unfold Registry.clear Registry.setEntry
      rw [he]
      dsimp only
      rw [update_self]
      rfl
    rw [called_of_some he, hgone]
    rfl
  case settle =>
    obtain ⟨w, hw, rfl⟩ := map_eq_some_iff.1 hstep
    refine .inr (.inr (.inr ⟨k, io, w, hw, rfl, fun hs hlast => ?_⟩))
    simpa [serialised, hlast] using hs

/-! ## The state file -/

/-- One file and one key; the newest write on its way carries what the last call set, and where none is, the file does. -/
structure Ordered (C : FrameCodec) (id : String) (entry : Entry) (h : History) : Prop where
  inner : ∀ e, h.registry.inner id = some e → e.filePath = entry.filePath ∧ e.hmacKey = entry.hmacKey
  writes : ∀ w ∈ h.registry.writes, w.filePath = entry.filePath ∧ w.hmacKey = entry.hmacKey
  newest : ∀ w, h.registry.writes.getLast? = some w → h.lastSet = some (some w.state)
  file : h.registry.writes = [] → Reflects C entry h

theorem reflects_of_write {st : PersistedState} (hset : h.lastSet = some (some st))
    (hfile : h.registry.files entry.filePath = some (encodeState C st entry.hmacKey)) : Reflects C entry h := by
  intro set hlast
  rw [hset] at hlast
  cases hlast
  exact ⟨_, hfile, decodeState_encode C st entry.hmacKey⟩

section

variable (ho : Ordered C id entry h)
include ho

theorem Ordered.stored (he : h.registry.inner id = some e) (st : PersistedState) (runtime io : Bool)
    (hs : runtime = true ∨ h.registry.writes = [] ∧ io = true) : Ordered C id entry (stored C id h e st runtime io) := by
  obtain ⟨hpath, hkey⟩ := ho.inner e he
  have hinner : ∀ e', (Security.stored C id h e st runtime io).registry.inner id = some e' →
      e'.filePath = entry.filePath ∧ e'.hmacKey = entry.hmacKey := by
    intro e' he'
    unfold Security.stored Registry.store Registry.setEntry at he'
    dsimp only at he'
    rw [update_self] at he'
    cases he'
    exact ⟨hpath, hkey⟩
  rcases runtime with _ | _
  · obtain ⟨hnone, rfl⟩ := hs.resolve_left Bool.false_ne_true
    refine ⟨hinner, ho.writes, fun w hw => ?_, fun _ => ?_⟩
    · have hw' : h.registry.writes.getLast? = some w := hw
      rw [hnone] at hw'
      cases hw'
    · refine reflects_of_write rfl ?_
      show update h.registry.files e.filePath _ entry.filePath = _
      rw [hpath, update_self, hkey]
  · refine ⟨hinner, fun w hw => ?_, fun w hw => ?_, fun hnone => ?_⟩
    · rcases List.mem_append.1 hw with hw | hw
      · exact ho.writes w hw
      · rw [List.mem_singleton.1 hw]
        exact ⟨hpath, hkey⟩
    · have hw' : (h.registry.writes ++ [(⟨h.registry.spawned, e.filePath, e.hmacKey, st⟩ : SpawnedWrite)]).getLast? = some w := hw
      rw [List.getLast?_concat] at hw'
      cases hw'
      rfl
    · exact absurd hnone (List.append_ne_nil_of_right_ne_nil _ (List.cons_ne_nil _ _))

theorem Ordered.cleared (he : h.registry.inner id = some e) (hnone : h.registry.writes = []) :
    Ordered C id entry (cleared id h true) := by
  have hregistry : (Security.cleared id h true).registry = { h.registry.setEntry id none with
      files := update h.registry.files e.filePath none } := by
    unfold Security.cleared Registry.clear
    rw [he]
    rfl
  refine ⟨fun e' he' => ?_, fun w hw => ?_, fun w hw => ?_, fun _ set hset => ?_⟩
  · rw [hregistry] at he'
    unfold Registry.setEntry at he'
    dsimp only at he'
    rw [update_self] at he'
    cases he'
  · rw [hregistry] at hw
    exact ho.writes w hw
  · rw [hregistry] at hw
    have hw' : h.registry.writes.getLast? = some w := hw
    rw [hnone] at hw'
    cases hw'
  · cases hset
    rw [hregistry]
    show update h.registry.files e.filePath none entry.filePath = none
    rw [(ho.inner e he).1, update_self]

theorem Ordered.settle {k : Nat} {w : SpawnedWrite} (hw : h.registry.writes[k]? = some w) (io : Bool)
    (hs : k + 1 = h.registry.writes.length → k = 0 ∧ io = true) :
    Ordered C id entry { h with registry := h.registry.settle C w k io } := by
  obtain ⟨hpath, hkey⟩ := ho.writes w (List.mem_of_getElem? hw)
  have hlt := (List.getElem?_eq_some_iff.1 hw).1
  have hlen := List.length_eraseIdx_of_lt hlt
  refine ⟨ho.inner, fun w' hw' => ho.writes w' (List.mem_of_mem_eraseIdx hw'), fun w' hw' => ?_, fun hnone => ?_⟩
  · refine ho.newest w' ?_
    have hlast : (h.registry.writes.eraseIdx k).getLast? = some w' := hw'
    have hpos := List.length_pos_of_mem (List.mem_of_getLast? hlast)
    -- The newest write is not the one that completed: that would have been the last one on its way.
    have hne : k + 1 ≠ h.registry.writes.length := fun heq => by
      have hzero := (hs heq).1
      omega
    rw [List.getLast?_eq_getElem?, List.getElem?_eraseIdx_of_ge (by omega), hlen] at hlast
    rw [List.getLast?_eq_getElem?, ← hlast]
    congr 1
    omega
  · have herase : h.registry.writes.eraseIdx k = [] := hnone
    rw [herase, List.length_nil] at hlen
    obtain ⟨rfl, rfl⟩ := hs (by omega)
    refine reflects_of_write (ho.newest w ?_) ?_
    · rw [List.getLast?_eq_getElem?, ← hw]
      congr 1
      omega
    · show update h.registry.files w.filePath _ entry.filePath = _
      rw [hpath, update_self, hkey]

theorem ordered_step (hs : serialised id h ev = true) (hstep : step C id h ev = some h') : Ordered C id entry h' := by
  obtain rfl | ⟨e, st, runtime, io, he, rfl, hser⟩ | ⟨e, io, he, rfl, hser⟩ | ⟨k, io, w, hw, rfl, hser⟩ := step_cases hstep
  · exact ho
  · exact ho.stored he st runtime io (hser hs)
  · obtain ⟨hnone, rfl⟩ := hser hs
    exact ho.cleared he hnone
  · exact ho.settle hw io (hser hs)

end

theorem ordered_start (others : String → Option Entry) (files : String → Option Bytes) :
    Ordered C id entry (.start others id entry files) := by
  refine ⟨fun e he => ?_, fun w hw => absurd hw List.not_mem_nil, fun w hw => ?_, fun _ set hset => ?_⟩
  · unfold History.start at he
    dsimp only at he
    rw [update_self] at he
    cases he
    exact ⟨rfl, rfl⟩
  · cases hw
  · cases hset

/-- **What a restart reads.** In a run of calls on a registered id, each newest write of which lands after the others, the
state file holds what the last call set whenever no write is on its way. -/
theorem reflects_of_serialised (C : FrameCodec) (others : String → Option Entry) (id : String) (entry : Entry)
    (files : String → Option Bytes) (evs : List Event) (h : History)
    (hser : Along (step C id) (fun h ev => serialised id h ev = true) (.start others id entry files) evs)
    (hrun : run (step C id) (.start others id entry files) evs = some h) (hsettled : h.registry.writes = []) :
    Reflects C entry h :=
  (run_invariant (fun _ _ _ ho hs hstep => ordered_step ho hs hstep) (ordered_start others files) hser hrun).file hsettled

end Actor

/-! ## A registry to evaluate on -/

section Sample

/-- The two kinds of JSON that a frame is made of: a payload, and two texts. -/
abbrev FrameShape := (Int × Option Int) ⊕ (List Nat × List Nat)

def FrameShape.json : FrameShape → Json
  | .inl (count, next) =>
    .obj [("failure_count", .int count), ("next_retry_at_millis", next.elim .null .int)]
  | .inr (payload, hmac) =>
    frameJson (String.ofList (payload.map Char.ofNat)) (String.ofList (hmac.map Char.ofNat))

def FrameShape.of : Json → Option FrameShape
  | .obj [(_, .int count), (_, .null)] => some (.inl (count, none))
  | .obj [(_, .int count), (_, .int next)] => some (.inl (count, some next))
  | .obj [(_, .str hmac), (_, .str payload)] =>
    some (.inr (payload.toList.map Char.toNat, hmac.toList.map Char.toNat))
  | _ => none

/-- Texts to evaluate on: a value is written as a number in unary. -/
def FrameCodec.plain : FrameCodec where
  toText v := String.ofList (List.replicate (Encodable.encode (FrameShape.of v)) 'a')
  fromStr t :=
    match (Encodable.decode t.toList.length : Option (Option FrameShape)) with
    | some (some shape) => .ok shape.json
    | _ => .error "expected value at line 1 column 1"
  encode64 := GateCodec.plain.encode64
  decode64 := GateCodec.plain.decode64
  hmacSha256 := GateCodec.plain.hmacSha256
  hkdfSha256 key salt info := key ++ salt ++ info
  decode_encode := GateCodec.plain.decode_encode
  fromStr_payload st := by
    obtain ⟨count, next⟩ := st
    rw [String.toList_ofList, List.length_replicate, Encodable.encodek]
    rcases next with _ | next
    · rfl
    · rfl
  fromStr_frame a b := by
    rw [String.toList_ofList, List.length_replicate, Encodable.encodek]
    have hback : ∀ s : String, String.ofList ((s.toList.map Char.toNat).map Char.ofNat) = s := by
      intro s
      rw [List.map_map]
      have hid : Char.ofNat ∘ Char.toNat = id := by
        funext c
        exact Char.ofNat_toNat c
      rw [hid, List.map_id, String.ofList_toList]
    show Except.ok (frameJson (String.ofList _) (String.ofList _)) = _
    rw [hback, hback]

def sampleEntry : Entry :=
  { filePath := "rate_limit_state.bin", hmacKey := [1], state := some ⟨0, none⟩, loaded := true, pendingWrite := none }

/-- Three failures: the first two writes land the other way round, the third one after them. -/
theorem reflects_of_serialised_sample : ∃ h, h.lastSet = some (some ⟨3, some 6000⟩) ∧ Reflects .plain sampleEntry h :=
  ⟨_, by decide, reflects_of_serialised .plain (fun _ => none) "gate" sampleEntry (fun _ => none)
    [.recordFailure 0 0 true true, .recordFailure 1000 1000 true true, .recordFailure 2000 2000 true true,
      .settle 1 true, .settle 0 false, .settle 0 true] _
    (along_of_checks (fun _ _ h => h) (by decide +kernel)) rfl rfl⟩

/-- Two failures, whose writes complete the other way round: the file is left with the first. -/
theorem reflects_rolled_back : ¬ ∀ (C : FrameCodec) (others : String → Option Entry) (id : String) (entry : Entry)
    (files : String → Option Bytes) (evs : List Event) (h : History),
    run (step C id) (.start others id entry files) evs = some h → h.registry.writes = [] → Reflects C entry h := by
  intro hall
  let evs : List Event :=
    [.recordFailure 0 0 true true, .recordFailure 1000 1000 true true, .settle 1 true, .settle 0 true]
  obtain ⟨h, hrun, hsettled, hset, hfile⟩ : ∃ h,
      run (step .plain "gate") (.start (fun _ => none) "gate" sampleEntry fun _ => none) evs = some h ∧
      h.registry.writes = [] ∧ h.lastSet = some (some ⟨2, some 3000⟩) ∧
      h.registry.files sampleEntry.filePath = some (encodeState .plain ⟨1, some 1000⟩ sampleEntry.hmacKey) :=
    ⟨_, rfl, rfl, by decide, rfl⟩
  obtain ⟨raw, hraw, hdecode⟩ := hall _ _ _ _ _ _ h hrun hsettled _ hset
  rw [hfile, some.injEq] at hraw
  rw [← hraw, decodeState_encode] at hdecode
  exact absurd hdecode (by decide)

end Sample

end LetsFlutSsh.Security
