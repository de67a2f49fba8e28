import LetsFlutSsh.Db.Dao
import LetsFlutSsh.Lib.Run
import LetsFlutSsh.SshAgent.LoopRunner

/-!
# SSH agent: connections, prompts and the switch

The whole agent: accept loops, connections with the frames that wait on them, one thread for each frame that is being
answered, the parking lot that they share, and the key table that the user edits meanwhile.

* `Shared`, `Outcome`, `perform` : what the threads share, and what their operations do to it;
* `Agent`, `Label`, `step` : the agent and its steps, `start_endpoint` and `stop` among them;
* `Effect`, `step_effect` : what a step does to the threads;
* `Sessions` : the session of a connection is what the frames before left (`sessions_step`).
-/

namespace LetsFlutSsh.SshAgent
open Lib Option

/-! ## Operations -/

/-- What all requests share. -/
structure Shared (Text : Type) where
  db : Db Text
  prompts : PromptLot := .empty

/-- What the world outside answers. -/
structure Outcome where
  dbError : Option String := none
  certificate : Option Bytes := none
  /-- The id that `Uuid::new_v4` makes. -/
  requestId : String := ""
  /-- The time of a prompt is up. -/
  elapsed : Bool := false
  signed : Except BackendError SignOutput := .error (.signer "")

section Operations

variable {Text : Type}

/-- `persist_policy`, under one hold of the connection. -/
def persistPolicy (db : Db Text) (keyId : String) (policy : AgentPolicy) : Except String (Db Text) :=
  match SshKeys.get db keyId with
  | none => .error s!"ssh-agent: key {keyId} not found"
  | some row => .ok (SshKeys.upsert db { row with agentPolicy := policy })

def Outcome.read {α : Type} (o : Outcome) (a : α) : Except String α :=
  match o.dbError with
  | some e => .error e
  | none => .ok a

def perform (o : Outcome) : (op : Op) → Shared Text → op.Resp × Shared Text
  | .listRows, s => (o.read (SshKeys.listAll s.db), s)
  | .lookupCert _, s => (o.read o.certificate, s)
  | .enqueue keyId keyLabel requester, s =>
    let r := s.prompts.enqueueWithReceiver o.requestId keyId keyLabel requester
    (r.1, { s with prompts := r.2 })
  | .publishPrompt _, s => ((), s)
  | .awaitDecision rx, s =>
    let r := s.prompts.receive rx
    (r.1, { s with prompts := r.2 })
  | .persistPolicy keyId policy, s =>
    match (o.read ()).bind fun _ => persistPolicy s.db keyId policy with
    | .error e => (.error e, s)
    | .ok db => (.ok (), { s with db })
  | .sign _ _ _, s => (o.signed, s)

end Operations

/-! ## The agent -/

/-- A frame that arrived, and whether the agent was stopped then. -/
structure Frame where
  payload : Bytes
  stopped : Bool

/-- A request that was read from a connection. -/
structure Job where
  connection : Nat
  session : Endpoint
  payload : Bytes
  stopped : Bool

/-- An accepted connection and the task that serves it. -/
structure Connection where
  /-- The client may still send. -/
  isOpen : Bool := true
  inbox : List Frame := []
  session : Endpoint := {}
  /-- The request that is being answered. -/
  current : Option Nat := none
  /-- The task has returned. -/
  ended : Bool := false

/-- The task of an accept loop. -/
inductive AcceptLoop where
  | running
  /-- Aborted, and not yet come to a point where that takes effect. -/
  | aborted
  | ended
deriving DecidableEq

structure Agent (Text : Type) where
  threads : Threads Op Op.Resp (Shared Text) (Bytes × Endpoint)
  jobs : List Job := []
  connections : List Connection := []
  loops : List AcceptLoop := []
  /-- The slot of the handle: the loop that it owns. -/
  slot : Option Nat := none

inductive Label (Text : Type) where
  /-- A frame arrives. -/
  | send (c : Nat) (payload : Bytes)
  | read (c : Nat)
  /-- The next operation of the request that is being answered. -/
  | act (c : Nat) (o : Outcome)
  /-- The answer is written, or writing it fails. -/
  | reply (c : Nat) (written : Bool)
  | close (c : Nat)
  /-- The task of a connection comes to the end of the stream, or to an error. -/
  | hangUp (c : Nat)
  | respond (requestId : String) (decision : Decision)
  | cancel (requestId : String)
  /-- The user changes the database. -/
  | edit (db : Db Text)
  | start (bound : Bool)
  | stop
  | accept (l : Nat)
  | acceptFails (l : Nat)
  /-- An aborted loop is dropped. -/
  | cancelled (l : Nat)

variable {c : Nat} {KeyData : Type}

namespace Agent

variable {Text : Type}

def init (db : Db Text) : Agent Text where
  threads := { shared := { db } }

def stopped (s : Agent Text) : Bool := s.slot.isNone

def onConnection (s : Agent Text) (c : Nat) (f : Connection → Option Connection) : Option (Agent Text) :=
  (s.connections[c]?.bind f).map fun conn => { s with connections := s.connections.set c conn }

def setShared (s : Agent Text) (shared : Shared Text) : Agent Text := { s with threads := { s.threads with shared } }

def setPrompts (s : Agent Text) (prompts : PromptLot) : Agent Text :=
  s.setShared { s.threads.shared with prompts }

def waits (s : Agent Text) (i : Nat) : Bool :=
  match s.threads.progs[i]? with
  | some (.call (.awaitDecision rx) _) => s.threads.shared.prompts.stateOf rx = some .waiting
  | _ => false

def arrive (s : Agent Text) (c : Nat) (payload : Bytes) : Option (Agent Text) :=
  s.onConnection c fun conn =>
    if conn.isOpen then some { conn with inbox := conn.inbox ++ [⟨payload, s.stopped⟩] } else none

section Frames
variable [DecidableEq KeyData] (w : Wire KeyData)

/-- The next frame of a connection is read; its length is checked first. -/
def read (s : Agent Text) (c : Nat) : Option (Agent Text) :=
  s.connections[c]?.bind fun conn =>
    match conn.ended, conn.current, conn.inbox with
    | false, none, frame :: inbox =>
      if frame.payload.length = 0 ∨ frame.payload.length > maxFrameLen then
        some { s with connections := s.connections.set c { conn with inbox, ended := true } }
      else
        some { s with
          threads := s.threads.spawn (dispatchPayload w conn.session frame.payload)
          jobs := s.jobs ++ [⟨c, conn.session, frame.payload, frame.stopped⟩]
          connections := s.connections.set c { conn with inbox, current := some s.jobs.length } }
    | _, _, _ => none

end Frames

def act (s : Agent Text) (c : Nat) (o : Outcome) : Option (Agent Text) :=
  (s.connections[c]?.bind Connection.current).bind fun i =>
    if s.waits i && !o.elapsed then none
    else (s.threads.act perform i o).map fun threads => { s with threads }

def reply (s : Agent Text) (c : Nat) (written : Bool) : Option (Agent Text) :=
  s.onConnection c fun conn =>
    conn.current.bind fun i =>
      match s.threads.progs[i]? with
      | some (.done answer) => some { conn with session := answer.2, current := none, ended := conn.ended || !written }
      | _ => none

def hangUp (s : Agent Text) (c : Nat) : Option (Agent Text) :=
  s.onConnection c fun conn => if conn.current.isNone then some { conn with ended := true } else none

/-- `start_endpoint`: nothing when it runs already, or when the socket cannot be bound. -/
def start (s : Agent Text) (bound : Bool) : Agent Text :=
  match s.slot with
  | some _ => s
  | none => if bound then { s with slot := some s.loops.length, loops := s.loops ++ [.running] } else s

/-- `AgentHandle::drop` aborts the task of the loop. -/
def abort : AcceptLoop → AcceptLoop
  | .running => .aborted
  | l => l

/-- `stop` takes the handle and drops it. -/
def stop (s : Agent Text) : Agent Text :=
  match s.slot with
  | none => s
  | some l => { s with slot := none, loops := s.loops.modify l abort }

/-- A loop that accepts serves the connection in a task of its own. -/
def accept (s : Agent Text) (l : Nat) : Option (Agent Text) :=
  s.loops[l]?.bind fun loop =>
    if loop = .ended then none else some { s with connections := s.connections ++ [{}] }

/-- The loop returns when `accept` fails. -/
def acceptFails (s : Agent Text) (l : Nat) : Option (Agent Text) :=
  s.loops[l]?.bind fun loop => if loop = .ended then none else some { s with loops := s.loops.set l .ended }

def cancelled (s : Agent Text) (l : Nat) : Option (Agent Text) :=
  s.loops[l]?.bind fun loop => if loop = .aborted then some { s with loops := s.loops.set l .ended } else none

section Steps
variable [DecidableEq KeyData] (w : Wire KeyData)

def step (s : Agent Text) : Label Text → Option (Agent Text)
  | .send c payload => s.arrive c payload
  | .read c => s.read w c
  | .act c o => s.act c o
  | .reply c written => s.reply c written
  | .close c => s.onConnection c fun conn => some { conn with isOpen := false }
  | .hangUp c => s.hangUp c
  | .respond requestId decision => some (s.setPrompts (s.threads.shared.prompts.respondToRequest requestId decision).2)
  | .cancel requestId => some (s.setPrompts (s.threads.shared.prompts.cancelRequest requestId))
  | .edit db => some (s.setShared { s.threads.shared with db })
  | .start bound => some (s.start bound)
  | .stop => some s.stop
  | .accept l => s.accept l
  | .acceptFails l => s.acceptFails l
  | .cancelled l => s.cancelled l

end Steps

/-! ## What a step can do -/

section Cases
variable {s t : Agent Text}

theorem onConnection_cases {f : Connection → Option Connection} (h : s.onConnection c f = some t) :
    ∃ conn conn', s.connections[c]? = some conn ∧ f conn = some conn' ∧
      t = { s with connections := s.connections.set c conn' } := by
  unfold onConnection at h
  obtain ⟨conn', hconn', rfl⟩ := map_eq_some_iff.1 h
  obtain ⟨conn, hconn, hf⟩ := bind_eq_some_iff.1 hconn'
  exact ⟨conn, conn', hconn, hf, rfl⟩

theorem arrive_cases {payload : Bytes} (h : s.arrive c payload = some t) :
    ∃ conn, s.connections[c]? = some conn ∧ conn.isOpen ∧ t = { s with
      connections := s.connections.set c { conn with inbox := conn.inbox ++ [⟨payload, s.stopped⟩] } } := by
  obtain ⟨conn, conn', hconn, hf, rfl⟩ := onConnection_cases h
  split at hf
  · next hopen =>
    cases hf
    exact ⟨conn, hconn, hopen, rfl⟩
  · cases hf

theorem act_cases {o : Outcome} (h : s.act c o = some t) :
    ∃ i threads, s.threads.act perform i o = some threads ∧ t = { s with threads } := by
  obtain ⟨i, -, h⟩ := bind_eq_some_iff.1 h
  split at h
  · cases h
  · obtain ⟨threads, hthreads, rfl⟩ := map_eq_some_iff.1 h
    exact ⟨i, threads, hthreads, rfl⟩

theorem reply_cases {written : Bool} (h : s.reply c written = some t) :
    ∃ conn i answer, s.connections[c]? = some conn ∧ conn.current = some i ∧ s.threads.progs[i]? = some (.done answer) ∧
      t = { s with connections :=
        s.connections.set c { conn with session := answer.2, current := none, ended := conn.ended || !written } } := by
  obtain ⟨conn, conn', hconn, hf, rfl⟩ := onConnection_cases h
  obtain ⟨i, hi, hf⟩ := bind_eq_some_iff.1 hf
  split at hf
  · next answer hanswer =>
    cases hf
    exact ⟨conn, i, answer, hconn, hi, hanswer, rfl⟩
  · cases hf

theorem hangUp_cases (h : s.hangUp c = some t) : ∃ conn, s.connections[c]? = some conn ∧
    t = { s with connections := s.connections.set c { conn with ended := true } } := by
  obtain ⟨conn, conn', hconn, hf, rfl⟩ := onConnection_cases h
  split at hf
  · cases hf
    exact ⟨conn, hconn, rfl⟩
  · cases hf

theorem start_cases (s : Agent Text) (bound : Bool) : s.start bound = s ∨ s.slot = none ∧
    s.start bound = { s with slot := some s.loops.length, loops := s.loops ++ [.running] } := by
  unfold start
  rcases s.slot with _ | l
  · cases bound
    · exact Or.inl rfl
    · exact Or.inr ⟨rfl, rfl⟩
  · exact Or.inl rfl

theorem stop_cases (s : Agent Text) : s.stop = s ∧ s.slot = none ∨ ∃ l, s.slot = some l ∧
    s.stop = { s with slot := none, loops := s.loops.modify l abort } := by
  unfold stop
  rcases hslot : s.slot with _ | l
  · exact Or.inl ⟨rfl, rfl⟩
  · exact Or.inr ⟨l, rfl, rfl⟩

theorem accept_cases {l : Nat} (h : s.accept l = some t) : ∃ loop, s.loops[l]? = some loop ∧ loop ≠ .ended ∧
    t = { s with connections := s.connections ++ [{}] } := by
  obtain ⟨loop, hloop, h⟩ := bind_eq_some_iff.1 h
  split at h
  · cases h
  · next hended => exact ⟨loop, hloop, hended, (Option.some.inj h).symm⟩

theorem ended_cases {l : Nat} (h : s.acceptFails l = some t ∨ s.cancelled l = some t) :
    t = { s with loops := s.loops.set l .ended } := by
  rcases h with h | h
  · obtain ⟨loop, -, h⟩ := bind_eq_some_iff.1 h
    split at h
    · cases h
    · exact (Option.some.inj h).symm
  · obtain ⟨loop, -, h⟩ := bind_eq_some_iff.1 h
    split at h
    · exact (Option.some.inj h).symm
    · cases h

end Cases

section Effect
variable [DecidableEq KeyData] {w : Wire KeyData} {s t : Agent Text}

theorem read_cases (h : s.read w c = some t) : ∃ conn frame inbox, s.connections[c]? = some conn ∧
    conn.ended = false ∧ conn.current = none ∧ conn.inbox = frame :: inbox ∧
    (t = { s with connections := s.connections.set c { conn with inbox, ended := true } } ∨ t = { s with
        threads := s.threads.spawn (dispatchPayload w conn.session frame.payload)
        jobs := s.jobs ++ [⟨c, conn.session, frame.payload, frame.stopped⟩]
        connections := s.connections.set c { conn with inbox, current := some s.jobs.length } }) := by
  obtain ⟨conn, hconn, h⟩ := bind_eq_some_iff.1 h
  split at h
  · next frame inbox hended hcurrent hinbox =>
    refine ⟨conn, frame, inbox, hconn, hended, hcurrent, hinbox, ?_⟩
    split at h
    · left
      exact (Option.some.inj h).symm
    · right
      exact (Option.some.inj h).symm
  · cases h

/-! ## What a step does to the threads -/

variable (w s t) in
/-- What a step does to the threads and their jobs. -/
inductive Effect : Prop where
  | shared (x : Shared Text) (hthreads : t.threads = { s.threads with shared := x }) (hjobs : t.jobs = s.jobs)
    (hsound : s.threads.shared.prompts.Sound → x.prompts.Sound)
    (hgrows : s.threads.shared.prompts.Grows x.prompts)
  | read (c : Nat) (conn : Connection) (frame : Frame) (hconn : s.connections[c]? = some conn)
    (hthreads : t.threads = s.threads.spawn (dispatchPayload w conn.session frame.payload))
    (hjobs : t.jobs = s.jobs ++ [⟨c, conn.session, frame.payload, frame.stopped⟩])
  | act (i : Nat) (o : Outcome) (hact : s.threads.act perform i o = some t.threads) (hjobs : t.jobs = s.jobs)

theorem Effect.same (hthreads : t.threads = s.threads) (hjobs : t.jobs = s.jobs) : Effect w s t :=
  .shared s.threads.shared hthreads hjobs id (PromptLot.Grows.refl _)

theorem step_effect {label : Label Text} (h : step w s label = some t) : Effect w s t := by
  cases label with
  | send c payload =>
    obtain ⟨conn, -, -, rfl⟩ := arrive_cases h
    exact .same rfl rfl
  | read c =>
    obtain ⟨conn, frame, inbox, hconn, -, -, -, rfl | rfl⟩ := read_cases h
    · exact .same rfl rfl
    · exact .read c conn frame hconn rfl rfl
  | act c o =>
    obtain ⟨i, threads, hact, rfl⟩ := act_cases h
    exact .act i o hact rfl
  | reply c written =>
    obtain ⟨conn, i, answer, -, -, -, rfl⟩ := reply_cases h
    exact .same rfl rfl
  | close c =>
    obtain ⟨conn, conn', -, -, rfl⟩ := onConnection_cases h
    exact .same rfl rfl
  | hangUp c =>
    obtain ⟨conn, -, rfl⟩ := hangUp_cases h
    exact .same rfl rfl
  | respond requestId decision =>
    cases h
    exact .shared _ rfl rfl (PromptLot.sound_respond · requestId decision) (PromptLot.grows_respond _ requestId decision)
  | cancel requestId =>
    cases h
    exact .shared _ rfl rfl (PromptLot.Sound.dropSender · requestId) (PromptLot.grows_dropSender _ requestId)
  | edit db =>
    cases h
    exact .shared _ rfl rfl id (PromptLot.Grows.refl _)
  | start bound =>
    cases h
    obtain heq | ⟨-, heq⟩ := start_cases s bound <;> rw [heq]
    · exact .same rfl rfl
    · exact .same rfl rfl
  | stop =>
    cases h
    obtain ⟨heq, -⟩ | ⟨l, -, heq⟩ := stop_cases s <;> rw [heq]
    · exact .same rfl rfl
    · exact .same rfl rfl
  | accept l =>
    obtain ⟨loop, -, -, rfl⟩ := accept_cases h
    exact .same rfl rfl
  | acceptFails l =>
    rw [ended_cases (Or.inl h)]
    exact .same rfl rfl
  | cancelled l =>
    rw [ended_cases (Or.inr h)]
    exact .same rfl rfl

end Effect

end Agent

/-! ## A sample -/

def sampleRow (agentPolicy : AgentPolicy) : SshKeyRow where
  id := "k1"
  label := "Lab key"
  privateKey := ""
  publicKey := "ssh-ed25519 AAAAC3NzaC1lZDI1NTE5AAAAIAAAAAAAAAAAAAAAAAAAAAAAAAAAAAAAAAAAAAAAAAAA"
  keyType := "ssh-ed25519"
  isGenerated := false
  createdAtMs := 1
  credentialId := none
  applicationString := none
  hasUserVerification := false
  agentPolicy
  backend := .pkcs11
  pkcs11Uri := none
  pkcs11TokenSerial := some "0001"
  pkcs11ObjectId := some [1]
  pkcs11ObjectLabel := none
  importedAsStub := false

def sampleDb (agentPolicy : AgentPolicy) : Db Unit :=
  { Db.empty with sshKeys := Table.empty.set "k1" ⟨sampleRow agentPolicy, none⟩ }

def sampleKeyBlob : Bytes := encodeU32 11 ++ utf8 "ssh-ed25519" ++ encodeU32 32 ++ List.replicate 32 0

/-- SIGN_REQUEST, LOCK and UNLOCK as `ssh-agent-lib` reads them. -/
def sampleDecode : Bytes → Except String (Request Bytes)
  | [] => .error "empty"
  | msgId :: body =>
    if msgId = 22 then .ok (.lock "")
    else if msgId = 23 then .ok (.unlock "")
    else if msgId = signRequestMsgId then
      match decodeString body with
      | none => .error "key"
      | some (keyBlob, rest) =>
        match decodeString rest with
        | none => .error "data"
        | some (data, rest) =>
          match decodeU32 rest with
          | none => .error "flags"
          | some (flags, _) => .ok (.signRequest keyBlob data flags)
    else .error "unknown message"

def sampleWire : Wire Bytes where
  fromOpenssh text := if text = (sampleRow .ask).publicKey then some sampleKeyBlob else none
  encodeKeyData := some
  certFromBytes _ := .error "no certificate"
  certToBytes _ := none
  formatFingerprint _ := "SHA256:"
  newAlgorithm := .ok
  newSignature algorithm data := .ok ⟨algorithm, data⟩
  encodeSignature signature := encodeString (utf8 signature.algorithm ++ signature.data)
  decodeRequest := sampleDecode
  encodeResponse
    | .signResponse signature => some (signResponseMsgId :: utf8 signature.algorithm ++ signature.data)
    | .success => some [6]
    | _ => some failurePayload
  debug := String.quote

def sampleRequest : Bytes :=
  signRequestMsgId :: encodeU32 51 ++ sampleKeyBlob ++ encodeU32 1 ++ [7] ++ encodeU32 0

def sampleSigned : Outcome where
  signed := .ok ⟨"ssh-ed25519", [9]⟩

end LetsFlutSsh.SshAgent
