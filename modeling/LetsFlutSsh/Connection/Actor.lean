import LetsFlutSsh.Connection.AuthCompose
import LetsFlutSsh.Lib.Threads

/-!
# Connection actors

* `Actor`, `AppState` : the actors, the registry of the live ones, and what was published;
* `perform` : the operations on them, each under its lock;
* `runConnectDriver`, `connectAsync` : a connect attempt;
* `disconnect`, `disconnectAll` : the way out;
* `runTransportMonitor` : the watch over a connected transport;
* `step` : calls of all these side by side.

A handle is the place of its actor among all that were made.
-/

namespace LetsFlutSsh.Connection

inductive ConnectionState where
  | disconnected
  | connecting
  | connected
  deriving DecidableEq

inductive ConnectionPhase where
  | socketConnect
  | hostKeyVerify
  | authenticate
  | openChannel

inductive StepStatus where
  | inProgress
  | success
  | failed

structure ProgressStep where
  phase : ConnectionPhase
  status : StepStatus
  detail : Option String := none

def Error.text : Error → String
  | .connect m => "connect failed: " ++ m
  | .authFailed m => "authentication failed: " ++ m
  | .auth m => "auth error: " ++ m
  | .keyParse m => "key parse failed: " ++ m
  | .passphraseRequired => "passphrase required"
  | .passphraseIncorrect => "passphrase incorrect"
  | .hostKeyRejected => "host key rejected"
  | .db m => "db: " ++ m
  | .other text => text

def failurePhase : Error → ConnectionPhase
  | .auth _ | .authFailed _ | .passphraseRequired | .passphraseIncorrect | .keyParse _ => .authenticate
  | .hostKeyRejected => .hostKeyVerify
  | _ => .socketConnect

namespace Actors
open Lib

abbrev Handle := Nat

abbrev Session := Nat

structure Actor where
  id : String
  internal : Bool
  state : ConnectionState := .disconnected
  generation : UInt64 := 0
  error : Option String := none
  progress : List ProgressStep := []
  session : Option Session := none

inductive Event where
  | stateChanged (id : String) (state : ConnectionState)
  | progress (id : String) (step : ProgressStep)
  | error (id : String) (detail : String)
  | removed (id : String)
  | activeCountChanged (count : Int)

/-- A monitor that was spawned and has not started. -/
structure Monitor where
  id : String
  handle : Handle
  session : Session

structure AppState where
  actors : List Actor := []
  byId : AList (fun _ : String => Handle) := ∅
  order : List String := []
  lastActiveCount : Int := -1
  monitors : List Monitor := []
  events : List Event := []

/-! ## Operations -/

inductive Op where
  | insert (id : String) (internal : Bool)
  /-- The attempt enters `Connecting` with the next generation. -/
  | enter (h : Handle)
  | publish (e : Event)
  | pushProgress (h : Handle) (step : ProgressStep)
  | runAuth (id : String)
  | readGeneration (h : Handle)
  | setConnected (h : Handle) (session : Session)
  | setFailed (h : Handle) (detail : String)
  | spawnMonitor (id : String) (h : Handle) (session : Session)
  | visibleCount
  | swapCount (count : Int)
  | snapshotIds
  | remove (id : String)
  | tearDown (h : Handle)
  | closeSession (session : Session)
  /-- A call of `disconnect` returns. -/
  | returned (id : String)
  | lookup (id : String)
  | upgrade (h : Handle) (session : Session)
  | isClosed (session : Session)
  /-- `Connected` becomes `Disconnected`. -/
  | flip (h : Handle)

abbrev Op.Resp : Op → Type
  | .insert _ _ => Handle
  | .enter _ => UInt64
  | .runAuth _ => Except Error Session
  | .readGeneration _ => UInt64 × ConnectionState
  | .visibleCount | .swapCount _ => Int
  | .snapshotIds => List String
  | .remove _ | .lookup _ => Option Handle
  | .tearDown _ => Option Session
  | .closeSession _ => Except Error Unit
  | .upgrade _ _ | .isClosed _ | .flip _ => Bool
  | .publish _ | .pushProgress _ _ | .setConnected _ _ | .setFailed _ _ | .spawnMonitor _ _ _ | .returned _ => Unit

/-- What the network does, and whether others still hold a session. -/
structure Outcome where
  auth : Except Error Session := .error (.connect "")
  close : Except Error Unit := .ok ()
  heldElsewhere : Bool := false
  closed : Bool := false

namespace AppState

def modify (s : AppState) (h : Handle) (f : Actor → Actor) : AppState := { s with actors := s.actors.modify h f }

def stateOf (s : AppState) (h : Handle) : Option ConnectionState := s.actors[h]?.map (·.state)

def ownerOf (s : AppState) (h : Handle) : Option String := s.actors[h]?.map (·.id)

def generationOf (s : AppState) (h : Handle) : Option UInt64 := s.actors[h]?.map (·.generation)

def isVisible (s : AppState) (h : Handle) : Bool :=
  s.actors[h]?.any fun a => !a.internal && a.state = .connected

/-- `connected_user_visible_count`. -/
def visibleCount (s : AppState) : Int := ((s.byId.entries.filter fun e => s.isVisible e.2).length : Int)

/-- `ConnectionRegistry::insert`, of a new actor. -/
def insert (s : AppState) (id : String) (internal : Bool) : AppState :=
  { s with
    actors := s.actors ++ [{ id, internal }]
    byId := s.byId.insert id s.actors.length
    order := s.order ++ [id] }

def remove (s : AppState) (id : String) : AppState :=
  if id ∈ s.byId then { s with byId := s.byId.erase id, order := s.order.filter (· ≠ id) } else s

/-- The ids of `snapshot_all`. -/
def snapshotIds (s : AppState) : List String := s.order.filter fun id => decide (id ∈ s.byId)

end AppState

def perform (o : Outcome) (op : Op) (s : AppState) : op.Resp × AppState :=
  match op with
  | .insert id internal => (s.actors.length, s.insert id internal)
  | .enter h =>
    let generation := ((s.generationOf h).getD 0) + 1
    (generation, s.modify h fun a => { a with state := .connecting, error := none, progress := [], generation })
  | .publish e => ((), { s with events := s.events ++ [e] })
  | .pushProgress h step => ((), s.modify h fun a => { a with progress := a.progress ++ [step] })
  | .runAuth _ => (o.auth, s)
  | .readGeneration h => (((s.generationOf h).getD 0, (s.stateOf h).getD .disconnected), s)
  | .setConnected h session => ((), s.modify h fun a => { a with session := some session, state := .connected })
  | .setFailed h detail => ((), s.modify h fun a => { a with state := .disconnected, error := some detail })
  | .spawnMonitor id h session => ((), { s with monitors := s.monitors ++ [⟨id, h, session⟩] })
  | .visibleCount => (s.visibleCount, s)
  | .swapCount count => (s.lastActiveCount, { s with lastActiveCount := count })
  | .snapshotIds => (s.snapshotIds, s)
  | .remove id => (s.byId.lookup id, s.remove id)
  | .tearDown h =>
    (s.actors[h]?.bind (·.session), s.modify h fun a => { a with state := .disconnected, session := none })
  | .closeSession _ => (o.close, s)
  | .returned _ => ((), s)
  | .lookup id => (s.byId.lookup id, s)
  | .upgrade h session => ((s.actors[h]?.bind (·.session)) = some session || o.heldElsewhere, s)
  | .isClosed _ => (o.closed, s)
  | .flip h =>
    if s.stateOf h = some .connected then (true, s.modify h fun a => { a with state := .disconnected, session := none })
    else (false, s)

abbrev Call := Prog Op Op.Resp

/-! ## A connect attempt -/

def publish (e : Event) : Call Unit := .call (.publish e) .done

def recordProgress (h : Handle) (id : String) (step : ProgressStep) : Call Unit :=
  .call (.pushProgress h step) fun _ => publish (.progress id step)

def publishActiveCount : Call Unit :=
  .call .visibleCount fun (count : Int) =>
    .call (.swapCount count) fun (prev : Int) => if prev ≠ count then publish (.activeCountChanged count) else .done ()

def emitStaleAttemptClosure (id : String) (canonicalState : ConnectionState) : Call Unit :=
  (publish (.error id "connect attempt superseded by newer reconnect")).bind fun _ =>
    publish (.stateChanged id canonicalState)

def recordSuccess (h : Handle) (id : String) : List ConnectionPhase → Call Unit
  | [] => .done ()
  | phase :: phases => (recordProgress h id ⟨phase, .success, none⟩).bind fun _ => recordSuccess h id phases

def finishConnected (id : String) (h : Handle) (session : Session) : Call Unit :=
  .call (.setConnected h session) fun _ =>
    (recordSuccess h id [.socketConnect, .hostKeyVerify, .authenticate]).bind fun _ =>
      .call (.spawnMonitor id h session) fun _ =>
        (publish (.stateChanged id .connected)).bind fun _ => publishActiveCount

def finishFailed (id : String) (h : Handle) (e : Error) : Call Unit :=
  .call (.setFailed h e.text) fun _ =>
    (recordProgress h id ⟨failurePhase e, .failed, some e.text⟩).bind fun _ =>
      (publish (.error id e.text)).bind fun _ =>
        (publish (.stateChanged id .disconnected)).bind fun _ => publishActiveCount

def runConnectDriver (id : String) (h : Handle) : Call Unit :=
  .call (.enter h) fun (generation : UInt64) =>
    (publish (.stateChanged id .connecting)).bind fun _ =>
      (recordProgress h id ⟨.socketConnect, .inProgress, none⟩).bind fun _ =>
        .call (.runAuth id) fun result =>
          .call (.readGeneration h) fun (current : UInt64 × ConnectionState) =>
            if current.1 ≠ generation then emitStaleAttemptClosure id current.2
            else
              match result with
              | .ok session => finishConnected id h session
              | .error e => finishFailed id h e

def connectAsync (id : String) (internal : Bool) : Call Unit := .call (.insert id internal) fun h => runConnectDriver id h

/-! ## Disconnecting -/

/-- What `disconnect` does with the session of the actor. -/
def closeSession (id : String) : Option Session → Call Unit
  | none => .done ()
  | some session =>
    .call (.closeSession session) fun
      | .ok () => .done ()
      | .error e => publish (.error id ("disconnect: " ++ e.text))

/-- `disconnect`, which never fails. -/
def disconnect (id : String) : Call Unit :=
  .call (.remove id) fun
    | none => .call (.returned id) .done
    | some h =>
      .call (.tearDown h) fun session =>
        (closeSession id session).bind fun _ =>
          (publish (.removed id)).bind fun _ => publishActiveCount.bind fun _ => .call (.returned id) .done

def disconnectEach : List String → Call Unit
  | [] => .done ()
  | id :: ids => (disconnect id).bind fun _ => disconnectEach ids

def disconnectAll : Call Nat :=
  .call .snapshotIds fun ids => (disconnectEach ids).bind fun _ => .done ids.length

/-! ## The monitor -/

/-- `run_transport_monitor`, with the rounds that it comes to. -/
def runTransportMonitor (id : String) (h : Handle) (session : Session) : Nat → Call Unit
  | 0 => .done ()
  | rounds + 1 =>
    .call (.lookup id) fun (current : Option Handle) =>
      if current ≠ some h then .done ()
      else
        .call (.upgrade h session) fun (alive : Bool) =>
          if !alive then .done ()
          else
            .call (.isClosed session) fun (closed : Bool) =>
              if !closed then runTransportMonitor id h session rounds
              else
                .call (.flip h) fun (flipped : Bool) =>
                  if flipped then (publish (.stateChanged id .disconnected)).bind fun _ => publishActiveCount
                  else .done ()

/-! ## Calls side by side -/

abbrev System := Threads Op Op.Resp AppState Unit

abbrev LogEntry := Threads.Entry Op Op.Resp AppState

def init : System := { shared := {} }

inductive Step where
  | connect (id : String) (internal : Bool)
  | disconnect (id : String)
  | disconnectAll
  /-- A spawned monitor starts. -/
  | monitor (k rounds : Nat)
  | act (i : Nat) (o : Outcome)

def step (s : System) : Step → Option System
  | .connect id internal => some (s.spawn (connectAsync id internal))
  | .disconnect id => some (s.spawn (disconnect id))
  | .disconnectAll => some (s.spawn (disconnectAll.bind fun _ => .done ()))
  | .monitor k rounds =>
    s.shared.monitors[k]?.map fun m =>
      { s with shared := { s.shared with monitors := s.shared.monitors.eraseIdx k } }.spawn
        (runTransportMonitor m.id m.handle m.session rounds)
  | .act i o => s.act perform i o

end Actors

end LetsFlutSsh.Connection
