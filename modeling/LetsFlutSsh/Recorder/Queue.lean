import LetsFlutSsh.Lib.Run
import LetsFlutSsh.Recorder.Line

/-!
# Recorder queue: chunk buffers, deadline flushes and one closing entry

`recorder/queue.rs` for one recording id, as the steps its tasks can take between two awaits. Chunks
are appended to the buffer of their direction under a lock; whoever drains the buffers (a chunk call
over the threshold, the deadline task, the blocking call) sends what it drained after releasing the
lock.

* `State`, `Label`, `step` : calls, deadline tasks, the blocking call, the mailbox, every interleaving;
* `RaceFree` : a schedule in which no batch is overtaken or dropped;
* `Inv`, `step_inv` : what has been sent, then what is drained, then what is buffered, is what the
  calls appended;
* `events_before_entry` : the events in front of the closing entry.
-/

namespace LetsFlutSsh.Recorder.Queue
open Lib List Option

def flushThresholdBytes : Nat := 8 * 1024
def queueCapacity : Nat := 1024

inductive QueueEntry where
  | header (width height : Nat) (shellLabel : String)
  | event (kind : RecordDirection) (bytes : Bytes)
  | rotate (newPath : String)
  | close

/-- What a drain takes: one item for each direction that had bytes, output first. -/
abbrev Batch := List (RecordDirection × Bytes)

inductive CallPhase where
  | begun
  | sending
  | done
  deriving DecidableEq

structure ChunkCall where
  kind : RecordDirection
  bytes : Bytes
  phase : CallPhase

inductive TimerPhase where
  | sleeping
  | awake
  | sending
  | finished
  deriving DecidableEq

/-- A deadline task. An aborted task that already runs goes on to its next await. -/
structure Timer where
  phase : TimerPhase
  aborted : Bool

inductive BlockPhase where
  | idle
  | begun
  | sending
  | finished
  deriving DecidableEq

/-- Who can hold a drained batch. -/
inductive Holder where
  | call (c : Nat)
  | timer (t : Nat)
  | block
  deriving DecidableEq

/-- A batch that was drained and is not yet sent in full. `late` is a ghost: it was drained after the
blocking call had drained. -/
structure Held where
  holder : Holder
  batch : Batch
  late : Bool

/-- The queue of one recording. `held` lists the drained batches in drain order, `mailbox` every entry
ever sent, in order, and `pending` counts those the worker has not received. `completed` is the ghost
of the chunk calls that had returned when the blocking call began. -/
structure State where
  output : Bytes
  input : Bytes
  flushTask : Option Nat
  calls : List ChunkCall
  timers : List Timer
  block : BlockPhase
  entry : QueueEntry
  held : List Held
  mailbox : List QueueEntry
  pending : Nat
  completed : List ChunkCall

/-- A queue just spawned, on which `entry` will be enqueued last. -/
def init (entry : QueueEntry) : State where
  output := []
  input := []
  flushTask := none
  calls := []
  timers := []
  block := .idle
  entry := entry
  held := []
  mailbox := []
  pending := 0
  completed := []

/-! ## Steps -/

def State.buffer (s : State) : RecordDirection → Bytes
  | .output => s.output
  | .input => s.input

def State.extend (s : State) (kind : RecordDirection) (bytes : Bytes) : State :=
  { s with
    output := if kind = .output then s.output ++ bytes else s.output
    input := if kind = .input then s.input ++ bytes else s.input }

/-- What `EventBuffers::drain` takes. -/
def State.drained (s : State) : Batch :=
  (if s.output.isEmpty then [] else [(.output, s.output)]) ++ (if s.input.isEmpty then [] else [(.input, s.input)])

def State.abort (s : State) (t : Nat) : State :=
  { s with timers := s.timers.modify t fun x => { x with aborted := true } }

/-- `EventBuffers::drain` by `h`: the pending flush task is aborted, and the buffers become a batch
that `h` has to send. -/
def State.drain (s : State) (h : Holder) : State :=
  { s with
    output := []
    input := []
    flushTask := none
    timers := match s.flushTask with
      | some t => (s.abort t).timers
      | none => s.timers
    held := if s.drained.isEmpty then s.held
      else s.held ++ [{ holder := h, batch := s.drained, late := decide (s.block = .sending) }] }

def State.setCall (s : State) (c : Nat) (p : CallPhase) : State :=
  { s with calls := s.calls.modify c fun x => { x with phase := p } }

def State.setTimer (s : State) (t : Nat) (p : TimerPhase) : State :=
  { s with timers := s.timers.modify t fun x => { x with phase := p } }

/-- The next item of the batch that `h` holds, and what is held without it. -/
def takeItem (h : Holder) : List Held → Option ((RecordDirection × Bytes) × List Held)
  | [] => none
  | x :: r =>
    if x.holder = h then
      match x.batch with
      | [] => none
      | i :: rest => some (i, if rest.isEmpty then r else { x with batch := rest } :: r)
    else (takeItem h r).map fun y => (y.1, x :: y.2)

/-- The next item of `h` goes to the mailbox, if there is room. -/
def State.sendNext (s : State) (h : Holder) : Option State :=
  match takeItem h s.held with
  | none => none
  | some ((k, bs), held) =>
    if s.pending < queueCapacity then
      some { s with held, mailbox := s.mailbox ++ [.event k bs], pending := s.pending + 1 }
    else none

/-- Whether `h` still has something to send. -/
def State.holds (s : State) (h : Holder) : Bool := s.held.any fun x => decide (x.holder = h)

/-- The batch `h` holds is lost. -/
def State.dropBatch (s : State) (h : Holder) : State :=
  { s with held := s.held.filter fun x => decide (x.holder ≠ h) }

def State.arm (s : State) : State :=
  { s with
    timers := if s.flushTask.isNone then s.timers ++ [{ phase := .sleeping, aborted := false }] else s.timers
    flushTask := s.flushTask.or (some s.timers.length) }

inductive Label where
  | chunkCall (kind : RecordDirection) (bytes : Bytes)
  | chunkAppend (c : Nat)
  | chunkSend (c : Nat)
  | chunkReturn (c : Nat)
  | chunkFail (c : Nat)
  | timerWake (t : Nat)
  | timerDrain (t : Nat)
  | timerSend (t : Nat)
  | timerCancel (t : Nat)
  | timerFail (t : Nat)
  | blockCall
  | blockDrain
  | blockSend
  | blockEntry
  | recv

/-- The locked part of `enqueue_event_chunk`: extend, then drain at the threshold or arm the deadline
task. -/
def chunkAppend (s : State) (c : Nat) (x : ChunkCall) : State :=
  let s := s.extend x.kind x.bytes
  if (s.buffer x.kind).length ≥ flushThresholdBytes then (s.drain (.call c)).setCall c .sending
  else s.arm.setCall c .done

def phaseOf (s : State) (c : Nat) : Option CallPhase := (s.calls[c]?).map (·.phase)

def timerPhase (s : State) (t : Nat) : Option TimerPhase := (s.timers[t]?).map (·.phase)

def isAborted (s : State) (t : Nat) : Bool := (s.timers[t]?).any (·.aborted)

/-- One step of the queue. An aborted deadline task can be cancelled at a send; a send fails only once
the worker is gone, after the closing entry. -/
def step (s : State) : Label → Option State
  | .chunkCall kind bytes =>
    let phase := if bytes.isEmpty then .done else .begun
    some { s with calls := s.calls ++ [{ kind, bytes, phase }] }
  | .chunkAppend c =>
    match s.calls[c]? with
    | some x => if x.phase = .begun then some (chunkAppend s c x) else none
    | none => none
  | .chunkSend c => if phaseOf s c = some .sending then s.sendNext (.call c) else none
  | .chunkReturn c =>
    if phaseOf s c = some .sending ∧ s.holds (.call c) = false then some (s.setCall c .done) else none
  | .chunkFail c =>
    if phaseOf s c = some .sending ∧ s.block = .finished then
      some ((s.dropBatch (.call c)).setCall c .done)
    else none
  | .timerWake t =>
    if timerPhase s t = some .sleeping ∧ isAborted s t = false then some (s.setTimer t .awake) else none
  | .timerDrain t =>
    if timerPhase s t = some .awake then
      some ((({ s with flushTask := none } : State).drain (.timer t)).setTimer t .sending)
    else none
  | .timerSend t => if timerPhase s t = some .sending then s.sendNext (.timer t) else none
  | .timerCancel t =>
    if timerPhase s t = some .sending ∧ isAborted s t = true then
      some ((s.dropBatch (.timer t)).setTimer t .finished)
    else none
  | .timerFail t =>
    if timerPhase s t = some .sending ∧ s.block = .finished then
      some ((s.dropBatch (.timer t)).setTimer t .finished)
    else none
  | .blockCall =>
    if s.block = .idle then
      some { s with block := .begun, completed := s.calls.filter fun x => decide (x.phase = .done) }
    else none
  | .blockDrain => if s.block = .begun then some { s.drain .block with block := .sending } else none
  | .blockSend => if s.block = .sending then s.sendNext .block else none
  | .blockEntry =>
    if s.block = .sending ∧ s.holds .block = false ∧ s.pending < queueCapacity then
      some { s with mailbox := s.mailbox ++ [s.entry], pending := s.pending + 1, block := .finished }
    else none
  | .recv => if 0 < s.pending then some { s with pending := s.pending - 1 } else none

/-! ## What a schedule has to avoid -/

/-- The next item of `h` is sent in turn: it was not drained after the blocking call had drained, and
no batch drained before it still holds bytes of its direction. -/
def InTurn (s : State) (h : Holder) : Prop :=
  ∀ before x after k bs rest, s.held = before ++ x :: after → x.holder = h →
    x.batch = (k, bs) :: rest → (∀ y ∈ before, y.holder ≠ h) →
    x.late = false ∧ ∀ y ∈ before, ∀ i ∈ y.batch, i.1 ≠ k

/-- **A race-free step.** Up to the closing entry: the chunks of a direction are appended in the order
of their calls, and none between the call and the drain of the blocking call; items are sent in turn;
no batch drained in time is lost with its task; no chunk call is sending when the blocking call
begins; and no batch drained in time still waits when the entry is sent. -/
def RaceFree (s : State) (l : Label) : Prop :=
  s.block = .finished ∨
    match l with
    | .chunkAppend c =>
      s.block ≠ .begun ∧ (s.block = .idle → ∀ x y j, s.calls[c]? = some x → c < j →
        s.calls[j]? = some y → y.kind = x.kind → y.phase = .begun ∨ y.bytes = [])
    | .chunkSend c => InTurn s (.call c)
    | .timerSend t => InTurn s (.timer t)
    | .blockSend => InTurn s .block
    | .timerCancel t => ∀ x ∈ s.held, x.holder = .timer t → x.late = true
    | .blockCall => ∀ x ∈ s.calls, x.phase ≠ .sending
    | .blockEntry => ∀ x ∈ s.held, x.late = true
    | _ => True

/-! ## The bytes of one direction -/

def payload (d : RecordDirection) (es : List QueueEntry) : Bytes :=
  es.flatMap fun e => match e with
    | .event k bs => if k = d then bs else []
    | _ => []

def batchBytes (d : RecordDirection) (b : Batch) : Bytes :=
  b.flatMap fun x => if x.1 = d then x.2 else []

def heldBytes (d : RecordDirection) (hs : List Held) : Bytes := hs.flatMap fun x => batchBytes d x.batch

def chunkBytes (d : RecordDirection) (cs : List ChunkCall) : Bytes :=
  cs.flatMap fun x => if x.kind = d then x.bytes else []

def early (hs : List Held) : List Held := hs.filter fun x => decide (x.late = false)

def appended (cs : List ChunkCall) : List ChunkCall := cs.filter fun x => decide (x.phase ≠ .begun)

def QueueEntry.isEvent : QueueEntry → Bool
  | .event .. => true
  | _ => false

theorem batchBytes_drained (s : State) (d : RecordDirection) : batchBytes d s.drained = s.buffer d := by
  cases ho : s.output <;> cases hi : s.input <;> cases d <;>
    simp [State.drained, batchBytes, State.buffer, ho, hi]

theorem buffer_extend (s : State) (k d : RecordDirection) (bs : Bytes) :
    (s.extend k bs).buffer d = s.buffer d ++ if k = d then bs else [] := by
  cases k <;> cases d <;> simp [State.extend, State.buffer]

theorem payload_append (d : RecordDirection) (es fs : List QueueEntry) :
    payload d (es ++ fs) = payload d es ++ payload d fs := flatMap_append

theorem heldBytes_append (d : RecordDirection) (hs gs : List Held) :
    heldBytes d (hs ++ gs) = heldBytes d hs ++ heldBytes d gs := flatMap_append

theorem chunkBytes_append (d : RecordDirection) (xs ys : List ChunkCall) :
    chunkBytes d (xs ++ ys) = chunkBytes d xs ++ chunkBytes d ys := flatMap_append

theorem appended_append (xs ys : List ChunkCall) : appended (xs ++ ys) = appended xs ++ appended ys := filter_append xs ys

theorem early_append (hs gs : List Held) : early (hs ++ gs) = early hs ++ early gs :=
  filter_append hs gs

theorem heldBytes_drain (s : State) (h : Holder) (d : RecordDirection) :
    heldBytes d (s.drain h).held = heldBytes d s.held ++ s.buffer d := by
  rw [← batchBytes_drained]
  show heldBytes d (if s.drained.isEmpty then s.held else _) = _
  split
  · rename_i hnil
    rw [isEmpty_iff.mp hnil, batchBytes, flatMap_nil, append_nil]
  · rw [heldBytes_append]
    simp [heldBytes]

variable {c : Nat} {x : ChunkCall} {h : Holder} {s s' : State} {p : CallPhase} {l : Label}

theorem modify_split {cs : List ChunkCall} (h : cs[c]? = some x) :
    ∃ l₁ l₂, cs = l₁ ++ x :: l₂ ∧ l₁.length = c ∧ ∀ f, cs.modify c f = l₁ ++ f x :: l₂ := by
  induction cs generalizing c with
  | nil => simp at h
  | cons y r ih =>
    cases c with
    | zero =>
      simp only [getElem?_cons_zero, some.injEq] at h
      subst h
      exact ⟨[], r, rfl, rfl, fun f => rfl⟩
    | succ c =>
      rw [getElem?_cons_succ] at h
      obtain ⟨l₁, l₂, rfl, hlen, hmod⟩ := ih h
      refine ⟨y :: l₁, l₂, rfl, by rw [length_cons, hlen], fun f => ?_⟩
      rw [modify_succ_cons, hmod f]
      rfl

def remainder (x : Held) (rest : Batch) : List Held :=
  if rest.isEmpty then [] else [{ x with batch := rest }]

theorem heldBytes_remainder (d : RecordDirection) (x : Held) (rest : Batch) :
    heldBytes d (remainder x rest) = batchBytes d rest := by
  unfold remainder
  split
  · rename_i hnil
    rw [isEmpty_iff.mp hnil]
    rfl
  · simp [heldBytes]

theorem takeItem_eq {hs hs' : List Held} {k : RecordDirection} {bs : Bytes} (ht : takeItem h hs = some ((k, bs), hs')) :
    ∃ before x after rest, hs = before ++ x :: after ∧ x.holder = h ∧ x.batch = (k, bs) :: rest ∧
      (∀ y ∈ before, y.holder ≠ h) ∧ hs' = before ++ (remainder x rest ++ after) := by
  induction hs generalizing hs' with
  | nil => cases ht
  | cons x r ih =>
    unfold takeItem at ht
    by_cases hx : x.holder = h
    · rw [if_pos hx] at ht
      split at ht
      · cases ht
      · rename_i i rest hbatch
        cases ht
        refine ⟨[], x, r, rest, rfl, hx, hbatch, by simp, ?_⟩
        unfold remainder
        split <;> rfl
    · rw [if_neg hx, map_eq_some_iff] at ht
      obtain ⟨⟨i, hs''⟩, hrec, heq⟩ := ht
      cases heq
      obtain ⟨before, y, after, rest, rfl, hy, hbatch, hno, rfl⟩ := ih hrec
      refine ⟨x :: before, y, after, rest, rfl, hy, hbatch, ?_, rfl⟩
      intro z hz
      rcases mem_cons.mp hz with rfl | hz
      · exact hx
      · exact hno z hz

theorem heldBytes_take {before after : List Held} {x : Held} {k : RecordDirection} {bs : Bytes}
    {rest : Batch} (hbatch : x.batch = (k, bs) :: rest) (hturn : ∀ y ∈ before, ∀ i ∈ y.batch, i.1 ≠ k)
    (d : RecordDirection) :
    heldBytes d (before ++ x :: after) =
      payload d [.event k bs] ++ heldBytes d (before ++ (remainder x rest ++ after)) := by
  have hx : heldBytes d (x :: after) = payload d [.event k bs] ++ (batchBytes d rest ++ heldBytes d after) := by
    simp [heldBytes, payload, batchBytes, hbatch]
  rw [heldBytes_append, hx, heldBytes_append, heldBytes_append, heldBytes_remainder]
  by_cases hk : k = d
  · subst hk
    have hnil : heldBytes k before = [] := by
      rw [heldBytes, flatMap_eq_nil_iff]
      intro y hy
      rw [batchBytes, flatMap_eq_nil_iff]
      intro i hi
      rw [if_neg (hturn y hy i hi)]
    rw [hnil, nil_append, nil_append]
  · have hnil : payload d [.event k bs] = [] := by simp [payload, hk]
    rw [hnil, nil_append, nil_append]

/-! ## The invariant -/

/-- The queue before the closing entry. Until the blocking call has drained, what was sent, then what
is held, then what is buffered, is what the calls appended; after that, what was sent and what is
held in time are the chunks of the completed calls. -/
structure Flowing (s : State) : Prop where
  events : ∀ e ∈ s.mailbox, e.isEvent = true
  flow : s.block ≠ .sending → ∀ d, payload d s.mailbox ++ heldBytes d s.held ++ s.buffer d = chunkBytes d (appended s.calls)
  intime : s.block ≠ .sending → ∀ x ∈ s.held, x.late = false
  fixed : s.block = .begun → ∀ d, chunkBytes d (appended s.calls) = chunkBytes d s.completed
  taken : s.block = .sending → ∀ d, payload d s.mailbox ++ heldBytes d (early s.held) = chunkBytes d s.completed

/-- The events in front of the closing entry are the chunks of the completed calls. -/
def Sealed (s : State) : Prop :=
  ∃ before after, s.mailbox = before ++ s.entry :: after ∧ (∀ e ∈ before, e.isEvent = true) ∧
    ∀ d, payload d before = chunkBytes d s.completed

def Inv (s : State) : Prop :=
  (s.block ≠ .finished ∧ Flowing s) ∨ (s.block = .finished ∧ Sealed s)

theorem Flowing.init (entry : QueueEntry) : Flowing (init entry) where
  events := by simp [Queue.init]
  flow _ d := by cases d <;> rfl
  intime _ := by simp [Queue.init]
  fixed h := by cases h
  taken h := by cases h

theorem Flowing.sendNext (hs : Flowing s) (hturn : InTurn s h) (hstep : s.sendNext h = some s') : Flowing s' := by
  unfold State.sendNext at hstep
  split at hstep
  · cases hstep
  rename_i k bs held htake
  split at hstep
  · cases hstep
    obtain ⟨before, x, after, rest, hheld, hx, hbatch, hno, rfl⟩ := takeItem_eq htake
    obtain ⟨hlate, hfirst⟩ := hturn before x after k bs rest hheld hx hbatch hno
    have hrem : early (remainder x rest) = remainder x rest := by
      unfold remainder
      split
      · rfl
      · simp [early, hlate]
    refine ⟨?_, ?_, ?_, hs.fixed, ?_⟩
    · intro e he
      rcases mem_append.mp he with he | he
      · exact hs.events e he
      · rw [mem_singleton.mp he]
        rfl
    · intro hb d
      have hd := hs.flow hb d
      rw [hheld, heldBytes_take hbatch hfirst, ← append_assoc (payload d s.mailbox)] at hd
      rw [payload_append]
      exact hd
    · intro hb y hy
      have hall := hs.intime hb
      rw [hheld] at hall
      rcases mem_append.mp hy with hy | hy
      · exact hall y (mem_append_left _ hy)
      · rcases mem_append.mp hy with hy | hy
        · rw [← hrem] at hy
          exact of_decide_eq_true (mem_filter.mp hy).2
        · exact hall y (mem_append_right _ (mem_cons_of_mem _ hy))
    · intro hb d
      have hd := hs.taken hb d
      have hfirst' : ∀ y ∈ early before, ∀ i ∈ y.batch, i.1 ≠ k := fun y hy =>
        hfirst y (mem_filter.mp hy).1
      have hsplit : early (before ++ x :: after) = early before ++ x :: early after := by
        rw [early_append, early, early, filter_cons, if_pos (by simp [hlate])]
        rfl
      rw [hheld, hsplit, heldBytes_take hbatch hfirst', ← append_assoc] at hd
      rw [payload_append, early_append, early_append, hrem]
      exact hd
  · cases hstep

theorem Flowing.drain (h : Holder) (hs : Flowing s) : Flowing (s.drain h) := by
  have hbuf : ∀ d, (s.drain h).buffer d = [] := fun d => by cases d <;> rfl
  refine ⟨hs.events, ?_, ?_, hs.fixed, ?_⟩
  · intro hb d
    rw [heldBytes_drain, hbuf, append_nil, ← append_assoc]
    exact hs.flow hb d
  · intro hb x hx
    have hb' : s.block ≠ .sending := hb
    have hx' : x ∈ (if s.drained.isEmpty then s.held else s.held ++
        [{ holder := h, batch := s.drained, late := decide (s.block = .sending) }]) := hx
    split at hx'
    · exact hs.intime hb' x hx'
    · rcases mem_append.mp hx' with hx' | hx'
      · exact hs.intime hb' x hx'
      · rw [mem_singleton.mp hx']
        exact decide_eq_false hb'
  · intro hb d
    have hb' : s.block = .sending := hb
    have hearly : early (s.drain h).held = early s.held := by
      show early (if s.drained.isEmpty then s.held else _) = _
      split
      · rfl
      · rw [early_append]
        simp [early, hb']
    rw [hearly]
    exact hs.taken hb' d

theorem Flowing.arm (hs : Flowing s) : Flowing s.arm :=
  ⟨hs.events, hs.flow, hs.intime, hs.fixed, hs.taken⟩

theorem Flowing.call (hs : Flowing s) (k : RecordDirection) (b : Bytes) : Flowing { s with
    calls := s.calls ++ [{ kind := k, bytes := b, phase := if b.isEmpty then .done else .begun }] } := by
  have hsame : ∀ d, chunkBytes d (appended (s.calls ++
      [{ kind := k, bytes := b, phase := if b.isEmpty then .done else .begun }])) = chunkBytes d (appended s.calls) := by
    intro d
    rw [appended_append, chunkBytes_append]
    cases b <;> simp [appended, chunkBytes]
  exact ⟨hs.events, fun hb d => (hs.flow hb d).trans (hsame d).symm, hs.intime,
    fun hb d => (hsame d).trans (hs.fixed hb d), hs.taken⟩

theorem Flowing.setCall (hs : Flowing s) (hx : s.calls[c]? = some x) (hphase : x.phase ≠ .begun) (hp : p ≠ .begun) :
    Flowing (s.setCall c p) := by
  obtain ⟨l₁, l₂, hcalls, -, hmod⟩ := modify_split hx
  have hcalls' : (s.setCall c p).calls = l₁ ++ { x with phase := p } :: l₂ := hmod _
  have hsame : ∀ d, chunkBytes d (appended (s.setCall c p).calls) = chunkBytes d (appended s.calls) := by
    intro d
    rw [hcalls', hcalls]
    simp [appended, chunkBytes, hphase, hp]
  exact ⟨hs.events, fun hb d => (hs.flow hb d).trans (hsame d).symm, hs.intime,
    fun hb d => (hsame d).trans (hs.fixed hb d), hs.taken⟩

theorem Flowing.append (hs : Flowing s) (hbegun : s.block ≠ .begun) (hx : s.calls[c]? = some x) (hphase : x.phase = .begun)
    (hlater : s.block ≠ .sending → ∀ y j, c < j → s.calls[j]? = some y → y.kind = x.kind →
      y.phase = .begun ∨ y.bytes = []) (hp : p ≠ .begun) :
    Flowing ((s.extend x.kind x.bytes).setCall c p) := by
  obtain ⟨l₁, l₂, hcalls, hlen, hmod⟩ := modify_split hx
  have hcalls' : ((s.extend x.kind x.bytes).setCall c p).calls = l₁ ++ { x with phase := p } :: l₂ :=
    hmod _
  refine ⟨hs.events, ?_, hs.intime, fun hb => absurd hb hbegun, hs.taken⟩
  intro hb d
  have hd := hs.flow hb d
  rw [hcalls, appended_append, chunkBytes_append] at hd
  show payload d s.mailbox ++ heldBytes d s.held ++ (s.extend x.kind x.bytes).buffer d = _
  rw [buffer_extend, hcalls', appended_append, chunkBytes_append, ← append_assoc, hd]
  have hbefore : appended (x :: l₂) = appended l₂ := by simp [appended, hphase]
  have hafter : appended ({ x with phase := p } :: l₂) = { x with phase := p } :: appended l₂ := by
    simp [appended, hp]
  rw [hbefore, hafter]
  by_cases hk : x.kind = d
  · -- nothing of this direction was appended by a later call
    have hlate : chunkBytes d (appended l₂) = [] := by
      rw [chunkBytes, flatMap_eq_nil_iff]
      intro y hy
      obtain ⟨hy, hby⟩ := mem_filter.mp hy
      obtain ⟨i, hi, hget⟩ := getElem_of_mem hy
      have hget' : s.calls[c + 1 + i]? = some y := by
        rw [hcalls, getElem?_append_right (by omega),
          show c + 1 + i - l₁.length = i + 1 by omega, getElem?_cons_succ,
          getElem?_eq_getElem hi, hget]
      split
      · rename_i hyk
        rcases hlater hb y _ (by omega) hget' (hyk.trans hk.symm) with h | h
        · exact absurd h (by simpa using hby)
        · exact h
      · rfl
    simp only [chunkBytes, flatMap_cons, hk, if_true, append_assoc]
    simp only [chunkBytes] at hlate
    rw [hlate, nil_append, append_nil]
  · simp only [chunkBytes, flatMap_cons, hk, if_false, nil_append, append_nil]

theorem Flowing.dropBatch (hs : Flowing s)
    (hlate : ∀ x ∈ s.held, x.holder = h → x.late = true) : Flowing (s.dropBatch h) := by
  have hearly : early (s.dropBatch h).held = early s.held := by
    show (s.held.filter _).filter _ = s.held.filter _
    rw [List.filter_filter]
    apply filter_congr
    intro x hx
    by_cases hxh : x.holder = h
    · simp [hxh, hlate x hx hxh]
    · simp [hxh]
  have hkept : s.block ≠ .sending → (s.dropBatch h).held = s.held := by
    intro hb
    refine filter_eq_self.mpr fun x hx => ?_
    have hne : x.holder ≠ h := by
      intro hxh
      have := hlate x hx hxh
      rw [hs.intime hb x hx] at this
      cases this
    simpa using hne
  refine ⟨hs.events, ?_, ?_, hs.fixed, ?_⟩
  · intro hb d
    rw [hkept hb]
    exact hs.flow hb d
  · intro hb
    rw [hkept hb]
    exact hs.intime hb
  · intro hb d
    rw [hearly]
    exact hs.taken hb d

/-! ## Every step -/

/-- What no step touches: the entry, and once it is sent all but what follows it. -/
structure Frame (s s' : State) : Prop where
  entry : s'.entry = s.entry
  finished : s.block = .finished → s'.block = .finished ∧ s'.completed = s.completed ∧
    ∃ more, s'.mailbox = s.mailbox ++ more

theorem Frame.of_eq (he : s'.entry = s.entry) (hb : s'.block = s.block)
    (hc : s'.completed = s.completed) (hm : s'.mailbox = s.mailbox) : Frame s s' :=
  ⟨he, fun hfin => ⟨hb.trans hfin, hc, [], hm.trans (append_nil _).symm⟩⟩

theorem sendNext_frame (hs : s.sendNext h = some s') : s'.block = s.block ∧ Frame s s' := by
  unfold State.sendNext at hs
  split at hs
  · cases hs
  · split at hs
    · cases hs
      exact ⟨rfl, rfl, fun hfin => ⟨hfin, rfl, _, rfl⟩⟩
    · cases hs

theorem step_chunkAppend (hstep : step s (.chunkAppend c) = some s') : ∃ x, s.calls[c]? = some x ∧ x.phase = .begun ∧
    (s' = ((s.extend x.kind x.bytes).setCall c .sending).drain (.call c) ∨
      s' = ((s.extend x.kind x.bytes).setCall c .done).arm) := by
  simp only [step] at hstep
  split at hstep
  · rename_i x hx
    simp only [ite_none_right_eq_some, some.injEq] at hstep
    obtain ⟨hphase, rfl⟩ := hstep
    refine ⟨x, hx, hphase, ?_⟩
    unfold chunkAppend
    dsimp only
    split
    · exact .inl rfl
    · exact .inr rfl
  · cases hstep

theorem step_frame (hstep : step s l = some s') : Frame s s' := by
  cases l with
  | chunkAppend c =>
    obtain ⟨x, -, -, rfl | rfl⟩ := step_chunkAppend hstep
    · exact .of_eq rfl rfl rfl rfl
    · exact .of_eq rfl rfl rfl rfl
  | chunkCall k b =>
    cases hstep
    exact .of_eq rfl rfl rfl rfl
  | chunkSend c | timerSend c =>
    simp only [step, ite_none_right_eq_some] at hstep
    exact (sendNext_frame hstep.2).2
  | blockSend =>
    simp only [step, ite_none_right_eq_some] at hstep
    exact (sendNext_frame hstep.2).2
  | blockCall | blockDrain =>
    simp only [step, ite_none_right_eq_some, some.injEq] at hstep
    obtain ⟨hb, rfl⟩ := hstep
    exact ⟨rfl, fun hfin => by rw [hfin] at hb; cases hb⟩
  | blockEntry =>
    simp only [step, ite_none_right_eq_some, some.injEq] at hstep
    obtain ⟨⟨hb, -, -⟩, rfl⟩ := hstep
    exact ⟨rfl, fun hfin => by rw [hfin] at hb; cases hb⟩
  | chunkReturn c | chunkFail c | timerWake c | timerDrain c | timerCancel c | timerFail c =>
    simp only [step, ite_none_right_eq_some, some.injEq] at hstep
    obtain ⟨-, rfl⟩ := hstep
    exact .of_eq rfl rfl rfl rfl
  | recv =>
    simp only [step, ite_none_right_eq_some, some.injEq] at hstep
    obtain ⟨-, rfl⟩ := hstep
    exact .of_eq rfl rfl rfl rfl

theorem phaseOf_eq (h : phaseOf s c = some p) : ∃ x, s.calls[c]? = some x ∧ x.phase = p :=
  map_eq_some_iff.mp h

theorem step_flowing (hs : Flowing s) (hopen : s.block ≠ .finished)
    (hfree : RaceFree s l) (hstep : step s l = some s') : Inv s' := by
  have hrace := hfree.resolve_left hopen
  have keep : ∀ t : State, t.block = s.block → Flowing t → Inv t := fun t hb ht =>
    .inl ⟨by rw [hb]; exact hopen, ht⟩
  cases l with
  | chunkCall k b =>
    cases hstep
    exact keep _ rfl (hs.call k b)
  | chunkAppend c =>
    obtain ⟨hbegun, hlater⟩ := hrace
    have hlater' : ∀ x, s.calls[c]? = some x → s.block ≠ .sending → ∀ y j, c < j →
        s.calls[j]? = some y → y.kind = x.kind → y.phase = .begun ∨ y.bytes = [] := by
      intro x hx hb y j
      have hidle : s.block = .idle := by
        cases hblock : s.block with
        | idle => rfl
        | begun => exact absurd hblock hbegun
        | sending => exact absurd hblock hb
        | finished => exact absurd hblock hopen
      exact hlater hidle x y j hx
    obtain ⟨x, hx, hphase, rfl | rfl⟩ := step_chunkAppend hstep
    · exact keep _ rfl ((hs.append hbegun hx hphase (hlater' x hx) (by decide)).drain _)
    · exact keep _ rfl (hs.append hbegun hx hphase (hlater' x hx) (by decide)).arm
  | chunkSend c | timerSend c =>
    simp only [step, ite_none_right_eq_some] at hstep
    exact keep _ (sendNext_frame hstep.2).1 (hs.sendNext hrace hstep.2)
  | blockSend =>
    simp only [step, ite_none_right_eq_some] at hstep
    exact keep _ (sendNext_frame hstep.2).1 (hs.sendNext hrace hstep.2)
  | chunkReturn c =>
    simp only [step, ite_none_right_eq_some, some.injEq] at hstep
    obtain ⟨⟨hphase, -⟩, rfl⟩ := hstep
    obtain ⟨x, hx, hxp⟩ := phaseOf_eq hphase
    exact keep _ rfl (hs.setCall hx (by rw [hxp]; decide) (by decide))
  | chunkFail c | timerFail c =>
    simp only [step, ite_none_right_eq_some] at hstep
    exact absurd hstep.1.2 hopen
  | timerWake t =>
    simp only [step, ite_none_right_eq_some, some.injEq] at hstep
    obtain ⟨-, rfl⟩ := hstep
    exact keep _ rfl ⟨hs.events, hs.flow, hs.intime, hs.fixed, hs.taken⟩
  | timerDrain t =>
    simp only [step, ite_none_right_eq_some, some.injEq] at hstep
    obtain ⟨-, rfl⟩ := hstep
    have hslot : Flowing { s with flushTask := none } :=
      ⟨hs.events, hs.flow, hs.intime, hs.fixed, hs.taken⟩
    have hd := hslot.drain (.timer t)
    exact keep _ rfl ⟨hd.events, hd.flow, hd.intime, hd.fixed, hd.taken⟩
  | timerCancel t =>
    simp only [step, ite_none_right_eq_some, some.injEq] at hstep
    obtain ⟨-, rfl⟩ := hstep
    have hd := hs.dropBatch hrace
    exact keep _ rfl ⟨hd.events, hd.flow, hd.intime, hd.fixed, hd.taken⟩
  | blockCall =>
    simp only [step, ite_none_right_eq_some, some.injEq] at hstep
    obtain ⟨hidle, rfl⟩ := hstep
    have hnot : s.block ≠ .sending := by rw [hidle]; decide
    refine .inl ⟨by simp, hs.events, fun _ => hs.flow hnot, fun _ => hs.intime hnot, fun _ d => ?_, nofun⟩
    -- a call that has appended and is not sending has returned
    have hall : ∀ x ∈ s.calls, decide (x.phase ≠ .begun) = decide (x.phase = .done) := by
      intro x hx
      have := hrace x hx
      cases hp : x.phase <;> simp_all
    show chunkBytes d (s.calls.filter _) = chunkBytes d (s.calls.filter _)
    rw [filter_congr hall]
  | blockDrain =>
    simp only [step, ite_none_right_eq_some, some.injEq] at hstep
    obtain ⟨hbegun, rfl⟩ := hstep
    have hnot : s.block ≠ .sending := by rw [hbegun]; decide
    have hd := hs.drain .block
    refine .inl ⟨by simp, hd.events, fun h => absurd rfl h, fun h => absurd rfl h, nofun, fun _ d => ?_⟩
    have hearly : early (s.drain .block).held = (s.drain .block).held :=
      filter_eq_self.mpr fun x hx => decide_eq_true (hd.intime hnot x hx)
    show payload d s.mailbox ++ heldBytes d (early (s.drain .block).held) = chunkBytes d s.completed
    rw [hearly, heldBytes_drain, ← append_assoc, hs.flow hnot, hs.fixed hbegun]
  | blockEntry =>
    simp only [step, ite_none_right_eq_some, some.injEq] at hstep
    obtain ⟨⟨hsending, -, -⟩, rfl⟩ := hstep
    refine .inr ⟨rfl, s.mailbox, [], rfl, hs.events, fun d => ?_⟩
    have hnone : early s.held = [] := by
      rw [early, filter_eq_nil_iff]
      intro x hx
      simp [hrace x hx]
    have hd := hs.taken hsending d
    rw [hnone, heldBytes, flatMap_nil, append_nil] at hd
    exact hd
  | recv =>
    simp only [step, ite_none_right_eq_some, some.injEq] at hstep
    obtain ⟨-, rfl⟩ := hstep
    exact keep _ rfl ⟨hs.events, hs.flow, hs.intime, hs.fixed, hs.taken⟩

theorem step_inv (hs : Inv s) (hfree : RaceFree s l) (hstep : step s l = some s') : Inv s' := by
  rcases hs with ⟨hopen, hs⟩ | ⟨hfin, before, after, hmail, hev, hbytes⟩
  · exact step_flowing hs hopen hfree hstep
  · have hframe := step_frame hstep
    obtain ⟨hb, hc, more, hmore⟩ := hframe.finished hfin
    refine .inr ⟨hb, before, after ++ more, ?_, hev, by rw [hc]; exact hbytes⟩
    rw [hmore, hmail, hframe.entry, append_assoc]
    rfl

/-- **No loss and no reordering.** In every race-free interleaving of chunk calls, deadline flushes and
one blocking call, once the entry is in the mailbox, the events in front of it carry for each
direction exactly the chunks of the calls that had returned when the blocking call began, in call
order. -/
theorem events_before_entry (entry : QueueEntry) (ls : List Label) (s : State)
    (hrun : run step (init entry) ls = some s) (hfree : Along step RaceFree (init entry) ls)
    (hsent : s.block = .finished) :
    ∃ before after, s.mailbox = before ++ entry :: after ∧ (∀ e ∈ before, e.isEvent = true) ∧
      ∀ d, payload d before = chunkBytes d s.completed := by
  have hinit : Inv (init entry) := .inl ⟨by simp [init], Flowing.init entry⟩
  have hinv : s.entry = entry ∧ Inv s := by
    refine run_invariant (I := fun s => s.entry = entry ∧ Inv s) ?_ ⟨rfl, hinit⟩ hfree hrun
    intro s l s' hs hok hstep
    exact ⟨(step_frame hstep).entry.trans hs.1, step_inv hs.2 hok hstep⟩
  obtain ⟨rfl, ⟨hopen, -⟩ | ⟨-, hsealed⟩⟩ := hinv
  · exact absurd hsent hopen
  · exact hsealed

def sampleSchedule : List Label :=
  [.chunkCall .output [0x61], .chunkAppend 0, .blockCall, .blockDrain, .blockSend, .blockEntry]

theorem events_before_entry_sample :
    ∃ s, run step (init .close) sampleSchedule = some s ∧ s.completed = [⟨.output, [0x61], .done⟩] ∧
      ∃ before after, s.mailbox = before ++ .close :: after ∧ (∀ e ∈ before, e.isEvent = true) ∧
        ∀ d, payload d before = chunkBytes d s.completed := by
  refine ⟨_, rfl, rfl, events_before_entry .close sampleSchedule _ rfl ?_ rfl⟩
  refine along_cons rfl (.inr trivial) (along_cons rfl (.inr ⟨by decide, ?_⟩) (along_cons rfl (.inr ?_)
    (along_cons rfl (.inr trivial) (along_cons rfl (.inr ?_) (along_cons rfl (.inr ?_) trivial)))))
  · intro _ x y j _ hj hy
    have : ([⟨.output, [0x61], .begun⟩] : List ChunkCall)[j]? = some y := hy
    rw [getElem?_eq_none (Nat.succ_le_of_lt hj)] at this
    cases this
  · decide
  · intro before x after k bs rest hheld hx hbatch hno
    cases before with
    | nil =>
      cases (List.cons.inj hheld).1
      exact ⟨rfl, by simp⟩
    | cons y ys => cases (append_eq_nil_iff.mp (List.cons.inj hheld).2.symm).2
  · decide

/-- The deadline task has drained the chunk of a call that returned, and the blocking call sends
`Close` before the task sends its batch. -/
theorem close_overtakes_deadline_flush : ∃ s, run step (init .close)
        [.chunkCall .output [0x61], .chunkAppend 0, .timerWake 0, .timerDrain 0, .blockCall, .blockDrain,
          .blockEntry] = some s ∧
      s.block = .finished ∧ s.completed = [⟨.output, [0x61], .done⟩] ∧
      ¬ ∃ before after, s.mailbox = before ++ .close :: after ∧ (∀ e ∈ before, e.isEvent = true) ∧
        ∀ d, payload d before = chunkBytes d s.completed := by
  refine ⟨_, rfl, rfl, rfl, ?_⟩
  rintro ⟨before, after, hmail, hev, hbytes⟩
  cases before with
  | nil => cases hbytes .output
  | cons e es =>
    cases (List.cons.inj hmail).1
    cases hev .close mem_cons_self

end LetsFlutSsh.Recorder.Queue
