import Mathlib.Data.List.Nodup

/-!
# Transfers: the queue of tasks

The registry of `transfer/mod.rs`:

* `TaskSnapshot`, `TaskActor` : a task as callers see it and as the queue keeps it;
* `TransferQueue` : the tasks by id, with the order in which they were queued;
* `enqueue`, `setState`, `setProgress`, `cancel`, `dropTerminal`, `fail` : the operations.
-/

namespace LetsFlutSsh.Transfer
open Option

abbrev TaskId := String

inductive TaskState where
  | queued
  | running
  | completed
  | failed
  | cancelled
  deriving DecidableEq

/-- `Completed | Failed | Cancelled`. -/
def TaskState.terminal : TaskState → Bool
  | .completed | .failed | .cancelled => true
  | .queued | .running => false

inductive TaskKind where
  | download
  | upload

structure TaskSnapshot where
  id : TaskId
  kind : TaskKind
  sessionId : String
  remotePath : String
  localPath : String
  state : TaskState
  bytesDone : Nat
  bytesTotal : Nat
  error : Option String

/-- A task, with what it last told of its progress and when (in milliseconds). -/
structure TaskActor extends TaskSnapshot where
  progressPublishedBytes : Nat
  progressPublishedAt : Option Nat

def TaskActor.snapshot (a : TaskActor) : TaskSnapshot := a.toTaskSnapshot

structure EnqueueRequest where
  id : TaskId
  kind : TaskKind
  sessionId : String
  remotePath : String
  localPath : String
  bytesTotal : Nat

def EnqueueRequest.actor (req : EnqueueRequest) : TaskActor where
  id := req.id
  kind := req.kind
  sessionId := req.sessionId
  remotePath := req.remotePath
  localPath := req.localPath
  state := .queued
  bytesDone := 0
  bytesTotal := req.bytesTotal
  error := none
  progressPublishedBytes := 0
  progressPublishedAt := none

def progressBytesThreshold : Nat := 256 * 1024
def progressTimeThreshold : Nat := 100

def TaskActor.publishes (actor : TaskActor) (now : Nat) : Bool :=
  match actor.progressPublishedAt with
  | none => true
  | some prevAt =>
    decide (0 < actor.bytesTotal ∧ actor.bytesTotal ≤ actor.bytesDone) ||
      decide (progressBytesThreshold ≤ actor.bytesDone - actor.progressPublishedBytes) ||
      decide (progressTimeThreshold ≤ now - prevAt)

def TaskActor.progressed (bytesDone now : Nat) (actor : TaskActor) : TaskActor :=
  let actor := { actor with bytesDone := bytesDone }
  if actor.publishes now then { actor with progressPublishedBytes := bytesDone, progressPublishedAt := some now }
  else actor

theorem TaskActor.progressed_id (bytesDone now : Nat) (actor : TaskActor) :
    (TaskActor.progressed bytesDone now actor).id = actor.id := by
  unfold TaskActor.progressed
  dsimp only
  split <;> rfl

theorem TaskActor.progressed_state (bytesDone now : Nat) (actor : TaskActor) :
    (TaskActor.progressed bytesDone now actor).state = actor.state := by
  unfold TaskActor.progressed
  dsimp only
  split <;> rfl

structure TransferQueue where
  byId : TaskId → Option TaskActor
  order : List TaskId
  nodup : order.Nodup
  mem_order : ∀ id, id ∈ order ↔ (byId id).isSome
  id_eq : ∀ id actor, byId id = some actor → actor.id = id

namespace TransferQueue

def new : TransferQueue where
  byId _ := none
  order := []
  nodup := List.nodup_nil
  mem_order := by simp
  id_eq := by simp

def modify (q : TransferQueue) (id : TaskId) (f : TaskActor → TaskActor) (hf : ∀ a, (f a).id = a.id) : TransferQueue where
  byId k := if k = id then (q.byId k).map f else q.byId k
  order := q.order
  nodup := q.nodup
  mem_order k := by
    rw [q.mem_order]
    split <;> simp
  id_eq k actor h := by
    split at h
    · obtain ⟨old, hold, rfl⟩ := Option.map_eq_some_iff.1 h
      rw [hf, q.id_eq k old hold]
    · exact q.id_eq k actor h

/-- `enqueue`: a later request replaces the row of its id, in its place. -/
def enqueue (q : TransferQueue) (req : EnqueueRequest) : TransferQueue × TaskSnapshot :=
  ({ byId := fun k => if k = req.id then some req.actor else q.byId k
     order := if (q.byId req.id).isSome then q.order else q.order ++ [req.id]
     nodup := by
       split
       · exact q.nodup
       · next habsent =>
         refine List.nodup_append.2 ⟨q.nodup, List.nodup_singleton _, fun k hk k' hk' => ?_⟩
         rw [List.mem_singleton] at hk'
         rintro rfl
         rw [hk', q.mem_order] at hk
         exact habsent hk
     mem_order := fun k => by
       by_cases hk : k = req.id
       · subst hk
         split
         · next hthere => simp [q.mem_order, hthere]
         · simp
       · split
         · exact q.mem_order k
         · simp [q.mem_order, hk]
     id_eq := fun k actor h => by
       split at h
       · next hk =>
         cases h
         exact hk.symm
       · exact q.id_eq k actor h },
    req.actor.snapshot)

/-- `set_state`: whatever the state was before. -/
def setState (q : TransferQueue) (id : TaskId) (state : TaskState) : TransferQueue :=
  match q.byId id with
  | none => q
  | some actor => if actor.state = state then q else q.modify id (fun a => { a with state := state }) fun _ => rfl

def setProgress (q : TransferQueue) (id : TaskId) (bytesDone now : Nat) : TransferQueue :=
  q.modify id (TaskActor.progressed bytesDone now) (TaskActor.progressed_id bytesDone now)

/-- `cancel`: nothing happens to a task in a terminal state. -/
def cancel (q : TransferQueue) (id : TaskId) : TransferQueue × Bool :=
  match q.byId id with
  | none => (q, false)
  | some actor =>
    if actor.state.terminal then (q, false)
    else (q.modify id (fun a => { a with state := .cancelled }) fun _ => rfl, true)

def dropTerminal (q : TransferQueue) (id : TaskId) : TransferQueue × Bool :=
  match q.byId id with
  | none => (q, false)
  | some actor =>
    if actor.state.terminal then
      ({ byId := fun k => if k = id then none else q.byId k
         order := q.order.filter (· ≠ id)
         nodup := q.nodup.filter _
         mem_order := fun k => by
           rw [List.mem_filter, q.mem_order]
           split
           · next hk => simp [hk]
           · next hk => simp [hk]
         id_eq := fun k actor h => by
           split at h
           · cases h
           · exact q.id_eq k actor h },
        true)
    else (q, false)

/-- `fail`: whatever the state was before. -/
def fail (q : TransferQueue) (id : TaskId) (message : String) : TransferQueue :=
  q.modify id (fun a => { a with state := .failed, error := some message }) fun _ => rfl

def snapshot (q : TransferQueue) (id : TaskId) : Option TaskSnapshot := (q.byId id).map TaskActor.snapshot

def state (q : TransferQueue) (id : TaskId) : Option TaskState := (q.byId id).map fun a => a.state

variable (q : TransferQueue) (id k : TaskId)

theorem state_modify {f : TaskActor → TaskActor} {hf : ∀ a, (f a).id = a.id} {g : TaskState → TaskState}
    (hg : ∀ a, (f a).state = g a.state) : (q.modify id f hf).state k = if k = id then (q.state k).map g else q.state k := by
  unfold state modify
  dsimp only
  split
  · rw [map_map, map_map]
    congr 1
    funext a
    exact hg a
  · rfl

theorem state_enqueue (req : EnqueueRequest) :
    (q.enqueue req).1.state k = if k = req.id then some .queued else q.state k := by
  unfold state enqueue
  dsimp only
  split <;> rfl

theorem state_setState (state : TaskState) :
    (q.setState id state).state k = if k = id then (q.state k).map fun _ => state else q.state k := by
  unfold setState
  rcases hrow : q.byId id with _ | actor
  · dsimp only
    split
    · next hk => simp [TransferQueue.state, hk, hrow]
    · rfl
  · dsimp only
    split
    · next hsame =>
      split
      · next hk => simp [TransferQueue.state, hk, hrow, hsame]
      · rfl
    · exact state_modify q id k fun _ => rfl

theorem state_setProgress (bytesDone now : Nat) : (q.setProgress id bytesDone now).state k = q.state k := by
  unfold setProgress
  rw [state_modify q id k (g := fun s => s) (TaskActor.progressed_state bytesDone now)]
  simp

theorem state_cancel : (q.cancel id).1.state k =
    if k = id then (q.state k).map fun s => if s.terminal then s else .cancelled else q.state k := by
  unfold cancel
  rcases hrow : q.byId id with _ | actor
  · dsimp only
    split
    · next hk => simp [state, hk, hrow]
    · rfl
  dsimp only
  by_cases hterm : actor.state.terminal = true
  · rw [if_pos hterm]
    split
    · next hk => simp [state, hk, hrow, hterm]
    · rfl
  · rw [if_neg hterm]
    rw [state_modify q id k (g := fun _ => .cancelled) fun _ => rfl]
    split
    · next hk => simp [state, hk, hrow, hterm]
    · rfl

theorem state_dropTerminal : (q.dropTerminal id).1.state k =
    if k = id then (q.state k).filter fun s => !s.terminal else q.state k := by
  unfold dropTerminal
  rcases hrow : q.byId id with _ | actor
  · dsimp only
    split
    · next hk => simp [state, hk, hrow]
    · rfl
  dsimp only
  by_cases hterm : actor.state.terminal = true
  · rw [if_pos hterm]
    split
    · next hk => simp [state, hk, hrow, filter_some, hterm]
    · next hk => simp [state, hk]
  · rw [if_neg hterm]
    split
    · next hk => simp [state, hk, hrow, filter_some, hterm]
    · rfl

theorem state_fail (message : String) :
    (q.fail id message).state k = if k = id then (q.state k).map fun _ => .failed else q.state k :=
  state_modify q id k fun _ => rfl

theorem snapshot_eq_none_iff : q.snapshot id = none ↔ q.state id = none := by
  unfold snapshot state
  rw [map_eq_none_iff, map_eq_none_iff]

theorem snapshot_id {task : TaskSnapshot} (h : q.snapshot id = some task) : task.id = id := by
  obtain ⟨actor, hactor, rfl⟩ := map_eq_some_iff.1 h
  exact q.id_eq id actor hactor

end TransferQueue

end LetsFlutSsh.Transfer
