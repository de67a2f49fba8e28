import LetsFlutSsh.Lib.Run
import Mathlib.Logic.Function.Basic

/-!
# Sessions: the undo and redo stacks

`session_history.rs`. A stack is a list whose last element is its top, as in the vectors of the source.

* `Registry`, `Op` : the handles of the process, and what is called on them;
* `State.Within`, `run_within` : undo and redo entries together stay within the cap.
-/

namespace LetsFlutSsh.Sessions.History
open Lib List Option

abbrev HandleId := UInt64

def maxStack : Nat := 50

structure Snapshot where
  description : String
  blob : List UInt8
  deriving DecidableEq

@[ext]
structure State where
  undoStack : List Snapshot := []
  redoStack : List Snapshot := []
  deriving DecidableEq

namespace State

def push (s : State) (snap : Snapshot) : State where
  undoStack :=
    let stack := s.undoStack ++ [snap]
    if stack.length > maxStack then stack.eraseIdx 0 else stack
  redoStack := []

def undo (s : State) (current : Snapshot) : Option (Snapshot × State) :=
  s.undoStack.getLast?.map fun popped => (popped, ⟨s.undoStack.dropLast, s.redoStack ++ [current]⟩)

def redo (s : State) (current : Snapshot) : Option (Snapshot × State) :=
  s.redoStack.getLast?.map fun popped => (popped, ⟨s.undoStack ++ [current], s.redoStack.dropLast⟩)

/-- One cap for both stacks: undo and redo only move an entry across. -/
def Within (s : State) : Prop := s.undoStack.length + s.redoStack.length ≤ maxStack

variable {s t : State} {snap popped c d : Snapshot}

theorem undo_eq_some : s.undo c = some (popped, t) ↔
    s.undoStack = t.undoStack ++ [popped] ∧ t.redoStack = s.redoStack ++ [c] := by
  rcases s with ⟨undos, redos⟩
  rcases t with ⟨undos', redos'⟩
  rcases eq_nil_or_concat undos with rfl | ⟨init, last, rfl⟩
  · simp [undo]
  · simp [undo, and_comm, and_assoc, eq_comm (a := redos ++ [c])]

theorem redo_eq_some : s.redo c = some (popped, t) ↔
    s.redoStack = t.redoStack ++ [popped] ∧ t.undoStack = s.undoStack ++ [c] := by
  rcases s with ⟨undos, redos⟩
  rcases t with ⟨undos', redos'⟩
  rcases eq_nil_or_concat redos with rfl | ⟨init, last, rfl⟩
  · simp [redo]
  · simp [redo, and_comm, and_assoc, eq_comm (a := undos ++ [c])]

theorem push_of_within (h : s.Within) (snap : Snapshot) : s.push snap =
    ⟨(if s.undoStack.length = maxStack then s.undoStack.tail else s.undoStack) ++ [snap], []⟩ := by
  have hle : s.undoStack.length ≤ maxStack := by unfold Within at h; omega
  by_cases hfull : s.undoStack.length = maxStack
  · obtain ⟨oldest, rest, hcons⟩ := exists_cons_of_length_pos (l := s.undoStack) (by rw [hfull]; decide)
    rw [hcons, length_cons] at hfull
    simp [push, hcons, hfull]
  · simp [push, hfull, show ¬maxStack < s.undoStack.length + 1 by omega]

theorem Within.push (h : s.Within) (snap : Snapshot) : (s.push snap).Within := by
  rw [push_of_within h]
  unfold Within at *
  split
  · rename_i hfull
    simp [hfull, show 1 ≤ maxStack by decide]
  · simp
    omega

theorem Within.undo (h : s.Within) (hundo : s.undo c = some (popped, t)) : t.Within := by
  obtain ⟨hpop, hpush⟩ := undo_eq_some.1 hundo
  unfold Within at *
  rw [hpop, length_append, length_singleton] at h
  rw [hpush, length_append, length_singleton]
  omega

theorem Within.redo (h : s.Within) (hredo : s.redo c = some (popped, t)) : t.Within := by
  obtain ⟨hpop, hpush⟩ := redo_eq_some.1 hredo
  unfold Within at *
  rw [hpop, length_append, length_singleton] at h
  rw [hpush, length_append, length_singleton]
  omega

/-- The redo gives back the state the undo was called in, and keeps the one it is called in itself. -/
theorem redo_of_undo (h : s.undo c = some (popped, t)) (d : Snapshot) :
    t.redo d = some (c, ⟨t.undoStack ++ [d], s.redoStack⟩) := redo_eq_some.2 ⟨(undo_eq_some.1 h).2, rfl⟩

theorem undo_of_redo (h : s.redo c = some (popped, t)) (d : Snapshot) :
    t.undo d = some (c, ⟨s.undoStack, t.redoStack ++ [d]⟩) := undo_eq_some.2 ⟨(redo_eq_some.1 h).2, rfl⟩

end State

structure Registry where
  states : HandleId → Option State := fun _ => none
  nextId : HandleId := 1

namespace Registry

def set (r : Registry) (id : HandleId) (s : Option State) : Registry := { r with states := Function.update r.states id s }

/-- What every call on a handle does: it looks the history up, and changes nothing where there is none. -/
def withState {α : Type} (r : Registry) (id : HandleId) (f : State → Option (α × State)) : Option α × Registry :=
  match (r.states id).bind f with
  | none => (none, r)
  | some (a, state) => (some a, r.set id (some state))

def create (r : Registry) : Registry := { r.set r.nextId (some {}) with nextId := r.nextId + 1 }

def dropHandle (r : Registry) (id : HandleId) : Registry := r.set id none

def pushUndo (r : Registry) (id : HandleId) (snap : Snapshot) : Registry :=
  (r.withState id fun state => some ((), state.push snap)).2

def undo (r : Registry) (id : HandleId) (current : Snapshot) : Option Snapshot × Registry :=
  r.withState id fun state => state.undo current

def redo (r : Registry) (id : HandleId) (current : Snapshot) : Option Snapshot × Registry :=
  r.withState id fun state => state.redo current

def clear (r : Registry) (id : HandleId) : Registry := (r.withState id fun _ => some ((), {})).2

end Registry

inductive Op
  | create
  | dropHandle (id : HandleId)
  | pushUndo (id : HandleId) (snap : Snapshot)
  | undo (id : HandleId) (current : Snapshot)
  | redo (id : HandleId) (current : Snapshot)
  | clear (id : HandleId)

def Registry.apply (r : Registry) : Op → Registry
  | .create => r.create
  | .dropHandle id => r.dropHandle id
  | .pushUndo id snap => r.pushUndo id snap
  | .undo id current => (r.undo id current).2
  | .redo id current => (r.redo id current).2
  | .clear id => r.clear id

/-- The registry after `ops`, from the start of the process. -/
def run (ops : List Op) : Registry := ops.foldl Registry.apply {}

def Registry.Within (r : Registry) : Prop := ∀ id s, r.states id = some s → s.Within

namespace Registry
variable {r : Registry} {id : HandleId} {s t : State} {α : Type} {f : State → Option (α × State)}

theorem withState_eq_some {a : α} (hs : r.states id = some s) (hf : f s = some (a, t)) :
    r.withState id f = (some a, r.set id (some t)) := by simp [withState, hs, hf]

theorem withState_inv {a : α} {r' : Registry} (h : r.withState id f = (some a, r')) (hs : r.states id = some s) :
    ∃ t, f s = some (a, t) ∧ r' = r.set id (some t) := by
  rw [withState, hs, bind_some] at h
  rcases hf : f s with _ | ⟨b, t⟩
  · simp [hf] at h
  · obtain ⟨rfl, rfl⟩ : b = a ∧ r.set id (some t) = r' := by simpa [hf] using h
    exact ⟨t, rfl, rfl⟩

theorem Within.set (h : r.Within) {o : Option State} (ho : ∀ s, o = some s → s.Within) : (r.set id o).Within := by
  intro id' s' hs'
  by_cases hid : id' = id
  · subst hid
    exact ho s' (by simpa [Registry.set] using hs')
  · exact h id' s' (by simpa [Registry.set, hid] using hs')

theorem Within.withState (h : r.Within) (hf : ∀ s a t, s.Within → f s = some (a, t) → t.Within) :
    (r.withState id f).2.Within := by
  unfold Registry.withState
  split
  · exact h
  · obtain ⟨s, hs, hfs⟩ := bind_eq_some_iff.1 ‹_›
    exact h.set fun _ ht => some_inj.1 ht ▸ hf _ _ _ (h id s hs) hfs

theorem Within.apply (h : r.Within) (op : Op) : (r.apply op).Within := by
  have hnew : State.Within {} := Nat.zero_le maxStack
  cases op with
  | create => exact h.set fun _ hs => some_inj.1 hs ▸ hnew
  | dropHandle id => exact h.set nofun
  | pushUndo id snap => exact h.withState fun s _ _ hs heq => by cases heq; exact hs.push snap
  | undo id current => exact h.withState fun _ _ _ hs hundo => hs.undo hundo
  | redo id current => exact h.withState fun _ _ _ hs hredo => hs.redo hredo
  | clear id => exact h.withState fun _ _ _ _ heq => by cases heq; exact hnew

theorem set_set_eq_self (hs : r.states id = some s) (o : Option State) (t : State) :
    (r.set id o).set id (some t) = r ↔ t = s := by
  rw [Registry.set, Registry.set, Function.update_idem]
  constructor
  · intro h
    have hid := congrArg (fun r => r.states id) h
    simpa [hs] using hid
  · rintro rfl
    rw [← hs, Function.update_eq_self]

end Registry

theorem run_within (ops : List Op) : (run ops).Within :=
  foldl_invariant (fun _ op _ h => h.apply op) nofun

/-- The registry is where it was again exactly if the redo is handed back the state the undo returned. -/
theorem run_laws (ops : List Op) (id : HandleId) (s : State) (hs : (run ops).states id = some s) :
    s.undoStack.length + s.redoStack.length ≤ maxStack ∧ (∀ snap, (run ops).pushUndo id snap = (run ops).set id (some
        ⟨(if s.undoStack.length = maxStack then s.undoStack.tail else s.undoStack) ++ [snap], []⟩)) ∧
      (∀ c d popped r, (run ops).undo id c = (some popped, r) →
        (r.redo id d).1 = some c ∧ ((r.redo id d).2 = run ops ↔ d = popped)) ∧
      ∀ c d popped r, (run ops).redo id c = (some popped, r) →
        (r.undo id d).1 = some c ∧ ((r.undo id d).2 = run ops ↔ d = popped) := by
  have hwithin := run_within ops id s hs
  refine ⟨hwithin, fun snap => ?_, fun c d popped r h => ?_, fun c d popped r h => ?_⟩
  · rw [Registry.pushUndo, Registry.withState_eq_some hs rfl, State.push_of_within hwithin]
  · obtain ⟨t, hundo, rfl⟩ := Registry.withState_inv h hs
    rw [Registry.redo, Registry.withState_eq_some (by simp [Registry.set]) (State.redo_of_undo hundo d)]
    rw [Registry.set_set_eq_self hs]
    exact ⟨rfl, by simp [State.ext_iff, (State.undo_eq_some.1 hundo).1]⟩
  · obtain ⟨t, hredo, rfl⟩ := Registry.withState_inv h hs
    rw [Registry.undo, Registry.withState_eq_some (by simp [Registry.set]) (State.undo_of_redo hredo d)]
    rw [Registry.set_set_eq_self hs]
    exact ⟨rfl, by simp [State.ext_iff, (State.redo_eq_some.1 hredo).1]⟩

theorem run_laws_undone :
    let r := run [.create, .pushUndo 1 ⟨"delete", []⟩, .pushUndo 1 ⟨"move", [1]⟩, .undo 1 ⟨"current", [2]⟩]
    ((r.undo 1 ⟨"current", [1]⟩).2.redo 1 ⟨"delete", []⟩).2 = r ∧
      ((r.redo 1 ⟨"move", [1]⟩).2.undo 1 ⟨"current", [2]⟩).2 = r :=
  have laws := run_laws [.create, .pushUndo 1 ⟨"delete", []⟩, .pushUndo 1 ⟨"move", [1]⟩, .undo 1 ⟨"current", [2]⟩] 1 _ rfl
  ⟨(laws.2.2.1 _ _ _ _ rfl).2.2 rfl, (laws.2.2.2 _ _ _ _ rfl).2.2 rfl⟩

/-- The caller labels every state it hands over `current`, so the label the undo returned is lost. -/
theorem redo_loses_label :
    let r := run [.create, .pushUndo 1 ⟨"delete", []⟩]
    (r.undo 1 ⟨"current", [1]⟩).1 = some ⟨"delete", []⟩ ∧
      (((r.undo 1 ⟨"current", [1]⟩).2.redo 1 ⟨"current", []⟩).2.states 1) ≠ r.states 1 := by decide

end LetsFlutSsh.Sessions.History
