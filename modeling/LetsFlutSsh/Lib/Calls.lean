import LetsFlutSsh.Lib.Prog

/-!
# The calls that a run makes

* `Call` : an operation with the answer it got;
* `Prog.Makes` : some run makes exactly these calls, in this order, and ends with this result;
* `callsOf` : the operations of one kind among them.
-/

namespace Lib

variable {Op α β : Type} {Resp : Op → Type}

structure Call (Op : Type) (Resp : Op → Type) where
  op : Op
  answer : Resp op

/-- The operations that `kind` picks, in the order in which they were made. -/
def callsOf (kind : Op → Bool) (calls : List (Call Op Resp)) : List Op := (calls.map (·.op)).filter kind

section CallsOf
variable {kind : Op → Bool}

theorem callsOf_append (before after : List (Call Op Resp)) :
    callsOf kind (before ++ after) = callsOf kind before ++ callsOf kind after := by
  unfold callsOf
  rw [List.map_append, List.filter_append]

end CallsOf

namespace Prog

def Makes : Prog Op Resp α → List (Call Op Resp) → α → Prop
  | .done b, calls, a => calls = [] ∧ a = b
  | .call op next, calls, a => ∃ r rest, calls = ⟨op, r⟩ :: rest ∧ (next r).Makes rest a

variable {calls : List (Call Op Resp)}

theorem makes_bind {p : Prog Op Resp α} {f : α → Prog Op Resp β} {b : β} : (p.bind f).Makes calls b ↔
    ∃ a before after, calls = before ++ after ∧ p.Makes before a ∧ (f a).Makes after b := by
  induction p generalizing calls with
  | done a =>
    constructor
    · exact fun h => ⟨a, [], calls, rfl, ⟨rfl, rfl⟩, h⟩
    · rintro ⟨a', before, after, rfl, ⟨rfl, rfl⟩, h⟩
      exact h
  | call op next ih =>
    constructor
    · rintro ⟨r, rest, rfl, h⟩
      obtain ⟨a, before, after, rfl, hp, h⟩ := (ih r).1 h
      exact ⟨a, ⟨op, r⟩ :: before, after, rfl, ⟨r, before, rfl, hp⟩, h⟩
    · rintro ⟨a, before, after, rfl, ⟨r, rest, rfl, hp⟩, h⟩
      exact ⟨r, rest ++ after, rfl, (ih r).2 ⟨a, rest, after, rfl, hp, h⟩⟩

theorem makes_perform {op : Op} {r : Resp op} :
    (perform op : Prog Op Resp (Resp op)).Makes calls r ↔ calls = [⟨op, r⟩] := by
  constructor
  · rintro ⟨r', rest, rfl, rfl, rfl⟩
    rfl
  · rintro rfl
    exact ⟨r, [], rfl, rfl, rfl⟩

theorem makes_andThen {ε : Type} {p : Prog Op Resp (Except ε α)} {f : α → Prog Op Resp (Except ε β)} {b : β} :
    (p.andThen f).Makes calls (.ok b) ↔
      ∃ a before after, calls = before ++ after ∧ p.Makes before (.ok a) ∧ (f a).Makes after (.ok b) := by
  rw [andThen, makes_bind]
  constructor
  · rintro ⟨e | a, before, after, rfl, hp, h⟩
    · cases h.2
    · exact ⟨a, before, after, rfl, hp, h⟩
  · rintro ⟨a, before, after, rfl, hp, h⟩
    exact ⟨.ok a, before, after, rfl, hp, h⟩

theorem makes_mapError {ε ε' : Type} {p : Prog Op Resp (Except ε α)} {f : ε → ε'} {a : α} :
    (p.mapError f).Makes calls (.ok a) ↔ p.Makes calls (.ok a) := by
  rw [mapError, makes_bind]
  constructor
  · rintro ⟨e | a', before, after, rfl, hp, rfl, heq⟩
    · cases heq
    · cases heq
      rwa [List.append_nil]
  · exact fun h => ⟨.ok a, calls, [], (List.append_nil calls).symm, h, rfl, rfl⟩

end Prog

end Lib
