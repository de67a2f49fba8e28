import Mathlib.Data.List.Infix

/-!
# Programs over operations that may fail

* `Prog` : a program ends, or performs an operation and goes on with its answer;
* `Prog.exec` : the run under a list of outcomes, one for each operation; where the list ends, the run is
  interrupted;
* `Prog.finish` : the run that is not interrupted;
* `Prog.andThen`, `Prog.mapError` : `?` and `map_err`, for programs whose results may be errors;
* `Prog.Ends` : some run ends with this result in this state;
* `Prog.Within` : every operation of the program is good, while the answers are fair (`Within.exec`);
* `Prog.Performs` : the program performs these operations, whatever they answer (`Performs.exec`);
* `Prog.upTo` : the run as far as the answers to some of its operations are known;
* `Always` : what holds wherever a run is interrupted, and what holds at its end (`Always.bind`, `Always.call`),
  with `OnResult` for results that may be errors.

An operation that stops halfway is one of its failing outcomes: an interruption inside it leaves what that outcome
leaves.
-/

namespace Lib
open List

variable {Op ι σ α β : Type} {Resp : Op → Type}

inductive Prog (Op : Type) (Resp : Op → Type) (α : Type) : Type where
  | done (a : α)
  | call (op : Op) (next : Resp op → Prog Op Resp α)

variable {f : α → Prog Op Resp β} {os : List ((op : Op) → Resp op)} {op : Op} {ε : Type} {a : α}
variable {next : Resp op → Prog Op Resp α}
variable (p : Prog Op Resp α)
variable {handle : ι → (op : Op) → σ → Resp op × σ}

namespace Prog

def bind : Prog Op Resp α → (α → Prog Op Resp β) → Prog Op Resp β
  | .done a, f => f a
  | .call op next, f => .call op fun r => (next r).bind f

instance : Monad (Prog Op Resp) where
  pure := .done
  bind := bind

def perform (op : Op) : Prog Op Resp (Resp op) := .call op .done

@[simp] theorem bind_done (a : α) (f : α → Prog Op Resp β) : (done a : Prog Op Resp α).bind f = f a := rfl

@[simp] theorem pure_eq (a : α) : (pure a : Prog Op Resp α) = .done a := rfl
@[simp] theorem bind_eq (f : α → Prog Op Resp β) : p >>= f = p.bind f := rfl

@[simp] theorem perform_bind (op : Op) (f : Resp op → Prog Op Resp β) : (perform op).bind f = .call op f := rfl

/-- The operator `?`: an error ends the program. -/
def andThen {ε : Type} (p : Prog Op Resp (Except ε α)) (f : α → Prog Op Resp (Except ε β)) : Prog Op Resp (Except ε β) :=
  p.bind fun
    | .error e => .done (.error e)
    | .ok a => f a

/-- `map_err`. -/
def mapError {ε ε' : Type} (p : Prog Op Resp (Except ε α)) (f : ε → ε') : Prog Op Resp (Except ε' α) :=
  p.bind fun r => .done (r.mapError f)

/-- The run under a list of outcomes: the result with the outcomes left over, or none where it is interrupted. -/
def exec (handle : ι → (op : Op) → σ → Resp op × σ) : Prog Op Resp α → List ι → σ → Option (α × List ι) × σ
  | .done a, os, s => (some (a, os), s)
  | .call _ _, [], s => (none, s)
  | .call op next, o :: os, s => exec handle (next (handle o op s).1) os (handle o op s).2

def finish (handle : ι → (op : Op) → σ → Resp op × σ) : Prog Op Resp α → (Nat → ι) → σ → α × σ
  | .done a, _, s => (a, s)
  | .call op next, os, s => finish handle (next (handle (os 0) op s).1) (fun n => os (n + 1)) (handle (os 0) op s).2

theorem exec_bind (f : α → Prog Op Resp β) (os : List ι) (s : σ) : (p.bind f).exec handle os s =
      match p.exec handle os s with
      | (none, t) => (none, t)
      | (some (a, os'), t) => (f a).exec handle os' t := by
  induction p generalizing os s with
  | done a => rfl
  | call op next ih =>
    rcases os with _ | ⟨o, os⟩
    · rfl
    · exact ih _ os _

theorem exec_suffix {p : Prog Op Resp α} {os os' : List ι} {s t : σ}
    (h : p.exec handle os s = (some (a, os'), t)) : os' <:+ os := by
  induction p generalizing os s with
  | done b =>
    cases h
    exact suffix_rfl
  | call op next ih =>
    rcases os with _ | ⟨o, os⟩
    · cases h
    · exact (ih _ h).trans (suffix_cons o os)

theorem exec_finish (os : Nat → ι) (s : σ) : ∃ n, p.exec handle (List.ofFn fun i : Fin n => os i) s =
      (some ((p.finish handle os s).1, []), (p.finish handle os s).2) := by
  induction p generalizing os s with
  | done a => exact ⟨0, rfl⟩
  | call op next ih =>
    obtain ⟨n, hn⟩ := ih (handle (os 0) op s).1 (fun n => os (n + 1)) (handle (os 0) op s).2
    refine ⟨n + 1, ?_⟩
    rw [ofFn_succ]
    exact hn

/-- Some run from `s` ends with the result `a` in the state `t`. -/
def Ends (handle : ι → (op : Op) → σ → Resp op × σ) (p : Prog Op Resp α) (s : σ) (a : α) (t : σ) : Prop :=
  ∃ os, p.exec handle os s = (some (a, []), t)

section Ends
variable {s t : σ} {a : α} {b : β}

theorem ends_done {a' : α} : Ends handle (.done a') s a t ↔ a = a' ∧ t = s := by
  constructor
  · rintro ⟨os, h⟩
    cases h
    exact ⟨rfl, rfl⟩
  · rintro ⟨rfl, rfl⟩
    exact ⟨[], rfl⟩

theorem ends_call :
    Ends handle (.call op next) s a t ↔ ∃ o, Ends handle (next (handle o op s).1) (handle o op s).2 a t := by
  constructor
  · rintro ⟨_ | ⟨o, os⟩, h⟩
    · cases h
    · exact ⟨o, os, h⟩
  · rintro ⟨o, os, h⟩
    exact ⟨o :: os, h⟩

theorem ends_bind {p : Prog Op Resp α} :
    Ends handle (p.bind f) s b t ↔ ∃ a u, Ends handle p s a u ∧ Ends handle (f a) u b t := by
  induction p generalizing s with
  | done a =>
    rw [bind_done]
    refine ⟨fun h => ⟨a, s, ends_done.2 ⟨rfl, rfl⟩, h⟩, ?_⟩
    rintro ⟨a', u, hdone, h⟩
    obtain ⟨rfl, rfl⟩ := ends_done.1 hdone
    exact h
  | call op next ih =>
    rw [bind, ends_call]
    simp only [ih, ends_call]
    constructor
    · rintro ⟨o, a, u, hnext, h⟩
      exact ⟨a, u, ⟨o, hnext⟩, h⟩
    · rintro ⟨a, u, ⟨o, hnext⟩, h⟩
      exact ⟨o, a, u, hnext, h⟩

theorem ends_perform {r : Resp op} :
    Ends handle (perform op : Prog Op Resp (Resp op)) s r t ↔ ∃ o, handle o op s = (r, t) := by
  unfold perform
  simp only [ends_call, ends_done, Prod.ext_iff, eq_comm]

theorem ends_andThen {p : Prog Op Resp (Except ε α)} {f : α → Prog Op Resp (Except ε β)} :
    Ends handle (p.andThen f) s (.ok b) t ↔ ∃ a u, Ends handle p s (.ok a) u ∧ Ends handle (f a) u (.ok b) t := by
  rw [andThen, ends_bind]
  constructor
  · rintro ⟨e | a, u, hp, h⟩
    · cases (ends_done.1 h).1
    · exact ⟨a, u, hp, h⟩
  · rintro ⟨a, u, hp, h⟩
    exact ⟨.ok a, u, hp, h⟩

theorem ends_mapError {ε' : Type} {p : Prog Op Resp (Except ε α)} {f : ε → ε'} :
    Ends handle (p.mapError f) s (.ok a) t ↔ Ends handle p s (.ok a) t := by
  rw [mapError, ends_bind]
  constructor
  · rintro ⟨e | a', u, hp, h⟩
    · cases (ends_done.1 h).1
    · obtain ⟨heq, rfl⟩ := ends_done.1 h
      cases heq
      exact hp
  · exact fun h => ⟨.ok a, t, h, ends_done.2 ⟨rfl, rfl⟩⟩

end Ends

/-- The operations of the program, where the answers do not change them. -/
def Performs : Prog Op Resp α → List Op → Prop
  | .done _, ops => ops = []
  | .call op next, ops => ∃ rest, ops = op :: rest ∧ ∀ r, (next r).Performs rest

theorem Performs.done (a : α) : (done a : Prog Op Resp α).Performs [] := rfl

variable {ops : List Op}

theorem Performs.call (h : ∀ r, (next r).Performs ops) :
    (call op next).Performs (op :: ops) := ⟨ops, rfl, h⟩

theorem Performs.bind {p : Prog Op Resp α} {rest : List Op} (hp : p.Performs ops)
    (hf : ∀ a, (f a).Performs rest) : (p.bind f).Performs (ops ++ rest) := by
  induction p generalizing ops with
  | done a =>
    cases hp
    exact hf a
  | call op next ih =>
    obtain ⟨ops', rfl, hnext⟩ := hp
    exact ⟨ops' ++ rest, rfl, fun r => ih r (hnext r)⟩

theorem Performs.exec {p : Prog Op Resp α} (hp : p.Performs ops) (os : List ι) (s : σ) :
    (p.exec handle os s).2 = (ops.zip os).foldl (fun s e => (handle e.2 e.1 s).2) s := by
  induction p generalizing ops os s with
  | done a =>
    cases hp
    rfl
  | call op next ih =>
    obtain ⟨ops', rfl, hnext⟩ := hp
    rcases os with _ | ⟨o, os⟩
    · rfl
    · exact ih _ (hnext _) os _

/-- The run as far as the answers are known: the result, or the first operation that is left open. -/
def upTo (answer : (op : Op) → Option (Resp op)) : Prog Op Resp α → Except Op α
  | .done a => .ok a
  | .call op next =>
    match answer op with
    | none => .error op
    | some r => upTo answer (next r)

section UpTo
variable {answer : (op : Op) → Option (Resp op)}

@[simp] theorem upTo_done (a : α) : (done a : Prog Op Resp α).upTo answer = .ok a := rfl

variable {op : Op} {ε : Type}

theorem upTo_call_some {r : Resp op} (h : answer op = some r) (next : Resp op → Prog Op Resp α) :
    (call op next).upTo answer = (next r).upTo answer := by
  simp only [upTo, h]

theorem upTo_call_none (h : answer op = none) (next : Resp op → Prog Op Resp α) :
    (call op next).upTo answer = .error op := by
  simp only [upTo, h]

theorem upTo_bind (f : α → Prog Op Resp β) :
    (p.bind f).upTo answer = (p.upTo answer).bind fun a => (f a).upTo answer := by
  induction p with
  | done a => rfl
  | call op next ih =>
    cases h : answer op with
    | none =>
      rw [upTo_call_none h]
      exact upTo_call_none h _
    | some r =>
      rw [upTo_call_some h, ← ih]
      exact upTo_call_some h _

theorem upTo_andThen_ok {p : Prog Op Resp (Except ε α)} (h : p.upTo answer = .ok (.ok a))
    (f : α → Prog Op Resp (Except ε β)) : (p.andThen f).upTo answer = (f a).upTo answer := by
  rw [andThen, upTo_bind, h]
  rfl

end UpTo

/-- Every operation is good and the result is as `Q` says, as long as the answers are fair. -/
def Within (good : Op → Prop) (fair : (op : Op) → Resp op → Prop) (Q : α → Prop) : Prog Op Resp α → Prop
  | .done a => Q a
  | .call op next => good op ∧ ∀ r, fair op r → (next r).Within good fair Q

section Within
variable {good : Op → Prop} {fair : (op : Op) → Resp op → Prop} {Q : α → Prop} {R : β → Prop}

theorem Within.perform (h : good op) : (perform op : Prog Op Resp (Resp op)).Within good fair (fair op) :=
  ⟨h, fun _ hr => hr⟩

variable {p : Prog Op Resp α} {log : List Op}

theorem Within.conseq {Q' : α → Prop} (hp : p.Within good fair Q) (h : ∀ a, Q a → Q' a) : p.Within good fair Q' := by
  induction p with
  | done a => exact h a hp
  | call op next ih => exact ⟨hp.1, fun r hr => ih r (hp.2 r hr)⟩

theorem Within.bind (hp : p.Within good fair Q)
    (hf : ∀ a, Q a → (f a).Within good fair R) : (p.bind f).Within good fair R := by
  induction p with
  | done a => exact hf a hp
  | call op next ih => exact ⟨hp.1, fun r hr => ih r (hp.2 r hr)⟩

theorem Within.andThen {p : Prog Op Resp (Except ε α)} {f : α → Prog Op Resp (Except ε β)}
    (hp : p.Within good fair fun r => ∀ a, r = .ok a → Q a)
    (hf : ∀ a, Q a → (f a).Within good fair fun r => ∀ b, r = .ok b → R b) :
    (p.andThen f).Within good fair fun r => ∀ b, r = .ok b → R b := by
  refine hp.bind fun r hr => ?_
  rcases r with e | a
  · exact nofun
  · exact hf a (hr a rfl)

theorem Within.mapError {ε' : Type} {p : Prog Op Resp (Except ε α)} {f : ε → ε'}
    (hp : p.Within good fair fun r => ∀ a, r = .ok a → Q a) :
    (p.mapError f).Within good fair fun r => ∀ a, r = .ok a → Q a := by
  refine hp.bind fun r hr => ?_
  rcases r with e | a
  · exact nofun
  · rintro b ⟨⟩
    exact hr a rfl

/-- The run that keeps the operations in the order in which they are made. -/
def record (answers : (op : Op) → Resp op) (op : Op) (log : List Op) : Resp op × List Op := (answers op, log ++ [op])

theorem subset_exec_record : log ⊆ (p.exec record os log).2 := by
  induction p generalizing os log with
  | done a => exact List.Subset.refl log
  | call op next ih =>
    rcases os with _ | ⟨o, os⟩
    · exact List.Subset.refl log
    · exact List.Subset.trans (subset_append_left log [op]) (ih _)

theorem exec_record_subset_bind :
    (p.exec record os log).2 ⊆ ((p.bind f).exec record os log).2 := by
  rw [exec_bind]
  rcases p.exec record os log with ⟨_ | ⟨a, os'⟩, log'⟩
  · exact List.Subset.refl log'
  · exact subset_exec_record

theorem Within.exec (hp : p.Within good fair Q)
    (hos : ∀ o ∈ os, ∀ op, fair op (o op)) (hlog : ∀ op ∈ log, good op) :
    ∀ op ∈ (p.exec record os log).2, good op := by
  induction p generalizing os log with
  | done a => exact hlog
  | call op next ih =>
    rcases os with _ | ⟨o, os⟩
    · exact hlog
    · rw [forall_mem_cons] at hos
      refine ih _ (hp.2 _ (hos.1 op)) hos.2 fun op' hop' => ?_
      rcases mem_append.1 hop' with hop' | hop'
      · exact hlog op' hop'
      · rw [mem_singleton.1 hop']
        exact hp.1

end Within

end Prog

/-- Under outcomes that `ok` admits, `I` holds where a run is interrupted and `Q` where it ends. -/
def Always (handle : ι → (op : Op) → σ → Resp op × σ) (ok : ι → Prop) (p : Prog Op Resp α) (s : σ) (I : σ → Prop)
    (Q : α → σ → Prop) : Prop :=
  ∀ os : List ι, (∀ o ∈ os, ok o) →
    match p.exec handle os s with
    | (none, t) => I t
    | (some (a, _), t) => Q a t

def OnResult {ε : Type} (E : ε → σ → Prop) (Q : α → σ → Prop) : Except ε α → σ → Prop
  | .error e, s => E e s
  | .ok a, s => Q a s

namespace Always

variable {ok : ι → Prop} {s : σ} {I J : σ → Prop} {Q R : α → σ → Prop}

theorem done (h : Q a s) : Always handle ok (.done a) s I Q := fun _ _ => h

theorem call (hI : I s)
    (h : ∀ o, ok o → Always handle ok (next (handle o op s).1) (handle o op s).2 I Q) :
    Always handle ok (.call op next) s I Q := by
  intro os hos
  rcases os with _ | ⟨o, os⟩
  · exact hI
  · exact h o (hos o mem_cons_self) os fun o' ho' => hos o' (mem_cons_of_mem o ho')

variable {p : Prog Op Resp α}

theorem bind {R : β → σ → Prop} (hp : Always handle ok p s I Q)
    (hf : ∀ a t, Q a t → Always handle ok (f a) t I R) : Always handle ok (p.bind f) s I R := by
  intro os hos
  rw [Prog.exec_bind]
  have hstop := hp os hos
  rcases hexec : p.exec handle os s with ⟨_ | ⟨a, os'⟩, t⟩
  · rw [hexec] at hstop
    exact hstop
  · rw [hexec] at hstop
    exact hf a t hstop os' fun o ho => hos o ((Prog.exec_suffix hexec).subset ho)

theorem conseq (hp : Always handle ok p s I Q) (hI : ∀ t, I t → J t)
    (hQ : ∀ a t, Q a t → R a t) : Always handle ok p s J R := by
  intro os hos
  have hstop := hp os hos
  rcases hexec : p.exec handle os s with ⟨_ | ⟨a, os'⟩, t⟩
  · rw [hexec] at hstop
    exact hI t hstop
  · rw [hexec] at hstop
    exact hQ a t hstop

theorem andThen {E : ε → σ → Prop} {p : Prog Op Resp (Except ε α)}
    {f : α → Prog Op Resp (Except ε β)} {R : β → σ → Prop} (hp : Always handle ok p s I (OnResult E Q))
    (hf : ∀ a t, Q a t → Always handle ok (f a) t I (OnResult E R)) :
    Always handle ok (p.andThen f) s I (OnResult E R) := by
  refine hp.bind fun r t hr => ?_
  rcases r with e | a
  · exact .done hr
  · exact hf a t hr

theorem stops (hp : Always handle ok p s I fun _ => I) {os : List ι} (hos : ∀ o ∈ os, ok o) : I (p.exec handle os s).2 := by
  have hstop := hp os hos
  rcases hexec : p.exec handle os s with ⟨_ | ⟨a, os'⟩, t⟩
  · rw [hexec] at hstop
    exact hstop
  · rw [hexec] at hstop
    exact hstop

theorem finish (hp : Always handle ok p s I Q) {os : Nat → ι} (hos : ∀ n, ok (os n)) :
    Q (p.finish handle os s).1 (p.finish handle os s).2 := by
  obtain ⟨n, hn⟩ : ∃ n, p.exec handle (List.ofFn fun i : Fin n => os i) s =
      (some ((p.finish handle os s).1, []), (p.finish handle os s).2) := Prog.exec_finish p os s
  have hstop := hp (List.ofFn fun i : Fin n => os i) fun o ho => by
    obtain ⟨i, rfl⟩ := mem_ofFn.1 ho
    exact hos i
  rw [hn] at hstop
  exact hstop

end Always

end Lib
