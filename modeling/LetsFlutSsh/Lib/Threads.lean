import LetsFlutSsh.Lib.Prog

/-!
# Programs side by side

Threads run programs over a state that they share; a step is one operation of one of them.

* `Threads`, `Threads.spawn`, `Threads.act` : the threads, and the log of what they did (`act_cases`);
* `Threads.notes` : an automaton's notes on what one thread did;
* `Prog.Keeps` : what an automaton's notes on a program are, whatever its operations answer;
* `Prog.Obeys` : the notes allow every operation of a program, while the answers are fair (`obeys_act`);
* `keepEvents` : the notes that keep everything (`mem_notes_keepEvents`);
* `Tracks` : what holds of every thread and the notes on it;
* `Follows` : every thread does what its program keeps to;
* `count_le_of_threads` : what no thread takes more often than it gives, all of them do not either;
* `Since` : every entry of a log is as `P` says of the entries before it.
-/

namespace Lib
open List

variable {Op ι σ α β Q : Type} {Resp : Op → Type} {p : Prog Op Resp α} {q : Q}
variable {handle : ι → (op : Op) → σ → Resp op × σ} {fair : Q → (op : Op) → Resp op → Prop}
variable {note : Q → (op : Op) → Resp op → Q} {allowed : Q → Op → Prop} {E : α → Q → Prop} {I : Q → Prop}

namespace Prog

/-- Whatever the operations answer, `I` holds of the notes before each of them and `E` at the end. -/
def Keeps (note : Q → (op : Op) → Resp op → Q) (I : Q → Prop) (E : α → Q → Prop) : Prog Op Resp α → Q → Prop
  | .done a, q => E a q
  | .call op next, q => I q ∧ ∀ r, Keeps note I E (next r) (note q op r)

theorem Keeps.bind {f : α → Prog Op Resp β} {F : β → Q → Prop}
    (hp : p.Keeps note I E q) (hf : ∀ a q, E a q → (f a).Keeps note I F q) : (p.bind f).Keeps note I F q := by
  induction p generalizing q with
  | done a => exact hf a q hp
  | call op next ih => exact ⟨hp.1, fun r => ih r (hp.2 r)⟩

theorem Keeps.conseq {F : α → Q → Prop} (hp : p.Keeps note I E q)
    (h : ∀ a q, E a q → F a q) : p.Keeps note I F q := by
  induction p generalizing q with
  | done a => exact h a q hp
  | call op next ih => exact ⟨hp.1, fun r => ih r (hp.2 r)⟩

theorem Keeps.andThen {ε : Type} {p : Prog Op Resp (Except ε α)} {f : α → Prog Op Resp (Except ε β)}
    {E : Except ε α → Q → Prop} {F : Except ε β → Q → Prop} (hp : p.Keeps note I E q)
    (herror : ∀ e q, E (.error e) q → F (.error e) q) (hf : ∀ a q, E (.ok a) q → (f a).Keeps note I F q) :
    (p.andThen f).Keeps note I F q := by
  refine Keeps.bind hp fun r q hr => ?_
  cases r with
  | error e => exact herror e q hr
  | ok a => exact hf a q hr

theorem Keeps.here (h : p.Keeps note I E q) (hE : ∀ a q, E a q → I q) : I q := by
  cases p with
  | done a => exact hE a q h
  | call op next => exact h.1

/-- The notes allow every operation that is made, as long as the answers are fair, and at the end they are as `E` says. -/
def Obeys (note : Q → (op : Op) → Resp op → Q) (allowed : Q → Op → Prop) (fair : Q → (op : Op) → Resp op → Prop)
    (E : α → Q → Prop) : Prog Op Resp α → Q → Prop
  | .done a, q => E a q
  | .call op next, q => allowed q op ∧ ∀ r, fair q op r → Obeys note allowed fair E (next r) (note q op r)

section Obeys
theorem Obeys.bind {f : α → Prog Op Resp β} {F : β → Q → Prop}
    (hp : p.Obeys note allowed fair E q) (hf : ∀ a q, E a q → (f a).Obeys note allowed fair F q) :
    (p.bind f).Obeys note allowed fair F q := by
  induction p generalizing q with
  | done a => exact hf a q hp
  | call op next ih => exact ⟨hp.1, fun r hr => ih r (hp.2 r hr)⟩

theorem Obeys.conseq {F : α → Q → Prop} (hp : p.Obeys note allowed fair E q)
    (h : ∀ a q, E a q → F a q) : p.Obeys note allowed fair F q := by
  induction p generalizing q with
  | done a => exact h a q hp
  | call op next ih => exact ⟨hp.1, fun r hr => ih r (hp.2 r hr)⟩

theorem Obeys.here (h : p.Obeys note (fun q _ => I q) fair E q) (hE : ∀ a q, E a q → I q) : I q := by
  cases p with
  | done a => exact hE a q h
  | call op next => exact h.1

theorem Obeys.andThen {ε : Type} {p : Prog Op Resp (Except ε α)} {f : α → Prog Op Resp (Except ε β)}
    {E : Except ε α → Q → Prop} {F : Except ε β → Q → Prop} (hp : p.Obeys note allowed fair E q)
    (herror : ∀ e q, E (.error e) q → F (.error e) q)
    (hf : ∀ a q, E (.ok a) q → (f a).Obeys note allowed fair F q) : (p.andThen f).Obeys note allowed fair F q := by
  refine Obeys.bind hp fun r q hr => ?_
  cases r with
  | error e => exact herror e q hr
  | ok a => exact hf a q hr

end Obeys

theorem finish_bind (handle : ι → (op : Op) → σ → Resp op × σ) (p : Prog Op Resp α) (f : α → Prog Op Resp β) (o : ι)
    (s : σ) : (p.bind f).finish handle (fun _ => o) s =
      (f (p.finish handle (fun _ => o) s).1).finish handle (fun _ => o) (p.finish handle (fun _ => o) s).2 := by
  induction p generalizing s with
  | done a => rfl
  | call op next ih => exact ih _ _

theorem finish_invariant {J : σ → Prop}
    (h : ∀ o op s, J s → J (handle o op s).2) (p : Prog Op Resp α) (os : Nat → ι) {s : σ} (hs : J s) :
    J (p.finish handle os s).2 := by
  induction p generalizing os s with
  | done a => exact hs
  | call op next ih => exact ih _ _ (h _ _ _ hs)

end Prog

/-- Every entry of a list is as `P` says of the entries before it. -/
def Since {γ : Type} (P : List γ → γ → Prop) (log : List γ) : Prop :=
  ∀ before e after, log = before ++ e :: after → P before e

variable {i : Nat}

section Since
variable {γ : Type} {P : List γ → γ → Prop}

theorem getElem?_concat_cases {l : List γ} {a b : γ} (h : (l ++ [a])[i]? = some b) :
    l[i]? = some b ∨ i = l.length ∧ b = a := by
  rcases Nat.lt_or_ge i l.length with hi | hi
  · rw [getElem?_append_left hi] at h
    exact Or.inl h
  · rw [getElem?_append_right hi, getElem?_singleton] at h
    split at h
    · cases h
      exact Or.inr ⟨by omega, rfl⟩
    · cases h

theorem since_nil : Since P [] := fun before e after h => by simp at h

theorem since_concat {log : List γ} {e : γ} : Since P (log ++ [e]) ↔ Since P log ∧ P log e := by
  constructor
  · intro h
    refine ⟨fun before e' after heq => ?_, h log e [] rfl⟩
    apply h before e' (after ++ [e])
    rw [heq, append_assoc, cons_append]
  · rintro ⟨h, he⟩ before e' after heq
    rcases eq_nil_or_concat' after with rfl | ⟨after', e'', rfl⟩
    · obtain ⟨rfl, heq'⟩ := append_inj' heq rfl
      cases heq'
      exact he
    · apply h before e' after'
      rw [← cons_append, ← append_assoc] at heq
      exact (append_inj' heq rfl).1

end Since

/-- An operation that a thread performed, and the state it left. -/
structure Threads.Entry (Op : Type) (Resp : Op → Type) (σ : Type) where
  thread : Nat
  op : Op
  answer : Resp op
  after : σ

/-- The state that the threads share, what each of them has left to do, and all that they did. -/
structure Threads (Op : Type) (Resp : Op → Type) (σ α : Type) where
  shared : σ
  progs : List (Prog Op Resp α) := []
  log : List (Threads.Entry Op Resp σ) := []

variable (x : σ)

namespace Threads

def spawn (s : Threads Op Resp σ α) (p : Prog Op Resp α) : Threads Op Resp σ α := { s with progs := s.progs ++ [p] }

def act (handle : ι → (op : Op) → σ → Resp op × σ) (s : Threads Op Resp σ α) (i : Nat) (o : ι) :
    Option (Threads Op Resp σ α) :=
  match s.progs[i]? with
  | some (.call op next) =>
    let (answer, after) := handle o op s.shared
    some { shared := after, progs := s.progs.set i (next answer), log := s.log ++ [⟨i, op, answer, after⟩] }
  | _ => none

def Idle (s : Threads Op Resp σ α) : Prop := ∀ p ∈ s.progs, ∃ a, p = .done a

def notes (note : Q → (op : Op) → Resp op → Q) (q₀ : Q) (s : Threads Op Resp σ α) (i : Nat) : Q :=
  (s.log.filter (·.thread = i)).foldl (fun q e => note q e.op e.answer) q₀

variable {s t : Threads Op Resp σ α} {o : ι}

theorem act_cases (h : s.act handle i o = some t) : ∃ op next, s.progs[i]? = some (.call op next) ∧ t = {
      shared := (handle o op s.shared).2
      progs := s.progs.set i (next (handle o op s.shared).1)
      log := s.log ++ [⟨i, op, (handle o op s.shared).1, (handle o op s.shared).2⟩] } := by
  rcases hp : s.progs[i]? with _ | ⟨a | ⟨op, next⟩⟩
  · simp [act, hp] at h
  · simp [act, hp] at h
  · rw [act, hp] at h
    cases h
    exact ⟨op, next, rfl, rfl⟩

section Notes

variable {q₀ : Q}

theorem notes_append (log : List (Entry Op Resp σ)) (e : Entry Op Resp σ) (j : Nat)
    (ps : List (Prog Op Resp α)) : notes note q₀ ⟨x, ps, log ++ [e]⟩ j =
      if e.thread = j then note (notes note q₀ ⟨x, ps, log⟩ j) e.op e.answer else notes note q₀ ⟨x, ps, log⟩ j := by
  unfold notes
  rw [filter_append, foldl_append]
  split
  · next h => simp [h]
  · next h => simp [h]

theorem notes_act (h : s.act handle i o = some t) : ∃ op next, s.progs[i]? = some (.call op next) ∧
    t.shared = (handle o op s.shared).2 ∧ ∀ j, t.notes note q₀ j =
      if i = j then note (s.notes note q₀ j) op (handle o op s.shared).1 else s.notes note q₀ j := by
  obtain ⟨op, next, hp, rfl⟩ := act_cases h
  refine ⟨op, next, hp, rfl, fun j => ?_⟩
  rw [notes_append]
  split <;> rfl

def keepEvents (q : List (Sigma Resp)) (op : Op) (r : Resp op) : List (Sigma Resp) := q ++ [⟨op, r⟩]

theorem mem_keepEvents (q : List (Sigma Resp)) (op : Op) (r : Resp op) : ⟨op, r⟩ ∈ keepEvents q op r :=
  mem_append_right q (mem_singleton_self _)

theorem subset_keepEvents (q : List (Sigma Resp)) (op : Op) (r : Resp op) : q ⊆ keepEvents q op r :=
  subset_append_left q _

theorem mem_notes_keepEvents {event : Sigma Resp} : event ∈ s.notes keepEvents [] i ↔
    ∃ e ∈ s.log, e.thread = i ∧ (⟨e.op, e.answer⟩ : Sigma Resp) = event := by
  have hfold : ∀ (log : List (Entry Op Resp σ)) (q : List (Sigma Resp)),
      log.foldl (fun q e => keepEvents q e.op e.answer) q = q ++ log.map fun e => ⟨e.op, e.answer⟩ := by
    intro log
    induction log with
    | nil => exact fun q => (append_nil q).symm
    | cons e log ih =>
      intro q
      rw [foldl_cons, ih, keepEvents, append_assoc, map_cons, singleton_append]
  rw [notes, hfold]
  simp [and_assoc]

/-- Every thread, with what is left of its program, is as `R` says of the notes on it. -/
structure Tracks (note : Q → (op : Op) → Resp op → Q) (q₀ : Q) (R : Nat → Prog Op Resp α → Q → Prop)
    (s : Threads Op Resp σ α) : Prop where
  known : ∀ e ∈ s.log, e.thread < s.progs.length
  here : ∀ i (p : Prog Op Resp α), s.progs[i]? = some p → R i p (s.notes note q₀ i)

section Tracks
variable {R : Nat → Prog Op Resp α → Q → Prop}

theorem notes_of_not_mem (h : i ∉ s.log.map (·.thread)) : s.notes note q₀ i = q₀ := by
  have hnil : s.log.filter (·.thread = i) = [] := by
    refine filter_eq_nil_iff.2 fun e he hthread => h ?_
    rw [← of_decide_eq_true hthread]
    exact mem_map_of_mem he
  rw [notes, hnil, foldl_nil]

theorem notes_of_unknown (hknown : ∀ e ∈ s.log, e.thread < s.progs.length) (hi : s.progs.length ≤ i) :
    s.notes note q₀ i = q₀ := by
  refine notes_of_not_mem fun hmem => ?_
  obtain ⟨e, he, rfl⟩ := mem_map.1 hmem
  exact Nat.not_lt.2 hi (hknown e he)

theorem tracks_init : Tracks note q₀ R (⟨x, [], []⟩ : Threads Op Resp σ α) := ⟨nofun, nofun⟩

section

variable (h : Tracks note q₀ R s)
include h

theorem Tracks.mono {R' : Nat → Prog Op Resp α → Q → Prop} (hR : ∀ i p q, i < s.progs.length → R i p q → R' i p q) :
    Tracks note q₀ R' s :=
  ⟨h.known, fun i p hp => hR i p _ (List.getElem?_eq_some_iff.1 hp).1 (h.here i p hp)⟩

theorem Tracks.shared : Tracks note q₀ R { s with shared := x } := ⟨h.known, h.here⟩

theorem Tracks.spawn (hp : R s.progs.length p q₀) : Tracks note q₀ R (s.spawn p) := by
  refine ⟨fun e he => ?_, fun i p' hp' => ?_⟩
  · have hlt := h.known e he
    simp only [Threads.spawn, length_append, length_singleton]
    omega
  · rcases getElem?_concat_cases hp' with hp' | ⟨rfl, rfl⟩
    · exact h.here i p' hp'
    · change R _ _ (s.notes note q₀ _)
      rw [notes_of_unknown h.known (Nat.le_refl _)]
      exact hp

theorem Tracks.advance (hstep : s.act handle i o = some t)
    (hR : ∀ op next, s.progs[i]? = some (.call op next) → R i (.call op next) (s.notes note q₀ i) →
      R i (next (handle o op s.shared).1) (note (s.notes note q₀ i) op (handle o op s.shared).1)) :
    Tracks note q₀ R t := by
  obtain ⟨op, next, hp, rfl⟩ := act_cases hstep
  have hi : i < s.progs.length := (List.getElem?_eq_some_iff.1 hp).1
  refine ⟨fun e he => ?_, fun j p hpj => ?_⟩
  · rw [length_set]
    rcases mem_append.1 he with he | he
    · exact h.known e he
    · rw [mem_singleton.1 he]
      exact hi
  · rw [notes_append]
    rcases Decidable.em (i = j) with rfl | hij
    · rw [getElem?_set_self hi] at hpj
      cases hpj
      rw [if_pos rfl]
      exact hR op next hp (h.here i _ hp)
    · rw [getElem?_set_ne hij] at hpj
      rw [if_neg hij]
      exact h.here j p hpj

theorem Tracks.act (hstep : s.act handle i o = some t)
    (hR : ∀ op next q r, R i (.call op next) q → R i (next r) (note q op r)) : Tracks note q₀ R t :=
  h.advance hstep fun op next _ hhere => hR op next _ _ hhere

end

end Tracks

theorem obeys_act
    (h : Tracks note q₀ (fun _ p => p.Obeys note allowed fair E) s) (hstep : s.act handle i o = some t)
    (hfair : ∀ op next, s.progs[i]? = some (.call op next) → fair (s.notes note q₀ i) op (handle o op s.shared).1) :
    Tracks note q₀ (fun _ p => p.Obeys note allowed fair E) t :=
  h.advance hstep fun op next hp hhere => hhere.2 _ (hfair op next hp)

/-- Every thread does what its program keeps to. -/
structure Follows (note : Q → (op : Op) → Resp op → Q) (q₀ : Q) (I : Q → Prop) (E : α → Q → Prop)
    (s : Threads Op Resp σ α) : Prop where
  known : ∀ e ∈ s.log, e.thread < s.progs.length
  keeps : ∀ i (p : Prog Op Resp α), s.progs[i]? = some p → p.Keeps note I E (s.notes note q₀ i)

theorem follows_init : Follows note q₀ I E (⟨x, [], []⟩ : Threads Op Resp σ α) := ⟨nofun, nofun⟩

theorem Follows.shared (h : Follows note q₀ I E s) : Follows note q₀ I E { s with shared := x } :=
  ⟨h.known, h.keeps⟩

theorem follows_iff : Follows note q₀ I E s ↔ Tracks note q₀ (fun _ p => p.Keeps note I E) s :=
  ⟨fun h => ⟨h.known, h.keeps⟩, fun h => ⟨h.known, h.here⟩⟩

section

variable (h : Follows note q₀ I E s)
include h

theorem Follows.spawn (hp : p.Keeps note I E q₀) :
    Follows note q₀ I E (s.spawn p) := follows_iff.2 ((follows_iff.1 h).spawn hp)

theorem Follows.act (hstep : s.act handle i o = some t) : Follows note q₀ I E t :=
  follows_iff.2 ((follows_iff.1 h).act hstep fun _ _ _ r hkeeps => hkeeps.2 r)

theorem Follows.here (hstart : I q₀) (hend : ∀ a q, E a q → I q) (i : Nat) : I (s.notes note q₀ i) := by
  rcases hp : s.progs[i]? with _ | p
  · rw [notes_of_unknown h.known (getElem?_eq_none_iff.1 hp)]
    exact hstart
  · exact (h.keeps i p hp).here hend

theorem Follows.ended (hidle : s.Idle) {F : Q → Prop} (hstart : F q₀) (hend : ∀ a q, E a q → F q) (i : Nat) :
    F (s.notes note q₀ i) := by
  rcases hp : s.progs[i]? with _ | p
  · rw [notes_of_unknown h.known (getElem?_eq_none_iff.1 hp)]
    exact hstart
  · obtain ⟨a, rfl⟩ := hidle p (mem_of_getElem? hp)
    exact hend a _ (h.keeps i _ hp)

end

end Notes

section Shares
variable {γ : Type} [BEq γ] (f : Entry Op Resp σ → List γ) (a : γ)

theorem count_threads_succ (log : List (Entry Op Resp σ)) (n : Nat) : ((log.filter (·.thread < n + 1)).flatMap f).count a =
      ((log.filter (·.thread < n)).flatMap f).count a + ((log.filter (·.thread = n)).flatMap f).count a := by
  induction log with
  | nil => rfl
  | cons e log ih =>
    simp only [filter_cons, decide_eq_true_eq]
    rcases lt_trichotomy e.thread n with h | h | h
    · rw [if_pos (by omega), if_pos h, if_neg (by omega), flatMap_cons, flatMap_cons, count_append, count_append, ih]
      omega
    · rw [if_pos (by omega), if_neg (by omega), if_pos h, flatMap_cons, flatMap_cons, count_append, count_append, ih]
      omega
    · rw [if_neg (by omega), if_neg (by omega), if_neg (by omega), ih]

theorem count_le_of_threads {f g : Entry Op Resp σ → List γ} {log : List (Entry Op Resp σ)}
    (h : ∀ i, ((log.filter (·.thread = i)).flatMap f).count a ≤ ((log.filter (·.thread = i)).flatMap g).count a) :
    (log.flatMap f).count a ≤ (log.flatMap g).count a := by
  have hbelow : ∀ n, ((log.filter (·.thread < n)).flatMap f).count a ≤ ((log.filter (·.thread < n)).flatMap g).count a := by
    intro n
    induction n with
    | zero =>
      have hnil : log.filter (·.thread < 0) = [] := filter_eq_nil_iff.2 fun e _ h => by simp at h
      rw [hnil]
      exact Nat.le_refl _
    | succ n ih =>
      rw [count_threads_succ, count_threads_succ]
      exact Nat.add_le_add ih (h n)
  obtain ⟨n, hn⟩ : ∃ n, ∀ e ∈ log, e.thread < n := by
    clear h hbelow
    induction log with
    | nil => exact ⟨0, nofun⟩
    | cons e log ih =>
      obtain ⟨n, hn⟩ := ih
      refine ⟨max n (e.thread + 1), fun e' he' => ?_⟩
      rcases mem_cons.1 he' with rfl | he'
      · omega
      · have hlt := hn e' he'
        omega
  have hall : log.filter (·.thread < n) = log := filter_eq_self.2 fun e he => decide_eq_true (hn e he)
  have hle := hbelow n
  rwa [hall] at hle

end Shares

end Threads

end Lib
