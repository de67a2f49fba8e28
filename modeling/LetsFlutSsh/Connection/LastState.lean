import LetsFlutSsh.Connection.Actor

/-!
# The published state of a connection

Calls of `connect_async`, `disconnect` and `disconnect_all` run side by side with the monitors.

* `Notes`, `note` : what a call did so far with its actor;
* `quietSince`, `lastState` : whether an id was disconnected last, and the last state published for it;
* `StateAgrees`, `Careful` : what should hold of published states, and the steps that see to it;
* `stateAgrees_of_careful` : published states agree in every run of such steps.
-/

namespace LetsFlutSsh.Connection.Actors
open Lib List Option

/-! ## What a call did -/

/-- The actor of an attempt with its generation, whether its outcome was published, the actor that a monitor flipped and did
not report yet, and what a call of `disconnect` removed and has not returned from. -/
structure Notes where
  attempt : Option (String × Handle) := none
  generation : Option UInt64 := none
  published : Bool := false
  flipped : Option Handle := none
  removing : Option String := none
  removed : Option Handle := none

def note (q : Notes) : (op : Op) → op.Resp → Notes
  | .insert id _, h => { q with attempt := some (id, h) }
  | .enter _, generation => { q with generation := some generation }
  | .publish (.stateChanged _ state), _ =>
    if state = .connecting then q else { q with published := true, flipped := none }
  | .flip h, true => { q with flipped := some h }
  | .remove id, h => { q with removing := some id, removed := h }
  | .tearDown _, _ => { q with removed := none }
  | .returned _, _ => { q with removing := none }
  | _, _ => q

def System.at (s : System) (i : Nat) : Notes := s.notes note {} i

/-- What an operation does to the question whether `disconnect(id)` has returned since `connect_async(id)` last began. -/
def quietBy (id : String) (quiet : Bool) : Op → Bool
  | .insert id' _ => quiet && id' ≠ id
  | .returned id' => quiet || id' = id
  | _ => quiet

def quietSince (id : String) (log : List LogEntry) : Bool := log.foldl (fun quiet e => quietBy id quiet e.op) false

def stateBy (id : String) : Op → Option ConnectionState
  | .publish (.stateChanged id' state) => if id' = id then some state else none
  | _ => none

def lastState (id : String) (log : List LogEntry) : Option ConnectionState :=
  log.foldl (fun last e => (stateBy id e.op).or last) none

/-- An attempt on the id has begun and not published its outcome. -/
def UnderWay (s : System) (id : String) : Prop :=
  ∃ i h, (s.at i).attempt = some (id, h) ∧ (s.at i).published = false

/-- **Published states agree with the calls and the registry**: no `Connected` is published for an id between the return of
`disconnect` and the next `connect_async`; and once no attempt on an id is under way and no monitor is about to report its
actor, the last state published is that of the actor in the registry. -/
structure StateAgrees (s : System) : Prop where
  quiet : Since (fun before e => ∀ id, stateBy id e.op = some .connected → quietSince id before = false) s.log
  last : ∀ id h, s.shared.byId.lookup id = some h → ¬UnderWay s id → (∀ i, (s.at i).flipped ≠ some h) →
    lastState id s.log = s.shared.stateOf h

def Pending (s : System) (h : Handle) : Prop := ∀ i id, (s.at i).attempt = some (id, h) → (s.at i).published = false

def Notes.handle (q : Notes) : Option Handle := q.flipped.or (q.attempt.map Prod.snd)

/-- An outcome may be published: by the call whose actor is registered, while the actor is in that state; or by another
call, while the attempt on the registered actor has not published its own; `Connected` not without an actor. -/
def MayPublish (s : System) (i : Nat) (id : String) (state : ConnectionState) : Prop :=
  match s.shared.byId.lookup id with
  | none => state ≠ .connected
  | some h => if (s.at i).handle = some h then s.shared.stateOf h = some state else Pending s h

/-- No attempt begins while a `disconnect` of its id runs, and outcomes are published where they may be. -/
def Careful (s : System) : Step → Prop
  | .act i _ => ∀ op next, s.progs[i]? = some (.call op next) →
      match op with
      | .insert id _ => ∀ j, (s.at j).removing ≠ some id
      | .publish (.stateChanged id state) => state ≠ .connecting → MayPublish s i id state
      | _ => True
  | _ => True

/-! ## What calls do -/

/-- A call of `connect_async`, one of `disconnect` or `disconnect_all`, or a monitor. -/
inductive Kind where
  | connect
  | disconnect
  | monitor (id : String) (h : Handle)

/-- The attempt is under way, on this actor. -/
structure Notes.On (q : Notes) (id : String) (h : Handle) : Prop where
  attempt : q.attempt = some (id, h)
  published : q.published = false
  flipped : q.flipped = none

def allowed (kind : Kind) (q : Notes) : Op → Prop
  | .insert _ _ => q = {}
  | .enter h => q.generation = none ∧ ∃ id, q.On id h
  | .setConnected h _ | .setFailed h _ => ∃ id, q.On id h
  | .readGeneration h => q.generation.isSome = true ∧ ∃ id, q.attempt = some (id, h)
  | .spawnMonitor id h _ => q.attempt = some (id, h)
  | .publish (.stateChanged id state) =>
    (∃ h, q.On id h) ∨ ∃ h, kind = .monitor id h ∧ q.flipped = some h ∧ q.attempt = none ∧ state = .disconnected
  | .remove _ => q.attempt = none
  | .tearDown h => q.removed = some h
  | .returned id => q.removing = some id
  | .flip h => q.flipped = none ∧ ∃ id, kind = .monitor id h
  | _ => True

def fair (q : Notes) : (op : Op) → op.Resp → Prop
  | .readGeneration _, current => q.generation = some current.1
  | _, _ => True

def Ended (_ : Unit) (q : Notes) : Prop := q.attempt.isSome = true → q.published = true

variable {state : ConnectionState} {id : String} {h : Handle} {op : Op}

section
variable {kind : Kind} {q : Notes}

theorem quietly {α : Type} {E : α → Notes → Prop} {next : op.Resp → Call α} (hallowed : allowed kind q op)
    (hnote : ∀ r, note q op r = q) (hnext : ∀ r, fair q op r → (next r).Obeys note (allowed kind) fair E q) :
    (Prog.call op next : Call α).Obeys note (allowed kind) fair E q := by
  refine ⟨hallowed, fun r hr => ?_⟩
  rw [hnote]
  exact hnext r hr

theorem recordProgress_obeys {step : ProgressStep} :
    (recordProgress h id step).Obeys note (allowed kind) fair (fun _ q' => q' = q) q :=
  ⟨trivial, fun _ _ => ⟨trivial, fun _ _ => rfl⟩⟩

theorem publishActiveCount_obeys : publishActiveCount.Obeys note (allowed kind) fair (fun _ q' => q' = q) q := by
  refine ⟨trivial, fun count _ => ⟨trivial, fun prev _ => ?_⟩⟩
  dsimp only
  split_ifs
  · exact ⟨trivial, fun _ _ => rfl⟩
  · rfl

theorem recordSuccess_obeys {phases : List ConnectionPhase} :
    (recordSuccess h id phases).Obeys note (allowed kind) fair (fun _ q' => q' = q) q := by
  induction phases with
  | nil => rfl
  | cons phase phases ih =>
    refine recordProgress_obeys.bind ?_
    rintro _ _ rfl
    exact ih

theorem outcome_obeys (hstate : state ≠ .connecting) (hon : q.On id h) :
    ((publish (.stateChanged id state)).bind fun _ => publishActiveCount).Obeys note (allowed kind) fair Ended q := by
  refine ⟨.inl ⟨h, hon⟩, fun r _ => ?_⟩
  have hnote : note q (.publish (.stateChanged id state)) r = { q with published := true, flipped := none } := if_neg hstate
  rw [hnote]
  refine publishActiveCount_obeys.conseq ?_
  rintro _ _ rfl _
  rfl

theorem finishConnected_obeys {session : Session} (hon : q.On id h) :
    (finishConnected id h session).Obeys note (allowed kind) fair Ended q := by
  refine quietly ⟨id, hon⟩ (fun _ => rfl) fun _ _ => recordSuccess_obeys.bind ?_
  rintro _ _ rfl
  exact quietly hon.attempt (fun _ => rfl) fun _ _ => outcome_obeys nofun hon

theorem finishFailed_obeys {e : Error} (hon : q.On id h) :
    (finishFailed id h e).Obeys note (allowed kind) fair Ended q := by
  refine quietly ⟨id, hon⟩ (fun _ => rfl) fun _ _ => recordProgress_obeys.bind ?_
  rintro _ _ rfl
  exact quietly trivial (fun _ => rfl) fun _ _ => outcome_obeys nofun hon

theorem connectAsync_obeys (id : String) (internal : Bool) :
    (connectAsync id internal).Obeys note (allowed .connect) fair Ended {} := by
  refine ⟨rfl, fun h _ => ?_⟩
  have hon : Notes.On { attempt := some (id, h) } id h := ⟨rfl, rfl, rfl⟩
  refine ⟨⟨rfl, id, hon⟩, fun generation _ => ?_⟩
  have hon' : Notes.On { attempt := some (id, h), generation := some generation } id h := ⟨rfl, rfl, rfl⟩
  refine ⟨.inl ⟨h, hon'⟩, fun _ _ => recordProgress_obeys.bind ?_⟩
  rintro _ _ rfl
  refine quietly trivial (fun _ => rfl) fun result _ => ?_
  refine quietly ⟨rfl, id, rfl⟩ (fun _ => rfl) fun current hfair => ?_
  have hcurrent : current.1 = generation := (some_inj.1 hfair).symm
  rw [if_neg (not_not.2 hcurrent)]
  rcases result with e | session
  · exact finishFailed_obeys hon'
  · exact finishConnected_obeys hon'

theorem closeSession_obeys {session : Option Session} :
    (closeSession id session).Obeys note (allowed kind) fair (fun _ q' => q' = q) q := by
  rcases session with _ | session
  · rfl
  · refine ⟨trivial, fun r _ => ?_⟩
    rcases r with e | _
    · exact ⟨trivial, fun _ _ => rfl⟩
    · rfl

theorem disconnect_obeys (hq : q.attempt = none) :
    (disconnect id).Obeys note (allowed kind) fair (fun _ q' => q'.attempt = none) q := by
  refine ⟨hq, fun r _ => ?_⟩
  rcases r with _ | h
  · exact ⟨rfl, fun _ _ => hq⟩
  · refine ⟨rfl, fun session _ => closeSession_obeys.bind ?_⟩
    rintro _ _ rfl
    refine quietly trivial (fun _ => rfl) fun _ _ => publishActiveCount_obeys.bind ?_
    rintro _ _ rfl
    exact ⟨rfl, fun _ _ => hq⟩

theorem disconnectEach_obeys {ids : List String} (hq : q.attempt = none) :
    (disconnectEach ids).Obeys note (allowed kind) fair (fun _ q' => q'.attempt = none) q := by
  induction ids generalizing q with
  | nil => exact hq
  | cons id ids ih => exact (disconnect_obeys hq).bind fun _ _ hq' => ih hq'

theorem ended_of_none (hq : q.attempt = none) : Ended () q := by
  intro hsome
  rw [hq] at hsome
  cases hsome

theorem disconnectAll_obeys : (disconnectAll.bind fun _ => .done ()).Obeys note (allowed .disconnect) fair Ended {} := by
  refine ⟨trivial, fun ids _ => ?_⟩
  refine Prog.Obeys.bind ((disconnectEach_obeys rfl).bind fun _ _ hq => ?_) fun _ _ hq => ended_of_none hq
  exact hq

theorem runTransportMonitor_obeys {session : Session} (rounds : Nat) :
    (runTransportMonitor id h session rounds).Obeys note (allowed (.monitor id h)) fair Ended {} := by
  have hnone : Ended () {} := ended_of_none rfl
  induction rounds with
  | zero => exact hnone
  | succ rounds ih =>
    refine quietly trivial (fun _ => rfl) fun current _ => ?_
    by_cases hcurrent : current = some h
    · rw [if_neg (not_not.2 hcurrent)]
      refine ⟨trivial, fun alive _ => ?_⟩
      cases alive with
      | false => exact hnone
      | true =>
        refine ⟨trivial, fun closed _ => ?_⟩
        cases closed with
        | false => exact ih
        | true =>
          refine ⟨⟨rfl, id, rfl⟩, fun flipped _ => ?_⟩
          cases flipped with
          | false => exact hnone
          | true =>
            refine ⟨.inr ⟨h, rfl, rfl, rfl, rfl⟩, fun _ _ => publishActiveCount_obeys.conseq ?_⟩
            rintro _ _ rfl
            exact ended_of_none rfl
    · rw [if_pos hcurrent]
      exact hnone

end

variable {internal : Bool} {id' : String} {o : Outcome} {s : AppState}

/-! ## What operations leave -/

namespace AppState
variable {k : Handle} {f : Actor → Actor}

theorem map_modify {β : Type} (g : Actor → β) (hf : h = k → ∀ a, g (f a) = g a) :
    (s.modify h f).actors[k]?.map g = s.actors[k]?.map g := by
  rw [modify, getElem?_modify]
  rcases s.actors[k]? with _ | a
  · rfl
  · change some (g (if h = k then f a else a)) = some (g a)
    split_ifs with heq
    · rw [hf heq]
    · rfl

theorem lt_of_ownerOf (hk : s.ownerOf k = some id) : k < s.actors.length := by
  obtain ⟨a, ha, -⟩ := map_eq_some_iff.1 hk
  exact (List.getElem?_eq_some_iff.1 ha).1

theorem getElem?_insert (hk : k < s.actors.length) : (s.insert id internal).actors[k]? = s.actors[k]? :=
  getElem?_append_left hk

theorem ownerOf_insert : (s.insert id internal).ownerOf s.actors.length = some id := by
  rw [ownerOf, insert, getElem?_append_right (Nat.le_refl _), Nat.sub_self]
  rfl

theorem actors_remove : (s.remove id).actors = s.actors := by
  unfold remove
  split_ifs <;> rfl

theorem lookup_insert :
    (s.insert id internal).byId.lookup id' = if id' = id then some s.actors.length else s.byId.lookup id' := by
  split_ifs with heq
  · rw [heq]
    exact AList.lookup_insert _
  · exact AList.lookup_insert_ne heq

theorem lookup_remove : (s.remove id).byId.lookup id' = if id' = id then none else s.byId.lookup id' := by
  unfold remove
  split_ifs with hmem heq heq
  · rw [heq]
    exact AList.lookup_erase _ _
  · exact AList.lookup_erase_ne heq
  · rw [heq]
    exact AList.lookup_eq_none.2 hmem
  · rfl

end AppState

section
def touched : Op → Option Handle
  | .enter h | .setConnected h _ | .setFailed h _ | .tearDown h | .flip h => some h
  | _ => none

theorem map_perform {β : Type} (g : Actor → β) (hid : s.ownerOf h = some id)
    (henter : op = .enter h → ∀ a generation, g { a with state := .connecting, error := none, progress := [], generation } = g a)
    (hprogress : ∀ a progress, g { a with progress } = g a)
    (hconnected : ∀ session, op = .setConnected h session → ∀ a, g { a with session := some session, state := .connected } = g a)
    (hfailed : ∀ detail, op = .setFailed h detail → ∀ a, g { a with state := .disconnected, error := some detail } = g a)
    (hdown : op = .tearDown h ∨ op = .flip h → ∀ a, g { a with state := .disconnected, session := none } = g a) :
    (perform o op s).2.actors[h]?.map g = s.actors[h]?.map g := by
  cases op with
  | insert id' internal =>
    change (s.insert id' internal).actors[h]?.map g = _
    rw [AppState.getElem?_insert (AppState.lt_of_ownerOf hid)]
  | remove id' =>
    change (s.remove id').actors[h]?.map g = _
    rw [AppState.actors_remove]
  | flip k =>
    unfold perform
    dsimp only
    split_ifs
    · exact AppState.map_modify g fun heq => hdown (.inr (congrArg Op.flip heq))
    · rfl
  | enter k => exact AppState.map_modify g fun heq a => henter (congrArg Op.enter heq) a _
  | pushProgress k step => exact AppState.map_modify g fun _ a => hprogress a _
  | setConnected k session => exact AppState.map_modify g fun heq => hconnected session (heq ▸ rfl)
  | setFailed k detail => exact AppState.map_modify g fun heq => hfailed detail (heq ▸ rfl)
  | tearDown k => exact AppState.map_modify g fun heq => hdown (.inl (congrArg Op.tearDown heq))
  | _ => rfl

theorem ownerOf_perform (hid : s.ownerOf h = some id) : (perform o op s).2.ownerOf h = some id := by
  rw [← hid]
  exact map_perform (·.id) hid (fun _ _ _ => rfl) (fun _ _ => rfl) (fun _ _ _ => rfl) (fun _ _ _ => rfl) fun _ _ => rfl

theorem generationOf_perform (hid : s.ownerOf h = some id) (hop : op ≠ .enter h) :
    (perform o op s).2.generationOf h = s.generationOf h :=
  map_perform (·.generation) hid (fun heq => absurd heq hop) (fun _ _ => rfl) (fun _ _ _ => rfl) (fun _ _ _ => rfl)
    fun _ _ => rfl

theorem stateOf_perform (hid : s.ownerOf h = some id) (hop : touched op ≠ some h) :
    (perform o op s).2.stateOf h = s.stateOf h := by
  refine map_perform (·.state) hid (fun heq => ?_) (fun _ _ => rfl) (fun _ heq => ?_) (fun _ heq => ?_) fun heq => ?_
  · exact absurd (congrArg touched heq) hop
  · exact absurd (congrArg touched heq) hop
  · exact absurd (congrArg touched heq) hop
  · rcases heq with heq | heq <;> exact absurd (congrArg touched heq) hop

theorem lookup_perform (id' : String) : (perform o op s).2.byId.lookup id' =
    match op with
    | .insert id _ => if id' = id then some s.actors.length else s.byId.lookup id'
    | .remove id => if id' = id then none else s.byId.lookup id'
    | _ => s.byId.lookup id' := by
  cases op with
  | insert id internal => exact AppState.lookup_insert
  | remove id => exact AppState.lookup_remove
  | flip k =>
    unfold perform
    dsimp only
    split_ifs <;> rfl
  | _ => rfl

end

/-- The notes after an operation in the state `x`, field by field. -/
def Notes.after (q : Notes) (x : AppState) (op : Op) : Notes where
  attempt := match op with
    | .insert id _ => some (id, x.actors.length)
    | _ => q.attempt
  generation := match op with
    | .enter h => some ((x.generationOf h).getD 0 + 1)
    | _ => q.generation
  published := match op with
    | .publish (.stateChanged _ state) => if state = .connecting then q.published else true
    | _ => q.published
  flipped := match op with
    | .publish (.stateChanged _ state) => if state = .connecting then q.flipped else none
    | .flip h => if x.stateOf h = some .connected then some h else q.flipped
    | _ => q.flipped
  removing := match op with
    | .remove id => some id
    | .returned _ => none
    | _ => q.removing
  removed := match op with
    | .remove id => x.byId.lookup id
    | .tearDown _ => none
    | _ => q.removed

theorem note_perform (q : Notes) (o : Outcome) (op : Op) (x : AppState) : note q op (perform o op x).1 = q.after x op := by
  cases op with
  | publish e =>
    rcases e with ⟨id, state⟩ | _ | _ | _ | _
    · change (if state = .connecting then q else { q with published := true, flipped := none }) = _
      unfold Notes.after
      dsimp only
      split_ifs <;> rfl
    all_goals rfl
  | flip h =>
    unfold perform Notes.after
    dsimp only
    split_ifs <;> rfl
  | _ => rfl

variable {k : Handle}

/-! ## Every order of calls -/

section
variable {s t : System} {l : Step} {i j : Nat}

def KindOk (x : AppState) : Kind → Prop
  | .monitor id h => x.ownerOf h = some id
  | _ => True

/-- What a step leaves, for the operation that it performs. -/
structure Acted (i : Nat) (o : Outcome) (op : Op) (s t : System) : Prop where
  shared : t.shared = (perform o op s.shared).2
  log : t.log = s.log ++ [⟨i, op, (perform o op s.shared).1, (perform o op s.shared).2⟩]
  at' : ∀ j, t.at j = if i = j then (s.at j).after s.shared op else s.at j

theorem acted_of_act (hact : s.act perform i o = some t) :
    ∃ op next, s.progs[i]? = some (.call op next) ∧ Acted i o op s t := by
  obtain ⟨op, next, hprog, hshared, hat⟩ : ∃ op next, s.progs[i]? = some (.call op next) ∧
      t.shared = (perform o op s.shared).2 ∧
      ∀ j, t.at j = if i = j then note (s.at j) op (perform o op s.shared).1 else s.at j := Threads.notes_act hact
  obtain ⟨op', next', hprog', ht⟩ := Threads.act_cases hact
  rw [hprog] at hprog'
  cases hprog'
  refine ⟨op, next, hprog, hshared, by rw [ht], fun j => ?_⟩
  rw [hat, note_perform]

/-- Attempts, monitors and calls of `disconnect` have their own actors, and the registry holds the actors of attempts. -/
structure Rooted (s : System) : Prop where
  tracks : Threads.Tracks note {} (fun _ p q => ∃ kind, KindOk s.shared kind ∧ p.Obeys note (allowed kind) fair Ended q) s
  owned : ∀ i id h, (s.at i).attempt = some (id, h) → s.shared.ownerOf h = some id
  once : ∀ i j id id' h, (s.at i).attempt = some (id, h) → (s.at j).attempt = some (id', h) → i = j
  generation : ∀ i id h g, (s.at i).attempt = some (id, h) → (s.at i).generation = some g → s.shared.generationOf h = some g
  registered : ∀ id h, s.shared.byId.lookup id = some h → ∃ i, (s.at i).attempt = some (id, h)
  spawned : ∀ m ∈ s.shared.monitors, s.shared.ownerOf m.handle = some m.id
  removed : ∀ i h, (s.at i).removed = some h → (∃ id, s.shared.ownerOf h = some id) ∧ ∀ id, s.shared.byId.lookup id ≠ some h

/-- An id that was disconnected last has no actor, and published states agree. -/
structure Sound (s : System) : Prop extends Rooted s where
  gone : ∀ i id, (s.at i).removing = some id → s.shared.byId.lookup id = none
  quiet : ∀ id, quietSince id s.log = true → s.shared.byId.lookup id = none
  agrees : StateAgrees s

theorem rooted_init : Rooted init where
  tracks := Threads.tracks_init _
  owned := nofun
  once := nofun
  generation := nofun
  registered := nofun
  spawned := fun _ hm => absurd hm not_mem_nil
  removed := nofun

theorem sound_init : Sound init where
  toRooted := rooted_init
  gone := nofun
  quiet := nofun
  agrees := ⟨since_nil, nofun⟩

variable {kind : Kind}

theorem monitors_perform (x : AppState) : (perform o op x).2.monitors =
    match op with
    | .spawnMonitor id h session => x.monitors ++ [⟨id, h, session⟩]
    | _ => x.monitors := by
  cases op with
  | remove id =>
    change (x.remove id).monitors = x.monitors
    unfold AppState.remove
    split_ifs <;> rfl
  | flip h =>
    unfold perform
    dsimp only
    split_ifs <;> rfl
  | _ => rfl

namespace Acted

section

variable (ha : Acted i o op s t)
include ha

theorem other (hj : i ≠ j) : t.at j = s.at j := by
  rw [ha.at', if_neg hj]

theorem self : t.at i = (s.at i).after s.shared op := by
  rw [ha.at', if_pos rfl]

theorem attempt_cases (hattempt : (t.at j).attempt = some (id, h)) :
    (s.at j).attempt = some (id, h) ∨ i = j ∧ h = s.shared.actors.length ∧ ∃ internal, op = .insert id internal := by
  rcases eq_or_ne i j with rfl | hj
  · rw [ha.self] at hattempt
    cases op with
    | insert id' internal =>
      cases hattempt
      exact .inr ⟨rfl, rfl, internal, rfl⟩
    | _ => exact .inl hattempt
  · rw [ha.other hj] at hattempt
    exact .inl hattempt

theorem attempt (hallowed : allowed kind (s.at i) op) (hattempt : (s.at j).attempt = some (id, h)) :
    (t.at j).attempt = some (id, h) := by
  rcases eq_or_ne i j with rfl | hj
  · rw [ha.self]
    cases op with
    | insert id' internal =>
      rw [show s.at i = {} from hallowed] at hattempt
      cases hattempt
    | _ => exact hattempt
  · rw [ha.other hj]
    exact hattempt

theorem owner (hid : s.shared.ownerOf h = some id) : t.shared.ownerOf h = some id := by
  rw [ha.shared]
  exact ownerOf_perform hid

theorem lookup_cases (hlookup : t.shared.byId.lookup id = some h) :
    s.shared.byId.lookup id = some h ∨ h = s.shared.actors.length ∧ ∃ internal, op = .insert id internal := by
  rw [ha.shared, lookup_perform] at hlookup
  cases op with
  | insert id' internal =>
    dsimp only at hlookup
    split_ifs at hlookup with heq
    · cases hlookup
      exact .inr ⟨rfl, internal, heq ▸ rfl⟩
    · exact .inl hlookup
  | remove id' =>
    dsimp only at hlookup
    split_ifs at hlookup
    exact .inl hlookup
  | _ => exact .inl hlookup

end

end Acted

section

variable (hroot : Rooted s) (ha : Acted i o op s t)
include hroot ha

theorem Rooted.owned_act (j : Nat) (id : String) (k : Handle) (hattempt : (t.at j).attempt = some (id, k)) :
    t.shared.ownerOf k = some id := by
  rcases ha.attempt_cases hattempt with hold | ⟨-, rfl, internal, rfl⟩
  · exact ha.owner (hroot.owned j id k hold)
  · rw [ha.shared]
    exact AppState.ownerOf_insert

theorem Rooted.once_act (j j' : Nat) (id id' : String) (k : Handle) (hj : (t.at j).attempt = some (id, k))
    (hj' : (t.at j').attempt = some (id', k)) : j = j' := by
  have hlt : ∀ {j id}, (s.at j).attempt = some (id, k) → k ≠ s.shared.actors.length :=
    fun hattempt => Nat.ne_of_lt (AppState.lt_of_ownerOf (hroot.owned _ _ _ hattempt))
  rcases ha.attempt_cases hj with hold | ⟨rfl, hnew, -⟩
  · rcases ha.attempt_cases hj' with hold' | ⟨-, hnew, -⟩
    · exact hroot.once j j' id id' k hold hold'
    · exact absurd hnew (hlt hold)
  · rcases ha.attempt_cases hj' with hold' | ⟨rfl, -, -⟩
    · exact absurd hnew (hlt hold')
    · rfl

theorem Rooted.generation_act (hallowed : allowed kind (s.at i) op) (j : Nat) (id : String) (k : Handle) (g : UInt64)
    (hattempt : (t.at j).attempt = some (id, k)) (hgeneration : (t.at j).generation = some g) :
    t.shared.generationOf k = some g := by
  -- Only its own attempt enters an actor.
  have hkeep : (s.at j).attempt = some (id, k) → (s.at j).generation = some g → t.shared.generationOf k = some g := by
    intro hattempt hgeneration
    rw [ha.shared, generationOf_perform (hroot.owned j id k hattempt)]
    · exact hroot.generation j id k g hattempt hgeneration
    · rintro rfl
      obtain ⟨hnone, id', hon⟩ := hallowed
      obtain rfl := hroot.once i j id' id k hon.attempt hattempt
      rw [hnone] at hgeneration
      cases hgeneration
  rcases eq_or_ne i j with rfl | hj
  · rcases ha.attempt_cases hattempt with hold | ⟨-, -, internal, rfl⟩
    · rw [ha.self] at hgeneration
      cases op with
      | enter k' =>
        obtain ⟨-, id', hon⟩ := hallowed
        cases hold.symm.trans hon.attempt
        obtain ⟨a, hactor, -⟩ := map_eq_some_iff.1 (hroot.owned i id k hold)
        have hafter : t.shared.generationOf k = some ((s.shared.generationOf k).getD 0 + 1) := by
          rw [ha.shared]
          change Option.map (·.generation) (s.shared.modify k _).actors[k]? = _
          rw [AppState.modify, getElem?_modify, hactor]
          simp
        rw [hafter]
        exact hgeneration
      | _ => exact hkeep hold hgeneration
    · rw [ha.self, show s.at i = {} from hallowed] at hgeneration
      cases hgeneration
  · rw [ha.other hj] at hattempt hgeneration
    exact hkeep hattempt hgeneration

theorem Rooted.registered_act (hallowed : allowed kind (s.at i) op) (id : String) (k : Handle)
    (hlookup : t.shared.byId.lookup id = some k) : ∃ j, (t.at j).attempt = some (id, k) := by
  rcases ha.lookup_cases hlookup with hold | ⟨rfl, internal, rfl⟩
  · obtain ⟨j, hj⟩ := hroot.registered id k hold
    exact ⟨j, ha.attempt hallowed hj⟩
  · exact ⟨i, by rw [ha.self]; rfl⟩

theorem Rooted.spawned_act (hallowed : allowed kind (s.at i) op) :
    ∀ m ∈ t.shared.monitors, t.shared.ownerOf m.handle = some m.id := by
  intro m hm
  rw [ha.shared, monitors_perform] at hm
  cases op with
  | spawnMonitor id k session =>
    rcases mem_append.1 hm with hm | hm
    · exact ha.owner (hroot.spawned m hm)
    · rw [mem_singleton.1 hm]
      exact ha.owner (hroot.owned i id k hallowed)
  | _ => exact ha.owner (hroot.spawned m hm)

end

theorem Rooted.owner_of_lookup (h : Rooted s) (hlookup : s.shared.byId.lookup id = some k) :
    s.shared.ownerOf k = some id := by
  obtain ⟨j, hj⟩ := h.registered id k hlookup
  exact h.owned j id k hj

theorem Rooted.removed_act (h : Rooted s) (ha : Acted i o op s t) (j : Nat) (k : Handle)
    (hremoved : (t.at j).removed = some k) :
    (∃ id, t.shared.ownerOf k = some id) ∧ ∀ id, t.shared.byId.lookup id ≠ some k := by
  have hkeep : (∃ id, s.shared.ownerOf k = some id) → (∀ id, s.shared.byId.lookup id ≠ some k) →
      (∃ id, t.shared.ownerOf k = some id) ∧ ∀ id, t.shared.byId.lookup id ≠ some k := by
    rintro ⟨id, hid⟩ hnone
    refine ⟨⟨id, ha.owner hid⟩, fun id' hlookup => ?_⟩
    rcases ha.lookup_cases hlookup with hold | ⟨rfl, -⟩
    · exact hnone id' hold
    · exact Nat.lt_irrefl _ (AppState.lt_of_ownerOf hid)
  rcases eq_or_ne i j with rfl | hj
  · rw [ha.self] at hremoved
    cases op with
    | remove id =>
      have hlookup : s.shared.byId.lookup id = some k := hremoved
      have hid := h.owner_of_lookup hlookup
      refine ⟨⟨id, ha.owner hid⟩, fun id' hlookup' => ?_⟩
      rw [ha.shared, lookup_perform] at hlookup'
      dsimp only at hlookup'
      split_ifs at hlookup' with hne
      exact hne (some_inj.1 ((h.owner_of_lookup hlookup').symm.trans hid))
    | tearDown k' => cases hremoved
    | _ => exact hkeep (h.removed i k hremoved).1 (h.removed i k hremoved).2
  · rw [ha.other hj] at hremoved
    exact hkeep (h.removed j k hremoved).1 (h.removed j k hremoved).2

theorem Acted.lookup_none (ha : Acted i o op s t) (hnone : s.shared.byId.lookup id = none)
    (hop : ∀ internal, op ≠ .insert id internal) : t.shared.byId.lookup id = none := by
  rcases hlookup : t.shared.byId.lookup id with _ | k
  · rfl
  · rcases ha.lookup_cases hlookup with hold | ⟨-, internal, heq⟩
    · rw [hnone] at hold
      cases hold
    · exact absurd heq (hop internal)

theorem Sound.gone_act (h : Sound s) (ha : Acted i o op s t) (hallowed : allowed kind (s.at i) op)
    (hcareful : ∀ id internal, op = .insert id internal → ∀ j, (s.at j).removing ≠ some id) (j : Nat) (id : String)
    (hremoving : (t.at j).removing = some id) : t.shared.byId.lookup id = none := by
  have hkeep : (s.at j).removing = some id → t.shared.byId.lookup id = none := fun hold =>
    ha.lookup_none (h.gone j id hold) fun internal heq => hcareful id internal heq j hold
  rcases eq_or_ne i j with rfl | hj
  · rw [ha.self] at hremoving
    cases op with
    | remove id' =>
      cases hremoving
      rw [ha.shared, lookup_perform]
      exact if_pos rfl
    | returned id' => cases hremoving
    | insert id' internal =>
      rw [show s.at i = {} from hallowed] at hremoving
      cases hremoving
    | _ => exact hkeep hremoving
  · rw [ha.other hj] at hremoving
    exact hkeep hremoving

theorem quietSince_concat (id : String) (log : List LogEntry) (e : LogEntry) :
    quietSince id (log ++ [e]) = quietBy id (quietSince id log) e.op := by
  rw [quietSince, foldl_append]
  rfl

theorem lastState_concat (id : String) (log : List LogEntry) (e : LogEntry) :
    lastState id (log ++ [e]) = (stateBy id e.op).or (lastState id log) := by
  rw [lastState, foldl_append]
  rfl

theorem Sound.quiet_act (h : Sound s) (ha : Acted i o op s t) (hallowed : allowed kind (s.at i) op) (id : String)
    (hquiet : quietSince id t.log = true) : t.shared.byId.lookup id = none := by
  rw [ha.log, quietSince_concat] at hquiet
  cases op with
  | insert id' internal =>
    rw [quietBy, Bool.and_eq_true, decide_eq_true_eq] at hquiet
    refine ha.lookup_none (h.quiet id hquiet.1) fun internal' heq => ?_
    cases heq
    exact hquiet.2 rfl
  | returned id' =>
    rw [quietBy, Bool.or_eq_true, decide_eq_true_eq] at hquiet
    refine ha.lookup_none ?_ nofun
    rcases hquiet with hquiet | rfl
    · exact h.quiet id hquiet
    · exact h.gone i id' hallowed
  | _ => exact ha.lookup_none (h.quiet id hquiet) nofun

theorem Sound.quiet_publish (h : Sound s)
    (hcareful : ∀ id state, op = .publish (.stateChanged id state) → state ≠ .connecting → MayPublish s i id state)
    (id : String) (hconnected : stateBy id op = some .connected) : quietSince id s.log = false := by
  obtain rfl : op = .publish (.stateChanged id .connected) := by
    unfold stateBy at hconnected
    split at hconnected
    · split_ifs at hconnected with heq
      cases hconnected
      rw [heq]
    · cases hconnected
  rcases hquiet : quietSince id s.log
  · rfl
  · have hmay := hcareful id .connected rfl nofun
    rw [MayPublish, h.quiet id hquiet] at hmay
    exact absurd rfl hmay

def Tells (id : String) (op : Op) : Prop := ∃ state, state ≠ .connecting ∧ op = .publish (.stateChanged id state)

section

variable (ha : Acted i o op s t) (hallowed : allowed kind (s.at i) op) (hop : ¬∃ id, Tells id op)
include ha hallowed hop

theorem Acted.underWay (hunder : UnderWay s id) : UnderWay t id := by
  obtain ⟨j, k, hattempt, hpublished⟩ := hunder
  refine ⟨j, k, ha.attempt hallowed hattempt, ?_⟩
  rcases eq_or_ne i j with rfl | hj
  · rw [ha.self]
    unfold Notes.after
    dsimp only
    split
    · next id' state =>
      split_ifs with hstate
      · exact hpublished
      · exact absurd ⟨id', state, hstate, rfl⟩ hop
    · exact hpublished
  · rw [ha.other hj]
    exact hpublished

theorem Acted.flipped (hflipped : (s.at j).flipped = some h) : (t.at j).flipped = some h := by
  rcases eq_or_ne i j with rfl | hj
  · rw [ha.self]
    unfold Notes.after
    dsimp only
    split
    · next id' state =>
      split_ifs with hstate
      · exact hflipped
      · exact absurd ⟨id', state, hstate, rfl⟩ hop
    · rw [hallowed.1] at hflipped
      cases hflipped
    · exact hflipped
  · rw [ha.other hj]
    exact hflipped

end

theorem speaker (hkind : KindOk s.shared kind) (h : Rooted s)
    (hallowed : allowed kind (s.at i) (.publish (.stateChanged id state))) :
    ∃ k, (s.at i).handle = some k ∧ s.shared.ownerOf k = some id ∧
      (∀ id' k', (s.at i).attempt = some (id', k') → id' = id ∧ k' = k) ∧ ∀ k', (s.at i).flipped = some k' → k' = k := by
  rcases hallowed with ⟨k, hon⟩ | ⟨k, rfl, hflipped, hattempt, -⟩
  · refine ⟨k, ?_, h.owned i id k hon.attempt, fun id' k' hattempt' => ?_, fun k' hflipped' => ?_⟩
    · rw [Notes.handle, hon.flipped, hon.attempt]
      rfl
    · cases hon.attempt.symm.trans hattempt'
      exact ⟨rfl, rfl⟩
    · rw [hon.flipped] at hflipped'
      cases hflipped'
  · refine ⟨k, ?_, hkind, fun id' k' hattempt' => ?_, fun k' hflipped' => ?_⟩
    · rw [Notes.handle, hflipped]
      rfl
    · rw [hattempt] at hattempt'
      cases hattempt'
    · exact (some_inj.1 (hflipped.symm.trans hflipped')).symm

theorem Sound.last_outcome (h : Sound s) (hkind : KindOk s.shared kind)
    (ha : Acted i o (.publish (.stateChanged id' state)) s t)
    (hallowed : allowed kind (s.at i) (.publish (.stateChanged id' state))) (hmay : MayPublish s i id' state)
    (hlookup : s.shared.byId.lookup id = some k) (hsettled : ¬UnderWay t id) (hflipped : ∀ j, (t.at j).flipped ≠ some k) :
    lastState id t.log = s.shared.stateOf k := by
  obtain ⟨k', hhandle, howner, hattempts, hflips⟩ := speaker hkind h.toRooted hallowed
  rw [ha.log, lastState_concat]
  rcases eq_or_ne id' id with rfl | hne
  · have hby : stateBy id' (.publish (.stateChanged id' state)) = some state := if_pos rfl
    rw [hby, some_or]
    unfold MayPublish at hmay
    rw [hlookup] at hmay
    dsimp only at hmay
    split_ifs at hmay with hown
    · exact hmay.symm
    obtain ⟨j, hj⟩ := h.registered id' k hlookup
    refine absurd ⟨j, k, ha.attempt hallowed hj, ?_⟩ hsettled
    rcases eq_or_ne i j with rfl | hij
    · obtain ⟨-, rfl⟩ := hattempts id' k hj
      exact absurd hhandle hown
    · rw [ha.other hij]
      exact hmay j id' hj
  · have hby : stateBy id (.publish (.stateChanged id' state)) = none := if_neg hne
    rw [hby, none_or]
    refine h.agrees.last id k hlookup (fun ⟨j, k'', hj, hpublished⟩ => hsettled ⟨j, k'', ha.attempt hallowed hj, ?_⟩)
      fun j hj => ?_
    · rcases eq_or_ne i j with rfl | hij
      · exact absurd (hattempts id k'' hj).1.symm hne
      · rw [ha.other hij]
        exact hpublished
    · rcases eq_or_ne i j with rfl | hij
      · obtain rfl := hflips k hj
        exact hne (some_inj.1 (howner.symm.trans (h.owner_of_lookup hlookup)))
      · refine hflipped j ?_
        rw [ha.other hij]
        exact hj

theorem Sound.last_act (h : Sound s) (hkind : KindOk s.shared kind) (ha : Acted i o op s t)
    (hallowed : allowed kind (s.at i) op)
    (hcareful : ∀ id state, op = .publish (.stateChanged id state) → state ≠ .connecting → MayPublish s i id state)
    (hlookup : t.shared.byId.lookup id = some k) (hsettled : ¬UnderWay t id) (hflipped : ∀ j, (t.at j).flipped ≠ some k) :
    lastState id t.log = t.shared.stateOf k := by
  rcases ha.lookup_cases hlookup with hold | ⟨rfl, internal, rfl⟩
  · have hid := h.owner_of_lookup hold
    -- An operation that publishes nothing for the id and leaves its actor's state.
    have hother : (¬∃ id, Tells id op) → stateBy id op = none → t.shared.stateOf k = s.shared.stateOf k →
        lastState id t.log = t.shared.stateOf k := by
      intro hop hby hstate
      rw [ha.log, lastState_concat, hby, none_or, hstate]
      exact h.agrees.last id k hold (fun hunder => hsettled (ha.underWay hallowed hop hunder))
        fun j hj => hflipped j (ha.flipped hallowed hop hj)
    have hstate : touched op ≠ some k → t.shared.stateOf k = s.shared.stateOf k := by
      intro hop
      rw [ha.shared]
      exact stateOf_perform hid hop
    -- An attempt that sets the state of the actor is under way.
    have hown : (∃ id', (s.at i).On id' k) → (¬∃ id, Tells id op) → lastState id t.log = t.shared.stateOf k := by
      rintro ⟨id', hon⟩ hop
      obtain rfl : id' = id := some_inj.1 ((h.owned i id' k hon.attempt).symm.trans hid)
      exact absurd (ha.underWay hallowed hop ⟨i, k, hon.attempt, hon.published⟩) hsettled
    have hsilent : ∀ {op' : Op}, op = op' → (∀ e, op' ≠ .publish e) → ¬∃ id, Tells id op := by
      rintro _ rfl hpublish ⟨id, state, -, rfl⟩
      exact hpublish _ rfl
    cases op with
    | publish e =>
      have hsame : t.shared.stateOf k = s.shared.stateOf k := hstate nofun
      rcases e with ⟨id', state⟩ | _ | _ | _ | _
      · by_cases hconnecting : state = .connecting
        · subst hconnecting
          have hop : ¬∃ id, Tells id (.publish (.stateChanged id' .connecting)) := by
            rintro ⟨id'', state, hne, heq⟩
            cases heq
            exact hne rfl
          have hspeaks := hallowed
          rcases hspeaks with ⟨k', hon⟩ | ⟨k', -, -, -, heq⟩
          · rcases eq_or_ne id' id with rfl | hne
            · exact absurd (ha.underWay hallowed hop ⟨i, k', hon.attempt, hon.published⟩) hsettled
            · exact hother hop (if_neg hne) hsame
          · cases heq
        · rw [hsame]
          exact h.last_outcome hkind ha hallowed (hcareful id' state rfl hconnecting) hold hsettled hflipped
      all_goals
        refine hother ?_ rfl hsame
        rintro ⟨id'', state, -, heq⟩
        cases heq
    | flip k' =>
      have hop : ¬∃ id, Tells id (.flip k') := hsilent rfl nofun
      rcases eq_or_ne k' k with rfl | hne
      · by_cases hconnected : s.shared.stateOf k' = some .connected
        · refine absurd ?_ (hflipped i)
          rw [ha.self]
          exact if_pos hconnected
        · refine hother hop rfl ?_
          rw [ha.shared]
          unfold perform
          dsimp only
          rw [if_neg hconnected]
      · exact hother hop rfl (hstate fun heq => hne (some_inj.1 heq))
    | enter k' =>
      rcases eq_or_ne k' k with rfl | hne
      · exact hown hallowed.2 (hsilent rfl nofun)
      · exact hother (hsilent rfl nofun) rfl (hstate fun heq => hne (some_inj.1 heq))
    | setConnected k' session =>
      rcases eq_or_ne k' k with rfl | hne
      · exact hown hallowed (hsilent rfl nofun)
      · exact hother (hsilent rfl nofun) rfl (hstate fun heq => hne (some_inj.1 heq))
    | setFailed k' detail =>
      rcases eq_or_ne k' k with rfl | hne
      · exact hown hallowed (hsilent rfl nofun)
      · exact hother (hsilent rfl nofun) rfl (hstate fun heq => hne (some_inj.1 heq))
    | tearDown k' =>
      rcases eq_or_ne k' k with rfl | hne
      · exact absurd hold ((h.removed i k' hallowed).2 id)
      · exact hother (hsilent rfl nofun) rfl (hstate fun heq => hne (some_inj.1 heq))
    | _ => exact hother (hsilent rfl nofun) rfl (hstate nofun)
  · refine absurd ⟨i, s.shared.actors.length, ?_, ?_⟩ hsettled
    · rw [ha.self]
      rfl
    · rw [ha.self, show s.at i = {} from hallowed]
      rfl

theorem Rooted.fair_act (h : Rooted s) (hallowed : allowed kind (s.at i) op) :
    fair (s.at i) op (perform o op s.shared).1 := by
  cases op with
  | readGeneration k =>
    obtain ⟨hsome, id, hattempt⟩ := hallowed
    obtain ⟨g, hg⟩ := isSome_iff_exists.1 hsome
    change (s.at i).generation = some ((s.shared.generationOf k).getD 0)
    rw [h.generation i id k g hattempt hg]
    exact hg
  | _ => trivial

theorem Rooted.tracks_act (h : Rooted s) (hstep : s.act perform i o = some t) (ha : Acted i o op s t) :
    Threads.Tracks note {} (fun _ p q => ∃ kind, KindOk t.shared kind ∧ p.Obeys note (allowed kind) fair Ended q) t := by
  refine (h.tracks.advance hstep fun op' next' _ hhere => ?_).mono fun _ _ _ _ hhere => ?_
  · obtain ⟨kind, hkind, hobeys⟩ := hhere
    exact ⟨kind, hkind, hobeys.2 _ (h.fair_act hobeys.1)⟩
  · obtain ⟨kind, hkind, hobeys⟩ := hhere
    refine ⟨kind, ?_, hobeys⟩
    cases kind with
    | monitor id k => exact ha.owner hkind
    | _ => trivial

theorem rooted_step (h : Rooted s) (hstep : step s l = some t) : Rooted t := by
  cases l with
  | connect id internal =>
    cases hstep
    exact ⟨h.tracks.spawn ⟨.connect, trivial, connectAsync_obeys id internal⟩, h.owned, h.once, h.generation, h.registered,
      h.spawned, h.removed⟩
  | disconnect id =>
    cases hstep
    have hobeys : (disconnect id).Obeys note (allowed .disconnect) fair Ended {} :=
      (disconnect_obeys rfl).conseq fun _ _ hq => ended_of_none hq
    exact ⟨h.tracks.spawn ⟨.disconnect, trivial, hobeys⟩, h.owned, h.once, h.generation, h.registered, h.spawned, h.removed⟩
  | disconnectAll =>
    cases hstep
    exact ⟨h.tracks.spawn ⟨.disconnect, trivial, disconnectAll_obeys⟩, h.owned, h.once, h.generation, h.registered,
      h.spawned, h.removed⟩
  | monitor k rounds =>
    obtain ⟨m, hm, rfl⟩ := map_eq_some_iff.1 hstep
    have howner := h.spawned m (mem_of_getElem? hm)
    refine ⟨(h.tracks.shared _).spawn ⟨.monitor m.id m.handle, howner, runTransportMonitor_obeys rounds⟩, h.owned, h.once,
      h.generation, h.registered, fun m' hm' => ?_, h.removed⟩
    exact h.spawned m' (mem_of_mem_eraseIdx hm')
  | act i o =>
    obtain ⟨op, next, hprog, ha⟩ := acted_of_act hstep
    obtain ⟨kind, -, hobeys⟩ := h.tracks.here i _ hprog
    exact ⟨h.tracks_act hstep ha, h.owned_act ha, h.once_act ha, h.generation_act ha hobeys.1, h.registered_act ha hobeys.1,
      h.spawned_act ha hobeys.1, h.removed_act ha⟩

theorem sound_step (h : Sound s) (hok : Careful s l) (hstep : step s l = some t) : Sound t := by
  have hrooted := rooted_step h.toRooted hstep
  cases l with
  | connect id internal =>
    cases hstep
    exact ⟨hrooted, h.gone, h.quiet, ⟨h.agrees.quiet, h.agrees.last⟩⟩
  | disconnect id =>
    cases hstep
    exact ⟨hrooted, h.gone, h.quiet, ⟨h.agrees.quiet, h.agrees.last⟩⟩
  | disconnectAll =>
    cases hstep
    exact ⟨hrooted, h.gone, h.quiet, ⟨h.agrees.quiet, h.agrees.last⟩⟩
  | monitor k rounds =>
    obtain ⟨m, -, rfl⟩ := map_eq_some_iff.1 hstep
    exact ⟨hrooted, h.gone, h.quiet, ⟨h.agrees.quiet, h.agrees.last⟩⟩
  | act i o =>
    obtain ⟨op, next, hprog, ha⟩ := acted_of_act hstep
    obtain ⟨kind, hkind, hobeys⟩ := h.tracks.here i _ hprog
    have hallowed : allowed kind (s.at i) op := hobeys.1
    have hok := hok op next hprog
    have hinsert : ∀ id internal, op = .insert id internal → ∀ j, (s.at j).removing ≠ some id := by
      rintro id internal rfl
      exact hok
    have hpublish : ∀ id state, op = .publish (.stateChanged id state) → state ≠ .connecting → MayPublish s i id state := by
      rintro id state rfl
      exact hok
    refine ⟨hrooted, h.gone_act ha hallowed hinsert, h.quiet_act ha hallowed, ?_, ?_⟩
    · rw [ha.log, since_concat]
      exact ⟨h.agrees.quiet, h.quiet_publish hpublish⟩
    · exact fun id k hlookup hsettled hflipped => h.last_act hkind ha hallowed hpublish hlookup hsettled hflipped

end

/-- **Published states agree with the calls and the registry** in every order of calls whose steps are careful. -/
theorem stateAgrees_of_careful {ls : List Step} {t : System} (hcareful : Along step Careful init ls)
    (hrun : run step init ls = some t) : StateAgrees t :=
  (run_invariant (fun _ _ _ h hok hstep => sound_step h hok hstep) sound_init hcareful hrun).agrees

/-! ## Attempts that overlap -/

def isPending (s : System) (h : Handle) : Bool :=
  (s.log.map (·.thread)).all fun j => (s.at j).attempt.map Prod.snd ≠ some h || !(s.at j).published

theorem pending_of_isPending {s : System} (htest : isPending s h = true) : Pending s h := by
  intro i id hattempt
  by_cases hthread : i ∈ s.log.map (·.thread)
  · have hi := all_eq_true.1 htest i hthread
    rw [hattempt] at hi
    simpa using hi
  · rw [show s.at i = {} from Threads.notes_of_not_mem hthread]

def isCareful (s : System) : Step → Bool
  | .act i _ =>
    match s.progs[i]? with
    | some (.call op _) =>
      match op with
      | .insert id _ => (s.log.map (·.thread)).all fun j => (s.at j).removing ≠ some id
      | .publish (.stateChanged id state) =>
        state = .connecting ||
          match s.shared.byId.lookup id with
          | none => state ≠ .connected
          | some h => if (s.at i).handle = some h then s.shared.stateOf h = some state else isPending s h
      | _ => true
    | _ => true
  | _ => true

theorem careful_of_isCareful (s : System) (l : Step) (h : isCareful s l = true) : Careful s l := by
  cases l with
  | act i o =>
    intro op next hprog
    unfold isCareful at h
    dsimp only at h
    rw [hprog] at h
    cases op with
    | insert id internal =>
      intro j
      by_cases hthread : j ∈ s.log.map (·.thread)
      · exact of_decide_eq_true (all_eq_true.1 h j hthread)
      · rw [show s.at j = {} from Threads.notes_of_not_mem hthread]
        nofun
    | publish e =>
      rcases e with ⟨id, state⟩ | _ | _ | _ | _
      · intro hstate
        dsimp only at h
        rw [decide_eq_false hstate, Bool.false_or] at h
        unfold MayPublish
        rcases hlookup : s.shared.byId.lookup id with _ | k
        · rw [hlookup] at h
          exact of_decide_eq_true h
        · rw [hlookup] at h
          dsimp only at h ⊢
          split_ifs at h ⊢ with hown
          · exact of_decide_eq_true h
          · exact pending_of_isPending h
      all_goals trivial
    | _ => trivial
  | _ => trivial

def connects : Outcome := { auth := .ok 0 }

/-- Two attempts: the second begins during the first, and fails after it has connected. -/
def secondFails : List Step :=
  [.connect "a" false, .connect "a" false] ++ List.replicate 5 (.act 0 connects) ++ List.replicate 5 (.act 1 {}) ++
    List.replicate 14 (.act 0 connects) ++ List.replicate 9 (.act 1 {})

/-- Both attempts have published, and the registered actor is that of the second. -/
theorem stateAgrees_of_careful_two :
    ∃ t, run step init secondFails = some t ∧ lastState "a" t.log = some .disconnected ∧ StateAgrees t := by
  have hlast : (run step init secondFails).map (fun t => lastState "a" t.log) = some (some .disconnected) := by
    decide +kernel
  obtain ⟨t, hrun, ht⟩ := map_eq_some_iff.1 hlast
  exact ⟨t, hrun, ht, stateAgrees_of_careful (along_of_checks careful_of_isCareful (by decide +kernel)) hrun⟩

/-- The id is disconnected during the handshake of its only attempt. -/
def disconnectedDuring : List Step :=
  [.connect "a" false] ++ List.replicate 5 (.act 0 connects) ++ [.disconnect "a"] ++ List.replicate 7 (.act 1 {}) ++
    List.replicate 11 (.act 0 connects)

/-- Two attempts: the second begins during the first and connects, and then the first fails. -/
def firstFails : List Step :=
  [.connect "a" false, .connect "a" false] ++ List.replicate 6 (.act 0 {}) ++ List.replicate 19 (.act 1 connects) ++
    List.replicate 8 (.act 0 {})

/-- What is looked at after `disconnectedDuring`. -/
def afterDisconnected (t : System) : Option Handle × Option ConnectionState × Bool × List (Option ConnectionState) :=
  (t.shared.byId.lookup "a", t.shared.stateOf 0, quietSince "a" (t.log.take 22),
    (t.log.drop 22).map fun e => stateBy "a" e.op)

/-- What is looked at after `firstFails`. -/
def afterFirstFails (t : System) : Option Handle × Option ConnectionState × Option ConnectionState × Bool :=
  (t.shared.byId.lookup "a", t.shared.stateOf 1, lastState "a" t.log,
    (t.log.map (·.thread)).all fun j => (t.at j).published && (t.at j).flipped.isNone)

/-- **An attempt outlives its connection**: after `disconnect` has returned, its driver publishes `Connected` for an id
without an actor; and the failure of a superseded attempt is the last state published for an id that is connected. -/
theorem connected_after_disconnect : (∃ t, run step init disconnectedDuring = some t ∧ t.shared.byId.lookup "a" = none ∧
      t.shared.stateOf 0 = some .connected ∧ ¬StateAgrees t) ∧
    ∃ t, run step init firstFails = some t ∧ (∃ h, t.shared.byId.lookup "a" = some h ∧ t.shared.stateOf h = some .connected) ∧
      lastState "a" t.log = some .disconnected ∧ ¬StateAgrees t := by
  constructor
  · have hafter : (run step init disconnectedDuring).map afterDisconnected =
        some (none, some .connected, true, [some .connected]) := by
      decide +kernel
    obtain ⟨t, hrun, ht⟩ := map_eq_some_iff.1 hafter
    simp only [afterDisconnected, Prod.mk.injEq] at ht
    obtain ⟨hlookup, hstate, hquiet, hlog⟩ := ht
    refine ⟨t, hrun, hlookup, hstate, fun h => ?_⟩
    obtain ⟨e, he, hpublished⟩ := map_eq_singleton_iff.1 hlog
    have hsplit : t.log = t.log.take 22 ++ e :: [] := by rw [← he, take_append_drop]
    have hfalse := h.quiet _ e [] hsplit "a" hpublished
    rw [hquiet] at hfalse
    cases hfalse
  · have hafter : (run step init firstFails).map afterFirstFails =
        some (some 1, some .connected, some .disconnected, true) := by
      decide +kernel
    obtain ⟨t, hrun, ht⟩ := map_eq_some_iff.1 hafter
    simp only [afterFirstFails, Prod.mk.injEq] at ht
    obtain ⟨hlookup, hstate, hlast, hall⟩ := ht
    refine ⟨t, hrun, ⟨1, hlookup, hstate⟩, hlast, fun h => ?_⟩
    have hsettled : ∀ i, (t.at i).attempt.isSome = true → (t.at i).published = true := by
      intro i hsome
      by_cases hthread : i ∈ t.log.map (·.thread)
      · exact (Bool.and_eq_true_iff.1 (all_eq_true.1 hall i hthread)).1
      · rw [show t.at i = {} from Threads.notes_of_not_mem hthread] at hsome
        cases hsome
    have hflipped : ∀ i, (t.at i).flipped = none := by
      intro i
      by_cases hthread : i ∈ t.log.map (·.thread)
      · exact isNone_iff_eq_none.1 (Bool.and_eq_true_iff.1 (all_eq_true.1 hall i hthread)).2
      · rw [show t.at i = {} from Threads.notes_of_not_mem hthread]
    have hfalse := h.last "a" 1 hlookup ?_ fun i => ?_
    · rw [hlast, hstate] at hfalse
      cases hfalse
    · rintro ⟨i, k, hattempt, hunpublished⟩
      have hpublished := hsettled i (by rw [hattempt]; rfl)
      rw [hunpublished] at hpublished
      cases hpublished
    · rw [hflipped i]
      nofun

end LetsFlutSsh.Connection.Actors
