import LetsFlutSsh.Config.Store
import LetsFlutSsh.Lib.Run

/-!
# When the configuration reaches the disk

The debounced writes of `config_store.rs`. A setter replaces the configuration in memory and arms a timer;
a tick after the timer, or a flush, writes `config.json`.

* `Persisted` : the store with its timer, the file, and the outcomes of the writes so far;
* `flush`, `tickIfDue`, `Persisted.step` : one call, with the clock and the outcome of the write as inputs;
* `Durable` : what should hold of a store at rest; `Armed` : what every state keeps (`armed_step`);
* `durable_iff` : it holds throughout a run exactly when no write of the run fails.
-/

namespace LetsFlutSsh.Config
open Lib

/-- `DEBOUNCE`, in milliseconds. -/
def debounce : Nat := 300

/-- The store, when the queued write is due, the value in `config.json`, and the outcome of every write
attempted so far, newest first. -/
structure Persisted where
  store : Store
  pendingAt : Option Nat
  disk : Option Json
  writes : List (Except String Unit)

namespace Persisted

/-! ## Setters -/

def put (c : AppConfig) (now : Nat) (p : Persisted) : Persisted :=
  { p with store := p.store.put c, pendingAt := some (now + debounce) }

/-- `Store::set_json`, from the parse of its text on. -/
def setJson (parsed : Except String Json) (now : Nat) (p : Persisted) : Except String Persisted :=
  match parsed with
  | .error e => .error ("config_store: parse: " ++ e)
  | .ok value =>
    if p.store.filePath.isNone then .error "config_store: not initialised"
    else .ok (p.put (AppConfig.fromJsonValue value) now)

def update (f : AppConfig → Option AppConfig) (now : Nat) (p : Persisted) : Except String Persisted :=
  if p.store.filePath.isNone then .error "config_store: not initialised"
  else
    match p.store.current with
    | none => .error "config_store: no current state"
    | some current => .ok ((f current).elim p fun c => p.put c now)

def updateSync (sync : SyncConfig) : Nat → Persisted → Except String Persisted :=
  update fun current => some { current with sync := sync.sanitized }

def updateSecurityProbeCache (caps : Option SecurityCapabilities) : Nat → Persisted → Except String Persisted :=
  update fun current => some { current with securityProbeCache := caps }

def updateSecurityTier (tier : SecurityTier) : Nat → Persisted → Except String Persisted :=
  update fun current =>
    let modifiers := (current.security.map SecurityConfig.modifiers).getD SecurityTierModifiers.default
    let resolved : SecurityConfig := ⟨tier, modifiers⟩
    if current.security = some resolved then none else some { current with security := some resolved }

/-! ## Writing -/

/-- What the operating system answers when the directory is made and when the file is replaced. -/
structure WriteIo where
  createDir : Option String
  write : Option String

/-- `write_to_disk`. The file is replaced by a rename, or not at all. -/
def writeToDisk (io : WriteIo) : Except String Unit :=
  match io.createDir with
  | some e => .error ("config_store: create dir: " ++ e)
  | none =>
    match io.write with
    | some e => .error ("config_store: write: " ++ e)
    | none => .ok ()

/-- `Store::flush`. What was queued is taken off the queue before it is written. -/
def flush (io : WriteIo) (p : Persisted) : Persisted × Except String (Option Json) :=
  if p.store.filePath.isNone then (p, .ok none)
  else
    let cfg := p.store.pending.or p.store.current
    let p := { p with store := { p.store with pending := none }, pendingAt := none }
    match cfg with
    | none => (p, .ok none)
    | some cfg =>
      match writeToDisk io with
      | .error e => ({ p with writes := .error e :: p.writes }, .error e)
      | .ok () =>
        ({ p with disk := some cfg.toJsonValue, writes := .ok () :: p.writes }, .ok (some cfg.toJsonValue))

def due (now : Nat) (p : Persisted) : Bool :=
  match p.pendingAt, p.store.pending with
  | some due, some _ => decide (due ≤ now)
  | _, _ => false

def tickIfDue (now : Nat) (io : WriteIo) (p : Persisted) : Persisted × Except String Bool :=
  if p.due now then
    let r := p.flush io
    (r.1, r.2.map fun _ => true)
  else (p, .ok false)

/-! ## Runs -/

/-- One call. The clock, and what the system answers to a write, come with it. -/
inductive Call where
  | setJson (parsed : Except String Json) (now : Nat)
  | updateSync (sync : SyncConfig) (now : Nat)
  | updateSecurityProbeCache (caps : Option SecurityCapabilities) (now : Nat)
  | updateSecurityTier (tier : SecurityTier) (now : Nat)
  | tickIfDue (now : Nat) (io : WriteIo)
  | flush (io : WriteIo)

def after (p : Persisted) : Call → Persisted
  | .setJson parsed now => (p.setJson parsed now).toOption.getD p
  | .updateSync sync now => (updateSync sync now p).toOption.getD p
  | .updateSecurityProbeCache caps now => (updateSecurityProbeCache caps now p).toOption.getD p
  | .updateSecurityTier tier now => (updateSecurityTier tier now p).toOption.getD p
  | .tickIfDue now io => (p.tickIfDue now io).1
  | .flush io => (p.flush io).1

def step (p : Persisted) (c : Call) : Option Persisted := some (p.after c)

/-- **A store at rest is on disk.** Once a write was attempted, a store with nothing queued has its
configuration on disk, and one whose last write failed is queued for the next tick. -/
structure Durable (p : Persisted) : Prop where
  settled : p.writes ≠ [] → p.store.pending = none → p.disk = p.store.getJson
  retried : ∀ e, p.writes.head? = some (.error e) → p.store.pending.isSome ∧ p.pendingAt.isSome

/-- What every state keeps: an initialised store, whose queue holds the configuration in memory. -/
structure Armed (p : Persisted) : Prop where
  path : p.store.filePath.isNone = false
  current : ∃ c, p.store.current = some c
  queued : ∀ c, p.store.pending = some c → p.store.current = some c ∧ p.pendingAt.isSome

def WriteLands (p : Persisted) : Call → Prop
  | .tickIfDue now io => p.due now = true → (writeToDisk io).toBool = true
  | .flush io => (writeToDisk io).toBool = true
  | _ => True

variable {p : Persisted}

/-! ## One step -/

theorem Armed.put (h : p.Armed) (c : AppConfig) (now : Nat) : (p.put c now).Armed where
  path := h.path
  current := ⟨c, rfl⟩
  queued _ hc := ⟨hc, rfl⟩

/-- What a setter leaves: the same state, or a queued configuration. -/
def Sets (p p' : Persisted) : Prop := p' = p ∨ ∃ c now, p' = p.put c now

theorem sets_setJson (parsed : Except String Json) (now : Nat) : p.Sets ((p.setJson parsed now).toOption.getD p) := by
  unfold setJson
  rcases parsed with e | value
  · exact .inl rfl
  · split_ifs
    · exact .inl rfl
    · exact .inr ⟨_, now, rfl⟩

theorem sets_update (f : AppConfig → Option AppConfig) (now : Nat) : p.Sets ((p.update f now).toOption.getD p) := by
  unfold update
  split_ifs
  · exact .inl rfl
  rcases p.store.current with _ | current
  · exact .inl rfl
  · rcases hf : f current with _ | c
    · simp only [hf]
      exact .inl rfl
    · simp only [hf]
      exact .inr ⟨c, now, rfl⟩

theorem Armed.flush (h : p.Armed) (io : WriteIo) :
    (p.flush io).1.store = { p.store with pending := none } ∧ (p.flush io).1.pendingAt = none ∧
      ((writeToDisk io).toBool = true ∧ (p.flush io).1.disk = p.store.getJson ∧ (p.flush io).1.writes = .ok () :: p.writes ∨
        (writeToDisk io).toBool = false ∧ (p.flush io).1.disk = p.disk ∧
          ∃ e, (p.flush io).1.writes = .error e :: p.writes) := by
  obtain ⟨c, hc⟩ := h.current
  have hcfg : p.store.pending.or p.store.current = some c := by
    rcases hpending : p.store.pending with _ | c'
    · exact hc
    · have hsame := (h.queued c' hpending).1
      rw [hc] at hsame
      exact hsame.symm
  have hjson : p.store.getJson = some c.toJsonValue := by
    rw [Store.getJson, hc]
    rfl
  unfold Persisted.flush
  rw [h.path, hcfg, hjson]
  rcases hw : writeToDisk io with e | ⟨⟩
  · exact ⟨rfl, rfl, .inr ⟨rfl, rfl, e, rfl⟩⟩
  · exact ⟨rfl, rfl, .inl ⟨rfl, rfl, rfl⟩⟩

theorem durable_put (p : Persisted) (c : AppConfig) (now : Nat) : (p.put c now).Durable where
  settled _ hnone := by cases hnone
  retried _ _ := ⟨rfl, rfl⟩

theorem Armed.durable_flush (h : p.Armed) (io : WriteIo) :
    (p.flush io).1.Armed ∧ ((p.flush io).1.Durable ↔ (writeToDisk io).toBool = true) := by
  obtain ⟨hstore, htimer, hwrite⟩ := h.flush io
  have harmed : (p.flush io).1.Armed := by
    refine ⟨?_, ?_, ?_⟩
    · rw [hstore]
      exact h.path
    · rw [hstore]
      exact h.current
    · intro c hc
      rw [hstore] at hc
      cases hc
  refine ⟨harmed, ?_⟩
  rcases hwrite with ⟨hok, hdisk, hwrites⟩ | ⟨hok, -, e, hwrites⟩
  · refine iff_of_true ⟨fun _ _ => ?_, fun e he => ?_⟩ hok
    · rw [hdisk, hstore]
      rfl
    · rw [hwrites] at he
      cases he
  · rw [hok]
    refine iff_of_false (fun hdurable => ?_) Bool.false_ne_true
    have hqueued := (hdurable.retried e (by rw [hwrites]; rfl)).1
    rw [hstore] at hqueued
    cases hqueued

theorem armed_step (h : p.Armed) (c : Call) : (p.after c).Armed ∧ (p.Durable → ((p.after c).Durable ↔ p.WriteLands c)) := by
  have hset : ∀ {p'}, p.Sets p' → p'.Armed ∧ (p.Durable → (p'.Durable ↔ True)) := by
    rintro p' (rfl | ⟨c, now, rfl⟩)
    · exact ⟨h, fun hdurable => iff_of_true hdurable trivial⟩
    · exact ⟨h.put c now, fun _ => iff_of_true (durable_put p c now) trivial⟩
  cases c with
  | setJson parsed now => exact hset (sets_setJson parsed now)
  | updateSync sync now => exact hset (sets_update _ now)
  | updateSecurityProbeCache caps now => exact hset (sets_update _ now)
  | updateSecurityTier tier now => exact hset (sets_update _ now)
  | flush io => exact ⟨(h.durable_flush io).1, fun _ => (h.durable_flush io).2⟩
  | tickIfDue now io =>
    show (p.tickIfDue now io).1.Armed ∧
      (p.Durable → ((p.tickIfDue now io).1.Durable ↔ (p.due now = true → (writeToDisk io).toBool = true)))
    unfold Persisted.tickIfDue
    by_cases hdue : p.due now = true
    · rw [if_pos hdue]
      obtain ⟨harmed, hiff⟩ := h.durable_flush io
      exact ⟨harmed, fun _ => hiff.trans ⟨fun hok _ => hok, fun hok => hok hdue⟩⟩
    · rw [if_neg hdue]
      exact ⟨h, fun hdurable => iff_of_true hdurable fun hdue' => absurd hdue' hdue⟩

/-! ## Runs -/

def opened (s : Store) (disk : Option Json) : Persisted where
  store := s
  pendingAt := none
  disk := disk
  writes := []

theorem armed_opened {path : String} {file : Option (Except String Json)} {s : Store} (h : Store.init path file = .ok s)
    (disk : Option Json) : (opened s disk).Armed ∧ (opened s disk).Durable := by
  obtain ⟨c, hready⟩ := Store.ready_init h
  have hpending : s.pending = none := by
    rcases file with _ | (e | v)
    · cases h
      rfl
    · cases h
    · cases h
      rfl
  refine ⟨⟨hready.path, ⟨c, hready.current⟩, fun c' hc => ?_⟩, fun hne => absurd rfl hne, fun e he => ?_⟩
  · rw [show (opened s disk).store.pending = none from hpending] at hc
    cases hc
  · cases he

theorem exists_run (p : Persisted) (calls : List Call) : ∃ t, run step p calls = some t := by
  induction calls generalizing p with
  | nil => exact ⟨p, rfl⟩
  | cons c calls ih => exact ih (p.after c)

/-- **Configuration persistence.** In a run of setters, ticks and flushes on an initialised store, every state
has its configuration on disk or queued for the next tick exactly when no write of the run fails. -/
theorem durable_iff (path : String) (file : Option (Except String Json)) (s : Store) (h : Store.init path file = .ok s)
    (disk : Option Json) (calls : List Call) :
    (∀ pre, pre <+: calls → ∀ u, run step (opened s disk) pre = some u → u.Durable) ↔
      Along step WriteLands (opened s disk) calls := by
  obtain ⟨harmed, hdurable⟩ := armed_opened h disk
  obtain ⟨t, hrun⟩ := exists_run (opened s disk) calls
  refine run_invariant_iff (J := Armed) (fun p c p' hp hstep => ?_) (fun p c p' hp hI hstep => ?_) harmed hdurable hrun
  · cases hstep
    exact (armed_step hp c).1
  · cases hstep
    exact (armed_step hp c).2 hI

/-- Writes that succeed, and a tick that finds nothing due. -/
theorem durable_iff_sample : Store.init "config.json" none = .ok ⟨some "config.json", some AppConfig.default, none⟩ ∧
      ∀ pre, pre <+: [Call.updateSecurityTier .paranoid 0, .tickIfDue 100 ⟨none, none⟩, .flush ⟨none, none⟩] →
        ∀ u, run step (opened ⟨some "config.json", some AppConfig.default, none⟩ none) pre = some u → u.Durable :=
  ⟨rfl, (durable_iff "config.json" none _ rfl none _).mpr ⟨trivial, fun _ hs => by
      cases hs
      refine ⟨fun _ => rfl, fun _ hs => ?_⟩
      cases hs
      exact ⟨rfl, fun _ _ => trivial⟩⟩⟩

/-! ## What a failed write leaves -/

theorem tick_of_disarmed (h : p.pendingAt = none) (now : Nat) (io : WriteIo) : p.tickIfDue now io = (p, .ok false) := by
  have hdue : ¬ p.due now = true := by
    unfold due
    rw [h]
    exact Bool.false_ne_true
  unfold tickIfDue
  rw [if_neg hdue]

/-- The tier is changed and its write fails once: the store is at rest, the file does not exist, and no later
tick writes it. -/
theorem failed_write_is_forgotten : ∃ u, run step (opened ⟨some "config.json", some AppConfig.default, none⟩ none)
        [.updateSecurityTier .paranoid 0, .tickIfDue 300 ⟨none, some "No space left on device (os error 28)"⟩] = some u ∧
      u.writes ≠ [] ∧ u.store.pending = none ∧ u.disk = none ∧ u.store.getJson.isSome ∧ ¬ u.Durable ∧
      ∀ now io, u.tickIfDue now io = (u, .ok false) := by
  refine ⟨_, rfl, List.cons_ne_nil _ _, rfl, rfl, rfl, fun hdurable => ?_, fun now io => tick_of_disarmed rfl now io⟩
  exact Bool.false_ne_true (hdurable.retried _ rfl).1

end Persisted
end LetsFlutSsh.Config
