import Mathlib.Algebra.Group.Nat.Defs
import Mathlib.Data.List.Nodup
import LetsFlutSsh.Lib.Run

/-!
# Security: locking by itself

`autolock.rs`: the machine behind a mutex, the operations on it and the ticker. A step is one critical section, one lock
action or one event of any of them, and any number of operations are under way at once.

* `step` : the steps; `Fires` : a `fire_lock` between the mutex and its event;
* `Due`, `FiresWhenDue` : what a run should do; `OnceEach` : each lock and its action;
* `Prompt` : the steps that a run may take for that;
* `Inv`, `step_inv` : what holds in every state of every run; `onceEach_of_run`;
* `Exact`, `step_exact` : the timeout is the configured one in every state of a prompt run;
* `firesWhenDue_of_prompt`, and `activity_between_check_and_lock` : a lock right after the user's touch.
-/

namespace LetsFlutSsh.Security.AutoLock
open Lib List

inductive LifecycleState where
  | foreground
  | background
  deriving DecidableEq

structure State where
  lastActivityMs : Int
  lockAfterMs : Int
  lifecycle : LifecycleState
  locked : Bool
  deriving DecidableEq

/-- Where the ticker is: between two wake-ups, past a check that said to lock (with what it saw and when), or in
`fire_lock` for a lock of its own. -/
inductive Ticker where
  | asleep
  | decided (nowMs : Int) (seen : State)
  | firing (lock : Nat)
  deriving DecidableEq

/-- A `fire_lock` under way: its lock, and whether the action has run. -/
structure Fires where
  lock : Nat
  ran : Bool
  deriving DecidableEq

/-- The locks are numbered as they happen. -/
structure World where
  state : State
  /-- The timeout as it was configured, which the machine keeps in milliseconds only. -/
  minutes : Int
  ticker : Ticker
  fires : List Fires
  locks : Nat
  unlocks : Nat
  /-- The locks whose action has run, in that order. -/
  actions : List Nat
  /-- How many `AutoLockLocked` events there were. -/
  lockedEvents : Nat

def World.new (nowMs : Nat) : World where
  state := ⟨nowMs, 0, .foreground, false⟩
  minutes := 0
  ticker := .asleep
  fires := []
  locks := 0
  unlocks := 0
  actions := []
  lockedEvents := 0

/-- Times are readings of the system clock, in milliseconds, and may go back. -/
inductive Step where
  | onPointerActivity (nowMs : Nat)
  | onLifecycleChange (lifecycle : LifecycleState) (nowMs : Nat)
  | setTimeoutMinutes (minutes : Int) (nowMs : Nat)
  | requestLock
  | unlock (nowMs : Nat)
  /-- The first of the ticker's two critical sections. -/
  | tickerCheck (nowMs : Nat)
  /-- The second one, which does not read the clock: the time is when it happens. -/
  | tickerLock (nowMs : Nat)
  | runAction (lock : Nat)
  | publishLocked (lock : Nat)

/-- The ticker's test. -/
def State.shouldLock (s : State) (nowMs : Int) : Bool :=
  !s.locked && s.lockAfterMs > 0 && nowMs - s.lastActivityMs ≥ s.lockAfterMs

/-- A timeout is configured, and has passed since the last activity. -/
def World.Due (w : World) (nowMs : Int) : Prop := 0 < w.minutes ∧ w.minutes * 60000 ≤ nowMs - w.state.lastActivityMs

/-- `locked = true`, and then `fire_lock`. -/
def World.lockNow (w : World) : World :=
  { w with
    state := { w.state with locked := true }
    fires := w.fires ++ [⟨w.locks, false⟩]
    locks := w.locks + 1 }

def World.onLifecycleChange (w : World) (lifecycle : LifecycleState) (nowMs : Nat) : World :=
  let was := w.state.lifecycle
  let w := { w with state := { w.state with lifecycle := lifecycle } }
  if lifecycle = .background ∧ w.state.lockAfterMs > 0 ∧ w.state.locked = false then w.lockNow
  else if lifecycle ≠ was then { w with state := { w.state with lastActivityMs := nowMs } }
  else w

/-- `minutes.max(0) * 60_000` on 64 bits. -/
def World.setTimeoutMinutes (w : World) (minutes : Int) (nowMs : Nat) : World :=
  { w with
    state := { w.state with lockAfterMs := (max minutes 0 * 60000).bmod (2 ^ 64), lastActivityMs := nowMs }
    minutes := max minutes 0 }

def World.unlock (w : World) (nowMs : Nat) : World :=
  if w.state.locked then
    { w with state := { w.state with locked := false, lastActivityMs := nowMs }, unlocks := w.unlocks + 1 }
  else w

def World.tickerLock (w : World) : World :=
  if w.state.locked then { w with ticker := .asleep } else { w.lockNow with ticker := .firing w.locks }

/-- The end of `fire_lock`; the ticker goes on. -/
def World.publishLocked (w : World) (lock : Nat) : World :=
  { w with
    fires := w.fires.filter fun f => f.lock ≠ lock
    lockedEvents := w.lockedEvents + 1
    ticker := if w.ticker = .firing lock then .asleep else w.ticker }

def step (w : World) : Step → Option World
  | .onPointerActivity nowMs => some { w with state := { w.state with lastActivityMs := nowMs } }
  | .onLifecycleChange lifecycle nowMs => some (w.onLifecycleChange lifecycle nowMs)
  | .setTimeoutMinutes minutes nowMs => some (w.setTimeoutMinutes minutes nowMs)
  | .requestLock => some (if w.state.locked then w else w.lockNow)
  | .unlock nowMs => some (w.unlock nowMs)
  | .tickerCheck nowMs =>
    if w.ticker = .asleep then
      some (if w.state.shouldLock nowMs then { w with ticker := .decided nowMs w.state } else w)
    else none
  | .tickerLock _ =>
    match w.ticker with
    | .decided _ _ => some w.tickerLock
    | _ => none
  | .runAction lock =>
    if ⟨lock, false⟩ ∈ w.fires then
      some { w with
        fires := w.fires.map fun f => if f.lock = lock then { f with ran := true } else f
        actions := w.actions ++ [lock] }
    else none
  | .publishLocked lock => if ⟨lock, true⟩ ∈ w.fires then some (w.publishLocked lock) else none

/-- A lock by the ticker is due when it happens, and an unlock finds no lock whose action is still to run. -/
def FiresWhenDue (w : World) : Step → Prop
  | .tickerLock nowMs => ∀ checkedMs seen, w.ticker = .decided checkedMs seen → w.state.locked = false → w.Due nowMs
  | .unlock _ => w.state.locked = true → ∀ f ∈ w.fires, f.ran = true
  | _ => True

/-- The action of each lock so far has run once, or its `fire_lock` is still to run it. -/
def OnceEach (w : World) : Prop :=
  ∀ lock, w.actions.count lock + w.fires.count ⟨lock, false⟩ = if lock < w.locks then 1 else 0

/-- In the run that the steps are, each lock is due, and its action runs once and before the unlock. -/
def Sound (w : World) (steps : List Step) : Prop :=
  Along step FiresWhenDue w steps ∧ ∀ pre, pre <+: steps → ∀ w', run step w pre = some w' → OnceEach w'

/-- A timeout has a number of milliseconds; the ticker's second section finds the times of its first, and a clock that
is not behind; an unlock answers an `AutoLockLocked` event, one unlock each. -/
def Prompt (w : World) : Step → Prop
  | .setTimeoutMinutes minutes _ => max minutes 0 * 60000 ≤ Int64.maxValue.toInt
  | .tickerLock nowMs => ∀ checkedMs seen, w.ticker = .decided checkedMs seen → w.state.locked = false →
      w.state.lastActivityMs = seen.lastActivityMs ∧ w.state.lockAfterMs = seen.lockAfterMs ∧ checkedMs ≤ nowMs
  | .unlock _ => w.state.locked = true → w.unlocks < w.lockedEvents
  | _ => True

/-- The `fire_lock`s under way, the locks and the events. -/
structure Inv (w : World) : Prop where
  decided : ∀ nowMs seen, w.ticker = .decided nowMs seen → seen.shouldLock nowMs = true
  unlocks : w.locks = w.unlocks + w.state.locked.toNat
  events : w.lockedEvents + w.fires.length = w.locks
  nodup : (w.fires.map Fires.lock).Nodup
  below : ∀ f ∈ w.fires, f.lock < w.locks
  once : OnceEach w

variable {w w' : World}

theorem Inv.new (nowMs : Nat) : Inv (.new nowMs) where
  decided := nofun
  unlocks := rfl
  events := rfl
  nodup := nodup_nil
  below := by simp [World.new]
  once := by simp [OnceEach, World.new]

/-- Only the times, the lifecycle and the ticker are others. -/
structure Alike (w w' : World) : Prop where
  locked : w'.state.locked = w.state.locked
  fires : w'.fires = w.fires
  locks : w'.locks = w.locks
  unlocks : w'.unlocks = w.unlocks
  actions : w'.actions = w.actions
  lockedEvents : w'.lockedEvents = w.lockedEvents

theorem Inv.alike (h : Inv w) (halike : Alike w w') (hdecided : ∀ nowMs seen, w'.ticker = .decided nowMs seen → seen.shouldLock nowMs = true) :
    Inv w' where
  decided := hdecided
  unlocks := by rw [halike.locks, halike.unlocks, halike.locked, h.unlocks]
  events := by rw [halike.lockedEvents, halike.fires, halike.locks, h.events]
  nodup := by
    rw [halike.fires]
    exact h.nodup
  below := by
    rw [halike.fires, halike.locks]
    exact h.below
  once := by
    unfold OnceEach
    rw [halike.fires, halike.locks, halike.actions]
    exact h.once

theorem Inv.lockNow (h : Inv w) (hlocked : w.state.locked = false) : Inv w.lockNow := by
  have hnew : ∀ f ∈ w.fires, f.lock ≠ w.locks := fun f hf => Nat.ne_of_lt (h.below f hf)
  refine ⟨h.decided, ?_, ?_, ?_, ?_, ?_⟩
  · have hunlocks := h.unlocks
    rw [hlocked] at hunlocks
    simpa [World.lockNow] using hunlocks
  · have hevents := h.events
    simp only [World.lockNow, length_append, length_singleton]
    omega
  · simp only [World.lockNow, map_append, map_cons, map_nil]
    rw [nodup_append]
    refine ⟨h.nodup, nodup_singleton _, ?_⟩
    intro a ha b hb hab
    obtain ⟨f, hf, rfl⟩ := mem_map.1 ha
    rw [mem_singleton.1 hb] at hab
    exact hnew f hf hab
  · intro f hf
    rcases mem_append.1 hf with hf | hf
    · exact Nat.lt_succ_of_lt (h.below f hf)
    · rw [mem_singleton.1 hf]
      exact Nat.lt_succ_self _
  · intro lock
    have honce := h.once lock
    have hcount : (w.fires ++ [(⟨w.locks, false⟩ : Fires)]).count ⟨lock, false⟩ =
        w.fires.count ⟨lock, false⟩ + if lock = w.locks then 1 else 0 := by
      rw [count_append, count_singleton]
      congr 1
      by_cases hlock : lock = w.locks
      · simp [hlock]
      · simp [hlock, Ne.symm hlock]
    show w.actions.count lock + _ = if lock < w.locks + 1 then 1 else 0
    rw [World.lockNow, hcount, ← Nat.add_assoc, honce]
    rcases Nat.lt_trichotomy lock w.locks with hlt | heq | hgt
    · rw [if_pos hlt, if_neg (Nat.ne_of_lt hlt), if_pos (Nat.lt_succ_of_lt hlt)]
    · rw [if_neg (by omega), if_pos heq, if_pos (by omega)]
    · rw [if_neg (by omega), if_neg (by omega), if_neg (by omega)]

theorem Inv.runAction {lock : Nat} (h : Inv w) (hmem : ⟨lock, false⟩ ∈ w.fires) : Inv { w with
      fires := w.fires.map fun f => if f.lock = lock then { f with ran := true } else f
      actions := w.actions ++ [lock] } := by
  have hlocks : (w.fires.map fun f => if f.lock = lock then { f with ran := true } else f).map Fires.lock =
      w.fires.map Fires.lock := by
    rw [map_map]
    apply map_congr_left
    intro f _
    dsimp only [Function.comp]
    split <;> rfl
  refine ⟨h.decided, h.unlocks, ?_, ?_, ?_, ?_⟩
  · simpa using h.events
  · rw [hlocks]
    exact h.nodup
  · intro f hf
    obtain ⟨g, hg, rfl⟩ := mem_map.1 hf
    have hlt := h.below g hg
    split <;> exact hlt
  · intro k
    have honce := h.once k
    rw [count_append, count_singleton]
    by_cases hk : k = lock
    · -- Its `fire_lock` was the only one, and has run the action now.
      have hone : w.fires.count ⟨k, false⟩ = 1 := by
        rw [hk]
        exact count_eq_one_of_mem (h.nodup.of_map _) hmem
      have hnone : (w.fires.map fun f => if f.lock = lock then { f with ran := true } else f).count ⟨k, false⟩ = 0 := by
        rw [count_eq_zero, hk]
        intro hf
        obtain ⟨g, -, hg⟩ := mem_map.1 hf
        split at hg
        · cases congrArg Fires.ran hg
        · next hne => exact hne (congrArg Fires.lock hg)
      rw [hnone, hk]
      rw [hone, hk] at honce
      simpa using honce
    · have hsame : (w.fires.map fun f => if f.lock = lock then { f with ran := true } else f).count ⟨k, false⟩ =
          w.fires.count ⟨k, false⟩ := by
        induction w.fires with
        | nil => rfl
        | cons f fires ih =>
          rw [map_cons, count_cons, count_cons, ih]
          congr 1
          by_cases hf : f.lock = lock
          · have hne : ∀ ran, (⟨f.lock, ran⟩ : Fires) ≠ ⟨k, false⟩ := fun ran heq => hk ((congrArg Fires.lock heq).symm.trans hf)
            simp [hf, hne, Ne.symm hk]
          · rw [if_neg hf]
      rw [hsame]
      simpa [Ne.symm hk] using honce

theorem Inv.publishLocked {lock : Nat} (h : Inv w) (hmem : ⟨lock, true⟩ ∈ w.fires) : Inv (w.publishLocked lock) := by
  have hlocked : lock ∈ w.fires.map Fires.lock := mem_map_of_mem hmem
  have hmap : (w.fires.filter fun f => f.lock ≠ lock).map Fires.lock = (w.fires.map Fires.lock).erase lock := by
    rw [h.nodup.erase_eq_filter, filter_map]
    congr 1
    apply filter_congr
    intro f _
    by_cases hf : f.lock = lock <;> simp [hf]
  refine ⟨?_, h.unlocks, ?_, ?_, ?_, ?_⟩
  · intro nowMs seen hticker
    unfold World.publishLocked at hticker
    split at hticker
    · cases hticker
    · exact h.decided nowMs seen hticker
  · have hlen := congrArg List.length hmap
    rw [length_map, length_erase_of_mem hlocked, length_map] at hlen
    have hpos := length_pos_of_mem hmem
    have hevents := h.events
    unfold World.publishLocked
    dsimp only
    omega
  · show ((w.fires.filter fun f => f.lock ≠ lock).map Fires.lock).Nodup
    rw [hmap]
    exact h.nodup.erase lock
  · intro f hf
    exact h.below f (mem_filter.1 hf).1
  · intro k
    have honce := h.once k
    show w.actions.count k + (w.fires.filter fun f => f.lock ≠ lock).count ⟨k, false⟩ = _
    by_cases hk : k = lock
    · -- The only one has run its action.
      have hnone : (⟨k, false⟩ : Fires) ∉ w.fires := by
        intro hf
        rw [hk] at hf
        have heq := inj_on_of_nodup_map h.nodup hmem hf rfl
        cases congrArg Fires.ran heq
      rw [count_eq_zero.2 hnone] at honce
      rw [count_eq_zero.2 fun hf => hnone (mem_filter.1 hf).1]
      exact honce
    · rw [count_filter (by simpa using hk)]
      exact honce

theorem step_inv (h : Inv w) {l : Step} (hstep : step w l = some w') : Inv w' := by
  cases l with
  | onPointerActivity nowMs =>
    cases hstep
    exact h.alike ⟨rfl, rfl, rfl, rfl, rfl, rfl⟩ h.decided
  | onLifecycleChange lifecycle nowMs =>
    cases hstep
    have hset : Inv { w with state := { w.state with lifecycle := lifecycle } } :=
      h.alike ⟨rfl, rfl, rfl, rfl, rfl, rfl⟩ h.decided
    unfold World.onLifecycleChange
    dsimp only
    split
    · next hlock => exact hset.lockNow hlock.2.2
    · split
      · exact hset.alike ⟨rfl, rfl, rfl, rfl, rfl, rfl⟩ h.decided
      · exact hset
  | setTimeoutMinutes minutes nowMs =>
    cases hstep
    exact h.alike ⟨rfl, rfl, rfl, rfl, rfl, rfl⟩ h.decided
  | requestLock =>
    cases hstep
    split
    · exact h
    · next hlocked => exact h.lockNow (by simpa using hlocked)
  | unlock nowMs =>
    cases hstep
    unfold World.unlock
    split
    · next hlocked =>
      have hunlocks := h.unlocks
      rw [hlocked] at hunlocks
      exact ⟨h.decided, hunlocks, h.events, h.nodup, h.below, h.once⟩
    · exact h
  | tickerCheck nowMs =>
    simp only [step] at hstep
    split at hstep
    · cases hstep
      split
      · next hdue =>
        refine h.alike ⟨rfl, rfl, rfl, rfl, rfl, rfl⟩ ?_
        intro checkedMs seen hticker
        cases hticker
        exact hdue
      · exact h
    · cases hstep
  | tickerLock nowMs =>
    simp only [step] at hstep
    split at hstep
    · cases hstep
      unfold World.tickerLock
      split
      · exact h.alike ⟨rfl, rfl, rfl, rfl, rfl, rfl⟩ nofun
      · next hlocked => exact (h.lockNow (by simpa using hlocked)).alike ⟨rfl, rfl, rfl, rfl, rfl, rfl⟩ nofun
    · cases hstep
  | runAction lock =>
    simp only [step] at hstep
    split at hstep
    · next hmem =>
      cases hstep
      exact h.runAction hmem
    · cases hstep
  | publishLocked lock =>
    simp only [step] at hstep
    split at hstep
    · next hmem =>
      cases hstep
      exact h.publishLocked hmem
    · cases hstep

theorem onceEach_of_run {nowMs : Nat} {steps : List Step} (hrun : run step (.new nowMs) steps = some w) : OnceEach w :=
  (run_keeps (fun _ _ _ h hstep => step_inv h hstep) (Inv.new nowMs) hrun).once

/-- The machine waits as long as it was told to. -/
def Exact (w : World) : Prop := w.state.lockAfterMs = w.minutes * 60000

theorem step_exact (h : Exact w) {l : Step} (hprompt : Prompt w l) (hstep : step w l = some w') : Exact w' := by
  cases l with
  | onPointerActivity nowMs =>
    cases hstep
    exact h
  | onLifecycleChange lifecycle nowMs =>
    cases hstep
    unfold World.onLifecycleChange
    dsimp only
    split
    · exact h
    · split <;> exact h
  | setTimeoutMinutes minutes nowMs =>
    cases hstep
    have hfits : max minutes 0 * 60000 ≤ Int64.maxValue.toInt := hprompt
    have hmax : Int64.maxValue.toInt = 9223372036854775807 := rfl
    show (max minutes 0 * 60000).bmod (2 ^ 64) = max minutes 0 * 60000
    exact Int.bmod_eq_of_le (by omega) (by omega)
  | requestLock =>
    cases hstep
    split <;> exact h
  | unlock nowMs =>
    cases hstep
    unfold World.unlock
    split <;> exact h
  | tickerCheck nowMs =>
    simp only [step] at hstep
    split at hstep
    · cases hstep
      split <;> exact h
    · cases hstep
  | tickerLock nowMs =>
    simp only [step] at hstep
    split at hstep
    · cases hstep
      unfold World.tickerLock
      split <;> exact h
    · cases hstep
  | runAction lock =>
    simp only [step] at hstep
    split at hstep
    · cases hstep
      exact h
    · cases hstep
  | publishLocked lock =>
    simp only [step] at hstep
    split at hstep
    · cases hstep
      exact h
    · cases hstep

theorem firesWhenDue_of_prompt (h : Inv w) (hexact : Exact w) {l : Step} (hprompt : Prompt w l) : FiresWhenDue w l := by
  cases l with
  | tickerLock nowMs =>
    intro checkedMs seen hticker hlocked
    have hshould := h.decided checkedMs seen hticker
    simp only [State.shouldLock, Bool.and_eq_true, decide_eq_true_eq] at hshould
    obtain ⟨⟨-, hpos⟩, hpassed⟩ := hshould
    obtain ⟨hlast, hafter, hclock⟩ := hprompt checkedMs seen hticker hlocked
    -- What the check saw is what the machine waits for, and that is what was configured.
    have hminutes : seen.lockAfterMs = w.minutes * 60000 := hafter.symm.trans hexact
    unfold World.Due
    rw [hlast]
    omega
  | unlock nowMs =>
    -- Every lock has had its event, so no `fire_lock` is under way.
    intro hlocked
    have hlt := hprompt hlocked
    have hunlocks := h.unlocks
    have hevents := h.events
    rw [hlocked, Bool.toNat_true] at hunlocks
    have hnone : w.fires = [] := eq_nil_of_length_eq_zero (by omega)
    simp [hnone]
  | _ => trivial

/-- **Prompt runs** are sound: the ticker locks when it is due, and each action runs once and before its unlock. -/
theorem sound_of_prompt (nowMs : Nat) (steps : List Step) (h : Along step Prompt (.new nowMs) steps) :
    Sound (.new nowMs) steps :=
  ⟨along_of_invariant (I := fun w => Inv w ∧ Exact w)
      (fun _ _ _ hinv hprompt hstep => ⟨step_inv hinv.1 hstep, step_exact hinv.2 hprompt hstep⟩)
      (fun _ _ hinv hprompt => firesWhenDue_of_prompt hinv.1 hinv.2 hprompt) ⟨Inv.new nowMs, rfl⟩ h,
    fun _ _ _ hrun => onceEach_of_run hrun⟩

/-- A minute without the user, a lock, and an unlock after its event. -/
def minuteAlone : List Step :=
  [.setTimeoutMinutes 1 0, .tickerCheck 60000, .tickerLock 60000, .runAction 0, .publishLocked 0, .unlock 70000]

def isPrompt (w : World) : Step → Bool
  | .setTimeoutMinutes minutes _ => decide (max minutes 0 * 60000 ≤ Int64.maxValue.toInt)
  | .tickerLock nowMs =>
    match w.ticker with
    | .decided checkedMs seen =>
      w.state.lastActivityMs = seen.lastActivityMs && w.state.lockAfterMs = seen.lockAfterMs && decide (checkedMs ≤ nowMs)
    | _ => true
  | .unlock _ => decide (w.unlocks < w.lockedEvents)
  | _ => true

theorem prompt_of_isPrompt (w : World) (l : Step) (h : isPrompt w l = true) : Prompt w l := by
  cases l with
  | setTimeoutMinutes minutes nowMs =>
    exact of_decide_eq_true (p := max minutes 0 * 60000 ≤ Int64.maxValue.toInt) h
  | tickerLock nowMs =>
    intro checkedMs seen hticker _
    simpa [isPrompt, hticker, and_assoc] using h
  | unlock nowMs => exact fun _ => of_decide_eq_true h
  | _ => trivial

theorem sound_of_prompt_minuteAlone : (run step (.new 0) minuteAlone).isSome = true ∧ Sound (.new 0) minuteAlone :=
  ⟨by decide +kernel, sound_of_prompt 0 minuteAlone (along_of_checks prompt_of_isPrompt (by decide +kernel))⟩

/-- The user comes back between the ticker's check and its lock. -/
theorem activity_between_check_and_lock : ¬ ∀ (nowMs : Nat) (steps : List Step) (w : World),
    run step (.new nowMs) steps = some w → Sound (.new nowMs) steps := by
  intro h
  have hsound := (h 0 [.setTimeoutMinutes 1 0, .tickerCheck 60000, .onPointerActivity 60001, .tickerLock 60002] _ rfl).1
  have hdue := (((hsound.2 _ rfl).2 _ rfl).2 _ rfl).1 60000 ⟨0, 60000, .foreground, false⟩ (by decide +kernel) (by decide +kernel)
  exact absurd hdue.2 (by decide +kernel)

-- A timeout of 584 million years locks after 8.4 seconds.
example : ¬ Along step FiresWhenDue (.new 0) [.setTimeoutMinutes 307445734561826 0, .tickerCheck 8384, .tickerLock 8384] := by
  intro h
  have hdue := ((h.2 _ rfl).2 _ rfl).1 8384 ⟨0, 8384, .foreground, false⟩ (by decide +kernel) (by decide +kernel)
  exact absurd hdue.2 (by decide +kernel)

-- The user unlocks before the lock has closed the database.
example : ¬ Along step FiresWhenDue (.new 0) [.requestLock, .unlock 1, .runAction 0] := by
  intro h
  have hran := (h.2 _ rfl).1 rfl ⟨0, false⟩ (by decide)
  cases hran

end LetsFlutSsh.Security.AutoLock
