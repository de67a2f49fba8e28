import LetsFlutSsh.Lib.Bytes
import LetsFlutSsh.Lib.Run
import LetsFlutSsh.Lib.Threads
import LetsFlutSsh.Security.PromptRegistry

/-!
# The connect timeout

The timeout of a connect attempt stands still while a prompt is open.

* `PauseTimer.tick` : one round of the loop around an attempt (`tick_unpaused`);
* `System`, `step` : attempts with their prompts, the registry they share, and the user;
* `PromptsCounted` : the registry counts the calls that wait, and only they stop a timer;
* `parked_step`, `promptsCounted_step_iff` : what a step leaves;
* `promptsCounted_iff` : the runs in which prompts are counted throughout.
-/

namespace LetsFlutSsh.Connection
open Lib Security List

/-! ## The timer -/

/-- The loop of `run_with_pause_aware_timeout`, in milliseconds. -/
structure PauseTimer where
  cap : Nat
  started : Nat
  lastTick : Nat
  paused : Nat
  deriving DecidableEq

namespace PauseTimer

def start (cap now : Nat) : PauseTimer := { cap, started := now, lastTick := now, paused := 0 }

def tick (timer : PauseTimer) (pausedNow : Bool) (now : Nat) : Option PauseTimer :=
  let paused := if pausedNow then timer.paused + (now - timer.lastTick) else timer.paused
  if timer.cap ≤ now - timer.started - paused ∧ pausedNow = false then none
  else some { timer with lastTick := now, paused }

theorem tick_unpaused {timer after : PauseTimer} {now : Nat} (h : timer.tick false now = some after) :
    after.paused = timer.paused ∧ now - timer.started - timer.paused < timer.cap := by
  unfold tick at h
  simp only [Bool.false_eq_true, if_false, and_true] at h
  split_ifs at h with hup
  cases h
  exact ⟨rfl, Nat.lt_of_not_le hup⟩

theorem unpaused_of_tick {timer : PauseTimer} {pausedNow : Bool} {now : Nat} (h : timer.tick pausedNow now = none) :
    pausedNow = false := by
  rcases hpaused : pausedNow
  · rfl
  · unfold tick at h
    simp [hpaused] at h

end PauseTimer

/-! ## Attempts and prompts -/

inductive CredentialResponse where
  | submit (secret : Bytes) (rememberForSession : Bool)
  | cancel

def credentialPromptTimeout : Nat := 300000

structure CredentialCall where
  attempt : Nat
  since : Nat

/-- A connect attempt, as long as it is live. -/
structure Attempt where
  timer : PauseTimer
  live : Bool
  deriving DecidableEq

/-- A round of an attempt's loop, and the prompts that were open then. -/
structure Tick where
  attempt : Nat
  now : Nat
  openPrompts : Nat
  before : PauseTimer
  after : Option PauseTimer

/-- The calls stand at the places of their receivers. -/
structure System where
  clock : Nat := 0
  prompts : Prompts CredentialResponse := {}
  calls : List CredentialCall := []
  /-- The pending host key prompts. -/
  knownHosts : Nat := 0
  attempts : List Attempt := []
  ticks : List Tick := []

inductive Step where
  | elapse (ms : Nat)
  | hostKeyPrompts (n : Nat)
  | connect (cap : Nat)
  /-- An attempt calls `prompt_credential`. -/
  | prompt (attempt : Nat) (promptId : String)
  | answer (promptId : String) (response : CredentialResponse)
  | cancel (promptId : String)
  /-- A call of `prompt_credential` times out. -/
  | expire (call : Nat)
  | tick (attempt : Nat)
  /-- An attempt comes to its end. -/
  | finish (attempt : Nat)

namespace System

def owned (s : System) (attempt call : Nat) : Bool := (s.calls[call]?).any fun c => c.attempt = attempt

def isWorking (s : System) (attempt : Nat) : Bool := s.prompts.waitingPrompts.all fun c => !s.owned attempt c

/-- The pause condition of `run_connect_driver`. -/
def isPaused (s : System) : Bool := 0 < s.knownHosts || 0 < s.prompts.pendingCount

def openPrompts (s : System) : Nat := s.knownHosts + s.prompts.waitingCount

end System

/-- A round of an attempt's loop; an attempt whose time is up is dropped, with the call it waits in. -/
def tickAttempt (s : System) (attempt : Nat) (a : Attempt) : System :=
  let after := a.timer.tick s.isPaused s.clock
  { s with
    attempts := s.attempts.set attempt ⟨after.getD a.timer, after.isSome⟩
    prompts := if after.isSome then s.prompts else s.prompts.dropReceivers (s.owned attempt)
    ticks := s.ticks ++ [⟨attempt, s.clock, s.openPrompts, a.timer, after⟩] }

def step (s : System) : Step → Option System
  | .elapse ms => some { s with clock := s.clock + ms }
  | .hostKeyPrompts n => some { s with knownHosts := n }
  | .connect cap => some { s with attempts := s.attempts ++ [⟨.start cap s.clock, true⟩] }
  | .prompt attempt promptId =>
    if (s.attempts[attempt]?).any Attempt.live && s.isWorking attempt then
      some { s with prompts := s.prompts.register promptId, calls := s.calls ++ [⟨attempt, s.clock⟩] }
    else none
  | .answer promptId response => some { s with prompts := (s.prompts.resolve promptId response).2 }
  | .cancel promptId => some { s with prompts := s.prompts.cancel promptId }
  | .expire call =>
    if call ∈ s.prompts.waitingPrompts ∧ (s.calls[call]?).any fun c => c.since + credentialPromptTimeout ≤ s.clock then
      some { s with prompts := s.prompts.dropReceivers (· = call) }
    else none
  | .tick attempt =>
    match s.attempts[attempt]? with
    | some a => if a.live then some (tickAttempt s attempt a) else none
    | none => none
  | .finish attempt =>
    match s.attempts[attempt]? with
    | some a => if a.live && s.isWorking attempt then some { s with attempts := s.attempts.set attempt { a with live := false } } else none
    | none => none

/-! ## What the registry counts -/

/-- The registry counts the calls that wait; a round while no prompt is open counts all the time that passed. -/
structure PromptsCounted (s : System) : Prop where
  counted : s.prompts.pendingCount = s.prompts.waitingCount
  unsuspended : ∀ t ∈ s.ticks, t.openPrompts = 0 → t.after = t.before.tick false t.now
  elapsed : ∀ i a, s.attempts[i]? = some a → (∀ t ∈ s.ticks, t.attempt = i → t.openPrompts = 0) → a.timer.paused = 0

theorem promptsCounted_init : PromptsCounted {} :=
  ⟨rfl, fun _ h => absurd h not_mem_nil, fun _ _ h => nomatch h⟩

section
variable {s t : System} {l : Step}

theorem attempt_of_tick {attempt : Nat} (hstep : step s (.tick attempt) = some t) :
    ∃ a, s.attempts[attempt]? = some a ∧ t = tickAttempt s attempt a := by
  unfold step at hstep
  dsimp only at hstep
  rcases ha : s.attempts[attempt]? with _ | a
  · rw [ha] at hstep
    cases hstep
  · rw [ha] at hstep
    dsimp only at hstep
    split_ifs at hstep
    cases hstep
    exact ⟨a, rfl, rfl⟩

theorem attempt_of_finish {attempt : Nat} (hstep : step s (.finish attempt) = some t) :
    ∃ a, s.attempts[attempt]? = some a ∧ t = { s with attempts := s.attempts.set attempt { a with live := false } } := by
  unfold step at hstep
  dsimp only at hstep
  rcases ha : s.attempts[attempt]? with _ | a
  · rw [ha] at hstep
    cases hstep
  · rw [ha] at hstep
    dsimp only at hstep
    split_ifs at hstep
    cases hstep
    exact ⟨a, rfl, rfl⟩

theorem prompts_step (h : s.prompts.Parked) (hstep : step s l = some t) :
    t.prompts.Parked ∧ (s.prompts.Matched → (∀ c, l ≠ .expire c) → t.prompts.Matched) := by
  cases l with
  | elapse ms =>
    cases hstep
    exact ⟨h, fun hm _ => hm⟩
  | hostKeyPrompts n =>
    cases hstep
    exact ⟨h, fun hm _ => hm⟩
  | connect cap =>
    cases hstep
    exact ⟨h, fun hm _ => hm⟩
  | prompt attempt promptId =>
    unfold step at hstep
    dsimp only at hstep
    split_ifs at hstep
    cases hstep
    exact ⟨Prompts.parked_register h, fun hm _ => Prompts.matched_register h hm⟩
  | answer promptId response =>
    cases hstep
    exact ⟨Prompts.parked_remove h nofun, fun hm _ => Prompts.matched_remove h hm nofun⟩
  | cancel promptId =>
    cases hstep
    exact ⟨Prompts.parked_remove h nofun, fun hm _ => Prompts.matched_remove h hm nofun⟩
  | expire call =>
    unfold step at hstep
    dsimp only at hstep
    split_ifs at hstep
    cases hstep
    exact ⟨Prompts.parked_dropReceivers h _, fun _ hne => absurd rfl (hne call)⟩
  | tick attempt =>
    obtain ⟨a, ha, rfl⟩ := attempt_of_tick hstep
    unfold tickAttempt
    rcases hafter : a.timer.tick s.isPaused s.clock with _ | after
    · refine ⟨Prompts.parked_dropReceivers h _, fun hm _ c hc => ?_⟩
      -- The time is up only while nothing is pending.
      have hpaused := PauseTimer.unpaused_of_tick hafter
      have hnil : s.prompts.pending = [] := by
        unfold System.isPaused at hpaused
        rw [Bool.or_eq_false_iff] at hpaused
        exact eq_nil_of_length_eq_zero (Nat.eq_zero_of_not_pos (of_decide_eq_false hpaused.2))
      have hc' : c ∈ s.prompts.pending.map Prod.snd := hc
      rw [hnil] at hc'
      exact absurd hc' not_mem_nil
    · exact ⟨h, fun hm _ => hm⟩
  | finish attempt =>
    obtain ⟨a, ha, rfl⟩ := attempt_of_finish hstep
    exact ⟨h, fun hm _ => hm⟩

theorem not_matched_expire {call : Nat} (h : s.prompts.Parked) (hstep : step s (.expire call) = some t) : ¬t.prompts.Matched := by
  unfold step at hstep
  dsimp only at hstep
  split_ifs at hstep with hwaits
  cases hstep
  intro hmatched
  have hplace : call ∈ s.prompts.pending.map Prod.snd := h.parked call (Prompts.mem_waitingPrompts.1 hwaits.1)
  have hgone := (Prompts.waits_dropReceivers_iff.1 (hmatched call hplace)).2
  exact of_decide_eq_false hgone rfl

theorem timers_step (hstep : step s l = some t) : (t.ticks = s.ticks ∧ ∀ (i : Nat) (a : Attempt), t.attempts[i]? = some a →
      (∃ b : Attempt, s.attempts[i]? = some b ∧ a.timer = b.timer) ∨ a.timer.paused = 0) ∨
    ∃ (attempt : Nat) (a : Attempt), s.attempts[attempt]? = some a ∧ t.ticks = (tickAttempt s attempt a).ticks ∧
      t.attempts = (tickAttempt s attempt a).attempts := by
  have hsame : ∀ (i : Nat) (a : Attempt), s.attempts[i]? = some a →
      (∃ b : Attempt, s.attempts[i]? = some b ∧ a.timer = b.timer) ∨ a.timer.paused = 0 :=
    fun _ a ha => .inl ⟨a, ha, rfl⟩
  cases l with
  | elapse ms =>
    cases hstep
    exact .inl ⟨rfl, hsame⟩
  | hostKeyPrompts n =>
    cases hstep
    exact .inl ⟨rfl, hsame⟩
  | connect cap =>
    cases hstep
    refine .inl ⟨rfl, fun i a ha => ?_⟩
    rcases getElem?_concat_cases ha with ha | ⟨-, rfl⟩
    · exact hsame i a ha
    · exact .inr rfl
  | prompt attempt promptId =>
    unfold step at hstep
    dsimp only at hstep
    split_ifs at hstep
    cases hstep
    exact .inl ⟨rfl, hsame⟩
  | answer promptId response =>
    cases hstep
    exact .inl ⟨rfl, hsame⟩
  | cancel promptId =>
    cases hstep
    exact .inl ⟨rfl, hsame⟩
  | expire call =>
    unfold step at hstep
    dsimp only at hstep
    split_ifs at hstep
    cases hstep
    exact .inl ⟨rfl, hsame⟩
  | tick attempt =>
    obtain ⟨a, ha, rfl⟩ := attempt_of_tick hstep
    exact .inr ⟨attempt, a, ha, rfl, rfl⟩
  | finish attempt =>
    obtain ⟨a, ha, rfl⟩ := attempt_of_finish hstep
    refine .inl ⟨rfl, fun i b hb => ?_⟩
    rcases eq_or_ne attempt i with rfl | hne
    · rw [List.getElem?_set_self (List.getElem?_eq_some_iff.1 ha).1] at hb
      cases hb
      exact .inl ⟨a, ha, rfl⟩
    · rw [getElem?_set_ne hne] at hb
      exact hsame i b hb

theorem isPaused_of_counted (h : s.prompts.pendingCount = s.prompts.waitingCount) (hopen : s.openPrompts = 0) :
    s.isPaused = false := by
  unfold System.openPrompts at hopen
  unfold System.isPaused
  rw [h, Bool.or_eq_false_iff]
  exact ⟨decide_eq_false (by omega), decide_eq_false (by omega)⟩

theorem timersCounted_step (h : PromptsCounted s) (hstep : step s l = some t) :
    (∀ tick ∈ t.ticks, tick.openPrompts = 0 → tick.after = tick.before.tick false tick.now) ∧
      ∀ i a, t.attempts[i]? = some a → (∀ tick ∈ t.ticks, tick.attempt = i → tick.openPrompts = 0) → a.timer.paused = 0 := by
  rcases timers_step hstep with ⟨hticks, htimers⟩ | ⟨attempt, a, ha, hticks, hattempts⟩
  · rw [hticks]
    refine ⟨h.unsuspended, fun i a ha hclosed => ?_⟩
    rcases htimers i a ha with ⟨b, hb, htimer⟩ | hzero
    · rw [htimer]
      exact h.elapsed i b hb hclosed
    · exact hzero
  · rw [hticks, hattempts]
    unfold tickAttempt
    refine ⟨fun tick htick hopen => ?_, fun i b hb hclosed => ?_⟩
    · rcases mem_append.1 htick with htick | htick
      · exact h.unsuspended tick htick hopen
      · rw [mem_singleton] at htick
        subst htick
        rw [isPaused_of_counted h.counted hopen]
    · rcases eq_or_ne attempt i with rfl | hne
      · rw [List.getElem?_set_self (List.getElem?_eq_some_iff.1 ha).1] at hb
        cases hb
        have hbefore := h.elapsed attempt a ha fun tick htick => hclosed tick (mem_append_left _ htick)
        have hpaused := isPaused_of_counted h.counted (hclosed _ (mem_append_right _ (mem_singleton_self _)) rfl)
        rw [hpaused]
        rcases hafter : a.timer.tick false s.clock with _ | after
        · exact hbefore
        · exact (PauseTimer.tick_unpaused hafter).1.trans hbefore
      · rw [getElem?_set_ne hne] at hb
        exact h.elapsed i b hb fun tick htick => hclosed tick (mem_append_left _ htick)

theorem promptsCounted_step_iff (hparked : s.prompts.Parked) (h : PromptsCounted s) (hstep : step s l = some t) :
    PromptsCounted t ↔ ∀ c, l ≠ .expire c := by
  obtain ⟨hparked', hmatched⟩ := prompts_step hparked hstep
  constructor
  · rintro h' c rfl
    exact not_matched_expire hparked hstep ((Prompts.pendingCount_eq_iff hparked').1 h'.counted)
  · intro hne
    have hcounted := hmatched ((Prompts.pendingCount_eq_iff hparked).1 h.counted) hne
    obtain ⟨hticks, hattempts⟩ := timersCounted_step h hstep
    exact ⟨(Prompts.pendingCount_eq_iff hparked').2 hcounted, hticks, hattempts⟩

theorem parked_init : ({} : System).prompts.Parked :=
  ⟨nodup_nil, nodup_nil, fun _ h => absurd h not_mem_nil, fun _ h => nomatch h⟩

end

/-- **Prompts are counted throughout a run exactly when no call of it expires.** -/
theorem promptsCounted_iff {ls : List Step} {t : System} (hrun : run step {} ls = some t) :
    (∀ pre, pre <+: ls → ∀ u, run step {} pre = some u → PromptsCounted u) ↔ Along step (fun _ l => ∀ c, l ≠ .expire c) {} ls :=
  run_invariant_iff (J := fun s => s.prompts.Parked) (fun _ _ _ h hstep => (prompts_step h hstep).1)
    (fun _ _ _ hparked h hstep => promptsCounted_step_iff hparked h hstep) parked_init promptsCounted_init hrun

/-! ## Two runs -/

/-- A passphrase that the user types while the time stands still. -/
def typedInTime : List Step :=
  [.connect 10000, .prompt 0 "p", .elapse 20000, .tick 0, .answer "p" (.submit [1] false), .elapse 250, .tick 0, .finish 0]

def leftOpen : List Step :=
  [.connect 10000, .prompt 0 "p", .elapse 300000, .tick 0, .expire 0, .finish 0, .connect 10000, .elapse 60000, .tick 1]

theorem promptsCounted_iff_typed : ∃ t, run step {} typedInTime = some t ∧
    ∀ pre, pre <+: typedInTime → ∀ u, run step {} pre = some u → PromptsCounted u := by
  have hrun : (run step {} typedInTime).isSome = true := by decide +kernel
  obtain ⟨t, ht⟩ := Option.isSome_iff_exists.1 hrun
  have hsteps : ∀ l ∈ typedInTime, ∀ c, l ≠ .expire c := by simp [typedInTime]
  refine ⟨t, ht, (promptsCounted_iff ht).2 (along_of_forall ?_)⟩
  rintro pre l post heq u -
  exact hsteps l (heq ▸ mem_append_right pre mem_cons_self)

/-- **A prompt that timed out** keeps its entry: no call waits any more, and the next attempt, a minute old, has counted
nothing of it. -/
theorem expired_prompt_stops_timers : ∃ t, run step {} leftOpen = some t ∧ t.prompts.waitingCount = 0 ∧
    t.prompts.pendingCount = 1 ∧ t.attempts[1]? = some ⟨⟨10000, 300000, 360000, 60000⟩, true⟩ ∧
    (∀ tick ∈ t.ticks, tick.attempt = 1 → tick.openPrompts = 0) ∧ ¬PromptsCounted t := by
  have hrun : (run step {} leftOpen).any (fun t => t.prompts.waitingCount = 0 && t.prompts.pendingCount = 1 &&
      decide (t.attempts[1]? = some ⟨⟨10000, 300000, 360000, 60000⟩, true⟩) &&
      t.ticks.all fun tick => tick.attempt ≠ 1 || tick.openPrompts = 0) = true := by decide +kernel
  obtain ⟨t, ht, htest⟩ := (Option.any_eq_true _ _).1 hrun
  simp only [Bool.and_eq_true, decide_eq_true_eq, all_eq_true, Bool.or_eq_true] at htest
  obtain ⟨⟨⟨hwaiting, hpending⟩, hattempt⟩, hticks⟩ := htest
  refine ⟨t, ht, hwaiting, hpending, hattempt, fun tick htick hone => (hticks tick htick).resolve_left fun hne => hne hone, fun h => ?_⟩
  have hcounted := h.counted
  omega

end LetsFlutSsh.Connection
