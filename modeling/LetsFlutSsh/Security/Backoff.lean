import LetsFlutSsh.Security.PersistedRateLimit

/-!
# Security: both rate limiters under one sequence of attempts

`rate_limit.rs` next to `security/persisted_rate_limit_actor.rs`, on the clock's own `i64` readings, which may
jump backwards.

* `MachineLimiter` : the in-memory limiter with machine integers (`toLimiter_recordFailure`: it is the limiter of
  `RateLimit` while no deadline overflows);
* `Attempt`, `Limiters.after` : calls made to both limiters, and what they leave;
* `BackoffSound` : counts within the schedule, deadlines that never come closer, equal reports;
* `Steady` : no failure arms a deadline before the one that the failure before it armed;
* `backoffSound_iff` : the limiters are sound in exactly the steady sequences.

Only the persisted limiter keeps the later deadline (`persisted_never_earlier`).
-/

namespace LetsFlutSsh.Security
open Lib List

/-- `State` of `rate_limit.rs`. -/
structure MachineLimiter where
  failureCount : Nat := 0
  nextRetryAtMs : Option Int64 := none

/-- The deadline that the `count`-th failure arms. -/
def armed (count : Nat) (now : Int64) : Int64 := now + Int64.ofNat (backoffSchedule.getD count 0) * 1000

namespace MachineLimiter

def status (l : MachineLimiter) (now : Int64) : RateLimitStatus where
  failureCount := l.failureCount
  cooldownRemainingMs :=
    match l.nextRetryAtMs with
    | some at' => (max (at' - now) 0).toInt
    | none => 0

def recordFailure (l : MachineLimiter) (now : Int64) : MachineLimiter :=
  let failureCount := min (l.failureCount + 1) (backoffSchedule.length - 1)
  { failureCount
    nextRetryAtMs := if backoffSchedule.getD failureCount 0 = 0 then none else some (armed failureCount now) }

def recordSuccess (_ : MachineLimiter) : MachineLimiter := { failureCount := 0, nextRetryAtMs := none }

theorem recordFailure_eq (l : MachineLimiter) (now : Int64) : l.recordFailure now =
      { failureCount := min (l.failureCount + 1) 9, nextRetryAtMs := some (armed (min (l.failureCount + 1) 9) now) } := by
  have hlast : backoffSchedule.length - 1 = 9 := rfl
  have hpos := InMemoryRateLimiter.backoff_pos (min (l.failureCount + 1) 9) (by simp [backoffSchedule]) (by omega)
  unfold recordFailure
  dsimp only
  rw [hlast, if_neg hpos]

def toLimiter (l : MachineLimiter) : InMemoryRateLimiter where
  failureCount := l.failureCount
  nextRetryAtMs := l.nextRetryAtMs.map Int64.toInt

theorem toInt_step : ∀ count < 10, (Int64.ofNat (backoffSchedule.getD count 0) * 1000).toInt =
    (backoffSchedule.getD count 0 : Nat) * 1000 := by decide

theorem step_le : ∀ count < 10, backoffSchedule.getD count 0 ≤ 60 := by decide

theorem toInt_armed {count : Nat} {now : Int64} (hnow : now.toInt + 60000 < 2 ^ 63) (hcount : count < 10) :
    (armed count now).toInt = now.toInt + (backoffSchedule.getD count 0 : Nat) * 1000 := by
  have hlow := Int64.le_toInt now
  have hstep := step_le count hcount
  unfold armed
  rw [Int64.toInt_add, toInt_step count hcount]
  generalize backoffSchedule.getD count 0 = secs at hstep
  rw [Int.bmod_eq_emod]
  split <;> omega

theorem toLimiter_recordFailure (l : MachineLimiter) {now : Int64} (hnow : now.toInt + 60000 < 2 ^ 63) :
    (l.recordFailure now).toLimiter = l.toLimiter.recordFailure now.toInt := by
  have hpos := InMemoryRateLimiter.backoff_pos (min (l.failureCount + 1) 9) (by simp [backoffSchedule]) (by omega)
  rw [recordFailure_eq]
  unfold toLimiter InMemoryRateLimiter.recordFailure
  dsimp only
  rw [show backoffSchedule.length - 1 = 9 from rfl, if_neg hpos, Option.map_some, toInt_armed hnow (by omega)]

end MachineLimiter

/-- The state that the registry holds for an id that was registered. -/
def Holding (r : Registry) (id : String) (st : PersistedState) : Prop :=
  ∃ entry, r.inner id = some entry ∧ entry.loaded = true ∧ entry.state = some st

section Persisted

variable {C : FrameCodec} {r : Registry} {id : String} {st : PersistedState}

theorem holding_store (entry : Entry) (next : PersistedState) (runtime io : Bool) :
    Holding (r.store C id entry next runtime io) id next := by
  exact ⟨_, Function.update_self _ _ _, rfl, rfl⟩

theorem Holding.recordFailure (h : Holding r id st) (now later : Int64) (runtime io : Bool) :
    Holding (r.recordFailure C id now later runtime io).2 id (Registry.failed st now) := by
  obtain ⟨entry, hentry, -, hstate⟩ := h
  unfold Registry.recordFailure
  rw [hentry]
  dsimp only
  rw [hstate, Option.getD_some]
  exact holding_store entry _ runtime io

theorem Holding.recordSuccess (h : Holding r id st) (runtime io : Bool) :
    Holding (r.recordSuccess C id runtime io) id ⟨0, none⟩ := by
  obtain ⟨entry, hentry, -, -⟩ := h
  unfold Registry.recordSuccess
  rw [hentry]
  exact holding_store entry _ runtime io

theorem Holding.status (h : Holding r id st) (now : Int64) : r.status id now =
      { failureCount := (max st.failureCount 0).toUInt64.toUInt32.toNat
        cooldownRemainingMs :=
          match st.nextRetryAtMillis with
          | some next => (max (next - now) 0).toInt
          | none => 0 } := by
  obtain ⟨entry, hentry, hloaded, hstate⟩ := h
  unfold Registry.status snapshotStatus
  rw [hentry]
  dsimp only
  rw [hstate]
  exact if_pos hloaded

theorem Holding.unique {st' : PersistedState} (h : Holding r id st) (h' : Holding r id st') : st = st' := by
  obtain ⟨entry, hentry, -, hstate⟩ := h
  obtain ⟨entry', hentry', -, hstate'⟩ := h'
  rw [hentry] at hentry'
  rw [← Option.some.inj hentry', hstate] at hstate'
  exact Option.some.inj hstate'

end Persisted

def NotEarlier (before after : Option Int64) : Prop := ∀ d, before = some d → ∃ d', after = some d' ∧ d ≤ d'

theorem NotEarlier.refl (d : Option Int64) : NotEarlier d d := fun d hd => ⟨d, hd, Int64.le_refl d⟩

theorem NotEarlier.trans {a b c : Option Int64} (h : NotEarlier a b) (h' : NotEarlier b c) : NotEarlier a c := by
  intro d hd
  obtain ⟨e, he, hde⟩ := h d hd
  obtain ⟨f, hf, hef⟩ := h' e he
  exact ⟨f, hf, Int64.le_trans hde hef⟩

theorem max_of_le {a b : Int64} (h : b ≤ a) : max a b = a := by
  show (if a ≤ b then b else a) = a
  split_ifs with hab
  · exact Int64.le_antisymm h hab
  · rfl

theorem le_max_int64 (a b : Int64) : b ≤ max a b := by
  show b ≤ if a ≤ b then b else a
  split_ifs with hab
  · exact Int64.le_refl b
  · exact Int64.le_of_lt (Int64.not_le.1 hab)

theorem failed_count : ∀ n < 10, (min (Int64.ofNat n + 1) (Int64.ofNat lastSlot)) = Int64.ofNat (min (n + 1) 9) ∧
    ¬Int64.ofNat (min (n + 1) 9) < 0 ∧ (Int64.ofNat (min (n + 1) 9)).toInt.toNat = min (n + 1) 9 ∧
    (max (Int64.ofNat n) 0).toUInt64.toUInt32.toNat = n := by decide

theorem failed_eq {n : Nat} (hn : n < 10) (prev : Option Int64) (now : Int64) : Registry.failed ⟨Int64.ofNat n, prev⟩ now =
      ⟨Int64.ofNat (min (n + 1) 9), some ((prev.map (max (armed (min (n + 1) 9) now))).getD (armed (min (n + 1) 9) now))⟩ := by
  obtain ⟨hmin, hneg, hnat, -⟩ := failed_count n hn
  have hpos := InMemoryRateLimiter.backoff_pos (min (n + 1) 9) (by simp [backoffSchedule]) (by omega)
  unfold Registry.failed
  dsimp only
  rw [hmin, if_neg hneg, hnat, if_neg hpos]
  rcases prev with _ | d
  · rfl
  · rfl

/-- A call made to both limiters: the readings of the clock, and how the write to the disk goes. -/
inductive Attempt where
  | failure (now later : Int64) (runtime io : Bool)
  | success (runtime io : Bool)

namespace Attempt

def failedAt : Attempt → Option Int64
  | failure now _ _ _ => some now
  | success _ _ => none

def readings : Attempt → List Int64
  | failure now later _ _ => [now, later]
  | success _ _ => []

def streakStep (n : Nat) : Attempt → Nat
  | failure _ _ _ _ => n + 1
  | success _ _ => 0

end Attempt

def streak (calls : List Attempt) : Nat := calls.foldl Attempt.streakStep 0

structure Limiters where
  memory : MachineLimiter
  registry : Registry

namespace Limiters

variable (C : FrameCodec) (id : String)

def step (l : Limiters) : Attempt → Limiters
  | .failure now later runtime io =>
    ⟨l.memory.recordFailure now, (l.registry.recordFailure C id now later runtime io).2⟩
  | .success runtime io => ⟨l.memory.recordSuccess, l.registry.recordSuccess C id runtime io⟩

/-- A new limiter, and an id that is registered where there is no state file. -/
def start (others : String → Option Entry) (filePath : String) (hmacKey : Bytes) (files : String → Option Bytes)
    (now : Int64) : Limiters where
  memory := {}
  registry := (Registry.initOrGet C
    { inner := Function.update others id none, files := Function.update files filePath none } id filePath hmacKey now).2

def after (l : Limiters) (calls : List Attempt) : Limiters := calls.foldl (step C id) l

@[simp] theorem after_nil (l : Limiters) : after C id l [] = l := rfl

theorem after_concat (l : Limiters) (calls : List Attempt) (c : Attempt) :
    after C id l (calls ++ [c]) = step C id (after C id l calls) c := by
  simp [after]

end Limiters

theorem streak_concat (calls : List Attempt) (c : Attempt) : streak (calls ++ [c]) = c.streakStep (streak calls) := by
  simp [streak]

/-- No failure arms a deadline before the one that the failure right before it armed. -/
def Steady (calls : List Attempt) : Prop :=
  ∀ pre c₁ c₂ post now₁ now₂, calls = pre ++ c₁ :: c₂ :: post → c₁.failedAt = some now₁ → c₂.failedAt = some now₂ →
    armed (min (streak pre + 1) 9) now₁ ≤ armed (min (streak pre + 2) 9) now₂

variable {calls : List Attempt}

theorem Steady.restrict {pre : List Attempt} (h : Steady calls) (hpre : pre <+: calls) : Steady pre := by
  obtain ⟨post, rfl⟩ := hpre
  intro pre' c₁ c₂ post' now₁ now₂ hsplit
  apply h pre' c₁ c₂ (post' ++ post)
  rw [hsplit]
  simp

section Runs

variable (C : FrameCodec) (id : String) (others : String → Option Entry) (filePath : String) (hmacKey : Bytes)
  (files : String → Option Bytes) (now : Int64)

abbrev reached (calls : List Attempt) : Limiters :=
  Limiters.after C id (Limiters.start C id others filePath hmacKey files now) calls

/-- Both limiters hold to the schedule, never move a deadline closer and report the same under a clock that
does not go back. -/
structure BackoffSound (calls : List Attempt) : Prop where
  counts : ∀ pre, pre <+: calls →
    (reached C id others filePath hmacKey files now pre).memory.failureCount < backoffSchedule.length ∧
      ∃ n < backoffSchedule.length, ∃ next,
        Holding (reached C id others filePath hmacKey files now pre).registry id ⟨Int64.ofNat n, next⟩
  memory : ∀ pre mid, pre ++ mid <+: calls → (∀ c ∈ mid, c.failedAt.isSome) →
    NotEarlier (reached C id others filePath hmacKey files now pre).memory.nextRetryAtMs
      (reached C id others filePath hmacKey files now (pre ++ mid)).memory.nextRetryAtMs
  persisted : ∀ pre mid, pre ++ mid <+: calls → (∀ c ∈ mid, c.failedAt.isSome) → ∀ st st',
    Holding (reached C id others filePath hmacKey files now pre).registry id st →
    Holding (reached C id others filePath hmacKey files now (pre ++ mid)).registry id st' →
    NotEarlier st.nextRetryAtMillis st'.nextRetryAtMillis
  agree : (calls.flatMap Attempt.readings).Pairwise (· ≤ ·) → ∀ pre, pre <+: calls → ∀ t,
    (∀ r ∈ pre.flatMap Attempt.readings, r ≤ t) →
    (reached C id others filePath hmacKey files now pre).memory.status t =
      (reached C id others filePath hmacKey files now pre).registry.status id t

theorem reached_concat (calls : List Attempt) (c : Attempt) :
    reached C id others filePath hmacKey files now (calls ++ [c]) =
      Limiters.step C id (reached C id others filePath hmacKey files now calls) c :=
  Limiters.after_concat C id _ calls c

theorem holding_start :
    Holding (Limiters.start C id others filePath hmacKey files now).registry id ⟨Int64.ofNat 0, none⟩ := by
  refine ⟨⟨filePath, hmacKey, some ⟨Int64.ofNat 0, none⟩, true, none⟩, ?_, rfl, rfl⟩
  unfold Limiters.start Registry.initOrGet Registry.setEntry readState
  simp

theorem memory_count (calls : List Attempt) :
    (reached C id others filePath hmacKey files now calls).memory.failureCount = min (streak calls) 9 := by
  induction calls using List.reverseRecOn with
  | nil => rfl
  | append_singleton calls c ih =>
    rw [reached_concat, streak_concat]
    rcases c with ⟨t, later, runtime, io⟩ | ⟨runtime, io⟩
    · show (MachineLimiter.recordFailure _ t).failureCount = min (streak calls + 1) 9
      rw [MachineLimiter.recordFailure_eq, ih]
      show min (min (streak calls) 9 + 1) 9 = min (streak calls + 1) 9
      omega
    · rfl

theorem memory_nextRetry {c : Attempt} {t : Int64} (hc : c.failedAt = some t) :
    (reached C id others filePath hmacKey files now (calls ++ [c])).memory.nextRetryAtMs =
      some (armed (min (streak calls + 1) 9) t) := by
  rw [reached_concat]
  rcases c with ⟨t', later, runtime, io⟩ | ⟨runtime, io⟩
  · cases hc
    show (MachineLimiter.recordFailure _ t).nextRetryAtMs = _
    have hmin : min (min (streak calls) 9 + 1) 9 = min (streak calls + 1) 9 := by omega
    rw [MachineLimiter.recordFailure_eq, memory_count, hmin]
  · cases hc

theorem memory_nextRetry_of_success {c : Attempt} (hc : c.failedAt = none) :
    (reached C id others filePath hmacKey files now (calls ++ [c])).memory.nextRetryAtMs = none := by
  rw [reached_concat]
  rcases c with ⟨t', later, runtime, io⟩ | ⟨runtime, io⟩
  · cases hc
  · rfl

theorem holding_reached (calls : List Attempt) :
    ∃ next, Holding (reached C id others filePath hmacKey files now calls).registry id
      ⟨Int64.ofNat (min (streak calls) 9), next⟩ := by
  induction calls using List.reverseRecOn with
  | nil => exact ⟨none, holding_start C id others filePath hmacKey files now⟩
  | append_singleton calls c ih =>
    obtain ⟨next, hnext⟩ := ih
    rw [reached_concat, streak_concat]
    rcases c with ⟨t, later, runtime, io⟩ | ⟨runtime, io⟩
    · have hfailed := hnext.recordFailure (C := C) t later runtime io
      rw [failed_eq (by omega), show min (min (streak calls) 9 + 1) 9 = min (streak calls + 1) 9 by omega] at hfailed
      exact ⟨_, hfailed⟩
    · exact ⟨none, hnext.recordSuccess runtime io⟩

theorem Steady.agree (h : Steady calls) :
    Holding (reached C id others filePath hmacKey files now calls).registry id
      ⟨Int64.ofNat (min (streak calls) 9), (reached C id others filePath hmacKey files now calls).memory.nextRetryAtMs⟩ := by
  induction calls using List.reverseRecOn with
  | nil => exact holding_start C id others filePath hmacKey files now
  | append_singleton calls c ih =>
    have hbefore := ih (h.restrict (prefix_append calls [c]))
    rcases hc : c.failedAt with _ | t
    · rw [memory_nextRetry_of_success C id others filePath hmacKey files now hc, reached_concat, streak_concat]
      rcases c with ⟨t', later, runtime, io⟩ | ⟨runtime, io⟩
      · cases hc
      · exact hbefore.recordSuccess runtime io
    rw [memory_nextRetry C id others filePath hmacKey files now hc, reached_concat, streak_concat]
    rcases c with ⟨t', later, runtime, io⟩ | ⟨runtime, io⟩
    swap
    · cases hc
    cases hc
    have hfailed := hbefore.recordFailure (C := C) t later runtime io
    have hmin : min (min (streak calls) 9 + 1) 9 = min (streak calls + 1) 9 := by omega
    rw [failed_eq (by omega), hmin] at hfailed
    -- The deadline that was is not later: it is the one the failure before armed.
    have hlast : ∀ d, (reached C id others filePath hmacKey files now calls).memory.nextRetryAtMs = some d →
        d ≤ armed (min (streak calls + 1) 9) t := by
      intro d hd
      rcases eq_nil_or_concat calls with rfl | ⟨pre, c, rfl⟩
      · cases hd
      rw [concat_eq_append] at hd h ⊢
      rcases hc : c.failedAt with _ | t₁
      · rw [memory_nextRetry_of_success C id others filePath hmacKey files now hc] at hd
        cases hd
      · rw [memory_nextRetry C id others filePath hmacKey files now hc] at hd
        rw [← Option.some.inj hd, streak_concat]
        have hle := h pre c (.failure t later runtime io) [] t₁ t (by simp) hc rfl
        rcases c with ⟨t', later', runtime', io'⟩ | ⟨runtime', io'⟩
        · exact hle
        · cases hc
    have hmax : ((reached C id others filePath hmacKey files now calls).memory.nextRetryAtMs.map
        (max (armed (min (streak calls + 1) 9) t))).getD (armed (min (streak calls + 1) 9) t) =
          armed (min (streak calls + 1) 9) t := by
      rcases hd : (reached C id others filePath hmacKey files now calls).memory.nextRetryAtMs with _ | d
      · rfl
      · exact max_of_le (hlast d hd)
    rw [hmax] at hfailed
    exact hfailed

theorem persisted_never_earlier (pre mid : List Attempt) (hmid : ∀ c ∈ mid, c.failedAt.isSome) {st st' : PersistedState}
    (hst : Holding (reached C id others filePath hmacKey files now pre).registry id st)
    (hst' : Holding (reached C id others filePath hmacKey files now (pre ++ mid)).registry id st') :
    NotEarlier st.nextRetryAtMillis st'.nextRetryAtMillis := by
  induction mid using List.reverseRecOn generalizing st' with
  | nil =>
    rw [append_nil] at hst'
    rw [hst.unique hst']
    exact .refl _
  | append_singleton mid c ih =>
    obtain ⟨next, hnext⟩ := holding_reached C id others filePath hmacKey files now (pre ++ mid)
    refine (ih (fun c hc => hmid c (mem_append_left _ hc)) hnext).trans ?_
    have hc := hmid c (by simp)
    rw [← append_assoc, reached_concat] at hst'
    rcases c with ⟨t, later, runtime, io⟩ | ⟨runtime, io⟩
    · have hfailed := hnext.recordFailure (C := C) t later runtime io
      rw [failed_eq (by omega)] at hfailed
      rw [← hfailed.unique hst']
      intro d hd
      refine ⟨_, rfl, ?_⟩
      rw [show next = some d from hd]
      exact le_max_int64 _ d
    · cases hc

/-- **Both limiters are sound in exactly the steady sequences.** -/
theorem backoffSound_iff (calls : List Attempt) :
    BackoffSound C id others filePath hmacKey files now calls ↔ Steady calls := by
  constructor
  · intro h pre c₁ c₂ post t₁ t₂ hsplit hc₁ hc₂
    have hpre : (pre ++ [c₁]) ++ [c₂] <+: calls := ⟨post, by rw [hsplit]; simp⟩
    have hnot := h.memory (pre ++ [c₁]) [c₂] hpre (by simp [hc₂])
    rw [memory_nextRetry C id others filePath hmacKey files now hc₁,
      memory_nextRetry C id others filePath hmacKey files now hc₂, streak_concat] at hnot
    obtain ⟨d, hd, hle⟩ := hnot _ rfl
    rw [← Option.some.inj hd] at hle
    rcases c₁ with ⟨t, later, runtime, io⟩ | ⟨runtime, io⟩
    · exact hle
    · cases hc₁
  · intro h
    refine ⟨fun pre _ => ⟨?_, ?_⟩, fun pre mid hpre hmid => ?_, fun pre mid _ hmid st st' => ?_, fun _ pre hpre t _ => ?_⟩
    · rw [memory_count]
      exact Nat.lt_succ_of_le (Nat.min_le_right _ _)
    · exact ⟨_, Nat.lt_succ_of_le (Nat.min_le_right _ _), holding_reached C id others filePath hmacKey files now pre⟩
    · have hmemory := (h.restrict ((prefix_append pre mid).trans hpre)).agree C id others filePath hmacKey files now
      exact persisted_never_earlier C id others filePath hmacKey files now pre mid hmid hmemory
        ((h.restrict hpre).agree C id others filePath hmacKey files now)
    · exact persisted_never_earlier C id others filePath hmacKey files now pre mid hmid
    · rw [((h.restrict hpre).agree C id others filePath hmacKey files now).status]
      unfold MachineLimiter.status
      rw [memory_count, (failed_count (min (streak pre) 9) (by omega)).2.2.2]

end Runs

/-- A failure by a clock that stands at `now`, where the write is made on the spot and fails. -/
def failureAt (now : Int64) : Attempt := .failure now now false false

/-- **A clock that goes back moves the deadline of the in-memory limiter closer**: a second failure 100 s before the
first. -/
theorem clock_back_shrinks_cooldown :
    ¬BackoffSound FrameCodec.plain "gate" (fun _ => none) "rate_limit_state.bin" [] (fun _ => none) 0
      [failureAt 10000, failureAt (-90000)] := by
  intro h
  have hfirst : armed (min (streak [] + 1) 9) 10000 = 11000 := by decide
  have hsecond : armed (min (streak [failureAt 10000] + 1) 9) (-90000) = -88000 := by decide
  have hnot := h.memory ([] ++ [failureAt 10000]) [failureAt (-90000)] (prefix_refl _)
    (by simp [failureAt, Attempt.failedAt])
  rw [memory_nextRetry _ _ _ _ _ _ _ rfl, memory_nextRetry _ _ _ _ _ _ _ rfl] at hnot
  obtain ⟨d, hd, hle⟩ := hnot _ rfl
  rw [← Option.some.inj hd] at hle
  rw [hfirst] at hle
  exact absurd (hsecond ▸ hle) (by decide)

end LetsFlutSsh.Security
