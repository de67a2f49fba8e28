import LetsFlutSsh.Security.UnlockCourse

/-!
# Security: wrong secrets, side by side

The rate limiters of `rate_limit.rs` under calls of `security/tier_unlock_orchestrator.rs` with wrong secrets, in every
order of their operations.

* `Mark`, `Mark.move` : what an operation is to a limiter, and how a call moves with it (`program_orderly`);
* `verifications`, `cooldowns`, `expired` : what a run has done so far;
* `Paced` : what holds while calls pass the limiter one at a time (`paced_step`);
* `notOutrun_of_serialised` : then no secret is tried while a cooldown runs.
-/

namespace LetsFlutSsh.Security.Unlock
open Lib List Prog
open Config (SecurityTier)

/-- What an operation is to a limiter. -/
inductive Mark where
  | other
  | locked
  | pass
  /-- The secret was tried, and was wrong. -/
  | wrong
  /-- The secret was tried, and was not found to be wrong. -/
  | right
  | failure
  | success

def TierOp.mark (id : String) : (op : TierOp) → op.Resp → Mark
  | .limiterStatus k, status => if k = id then if status.isLocked then .locked else .pass else .other
  | .recordFailure k, _ => if k = id then .failure else .other
  | .recordSuccess k, _ => if k = id then .success else .other
  | op, r => if op.verifies = some id then if op.rejects r then .wrong else .right else .other

def Mark.move : Mark → Phase → Phase
  | .other, p => p
  | _, .free => .free
  | .locked, .outside => .outside
  | .pass, .outside => .passed
  | .wrong, .passed => .tried
  | .right, .passed => .free
  | .failure, .tried => .outside
  | _, _ => .astray

theorem move_cases {m : Mark} {p : Phase} (h : m.move p ≠ .astray) (hfree : p ≠ .free) (hastray : p ≠ .astray) :
    m = .other ∨ m = .locked ∧ p = .outside ∨ m = .pass ∧ p = .outside ∨ m = .wrong ∧ p = .passed ∨
      m = .right ∧ p = .passed ∨ m = .failure ∧ p = .tried := by
  cases m <;> cases p <;> simp_all [Mark.move]

def Phase.see (id : String) (p : Phase) (op : TierOp) (r : op.Resp) : Phase := (op.mark id r).move p

/-- Where a call at the limiter `k` stands with the limiter `id`. -/
def Phase.on (k id : String) (p : Phase) : Phase := if k = id then p else .outside

variable {id : String} {op : TierOp}

section Programs

variable {k : String} {q : Phase}

theorem mark_of_plain (hop : op.plain = true) (r : op.Resp) : op.mark id r = .other := by
  cases op <;> first | rfl | cases hop

theorem on_ne_astray (hq : q ≠ .astray) : Phase.on k id q ≠ .astray := by
  unfold Phase.on
  split
  · exact hq
  · exact nofun

theorem see_limiterStatus (status : RateLimitStatus) : Phase.see id .outside (.limiterStatus k) status =
    Phase.on k id (if status.isLocked then .outside else .passed) := by
  have hmark : TierOp.mark id (.limiterStatus k) status =
    if k = id then if status.isLocked then .locked else .pass else .other := rfl
  rw [Phase.see, hmark, Phase.on]
  split
  · split <;> rfl
  · rfl

theorem mark_verifies (hop : op.verifies = some k) (r : op.Resp) :
    op.mark id r = if op.verifies = some id then if op.rejects r then .wrong else .right else .other := by
  cases op <;> first | rfl | cases hop

theorem see_verifies (hop : op.verifies = some k) (r : op.Resp) :
    Phase.see id (Phase.on k id .passed) op r = Phase.on k id (if op.rejects r then .tried else .free) := by
  have hid : some k = some id ↔ k = id := Option.some_inj
  rw [Phase.see, mark_verifies hop, hop, Phase.on, Phase.on]
  simp only [hid]
  split
  · split <;> rfl
  · rfl

theorem cascade_orderly (tier : SecurityTier) (hq : q ≠ .astray) :
    (runPostUnlockCascade tier).Keeps (Phase.see id) (· ≠ .astray) (fun _ => (· ≠ .astray)) q := by
  refine ⟨hq, fun hasKey => ⟨hq, fun dir => ?_⟩⟩
  rcases dir with _ | dir
  · exact ⟨hq, fun _ => hq⟩
  · exact ⟨hq, fun key => ⟨hq, fun opened => ⟨hq, fun stored => ⟨hq, fun _ => ⟨hq, fun _ => ⟨hq, fun _ => ⟨hq, fun _ =>
      hq⟩⟩⟩⟩⟩⟩⟩

/-- A call keeps to the order: it passes the limiter, tries the secret, and tells the limiter of a wrong one. -/
theorem orderly_course (id : String) : Course (Phase.see id) (· ≠ .astray) (· ≠ .astray)
    fun k p q => p ≠ .astray ∧ q = Phase.on k id p where
  held h := h
  after := by
    rintro k p _ ⟨hp, rfl⟩
    exact on_ne_astray hp
  plain := by
    rintro k p _ op r hop ⟨hp, rfl⟩
    refine ⟨hp, ?_⟩
    rw [Phase.see, mark_of_plain hop]
    rfl
  status := by
    rintro k _ status ⟨-, rfl⟩
    refine ⟨by split <;> decide, ?_⟩
    rw [← see_limiterStatus, Phase.on, ite_self]
  verify := by
    rintro k _ op r hop ⟨-, rfl⟩
    exact ⟨by split <;> decide, see_verifies hop r⟩
  failure := by
    rintro k _ r ⟨-, rfl⟩
    change _ ∧ (if k = id then Mark.failure else .other).move _ = _
    unfold Phase.on
    split <;> exact ⟨by decide, rfl⟩
  failure_free := by
    rintro k _ r ⟨hp, rfl⟩
    change _ ∧ (if k = id then Mark.failure else .other).move _ = _
    unfold Phase.on
    split <;> exact ⟨hp, rfl⟩
  success := by
    rintro k _ r ⟨hp, rfl⟩
    change _ ∧ (if k = id then Mark.success else .other).move _ = _
    unfold Phase.on
    split <;> exact ⟨hp, rfl⟩
  unlocks := by
    rintro k p _ tier r ⟨hp, rfl⟩
    exact cascade_orderly tier (on_ne_astray hp)
  dropped _ _ h := h

theorem program_orderly (call : Call) :
    call.program.Keeps (Phase.see id) (· ≠ .astray) (fun _ => (· ≠ .astray)) .outside :=
  (orderly_course id).program (fun _ => ⟨by decide, (ite_self _).symm⟩) call

end Programs

def TierOp.records : TierOp → Option String
  | .recordFailure id => some id
  | _ => none

section Counts

variable (id : String)

def System.phase (s : System) (i : Nat) : Phase := Threads.notes (Phase.see id) .outside s i

/-- The call has passed the limiter, and has not told it of the secret. -/
def System.Between (s : System) (i : Nat) : Prop := s.phase id i = .passed ∨ s.phase id i = .tried

def verifications (s : System) : Nat := s.log.countP fun e => e.op.verifies = some id

def cooldown (e : Threads.Entry TierOp TierOp.Resp App) : Option Int :=
  if e.op.records = some id then (e.after.rateLimiters id).nextRetryAtMs else none

def cooldowns (s : System) : List Int := s.log.filterMap (cooldown id)

def expired (s : System) : Nat := (cooldowns id s).countP fun retry => retry ≤ s.shared.now

end Counts

variable {o : Answers}

section Operations

variable {s : App}

theorem mark_of_verifies (hop : op.verifies = some id) (r : op.Resp) :
    op.mark id r = if op.rejects r then .wrong else .right := by
  rw [mark_verifies hop, if_pos hop]

theorem verifies_of_mark {r : op.Resp} (h : op.mark id r = .wrong ∨ op.mark id r = .right) : op.verifies = some id := by
  cases op <;> simp [TierOp.mark, TierOp.verifies] at h ⊢ <;> grind

theorem not_verifies {r : op.Resp} (hwrong : op.mark id r ≠ .wrong) (hright : op.mark id r ≠ .right) :
    op.verifies ≠ some id := by
  intro hop
  rw [mark_of_verifies hop] at hwrong hright
  split at hwrong
  · exact hwrong rfl
  · next hr => exact hright (if_neg hr)

theorem mark_eq_failure {r : op.Resp} : op.mark id r = .failure ↔ op = .recordFailure id := by
  cases op <;> simp [TierOp.mark, TierOp.verifies] <;> grind

theorem records_eq_some : op.records = some id ↔ op = .recordFailure id := by
  cases op <;> simp [TierOp.records]

theorem mark_eq_pass : op.mark id (op.perform o s).1 = .pass ↔
    op = .limiterStatus id ∧ ((s.rateLimiters id).status s.now).isLocked = false := by
  cases op <;> simp [TierOp.mark, TierOp.verifies, TierOp.perform] <;> grind

theorem perform_now (op : TierOp) (o : Answers) (s : App) : (op.perform o s).2.now = s.now := by
  cases op with
  | instanceDispatch tier event =>
    obtain ⟨bus, h⟩ := s.moveMachine_snd fun m => m.instanceDispatch tier event
    exact (congrArg App.now h).trans rfl
  | renameSecret src dst =>
    obtain ⟨secrets, h⟩ := s.renameSecret_snd src dst
    exact (congrArg App.now h).trans rfl
  | _ => rfl

theorem perform_limiter (h : op.mark id (op.perform o s).1 ≠ .failure) (h' : op.mark id (op.perform o s).1 ≠ .success) :
    (op.perform o s).2.rateLimiters id = s.rateLimiters id := by
  cases op with
  | instanceDispatch tier event =>
    obtain ⟨bus, h⟩ := s.moveMachine_snd fun m => m.instanceDispatch tier event
    exact (congrArg (fun s : App => s.rateLimiters id) h).trans rfl
  | renameSecret src dst =>
    obtain ⟨secrets, h⟩ := s.renameSecret_snd src dst
    exact (congrArg (fun s : App => s.rateLimiters id) h).trans rfl
  | recordFailure k =>
    have hk : id ≠ k := by
      rintro rfl
      exact h (if_pos rfl)
    exact Function.update_of_ne hk _ _
  | recordSuccess k =>
    have hk : id ≠ k := by
      rintro rfl
      exact h' (if_pos rfl)
    exact Function.update_of_ne hk _ _
  | _ => rfl

end Operations

variable {i : Nat}

section Paced

variable {s t : System}

theorem act_counts (id : String) (h : step s (.act i o) = some t) : ∃ op next,
    s.progs[i]? = some (.call op next) ∧ t.shared = (op.perform o s.shared).2 ∧
    (∀ j, t.phase id j =
      if i = j then (op.mark id (op.perform o s.shared).1).move (s.phase id j) else s.phase id j) ∧
    verifications id t = verifications id s + (if op.verifies = some id then 1 else 0) ∧
    cooldowns id t = cooldowns id s ++
      (if op.records = some id then ((op.perform o s.shared).2.rateLimiters id).nextRetryAtMs else none).toList := by
  have hact : s.act TierOp.perform i o = some t := h
  obtain ⟨op, next, hp, hshared, hphase⟩ : ∃ op next, s.progs[i]? = some (.call op next) ∧
      t.shared = (op.perform o s.shared).2 ∧ ∀ j, t.phase id j =
        if i = j then (op.mark id (op.perform o s.shared).1).move (s.phase id j) else s.phase id j :=
    Threads.notes_act hact
  refine ⟨op, next, hp, hshared, hphase, ?_, ?_⟩
  all_goals
    obtain ⟨op', next', hp', rfl⟩ := Threads.act_cases hact
    cases hp.symm.trans hp'
  · simp [verifications, countP_append, countP_singleton]
  · simp [cooldowns, cooldown, filterMap_append, filterMap_cons]
    split <;> simp_all

/-- **One call at a time.** Whoever is between the limiter and its answer is alone there, and found all cooldowns
ended. -/
structure Paced (id : String) (s : System) : Prop where
  orderly : s.Follows (Phase.see id) .outside (· ≠ .astray) fun _ => (· ≠ .astray)
  tame : ∀ i, s.phase id i ≠ .free
  alone : ∀ i j, s.Between id i → s.Between id j → i = j
  issued : ∀ retry ∈ cooldowns id s, ∃ last, (s.shared.rateLimiters id).nextRetryAtMs = some last ∧ retry ≤ last
  cooled : ∀ i, s.Between id i → ∀ retry ∈ cooldowns id s, retry ≤ s.shared.now
  spent : (cooldowns id s).length ≤ expired id s + 1
  idle : (∀ i, s.phase id i ≠ .tried) → verifications id s = (cooldowns id s).length
  busy : ∀ i, s.phase id i = .tried → verifications id s = (cooldowns id s).length + 1

theorem paced_init (app : App) : Paced id { shared := app } where
  orderly := Threads.follows_init app
  tame _ := nofun
  alone i _ h := by cases h <;> contradiction
  issued _ := nofun
  cooled _ _ _ := nofun
  spent := Nat.zero_le _
  idle _ := rfl
  busy _ := nofun

theorem expired_of_cooled (h : ∀ retry ∈ cooldowns id s, retry ≤ s.shared.now) : expired id s = (cooldowns id s).length :=
  countP_eq_length.2 fun retry hmem => decide_eq_true (h retry hmem)

theorem Paced.bound (h : Paced id s) : verifications id s ≤ expired id s + 1 := by
  by_cases htried : ∃ i, s.phase id i = .tried
  · obtain ⟨i, hi⟩ := htried
    rw [h.busy i hi, expired_of_cooled (h.cooled i (.inr hi))]
  · rw [h.idle fun i hi => htried ⟨i, hi⟩]
    exact h.spent

theorem Paced.keep (h : Paced id s) (horderly : t.Follows (Phase.see id) .outside (· ≠ .astray) fun _ => (· ≠ .astray))
    (hphase : ∀ j, t.phase id j = s.phase id j) (hlimiter : t.shared.rateLimiters id = s.shared.rateLimiters id)
    (hnow : s.shared.now ≤ t.shared.now) (hverified : verifications id t = verifications id s)
    (hcooldowns : cooldowns id t = cooldowns id s) : Paced id t := by
  have hbetween : ∀ j, t.Between id j ↔ s.Between id j := fun j => by unfold System.Between; rw [hphase]
  refine ⟨horderly, fun i => hphase i ▸ h.tame i, fun i j hi hj => ?_, ?_, fun i hi retry hretry => ?_, ?_, fun hnone => ?_,
    fun i hi => ?_⟩
  · exact h.alone i j ((hbetween i).1 hi) ((hbetween j).1 hj)
  · rw [hcooldowns, hlimiter]
    exact h.issued
  · rw [hcooldowns] at hretry
    exact (h.cooled i ((hbetween i).1 hi) retry hretry).trans hnow
  · have hmono : expired id s ≤ expired id t := by
      unfold expired
      rw [hcooldowns]
      refine countP_mono_left fun retry _ hretry => ?_
      rw [decide_eq_true_eq] at hretry ⊢
      exact hretry.trans hnow
    rw [hcooldowns]
    exact h.spent.trans (Nat.add_le_add_right hmono 1)
  · rw [hverified, hcooldowns]
    exact h.idle fun i => hphase i ▸ hnone i
  · rw [hverified, hcooldowns]
    exact h.busy i (hphase i ▸ hi)

theorem Paced.not_astray (h : Paced id s) (i : Nat) : s.phase id i ≠ .astray :=
  h.orderly.here nofun (fun _ _ hE => hE) i

def WrongSecrets (id : String) (s : System) : Step → Prop
  | .act i o => ∀ op next, s.progs[i]? = some (.call op next) → op.verifies = some id → op.rejects (op.perform o s.shared).1
  | _ => True

/-- Nobody passes the limiter while another call is between the limiter and its answer. -/
def Serialised (id : String) (s : System) : Step → Prop
  | .act i _ => (∃ next, s.progs[i]? = some (.call (.limiterStatus id) next)) →
    ((s.shared.rateLimiters id).status s.shared.now).isLocked = false → ∀ j, ¬ s.Between id j
  | _ => True

def ClockForward (s : System) : Step → Prop
  | .clock now => s.shared.now ≤ now
  | _ => True

theorem orderly_step {l : Step} (hs : s.Follows (Phase.see id) .outside (· ≠ .astray) fun _ => (· ≠ .astray))
    (h : step s l = some t) : t.Follows (Phase.see id) .outside (· ≠ .astray) fun _ => (· ≠ .astray) := by
  rcases step_cases h with ⟨call, rfl, rfl⟩ | ⟨i, o, rfl, hact⟩ | ⟨-, -, rfl⟩
  · exact hs.spawn (program_orderly call)
  · exact hs.act hact
  · exact hs.shared _

section

variable (h : Paced id s) (horderly : t.Follows (Phase.see id) .outside (· ≠ .astray) fun _ => (· ≠ .astray))
include h horderly

theorem paced_failure (hi : s.phase id i = .tried) (hphase : ∀ j, t.phase id j = if i = j then .outside else s.phase id j)
    (hnow : t.shared.now = s.shared.now) (hverified : verifications id t = verifications id s) {last : Int}
    (hlimiter : (t.shared.rateLimiters id).nextRetryAtMs = some last) (hlast : s.shared.now < last)
    (hcooldowns : cooldowns id t = cooldowns id s ++ [last]) : Paced id t := by
  have hcooled := h.cooled i (.inr hi)
  have hnobody : ∀ j, ¬ t.Between id j := by
    intro j hj
    unfold System.Between at hj
    rw [hphase] at hj
    split at hj
    · rcases hj with hj | hj <;> cases hj
    · next hij => exact hij (h.alone i j (.inr hi) hj)
  refine ⟨horderly, fun j => ?_, fun j k hj => absurd hj (hnobody j), fun retry hretry => ⟨last, hlimiter, ?_⟩,
    fun j hj => absurd hj (hnobody j), ?_, fun _ => ?_, fun j hj => absurd (.inr hj) (hnobody j)⟩
  · rw [hphase]
    split
    · exact nofun
    · exact h.tame j
  · rw [hcooldowns, mem_append, mem_singleton] at hretry
    rcases hretry with hretry | rfl
    · exact (hcooled retry hretry).trans hlast.le
    · exact le_rfl
  · have hold : (cooldowns id s).length ≤ expired id t := by
      unfold expired
      rw [hcooldowns, countP_append, hnow, ← expired_of_cooled hcooled]
      exact Nat.le_add_right _ _
    rw [hcooldowns, length_append, length_singleton]
    omega
  · rw [hverified, h.busy i hi, hcooldowns, length_append, length_singleton]

theorem paced_pass (hphase : ∀ j, t.phase id j = if i = j then .passed else s.phase id j) (hshared : t.shared = s.shared)
    (hverified : verifications id t = verifications id s) (hcooldowns : cooldowns id t = cooldowns id s)
    (hopen : ((s.shared.rateLimiters id).status s.shared.now).isLocked = false) (hnobody : ∀ j, ¬ s.Between id j) :
    Paced id t := by
  have honly : ∀ j, t.Between id j → i = j := by
    intro j hj
    by_contra hij
    unfold System.Between at hj
    rw [hphase, if_neg hij] at hj
    exact hnobody j hj
  have hcooled : ∀ retry ∈ cooldowns id s, retry ≤ s.shared.now := by
    intro retry hretry
    obtain ⟨last, hlast, hle⟩ := h.issued retry hretry
    by_contra hlt
    have hlater : s.shared.now < last := by omega
    have hlocked := InMemoryRateLimiter.isLocked_status_iff.2 ⟨last, hlast, hlater⟩
    rw [hopen] at hlocked
    cases hlocked
  have hnotried : ∀ j, t.phase id j ≠ .tried := by
    intro j hj
    have hij := honly j (.inr hj)
    rw [hphase, if_pos hij] at hj
    cases hj
  refine ⟨horderly, fun j => ?_, fun j k hj hk => (honly j hj).symm.trans (honly k hk), ?_, fun _ _ => ?_, ?_, fun _ => ?_,
    fun j hj => absurd hj (hnotried j)⟩
  · rw [hphase]
    split
    · exact nofun
    · exact h.tame j
  · rw [hcooldowns, hshared]
    exact h.issued
  · rw [hcooldowns, hshared]
    exact hcooled
  · unfold expired
    rw [hcooldowns, hshared]
    exact h.spent
  · rw [hverified, hcooldowns]
    exact h.idle fun j hj => hnobody j (.inr hj)

theorem paced_wrong (hi : s.phase id i = .passed) (hphase : ∀ j, t.phase id j = if i = j then .tried else s.phase id j)
    (hnow : t.shared.now = s.shared.now) (hlimiter : t.shared.rateLimiters id = s.shared.rateLimiters id)
    (hverified : verifications id t = verifications id s + 1) (hcooldowns : cooldowns id t = cooldowns id s) :
    Paced id t := by
  have hbetween : ∀ j, t.Between id j → s.Between id j := by
    intro j hj
    unfold System.Between at hj
    rw [hphase] at hj
    split at hj
    · next hij => exact .inl (hij ▸ hi)
    · exact hj
  have hnotried : ∀ j, s.phase id j ≠ .tried := by
    intro j hj
    have hij := h.alone i j (.inl hi) (.inr hj)
    rw [← hij, hi] at hj
    cases hj
  refine ⟨horderly, fun j => ?_, fun j k hj hk => h.alone j k (hbetween j hj) (hbetween k hk), ?_,
    fun j hj retry hretry => ?_, ?_, fun hnone => ?_, fun j hj => ?_⟩
  · rw [hphase]
    split
    · exact nofun
    · exact h.tame j
  · rw [hcooldowns, hlimiter]
    exact h.issued
  · rw [hcooldowns] at hretry
    rw [hnow]
    exact h.cooled j (hbetween j hj) retry hretry
  · unfold expired
    rw [hcooldowns, hnow]
    exact h.spent
  · refine absurd ?_ (hnone i)
    rw [hphase, if_pos rfl]
  · rw [hverified, hcooldowns, h.idle hnotried]

end

theorem paced_act (h : Paced id s) (hwrong : WrongSecrets id s (.act i o))
    (halone : Serialised id s (.act i o)) (hstep : step s (.act i o) = some t) : Paced id t := by
  have horderly := orderly_step h.orderly hstep
  have hastray : t.phase id i ≠ .astray := horderly.here nofun (fun _ _ hE => hE) i
  obtain ⟨op, next, hp, hshared, hphase, hverified, hcooldowns⟩ := act_counts id hstep
  have hnow : t.shared.now = s.shared.now := by rw [hshared, perform_now]
  have hi := hphase i
  rw [if_pos rfl] at hi
  have hlimiter : op.mark id (op.perform o s.shared).1 ≠ .failure → op.mark id (op.perform o s.shared).1 ≠ .success →
      t.shared.rateLimiters id = s.shared.rateLimiters id := by
    rw [hshared]
    exact perform_limiter
  have hsameVerified : op.mark id (op.perform o s.shared).1 ≠ .wrong → op.mark id (op.perform o s.shared).1 ≠ .right →
      verifications id t = verifications id s := by
    intro hw hr
    rw [hverified, if_neg (not_verifies hw hr), Nat.add_zero]
  have hsameCooldowns : op.mark id (op.perform o s.shared).1 ≠ .failure → cooldowns id t = cooldowns id s := by
    intro hf
    have hrecords : ¬ op.records = some id := fun heq => hf (mark_eq_failure.2 (records_eq_some.1 heq))
    rw [hcooldowns, if_neg hrecords, Option.toList_none, append_nil]
  have hmoved : ∀ q, (op.mark id (op.perform o s.shared).1).move (s.phase id i) = q →
      ∀ j, t.phase id j = if i = j then q else s.phase id j := by
    rintro _ rfl j
    rw [hphase]
    split
    · next hij => rw [← hij]
    · rfl
  rw [hi] at hastray
  rcases move_cases hastray (h.tame i) (h.not_astray i) with hm | ⟨hm, hpi⟩ | ⟨hm, hpi⟩ | ⟨hm, hpi⟩ | ⟨hm, hpi⟩ | ⟨hm, hpi⟩
  all_goals rw [hm] at hmoved hlimiter hsameVerified hsameCooldowns
  · refine h.keep horderly (fun j => ?_) (hlimiter nofun nofun) hnow.ge (hsameVerified nofun nofun) (hsameCooldowns nofun)
    rw [hmoved _ rfl]
    split
    · next hij => rw [← hij]; rfl
    · rfl
  · refine h.keep horderly (fun j => ?_) (hlimiter nofun nofun) hnow.ge (hsameVerified nofun nofun) (hsameCooldowns nofun)
    rw [hpi] at hmoved
    rw [hmoved _ rfl]
    split
    · next hij => rw [← hij, hpi]; rfl
    · rfl
  · obtain ⟨rfl, hopen⟩ := mark_eq_pass.1 hm
    rw [hpi] at hmoved
    exact paced_pass h horderly (hmoved .passed rfl) hshared (hsameVerified nofun nofun) (hsameCooldowns nofun) hopen
      (halone ⟨next, hp⟩ hopen)
  · have hop := verifies_of_mark (.inl hm)
    rw [hpi] at hmoved
    refine paced_wrong h horderly hpi (hmoved .tried rfl) hnow (hlimiter nofun nofun) ?_ (hsameCooldowns nofun)
    rw [hverified, if_pos hop]
  · have hop := verifies_of_mark (.inr hm)
    rw [mark_of_verifies hop, if_pos (hwrong op next hp hop)] at hm
    cases hm
  · have hop := mark_eq_failure.1 hm
    subst hop
    obtain ⟨last, hlast, hlater⟩ := (s.shared.rateLimiters id).recordFailure_nextRetry s.shared.now
    have hnext : (t.shared.rateLimiters id).nextRetryAtMs = some last := by
      rw [hshared, ← hlast]
      exact congrArg _ (Function.update_self ..)
    rw [hpi] at hmoved
    refine paced_failure h horderly hpi (hmoved .outside rfl) hnow (hsameVerified nofun nofun) hnext hlater ?_
    rw [hcooldowns, if_pos (records_eq_some.2 rfl), ← hshared, hnext]
    rfl

theorem paced_step {l : Step} (h : Paced id s) (hwrong : WrongSecrets id s l) (halone : Serialised id s l)
    (hclock : ClockForward s l) (hstep : step s l = some t) : Paced id t := by
  rcases step_cases hstep with ⟨call, rfl, rfl⟩ | ⟨i, o, rfl, -⟩ | ⟨-, -, rfl⟩
  · exact h.keep (orderly_step h.orderly hstep) (fun _ => rfl) rfl le_rfl rfl rfl
  · exact paced_act h hwrong halone hstep
  · obtain ⟨hlimiter, hnow⟩ : (s.shared.outside l).rateLimiters = s.shared.rateLimiters ∧
        s.shared.now ≤ (s.shared.outside l).now := by
      cases l with
      | dispatch event =>
        obtain ⟨bus, heq⟩ := s.shared.moveMachine_snd fun m => m.dispatch event
        change (s.shared.moveMachine _).2.rateLimiters = _ ∧ _ ≤ (s.shared.moveMachine _).2.now
        rw [heq]
        exact ⟨rfl, le_rfl⟩
      | tryAdvance =>
        obtain ⟨bus, heq⟩ := s.shared.moveMachine_snd Machine.tryAdvance
        change (s.shared.moveMachine _).2.rateLimiters = _ ∧ _ ≤ (s.shared.moveMachine _).2.now
        rw [heq]
        exact ⟨rfl, le_rfl⟩
      | cancelUnlock tier =>
        obtain ⟨bus, heq⟩ := s.shared.moveMachine_snd fun m => m.instanceDispatch tier (.unlockFailed .userCancelled)
        change (s.shared.moveMachine _).2.rateLimiters = _ ∧ _ ≤ (s.shared.moveMachine _).2.now
        rw [heq]
        exact ⟨rfl, le_rfl⟩
      | clock now => exact ⟨rfl, hclock⟩
      | _ => exact ⟨rfl, le_rfl⟩
    exact h.keep (orderly_step h.orderly hstep) (fun _ => rfl) (congrFun hlimiter id) hnow rfl rfl

/-- **The limiter is not outrun.** There is at most one trial more than cooldowns that have ended, and no trial before
all cooldowns have ended. -/
structure NotOutrun (id : String) (app : App) (ls : List Step) : Prop where
  bound : ∀ pre, pre <+: ls → ∀ s, run step { shared := app } pre = some s → verifications id s ≤ expired id s + 1
  cooled : ∀ pre i o post, ls = pre ++ .act i o :: post → ∀ s, run step { shared := app } pre = some s →
    ∀ op next, s.progs[i]? = some (.call op next) → op.verifies = some id → ∀ retry ∈ cooldowns id s, retry ≤ s.shared.now

theorem Paced.passed_of_verifies (h : Paced id s) {next : op.Resp → Orchestrator Unit}
    (hp : s.progs[i]? = some (.call op next)) (hop : op.verifies = some id) (r : op.Resp) : s.phase id i = .passed := by
  have hkeeps := (h.orderly.keeps i _ hp).2 r
  have hnext : Phase.see id (s.phase id i) op r ≠ .astray := hkeeps.here fun _ _ hE => hE
  rw [Phase.see, mark_of_verifies hop] at hnext
  rcases move_cases hnext (h.tame i) (h.not_astray i) with hm | ⟨hm, -⟩ | ⟨hm, -⟩ | ⟨-, hpi⟩ | ⟨-, hpi⟩ | ⟨hm, -⟩
  · split at hm <;> cases hm
  · split at hm <;> cases hm
  · split at hm <;> cases hm
  · exact hpi
  · exact hpi
  · split at hm <;> cases hm

/-- **When the limiter is not outrun**: secrets are wrong, the clock is not set back, and calls come one at a time. -/
theorem notOutrun_of_serialised (id : String) (app : App) (ls : List Step)
    (hwrong : Along step (WrongSecrets id) { shared := app } ls) (hclock : Along step ClockForward { shared := app } ls)
    (halone : Along step (Serialised id) { shared := app } ls) : NotOutrun id app ls := by
  have hpaced : ∀ pre post, ls = pre ++ post → ∀ s, run step { shared := app } pre = some s → Paced id s := by
    rintro pre post rfl s hs
    refine run_invariant (I := Paced id) (fun s l t hI hok hstep => ?_) (paced_init app)
      (along_and (along_append hwrong).1 (along_and (along_append halone).1 (along_append hclock).1)) hs
    exact paced_step hI hok.1 hok.2.1 hok.2.2 hstep
  refine ⟨?_, ?_⟩
  · rintro pre ⟨post, hpost⟩ s hs
    exact (hpaced pre post hpost.symm s hs).bound
  · intro pre i o post hsplit s hs op next hp hop
    have hI := hpaced pre _ hsplit s hs
    exact hI.cooled i (.inl (hI.passed_of_verifies hp hop (op.perform o s.shared).1))

end Paced

section Samples

def oneByOne : List Step :=
  .begin (.unlockParanoid [1]) :: List.replicate 5 (.act 0 {}) ++ .clock 1000 ::
    .begin (.unlockParanoid [2]) :: List.replicate 5 (.act 1 {})

def twoAtOnce : List Step :=
  .begin (.unlockParanoid [1]) :: .begin (.unlockParanoid [2]) :: List.replicate 3 (.act 0 {}) ++
    List.replicate 3 (.act 1 {})

theorem wrongSecrets_of_rejects (s : System) (l : Step) (h : (match l with
    | .act i o =>
      match s.progs[i]? with
      | some (.call op _) => op.verifies != some id || op.rejects (op.perform o s.shared).1
      | _ => true
    | _ => true) = true) : WrongSecrets id s l := by
  cases l with
  | act i o =>
    intro op next hp hop
    simpa [hp, hop] using h
  | _ => trivial

theorem clockForward_of_le (s : System) (l : Step) (h : (match l with
    | .clock now => decide (s.shared.now ≤ now)
    | _ => true) = true) : ClockForward s l := by
  cases l with
  | clock now => exact (decide_eq_true_iff (p := s.shared.now ≤ now)).1 h
  | _ => trivial

theorem serialised_of_quiet (s : System) (l : Step) (h : (match l with
    | .act i _ =>
      match s.progs[i]? with
      | some (.call (.limiterStatus k) _) =>
        k != id || ((s.shared.rateLimiters id).status s.shared.now).isLocked ||
          s.log.all fun e => s.phase id e.thread != .passed && s.phase id e.thread != .tried
      | _ => true
    | _ => true) = true) : Serialised id s l := by
  cases l with
  | act i o =>
    rintro ⟨next, hp⟩ hopen j hj
    simp only [hp, hopen, bne_self_eq_false, Bool.false_or, all_eq_true, Bool.and_eq_true, bne_iff_ne] at h
    by_cases hmem : ∃ e ∈ s.log, e.thread = j
    · obtain ⟨e, he, rfl⟩ := hmem
      exact hj.elim (h e he).1 (h e he).2
    have hnil : s.log.filter (·.thread = j) = [] := by
      rw [filter_eq_nil_iff]
      intro e he heq
      exact hmem ⟨e, he, of_decide_eq_true heq⟩
    have hout : s.phase id j = .outside := by
      rw [System.phase, Threads.notes, hnil]
      rfl
    rw [System.Between, hout] at hj
    rcases hj with hj | hj <;> cases hj
  | _ => trivial

/-- One call after the other: two trials, and both cooldowns count. -/
theorem notOutrun_one_by_one : NotOutrun paranoidUnlockLimiterId {} oneByOne := by
  refine notOutrun_of_serialised paranoidUnlockLimiterId {} oneByOne
    (along_of_checks wrongSecrets_of_rejects (by decide +kernel))
    (along_of_checks clockForward_of_le (by decide +kernel))
    (along_of_checks serialised_of_quiet (by decide +kernel))

theorem notOutrun_two_at_once : Along step (WrongSecrets paranoidUnlockLimiterId) { shared := {} } twoAtOnce ∧
    Along step ClockForward { shared := {} } twoAtOnce ∧
    (∃ s, run step { shared := {} } twoAtOnce = some s ∧ verifications paranoidUnlockLimiterId s = 2 ∧
      cooldowns paranoidUnlockLimiterId s = []) ∧ ¬ NotOutrun paranoidUnlockLimiterId {} twoAtOnce := by
  refine ⟨along_of_checks wrongSecrets_of_rejects (by decide +kernel),
    along_of_checks clockForward_of_le (by decide +kernel), ⟨_, rfl, by decide +kernel, by decide +kernel⟩, fun h => ?_⟩
  have hbound := h.bound twoAtOnce prefix_rfl _ rfl
  exact absurd hbound (by decide +kernel)

end Samples

end LetsFlutSsh.Security.Unlock
