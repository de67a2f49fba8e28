import LetsFlutSsh.Lib.Run
import LetsFlutSsh.Transfer.Queue

/-!
# Transfers: the worker pool

`transfer/driver.rs` and its callers in `api/transfer.rs`, one step for each access to what they share:

* `Worker`, `System`, `Step`, `step` : where each worker stands, and what a caller or a worker can do;
* `Life` : what holds of a task that is enqueued once, whatever the order of the steps (`life_step`);
* `lifeCycle_of_timely` : when no cancel request comes before the pick-up, and none is overwritten, a terminal
  state is final and a cancelled task is not executed.
-/

namespace LetsFlutSsh.Transfer
open Lib List Option Function

/-! ## Steps -/

/-- Where a worker stands in `run_one`. -/
inductive Worker where
  | idle
  /-- An id came off the channel. -/
  | received (id : TaskId)
  /-- The row was there. -/
  | picked (task : TaskSnapshot)
  /-- The cancellation token is in the map. -/
  | registered (task : TaskSnapshot) (token : Nat)
  /-- The row was set to running, the executor called. -/
  | called (task : TaskSnapshot) (token : Nat)
  /-- The executor got past its first check of the token. -/
  | executing (task : TaskSnapshot) (token : Nat)
  | returned (task : TaskSnapshot) (token : Nat) (result : Except String Unit)
  /-- The token is out of the map. -/
  | released (task : TaskSnapshot) (token : Nat) (result : Except String Unit)

def Worker.task : Worker → Option TaskId
  | .idle => none
  | .received id => some id
  | .picked task | .registered task _ | .called task _ | .executing task _ | .returned task _ _ | .released task _ _ =>
    some task.id

/-- The queue, the pool, and what has happened so far. -/
structure System where
  transfers : TransferQueue := .new
  /-- The callers that enqueued a task and wait to dispatch it. -/
  sending : List TaskId := []
  channel : List TaskId := []
  cancelTokens : TaskId → Option Nat := fun _ => none
  tokens : List Bool := []
  worker : Nat → Worker := fun _ => .idle
  enqueued : List TaskId := []
  pickedUp : List TaskId := []
  executed : List TaskId := []
  /-- The tasks somebody asked to cancel before a worker picked them up. -/
  cancelledEarly : List TaskId := []

inductive Step where
  | enqueue (req : EnqueueRequest)
  | send (id : TaskId)
  | transferCancel (id : TaskId)
  | queueCancel (id : TaskId)
  | dropTerminal (id : TaskId)
  | receive (w : Nat)
  | pickUp (w : Nat)
  | register (w : Nat)
  | setRunning (w : Nat)
  | start (w : Nat)
  | progress (w : Nat) (bytesDone now : Nat)
  | finish (w : Nat) (result : Except String Unit)
  | release (w : Nat)
  | settle (w : Nat)

namespace System

def setWorker (s : System) (w : Nat) (x : Worker) : System := { s with worker := update s.worker w x }

/-- A cancel request for a task that is in the queue and has not been picked up. -/
def noteCancel (s : System) (id : TaskId) : System :=
  if (s.transfers.state id).isSome ∧ id ∉ s.pickedUp then { s with cancelledEarly := id :: s.cancelledEarly } else s

/-- `CancellationToken::cancel`, on the token of a task that has one. -/
def flipToken (s : System) (id : TaskId) : System :=
  match s.cancelTokens id with
  | none => s
  | some token => { s with tokens := s.tokens.set token true }

def isCancelled (s : System) (token : Nat) : Bool := s.tokens.getD token false

end System

/-- `TransferQueue::cancel` or `fail` or `set_state`, as `run_one` ends. -/
def settled (q : TransferQueue) (id : TaskId) (cancelled : Bool) (result : Except String Unit) : TransferQueue :=
  if cancelled then (q.cancel id).1
  else
    match result with
    | .ok () => q.setState id .completed
    | .error e => q.fail id e

def step (workerCount : Nat) (s : System) : Step → Option System
  | .enqueue req =>
    some { s with
      transfers := (s.transfers.enqueue req).1
      sending := req.id :: s.sending
      enqueued := req.id :: s.enqueued }
  | .send id =>
    if id ∈ s.sending ∧ s.channel.length < max (workerCount * 2) 8 then
      some { s with sending := s.sending.erase id, channel := s.channel ++ [id] }
    else none
  | .transferCancel id => some ((s.noteCancel id).flipToken id)
  | .queueCancel id => some { s.noteCancel id with transfers := (s.transfers.cancel id).1 }
  | .dropTerminal id => some { s with transfers := (s.transfers.dropTerminal id).1 }
  | .receive w =>
    match s.worker w, s.channel with
    | .idle, id :: rest =>
      if w < workerCount then some { s.setWorker w (.received id) with channel := rest } else none
    | _, _ => none
  | .pickUp w =>
    match s.worker w with
    | .received id =>
      match s.transfers.snapshot id with
      | none => some (s.setWorker w .idle)
      | some task => some { s.setWorker w (.picked task) with pickedUp := id :: s.pickedUp }
    | _ => none
  | .register w =>
    match s.worker w with
    | .picked task =>
      some { s.setWorker w (.registered task s.tokens.length) with
        tokens := s.tokens ++ [false]
        cancelTokens := update s.cancelTokens task.id (some s.tokens.length) }
    | _ => none
  | .setRunning w =>
    match s.worker w with
    | .registered task token =>
      some { s.setWorker w (.called task token) with transfers := s.transfers.setState task.id .running }
    | _ => none
  | .start w =>
    match s.worker w with
    | .called task token =>
      if s.isCancelled token then some (s.setWorker w (.returned task token (.error "io: cancelled before start")))
      else some { s.setWorker w (.executing task token) with executed := task.id :: s.executed }
    | _ => none
  | .progress w bytesDone now =>
    match s.worker w with
    | .executing task _ => some { s with transfers := s.transfers.setProgress task.id bytesDone now }
    | _ => none
  | .finish w result =>
    match s.worker w with
    | .executing task token => some (s.setWorker w (.returned task token result))
    | _ => none
  | .release w =>
    match s.worker w with
    | .returned task token result =>
      some { s.setWorker w (.released task token result) with
        cancelTokens := update s.cancelTokens task.id none }
    | _ => none
  | .settle w =>
    match s.worker w with
    | .released task token result =>
      some { s.setWorker w .idle with
        transfers := settled s.transfers task.id (s.isCancelled token) result }
    | _ => none

theorem state_settled (q : TransferQueue) (id k : TaskId) (cancelled : Bool) (result : Except String Unit) :
    (settled q id cancelled result).state k =
      if k = id then
        (q.state k).map fun s =>
          if cancelled then (if s.terminal then s else .cancelled)
          else if result.isOk then .completed else .failed
      else q.state k := by
  rcases cancelled with _ | _
  · rcases result with e | ⟨⟩
    · exact q.state_fail id k e
    · exact q.state_setState id k .completed
  · exact q.state_cancel id k

/-! ## What a worker's step can do -/

section Inversion

variable {n w : Nat} {s t : System}

theorem step_receive (h : step n s (.receive w) = some t) : ∃ id rest, s.worker w = .idle ∧ s.channel = id :: rest ∧
    t = { s.setWorker w (.received id) with channel := rest } := by
  rcases hw : s.worker w with _ | _ | _ | _ | _ | _ | _ | _
  case idle =>
    rcases hchan : s.channel with _ | ⟨id, rest⟩
    · simp [step, hw, hchan] at h
    · simp only [step, hw, hchan] at h
      split at h
      · cases h
        exact ⟨id, rest, rfl, rfl, rfl⟩
      · cases h
  all_goals simp [step, hw] at h

theorem step_pickUp (h : step n s (.pickUp w) = some t) : ∃ id, s.worker w = .received id ∧
    (s.transfers.state id = none ∧ t = s.setWorker w .idle ∨ ∃ task, task.id = id ∧ (s.transfers.state id).isSome ∧
        t = { s.setWorker w (.picked task) with pickedUp := id :: s.pickedUp }) := by
  rcases hw : s.worker w with _ | id | _ | _ | _ | _ | _ | _
  case received =>
    refine ⟨id, rfl, ?_⟩
    rcases hrow : s.transfers.snapshot id with _ | task
    · simp only [step, hw, hrow] at h
      cases h
      exact .inl ⟨(s.transfers.snapshot_eq_none_iff id).1 hrow, rfl⟩
    · simp only [step, hw, hrow] at h
      cases h
      refine .inr ⟨task, TransferQueue.snapshot_id _ _ hrow, ?_, rfl⟩
      rw [isSome_iff_ne_none, Ne, ← TransferQueue.snapshot_eq_none_iff, hrow]
      exact nofun
  all_goals simp [step, hw] at h

theorem step_register (h : step n s (.register w) = some t) : ∃ task, s.worker w = .picked task ∧
    t = { s.setWorker w (.registered task s.tokens.length) with
      tokens := s.tokens ++ [false]
      cancelTokens := update s.cancelTokens task.id (some s.tokens.length) } := by
  simp only [step] at h
  split at h
  · next task hw =>
    cases h
    exact ⟨task, hw, rfl⟩
  · cases h

theorem step_setRunning (h : step n s (.setRunning w) = some t) : ∃ task token, s.worker w = .registered task token ∧
    t = { s.setWorker w (.called task token) with transfers := s.transfers.setState task.id .running } := by
  simp only [step] at h
  split at h
  · next task token hw =>
    cases h
    exact ⟨task, token, hw, rfl⟩
  · cases h

theorem step_start (h : step n s (.start w) = some t) : ∃ task token, s.worker w = .called task token ∧
    ((∃ result, t = s.setWorker w (.returned task token result)) ∨
      t = { s.setWorker w (.executing task token) with executed := task.id :: s.executed }) := by
  rcases hw : s.worker w with _ | _ | _ | _ | ⟨task, token⟩ | _ | _ | _
  case called =>
    simp only [step, hw] at h
    split at h
    · cases h
      exact ⟨task, token, rfl, .inl ⟨_, rfl⟩⟩
    · cases h
      exact ⟨task, token, rfl, .inr rfl⟩
  all_goals simp [step, hw] at h

theorem step_progress {bytesDone now : Nat} (h : step n s (.progress w bytesDone now) = some t) :
    ∃ id, t = { s with transfers := s.transfers.setProgress id bytesDone now } := by
  simp only [step] at h
  split at h
  · next task token _ =>
    cases h
    exact ⟨task.id, rfl⟩
  · cases h

theorem step_finish {result : Except String Unit} (h : step n s (.finish w result) = some t) :
    ∃ task token, s.worker w = .executing task token ∧ t = s.setWorker w (.returned task token result) := by
  simp only [step] at h
  split at h
  · next task token hw =>
    cases h
    exact ⟨task, token, hw, rfl⟩
  · cases h

theorem step_release (h : step n s (.release w) = some t) : ∃ task token result, s.worker w = .returned task token result ∧
    t = { s.setWorker w (.released task token result) with
      cancelTokens := update s.cancelTokens task.id none } := by
  simp only [step] at h
  split at h
  · next task token result hw =>
    cases h
    exact ⟨task, token, result, hw, rfl⟩
  · cases h

theorem step_settle (h : step n s (.settle w) = some t) : ∃ task token result, s.worker w = .released task token result ∧
    t = { s.setWorker w .idle with transfers := settled s.transfers task.id (s.isCancelled token) result } := by
  simp only [step] at h
  split at h
  · next task token result hw =>
    cases h
    exact ⟨task, token, result, hw, rfl⟩
  · cases h

theorem noteCancel_cases (s : System) (id : TaskId) : s.noteCancel id = s ∨
    id ∉ s.pickedUp ∧ s.noteCancel id = { s with cancelledEarly := id :: s.cancelledEarly } := by
  unfold System.noteCancel
  split
  · next h => exact .inr ⟨h.2, rfl⟩
  · exact .inl rfl

theorem transferCancel_fields (s : System) (id : TaskId) :
    ∃ tokens, (s.noteCancel id).flipToken id = { s.noteCancel id with tokens := tokens } := by
  unfold System.flipToken
  split
  · exact ⟨(s.noteCancel id).tokens, rfl⟩
  · exact ⟨_, rfl⟩

end Inversion

variable {a : TaskState} {w : Nat} {x : Worker} {id : TaskId}

/-! ## One task -/

section OneTask

variable {n : Nat} {s t : System} {i : TaskId} {l : Step}

def waiting (s : System) (i : TaskId) : Nat := s.sending.count i + s.channel.count i

def Held (s : System) (w : Nat) (i : TaskId) : Prop := (s.worker w).task = some i

def Carried (s : System) (i : TaskId) : Prop := 0 < waiting s i ∨ ∃ w, Held s w i

def Unsettled (s : System) (i : TaskId) : Prop :=
  s.transfers.state i ≠ some .completed ∧ s.transfers.state i ≠ some .failed

/-- **A task enqueued once.** It is on its way once or at one worker, and while it is, nothing completed it or let it
fail. -/
structure Life (s : System) (i : TaskId) : Prop where
  fresh : i ∉ s.enqueued → s.transfers.state i = none ∧ ¬ Carried s i
  once : waiting s i ≤ 1
  alone : ∀ w, Held s w i → waiting s i = 0 ∧ ∀ w', Held s w' i → w' = w
  carried : Carried s i → Unsettled s i

def OnceEnqueued (i : TaskId) (s : System) : Step → Prop
  | .enqueue req => req.id = i → i ∉ s.enqueued
  | _ => True

/-- After the step the task is nowhere it was not before. -/
structure Kept (s t : System) (i : TaskId) : Prop where
  waiting : waiting t i = waiting s i
  enqueued : i ∈ s.enqueued → i ∈ t.enqueued
  held : ∀ w, Held t w i → Held s w i

theorem Kept.carried (k : Kept s t i) (h : Carried t i) : Carried s i := by
  rcases h with h | ⟨w, h⟩
  · exact .inl (k.waiting ▸ h)
  · exact .inr ⟨w, k.held w h⟩

theorem Life.keep (h : Life s i) (k : Kept s t i) (hnone : s.transfers.state i = none → t.transfers.state i = none)
    (hopen : Carried t i → Unsettled t i) : Life t i := by
  refine ⟨fun hfresh => ?_, ?_, fun w hw => ?_, hopen⟩
  · obtain ⟨hstate, hnot⟩ := h.fresh fun hmem => hfresh (k.enqueued hmem)
    exact ⟨hnone hstate, fun hc => hnot (k.carried hc)⟩
  · rw [k.waiting]
    exact h.once
  · obtain ⟨hwait, halone⟩ := h.alone w (k.held w hw)
    exact ⟨k.waiting.trans hwait, fun w' hw' => halone w' (k.held w' hw')⟩

theorem Life.keepState (h : Life s i) (k : Kept s t i) (hstate : t.transfers.state i = s.transfers.state i) : Life t i := by
  refine h.keep k (fun hnone => hstate.trans hnone) fun hc => ?_
  unfold Unsettled
  rw [hstate]
  exact h.carried (k.carried hc)

theorem held_setWorker {w' : Nat} :
    Held (s.setWorker w x) w' i ↔ if w' = w then x.task = some i else Held s w' i := by
  unfold Held System.setWorker
  dsimp only
  rw [update_apply]
  split <;> rfl

theorem held_of_setWorker {w' : Nat} (hx : x.task = some i → (s.worker w).task = some i)
    (h : Held (s.setWorker w x) w' i) : Held s w' i := by
  rw [held_setWorker] at h
  split at h
  · next hw =>
    subst hw
    exact hx h
  · exact h

theorem life_enqueue (h : Life s i) {req : EnqueueRequest} (honce : OnceEnqueued i s (.enqueue req))
    (hstep : step n s (.enqueue req) = some t) : Life t i := by
  cases hstep
  by_cases hid : req.id = i
  · obtain ⟨hstate, hnot⟩ := h.fresh (honce hid)
    have hwait : waiting s i = 0 := by
      by_contra hpos
      exact hnot (.inl (Nat.pos_of_ne_zero hpos))
    refine ⟨fun hfresh => absurd (hid ▸ mem_cons_self) hfresh, ?_, fun w hw => absurd (.inr ⟨w, hw⟩) hnot, ?_⟩
    · unfold waiting at hwait ⊢
      dsimp only
      rw [hid, count_cons_self]
      omega
    · intro _
      unfold Unsettled
      rw [TransferQueue.state_enqueue, if_pos hid.symm]
      exact ⟨nofun, nofun⟩
  · refine h.keepState ⟨?_, fun hmem => mem_cons_of_mem _ hmem, fun w hw => hw⟩ ?_
    · unfold waiting
      rw [count_cons_of_ne hid]
    · rw [TransferQueue.state_enqueue, if_neg fun heq => hid heq.symm]

theorem life_receive (h : Life s i) (hstep : step n s (.receive w) = some t) : Life t i := by
  obtain ⟨id, rest, hw, hchan, rfl⟩ := step_receive hstep
  by_cases hid : id = i
  · subst hid
    have hcount : waiting s id = s.sending.count id + (rest.count id + 1) := by
      unfold waiting
      rw [hchan, count_cons_self]
    have hpos : 0 < waiting s id := by omega
    have hwait : s.sending.count id + rest.count id = 0 := by
      have hone := h.once
      omega
    have hheld : ∀ w', Held (s.setWorker w (.received id)) w' id → w' = w := by
      intro w' hw'
      rw [held_setWorker] at hw'
      by_contra hne
      rw [if_neg hne] at hw'
      exact absurd (h.alone w' hw').1 (Nat.pos_iff_ne_zero.1 hpos)
    refine ⟨fun hfresh => absurd (.inl hpos) (h.fresh hfresh).2, ?_, fun w' hw' => ⟨hwait, fun w'' hw'' => ?_⟩,
      fun _ => h.carried (.inl hpos)⟩
    · show s.sending.count id + rest.count id ≤ 1
      omega
    · rw [hheld w'' hw'', hheld w' hw']
  · refine h.keepState ⟨?_, fun hmem => hmem, fun w' hw' => ?_⟩ rfl
    · unfold waiting
      rw [hchan, count_cons_of_ne hid]
      rfl
    · exact held_of_setWorker (x := .received id) (fun hx => absurd (Option.some.inj hx) hid) hw'

theorem kept_setWorker (hx : x.task = some i → (s.worker w).task = some i)
    (hworker : t.worker = (s.setWorker w x).worker) (hsend : t.sending = s.sending) (hchan : t.channel = s.channel)
    (henq : t.enqueued = s.enqueued) : Kept s t i := by
  refine ⟨?_, fun hmem => henq ▸ hmem, fun w' hw' => ?_⟩
  · unfold waiting
    rw [hsend, hchan]
  · unfold Held at hw'
    rw [hworker] at hw'
    exact held_of_setWorker hx hw'

theorem Life.keepMap (h : Life s i) (k : Kept s t i) {g : TaskState → TaskState}
    (hg : ∀ a, g a = .completed ∨ g a = .failed → g a = a)
    (hstate : t.transfers.state i = s.transfers.state i ∨ t.transfers.state i = (s.transfers.state i).map g) :
    Life t i := by
  rcases hstate with hstate | hstate
  · exact h.keepState k hstate
  refine h.keep k (fun hnone => by rw [hstate, hnone]; rfl) fun hc => ?_
  have hs := h.carried (k.carried hc)
  unfold Unsettled at hs ⊢
  rw [hstate]
  rcases hrow : s.transfers.state i with _ | a
  · exact ⟨nofun, nofun⟩
  rw [hrow] at hs
  rw [map_some]
  constructor
  · intro heq
    have hga := hg a (.inl (Option.some.inj heq))
    exact hs.1 (by rw [← hga, heq])
  · intro heq
    have hga := hg a (.inr (Option.some.inj heq))
    exact hs.2 (by rw [← hga, heq])

theorem life_queueCancel (h : Life s i) (hstep : step n s (.queueCancel id) = some t) : Life t i := by
  cases hstep
  have hkept : Kept s { s.noteCancel id with transfers := (s.transfers.cancel id).1 } i := by
    rcases noteCancel_cases s id with hnote | ⟨-, hnote⟩
    · rw [hnote]
      exact ⟨rfl, fun hmem => hmem, fun w hw => hw⟩
    · rw [hnote]
      exact ⟨rfl, fun hmem => hmem, fun w hw => hw⟩
  refine h.keepMap hkept (g := fun a => if a.terminal then a else .cancelled) (fun a ha => ?_) ?_
  · split at ha
    · next hterm => rw [if_pos hterm]
    · rcases ha with ha | ha <;> cases ha
  · rw [TransferQueue.state_cancel]
    split
    · exact .inr rfl
    · exact .inl rfl

theorem life_dropTerminal (h : Life s i) (hstep : step n s (.dropTerminal id) = some t) : Life t i := by
  cases hstep
  have hkept : Kept s { s with transfers := (s.transfers.dropTerminal id).1 } i :=
    ⟨rfl, fun hmem => hmem, fun w hw => hw⟩
  have hrow : (s.transfers.dropTerminal id).1.state i = s.transfers.state i ∨
      (s.transfers.dropTerminal id).1.state i = none := by
    rw [TransferQueue.state_dropTerminal]
    split
    · rcases s.transfers.state i with _ | a
      · exact .inl rfl
      · rw [filter_some]
        split
        · exact .inl rfl
        · exact .inr rfl
    · exact .inl rfl
  rcases hrow with hrow | hrow
  · exact h.keepState hkept hrow
  · refine h.keep hkept (fun _ => hrow) fun _ => ?_
    unfold Unsettled
    rw [hrow]
    exact ⟨nofun, nofun⟩

theorem life_settle (h : Life s i) (hstep : step n s (.settle w) = some t) : Life t i := by
  obtain ⟨task, token, result, hw, rfl⟩ := step_settle hstep
  have hkept : Kept s { s.setWorker w .idle with
      transfers := settled s.transfers task.id (s.isCancelled token) result } i :=
    kept_setWorker (w := w) (x := .idle) nofun rfl rfl rfl rfl
  refine h.keep hkept (fun hnone => ?_) fun hc => ?_
  · rw [state_settled, hnone]
    simp
  have hid : i ≠ task.id := by
    rintro rfl
    obtain ⟨hwait, halone⟩ := h.alone w (congrArg Worker.task hw)
    rcases hc with hc | ⟨w', hw'⟩
    · exact absurd hwait (Nat.pos_iff_ne_zero.1 hc)
    · have hw'' : Held (s.setWorker w .idle) w' task.id := hw'
      rw [held_setWorker] at hw''
      split at hw''
      · cases hw''
      · next hne => exact hne (halone w' hw'')
  have hs : Unsettled s i := h.carried (hkept.carried hc)
  unfold Unsettled at hs ⊢
  rw [state_settled, if_neg hid]
  exact hs

theorem life_step (h : Life s i) (honce : OnceEnqueued i s l) (hstep : step n s l = some t) : Life t i := by
  rcases l with req | id | id | id | id | w | w | w | w | w | ⟨w, bytesDone, now⟩ | ⟨w, result⟩ | w | w
  case enqueue => exact life_enqueue h honce hstep
  case send =>
    simp only [step] at hstep
    split at hstep
    · next hsend =>
      cases hstep
      refine h.keepState ⟨?_, fun hmem => hmem, fun w hw => hw⟩ rfl
      unfold waiting
      rw [count_append, count_erase]
      by_cases hid : id = i
      · subst hid
        have hpos := count_pos_iff.2 hsend.1
        simp
        omega
      · simp [hid]
    · cases hstep
  case transferCancel =>
    cases hstep
    obtain ⟨tokens, heq⟩ := transferCancel_fields s id
    rw [heq]
    rcases noteCancel_cases s id with hnote | ⟨-, hnote⟩
    · rw [hnote]
      exact h.keepState ⟨rfl, fun hmem => hmem, fun w hw => hw⟩ rfl
    · rw [hnote]
      exact h.keepState ⟨rfl, fun hmem => hmem, fun w hw => hw⟩ rfl
  case queueCancel => exact life_queueCancel h hstep
  case dropTerminal => exact life_dropTerminal h hstep
  case receive => exact life_receive h hstep
  case settle => exact life_settle h hstep
  case pickUp =>
    obtain ⟨id, hw, ⟨-, rfl⟩ | ⟨task, hid, -, rfl⟩⟩ := step_pickUp hstep
    · exact h.keepState (kept_setWorker (x := .idle) nofun rfl rfl rfl rfl) rfl
    · refine h.keepState (kept_setWorker (w := w) (x := .picked task) (fun hx => ?_) rfl rfl rfl rfl) rfl
      rw [hw, ← hx]
      exact congrArg some hid.symm
  case register =>
    obtain ⟨task, hw, rfl⟩ := step_register hstep
    exact h.keepState (kept_setWorker (w := w) (x := .registered task _) (hw ▸ id) rfl rfl rfl rfl) rfl
  case setRunning =>
    obtain ⟨task, token, hw, rfl⟩ := step_setRunning hstep
    refine h.keepMap (kept_setWorker (w := w) (x := .called task token) (hw ▸ id) rfl rfl rfl rfl)
      (g := fun _ => .running) nofun ?_
    rw [TransferQueue.state_setState]
    split
    · exact .inr rfl
    · exact .inl rfl
  case start =>
    obtain ⟨task, token, hw, ⟨result, rfl⟩ | rfl⟩ := step_start hstep
    · exact h.keepState (kept_setWorker (x := .returned task token result) (hw ▸ id) rfl rfl rfl rfl) rfl
    · exact h.keepState (kept_setWorker (w := w) (x := .executing task token) (hw ▸ id) rfl rfl rfl rfl) rfl
  case progress =>
    obtain ⟨id, rfl⟩ := step_progress hstep
    exact h.keepState ⟨rfl, fun hmem => hmem, fun w hw => hw⟩ (TransferQueue.state_setProgress _ _ _ _ _)
  case finish =>
    obtain ⟨task, token, hw, rfl⟩ := step_finish hstep
    exact h.keepState (kept_setWorker (x := .returned task token result) (hw ▸ id) rfl rfl rfl rfl) rfl
  case release =>
    obtain ⟨task, token, result, hw, rfl⟩ := step_release hstep
    exact h.keepState (kept_setWorker (w := w) (x := .released task token result) (hw ▸ id) rfl rfl rfl rfl) rfl

/-! ## Cancel requests in time -/

/-- No worker takes up a task that somebody asked to cancel, and none writes over a cancelled row. -/
def Timely (i : TaskId) (s : System) : Step → Prop
  | .pickUp w => s.worker w = .received i → i ∈ s.cancelledEarly → s.transfers.state i = none
  | .setRunning w => Held s w i → s.transfers.state i ≠ some .cancelled
  | .settle w => ∀ task token result, s.worker w = .released task token result → task.id = i →
      s.isCancelled token = false → s.transfers.state i ≠ some .cancelled
  | _ => True

def Worker.pickedUp : Worker → Option TaskId
  | .idle | .received _ => none
  | .picked task | .registered task _ | .called task _ | .executing task _ | .returned task _ _ | .released task _ _ =>
    some task.id

/-- Nobody asked to cancel a task that was then picked up and executed. -/
structure Unasked (s : System) (i : TaskId) : Prop where
  notEarly : i ∈ s.pickedUp → i ∉ s.cancelledEarly
  holder : ∀ w, (s.worker w).pickedUp = some i → i ∈ s.pickedUp
  executed : i ∈ s.executed → i ∈ s.pickedUp

def StaysIn (a : TaskState) (i : TaskId) (s : System) : Prop :=
  i ∈ s.enqueued ∧ (s.transfers.state i = none ∨ s.transfers.state i = some a)

theorem unasked_setWorker (h : Unasked s i)
    (hx : x.pickedUp = some i → (s.worker w).pickedUp = some i)
    (hworker : t.worker = (s.setWorker w x).worker) (hpicked : t.pickedUp = s.pickedUp)
    (hearly : t.cancelledEarly = s.cancelledEarly) (hexec : i ∈ t.executed → i ∈ s.executed ∨ x.pickedUp = some i) :
    Unasked t i := by
  have hholder : ∀ w', (t.worker w').pickedUp = some i → i ∈ s.pickedUp := by
    intro w' hw'
    rw [hworker] at hw'
    unfold System.setWorker at hw'
    dsimp only at hw'
    rw [update_apply] at hw'
    split at hw'
    · exact h.holder w (hx hw')
    · exact h.holder w' hw'
  refine ⟨?_, ?_, fun hmem => ?_⟩
  · rw [hpicked, hearly]
    exact h.notEarly
  · rw [hpicked]
    exact hholder
  · rw [hpicked]
    rcases hexec hmem with hmem | hmem
    · exact h.executed hmem
    · exact h.holder w (hx hmem)

theorem staysIn_of_same (h : StaysIn a i s) (henq : t.enqueued = s.enqueued)
    (hstate : t.transfers.state i = s.transfers.state i) : StaysIn a i t := by
  unfold StaysIn
  rw [henq, hstate]
  exact h

theorem Life.not_terminal (h : Life s i) (hw : Held s w i) (hcancel : s.transfers.state i ≠ some .cancelled)
    (ha : a.terminal = true) : s.transfers.state i ≠ some a := by
  obtain ⟨hdone, hfailed⟩ := h.carried (.inr ⟨w, hw⟩)
  cases a with
  | queued | running => cases ha
  | completed => exact hdone
  | failed => exact hfailed
  | cancelled => exact hcancel

theorem staysIn_write {q : TransferQueue} {g : TaskState → TaskState}
    (h : StaysIn a i s) (hq : q.state i = if i = id then (s.transfers.state i).map g else s.transfers.state i)
    (hkeep : i = id → s.transfers.state i = some a → g a = a) (henq : t.enqueued = s.enqueued)
    (ht : t.transfers = q) : StaysIn a i t := by
  obtain ⟨hmem, hstate⟩ := h
  refine ⟨henq ▸ hmem, ?_⟩
  rw [ht, hq]
  split
  · next hid =>
    rcases hstate with hstate | hstate
    · rw [hstate]
      exact .inl rfl
    · rw [hstate, map_some, hkeep hid hstate]
      exact .inr rfl
  · exact hstate

theorem staysIn_step (ha : a.terminal = true) (hlife : Life s i) (h : StaysIn a i s)
    (hok : OnceEnqueued i s l ∧ Timely i s l) (hstep : step n s l = some t) : StaysIn a i t := by
  obtain ⟨honce, htimely⟩ := hok
  rcases l with req | id | id | id | id | w | w | w | w | w | ⟨w, bytesDone, now⟩ | ⟨w, result⟩ | w | w
  case enqueue =>
    cases hstep
    have hid : i ≠ req.id := fun heq => honce heq.symm h.1
    refine ⟨mem_cons_of_mem _ h.1, ?_⟩
    rw [TransferQueue.state_enqueue, if_neg hid]
    exact h.2
  case send =>
    simp only [step] at hstep
    split at hstep
    · cases hstep
      exact staysIn_of_same h rfl rfl
    · cases hstep
  case transferCancel =>
    cases hstep
    obtain ⟨tokens, heq⟩ := transferCancel_fields s id
    rw [heq]
    rcases noteCancel_cases s id with hnote | ⟨-, hnote⟩
    · rw [hnote]
      exact staysIn_of_same h rfl rfl
    · rw [hnote]
      exact staysIn_of_same h rfl rfl
  case queueCancel =>
    cases hstep
    refine staysIn_write h (s.transfers.state_cancel id i) (fun _ _ => if_pos ha) ?_ rfl
    rcases noteCancel_cases s id with hnote | ⟨-, hnote⟩
    · rw [hnote]
    · rw [hnote]
  case dropTerminal =>
    cases hstep
    refine ⟨h.1, ?_⟩
    rw [TransferQueue.state_dropTerminal]
    split
    · rcases h.2 with hstate | hstate
      · rw [hstate]
        exact .inl rfl
      · rw [hstate, filter_some, ha]
        exact .inl rfl
    · exact h.2
  case receive =>
    obtain ⟨id, rest, hw, hchan, rfl⟩ := step_receive hstep
    exact staysIn_of_same h rfl rfl
  case pickUp =>
    obtain ⟨id, hw, ⟨-, rfl⟩ | ⟨task, hid, -, rfl⟩⟩ := step_pickUp hstep
    · exact staysIn_of_same h rfl rfl
    · exact staysIn_of_same h rfl rfl
  case register =>
    obtain ⟨task, hw, rfl⟩ := step_register hstep
    exact staysIn_of_same h rfl rfl
  case setRunning =>
    obtain ⟨task, token, hw, rfl⟩ := step_setRunning hstep
    refine staysIn_write h (s.transfers.state_setState task.id i .running) (fun hid hstate => ?_) rfl rfl
    have hheld : Held s w i := by
      rw [hid]
      exact congrArg Worker.task hw
    exact absurd hstate (hlife.not_terminal hheld (htimely hheld) ha)
  case start =>
    obtain ⟨task, token, hw, ⟨result, rfl⟩ | rfl⟩ := step_start hstep
    · exact staysIn_of_same h rfl rfl
    · exact staysIn_of_same h rfl rfl
  case progress =>
    obtain ⟨id, rfl⟩ := step_progress hstep
    exact staysIn_of_same h rfl (TransferQueue.state_setProgress _ _ _ _ _)
  case finish =>
    obtain ⟨task, token, hw, rfl⟩ := step_finish hstep
    exact staysIn_of_same h rfl rfl
  case release =>
    obtain ⟨task, token, result, hw, rfl⟩ := step_release hstep
    exact staysIn_of_same h rfl rfl
  case settle =>
    obtain ⟨task, token, result, hw, rfl⟩ := step_settle hstep
    refine staysIn_write h (state_settled _ task.id i _ result) (fun hid hstate => ?_) rfl rfl
    by_cases hflag : s.isCancelled token = true
    · rw [if_pos hflag]
      exact if_pos ha
    · have hheld : Held s w i := by
        rw [hid]
        exact congrArg Worker.task hw
      have hcancel := htimely task token result hw hid.symm (Bool.eq_false_iff.2 hflag)
      exact absurd hstate (hlife.not_terminal hheld hcancel ha)

theorem unasked_step (h : Unasked s i) (htimely : Timely i s l) (hstep : step n s l = some t) : Unasked t i := by
  have hnote : ∀ id, Unasked (s.noteCancel id) i := by
    intro id
    rcases noteCancel_cases s id with hnote | ⟨hnot, hnote⟩
    · rw [hnote]
      exact h
    · rw [hnote]
      refine ⟨fun hmem => ?_, h.holder, h.executed⟩
      rw [mem_cons, not_or]
      refine ⟨?_, h.notEarly hmem⟩
      rintro rfl
      exact hnot hmem
  rcases l with req | id | id | id | id | w | w | w | w | w | ⟨w, bytesDone, now⟩ | ⟨w, result⟩ | w | w
  case enqueue =>
    cases hstep
    exact ⟨h.notEarly, h.holder, h.executed⟩
  case send =>
    simp only [step] at hstep
    split at hstep
    · cases hstep
      exact ⟨h.notEarly, h.holder, h.executed⟩
    · cases hstep
  case transferCancel =>
    cases hstep
    obtain ⟨tokens, heq⟩ := transferCancel_fields s id
    rw [heq]
    exact ⟨(hnote id).notEarly, (hnote id).holder, (hnote id).executed⟩
  case queueCancel =>
    cases hstep
    exact ⟨(hnote id).notEarly, (hnote id).holder, (hnote id).executed⟩
  case dropTerminal =>
    cases hstep
    exact ⟨h.notEarly, h.holder, h.executed⟩
  case receive =>
    obtain ⟨id, rest, hw, hchan, rfl⟩ := step_receive hstep
    exact unasked_setWorker h (x := .received id) nofun rfl rfl rfl .inl
  case pickUp =>
    obtain ⟨id, hw, ⟨-, rfl⟩ | ⟨task, hid, hrow, rfl⟩⟩ := step_pickUp hstep
    · exact unasked_setWorker h (x := .idle) nofun rfl rfl rfl .inl
    refine ⟨fun hmem => ?_, fun w' hw' => ?_, fun hmem => mem_cons_of_mem _ (h.executed hmem)⟩
    · rcases mem_cons.1 hmem with rfl | hmem
      · intro hearly
        rw [htimely hw hearly] at hrow
        cases hrow
      · exact h.notEarly hmem
    · unfold System.setWorker at hw'
      dsimp only at hw'
      rw [update_apply] at hw'
      split at hw'
      · rw [← Option.some.inj hw', hid]
        exact mem_cons_self
      · exact mem_cons_of_mem _ (h.holder w' hw')
  case register =>
    obtain ⟨task, hw, rfl⟩ := step_register hstep
    exact unasked_setWorker h (w := w) (x := .registered task _) (hw ▸ id) rfl rfl rfl .inl
  case setRunning =>
    obtain ⟨task, token, hw, rfl⟩ := step_setRunning hstep
    exact unasked_setWorker h (w := w) (x := .called task token) (hw ▸ id) rfl rfl rfl .inl
  case start =>
    obtain ⟨task, token, hw, ⟨result, rfl⟩ | rfl⟩ := step_start hstep
    · exact unasked_setWorker h (x := .returned task token result) (hw ▸ id) rfl rfl rfl .inl
    · refine unasked_setWorker h (w := w) (x := .executing task token) (hw ▸ id) rfl rfl rfl fun hmem => ?_
      rcases mem_cons.1 hmem with rfl | hmem
      · exact .inr rfl
      · exact .inl hmem
  case progress =>
    obtain ⟨id, rfl⟩ := step_progress hstep
    exact ⟨h.notEarly, h.holder, h.executed⟩
  case finish =>
    obtain ⟨task, token, hw, rfl⟩ := step_finish hstep
    exact unasked_setWorker h (x := .returned task token result) (hw ▸ id) rfl rfl rfl .inl
  case release =>
    obtain ⟨task, token, result, hw, rfl⟩ := step_release hstep
    exact unasked_setWorker h (w := w) (x := .released task token result) (hw ▸ id) rfl rfl rfl .inl
  case settle =>
    obtain ⟨task, token, result, hw, rfl⟩ := step_settle hstep
    exact unasked_setWorker h (w := w) (x := .idle) nofun rfl rfl rfl .inl

end OneTask

/-! ## Runs -/

section Runs

variable {n : Nat} {i : TaskId} {ls : List Step}

def enqueues (i : TaskId) : Step → Bool
  | .enqueue req => req.id == i
  | _ => false

/-- In every state of the run: a terminal state of the task is its last one, until the row is dropped; and what
somebody asked to cancel before a worker picked it up has not been executed. -/
def LifeCycle (n : Nat) (i : TaskId) (ls : List Step) : Prop :=
  (∀ pre mid s t a, pre ++ mid <+: ls → run (step n) {} pre = some s → run (step n) s mid = some t →
    s.transfers.state i = some a → a.terminal = true →
    t.transfers.state i = none ∨ t.transfers.state i = some a) ∧
  ∀ pre s, pre <+: ls → run (step n) {} pre = some s → i ∈ s.cancelledEarly → i ∉ s.executed

theorem enqueued_step {s t : System} {l : Step} (h : step n s l = some t) :
    t.enqueued.count i = s.enqueued.count i + (if enqueues i l then 1 else 0) := by
  rcases l with req | id | id | id | id | w | w | w | w | w | ⟨w, bytesDone, now⟩ | ⟨w, result⟩ | w | w
  case enqueue =>
    cases h
    exact count_cons
  case send =>
    simp only [step] at h
    split at h <;> cases h
    rfl
  case transferCancel =>
    cases h
    obtain ⟨tokens, heq⟩ := transferCancel_fields s id
    rw [heq]
    rcases noteCancel_cases s id with hnote | ⟨-, hnote⟩ <;> rw [hnote] <;> rfl
  case queueCancel =>
    cases h
    rcases noteCancel_cases s id with hnote | ⟨-, hnote⟩ <;> rw [hnote] <;> rfl
  case dropTerminal =>
    cases h
    rfl
  case receive =>
    obtain ⟨id, rest, hw, hchan, rfl⟩ := step_receive h
    rfl
  case pickUp => obtain ⟨id, hw, ⟨-, rfl⟩ | ⟨task, hid, -, rfl⟩⟩ := step_pickUp h <;> rfl
  case register =>
    obtain ⟨task, hw, rfl⟩ := step_register h
    rfl
  case setRunning =>
    obtain ⟨task, token, hw, rfl⟩ := step_setRunning h
    rfl
  case start => obtain ⟨task, token, hw, ⟨result, rfl⟩ | rfl⟩ := step_start h <;> rfl
  case progress =>
    obtain ⟨id, rfl⟩ := step_progress h
    rfl
  case finish =>
    obtain ⟨task, token, hw, rfl⟩ := step_finish h
    rfl
  case release =>
    obtain ⟨task, token, result, hw, rfl⟩ := step_release h
    rfl
  case settle =>
    obtain ⟨task, token, result, hw, rfl⟩ := step_settle h
    rfl

theorem along_onceEnqueued {s : System} (h : s.enqueued.count i + ls.countP (enqueues i) ≤ 1) :
    Along (step n) (OnceEnqueued i) s ls := by
  induction ls generalizing s with
  | nil => trivial
  | cons l ls ih =>
    rw [countP_cons] at h
    refine ⟨?_, fun t ht => ih ?_⟩
    · rcases l with req | _ | _ | _ | _ | _ | _ | _ | _ | _ | _ | _ | _ | _
      case enqueue =>
        intro hid hmem
        have hpos := count_pos_iff.2 hmem
        have hl : enqueues i (.enqueue req) = true := beq_iff_eq.2 hid
        rw [if_pos hl] at h
        omega
      all_goals trivial
    · rw [enqueued_step ht]
      omega

theorem life_init : Life {} i := by
  have hnot : ¬ Carried {} i := by
    rintro (h | ⟨w, h⟩)
    · cases h
    · cases h
  exact ⟨fun _ => ⟨rfl, hnot⟩, Nat.zero_le 1, fun w hw => (nomatch hw), fun h => absurd h hnot⟩

/-- **The life of a task.** For every interleaving in which the task is enqueued once and its cancel requests come in
time, a terminal state is final, and a task cancelled before its pick-up is not executed. -/
theorem lifeCycle_of_timely (n : Nat) (i : TaskId) (ls : List Step) (honce : ls.countP (enqueues i) ≤ 1)
    (htimely : Along (step n) (Timely i) {} ls) : LifeCycle n i ls := by
  have halong : Along (step n) (fun s l => OnceEnqueued i s l ∧ Timely i s l) {} ls :=
    along_and (along_onceEnqueued (by simpa using honce)) htimely
  have hlife : ∀ {s t ms}, Life s i → Along (step n) (fun s l => OnceEnqueued i s l ∧ Timely i s l) s ms →
      run (step n) s ms = some t → Life t i :=
    fun hs hok hrun => run_invariant (fun s l t hs hok ht => life_step hs hok.1 ht) hs hok hrun
  constructor
  · rintro pre mid s t a ⟨post, rfl⟩ hpre hmid hstate ha
    rw [append_assoc] at halong
    obtain ⟨halong₁, halong₂⟩ := along_append halong
    have halong₃ := (along_append (halong₂ s hpre)).1
    have hs : Life s i := hlife life_init halong₁ hpre
    have hmem : i ∈ s.enqueued := by
      by_contra hfresh
      rw [(hs.fresh hfresh).1] at hstate
      cases hstate
    have ht : Life t i ∧ StaysIn a i t :=
      run_invariant (I := fun u => Life u i ∧ StaysIn a i u)
        (fun u l v hu hok hv => ⟨life_step hu.1 hok.1 hv, staysIn_step ha hu.1 hu.2 hok hv⟩)
        ⟨hs, hmem, .inr hstate⟩ halong₃ hmid
    exact ht.2.2
  · rintro pre s ⟨post, rfl⟩ hpre hearly hexec
    have hs : Unasked s i := by
      refine run_invariant (I := fun u => Unasked u i) (fun u l v hu hok hv => unasked_step hu hok hv) ?_
        (along_append htimely).1 hpre
      exact ⟨nofun, fun w hw => (nomatch hw), nofun⟩
    exact hs.notEarly (hs.executed hexec) hearly

/-- A task that runs and is dropped: its cancel request finds the token. -/
theorem lifeCycle_of_timely_sample :
    let steps : List Step :=
      [.enqueue ⟨"t", .upload, "s", "/r", "/l", 3⟩, .send "t", .receive 0, .pickUp 0, .register 0, .transferCancel "t",
        .setRunning 0, .start 0, .release 0, .settle 0, .dropTerminal "t"]
    (run (step 1) {} (steps.take 10)).map (fun s => (s.transfers.state "t", s.executed)) =
      some (some .cancelled, []) ∧ LifeCycle 1 "t" steps := by
  let test : System → Step → Bool := fun s l =>
    match l with
    | .pickUp _ => s.cancelledEarly.isEmpty
    | .setRunning _ | .settle _ => decide (s.transfers.state "t" ≠ some .cancelled)
    | _ => true
  have htest : ∀ ls, checks (step 1) test {} ls = true → Along (step 1) (Timely "t") {} ls := by
    intro ls
    refine along_of_checks fun s l h => ?_
    rcases l with _ | _ | _ | _ | _ | _ | w | _ | w | _ | _ | _ | _ | w
    case pickUp =>
      intro hw hmem
      rw [isEmpty_iff.1 h] at hmem
      cases hmem
    case setRunning => exact fun _ => of_decide_eq_true h
    case settle => exact fun _ _ _ _ _ _ => of_decide_eq_true h
    all_goals trivial
  exact ⟨by decide, lifeCycle_of_timely 1 "t" _ (by decide) (htest _ (by decide))⟩

/-- A task cancelled in the queue: its worker sets it to running all the same, and executes it. -/
theorem lifeCycle_cancelled_in_queue : ¬ ∀ n i ls, ls.countP (enqueues i) ≤ 1 → LifeCycle n i ls := by
  intro h
  let steps : List Step :=
    [.enqueue ⟨"t", .upload, "s", "/r", "/l", 3⟩, .queueCancel "t", .send "t", .receive 0, .pickUp 0, .register 0,
      .setRunning 0, .start 0]
  have hexec : ∃ s, run (step 1) {} steps = some s ∧ "t" ∈ s.cancelledEarly ∧ "t" ∈ s.executed :=
    ⟨_, rfl, by decide, by decide⟩
  obtain ⟨s, hs, hearly, hmem⟩ := hexec
  exact (h 1 "t" steps (by decide)).2 steps s prefix_rfl hs hearly hmem

end Runs

end LetsFlutSsh.Transfer
