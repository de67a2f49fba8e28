import LetsFlutSsh.SshAgent.Agent

/-!
# SSH agent: what `stop` stops

`stop` drops the handle, which aborts the accept loop. The tasks of the connections that were accepted go on.

* `SignsStopped` : a signer was called for a request that arrived while the agent was stopped;
* `Quiet`, `Calm` : the steps after which it is not, and what they keep (`calm_step`);
* `stopEffective_of_quiet` : then nothing is signed for such a request;
* `stopEffective_open` : a connection that was open at the stop goes on signing.
-/

namespace LetsFlutSsh.SshAgent
open Lib Agent List

variable {Text : Type}

/-- A signer was called for a request that arrived while the agent was stopped. -/
def SignsStopped (s : Agent Text) : Prop :=
  ∃ e ∈ s.threads.log, e.op.signedRow.isSome ∧ ∃ job, s.jobs[e.thread]? = some job ∧ job.stopped

instance (s : Agent Text) : Decidable (SignsStopped s) :=
  decidable_of_iff (∃ e ∈ s.threads.log, e.op.signedRow.isSome ∧ ∃ job ∈ s.jobs[e.thread]?, job.stopped) Iff.rfl

/-- In no run whose steps `ok` allows is anything signed for a request that arrived while the agent was stopped. -/
def StopEffective {KeyData : Type} [DecidableEq KeyData] (w : Wire KeyData) (db : Db Text)
    (ok : Agent Text → Label Text → Prop) : Prop :=
  ∀ labels s, Along (step w) ok (init db) labels → run (step w) (init db) labels = some s → ¬ SignsStopped s

def Connection.Live (conn : Connection) : Prop := conn.isOpen ∧ conn.ended = false

/-- At a stop no connection is live, and none is accepted while the agent is stopped. -/
def Quiet (s : Agent Text) : Label Text → Prop
  | .stop => ∀ conn ∈ s.connections, ¬ conn.Live
  | .accept _ => s.stopped = false
  | _ => True

/-- No frame that will be read arrived while the agent was stopped. -/
structure Calm (s : Agent Text) : Prop where
  jobs : ∀ job ∈ s.jobs, job.stopped = false
  inbox : ∀ conn ∈ s.connections, conn.ended = false → ∀ frame ∈ conn.inbox, frame.stopped = false
  live : ∀ conn ∈ s.connections, conn.Live → s.stopped = false

section Calm
variable {KeyData : Type} [DecidableEq KeyData] {w : Wire KeyData} {s t : Agent Text}

omit [DecidableEq KeyData] in
theorem calm_init (db : Db Text) : Calm (init db) :=
  ⟨fun _ h => absurd h not_mem_nil, fun _ h => absurd h not_mem_nil, fun _ h => absurd h not_mem_nil⟩

theorem Calm.set (h : Calm s) (c : Nat) (conn' : Connection)
    (hinbox : conn'.ended = false → ∀ frame ∈ conn'.inbox, frame.stopped = false) (hlive : conn'.Live → s.stopped = false) :
    Calm { s with connections := s.connections.set c conn' } := by
  refine ⟨h.jobs, fun conn hconn => ?_, fun conn hconn => ?_⟩
  · rcases mem_or_eq_of_mem_set hconn with hconn | rfl
    · exact h.inbox conn hconn
    · exact hinbox
  · rcases mem_or_eq_of_mem_set hconn with hconn | rfl
    · exact h.live conn hconn
    · exact hlive

theorem calm_step {label : Label Text} (h : Calm s) (hquiet : Quiet s label) (hstep : step w s label = some t) :
    Calm t := by
  cases label with
  | send c payload =>
    obtain ⟨conn, hconn, hopen, rfl⟩ := arrive_cases hstep
    have hmem := mem_of_getElem? hconn
    refine h.set c _ (fun hended frame hframe => ?_) (h.live conn hmem)
    rcases mem_append.1 hframe with hframe | hframe
    · exact h.inbox conn hmem hended frame hframe
    · rw [mem_singleton.1 hframe]
      exact h.live conn hmem ⟨hopen, hended⟩
  | read c =>
    obtain ⟨conn, frame, inbox, hconn, hended, -, hinbox, rfl | rfl⟩ := read_cases hstep
    · exact h.set c _ nofun fun hlive => nomatch hlive.2
    have hmem := mem_of_getElem? hconn
    have hfresh := h.inbox conn hmem hended
    rw [hinbox] at hfresh
    have hcalm := h.set c { conn with inbox, current := some s.jobs.length }
      (fun _ frame' hframe' => hfresh frame' (mem_cons_of_mem frame hframe')) (h.live conn hmem)
    refine ⟨fun job hjob => ?_, hcalm.inbox, hcalm.live⟩
    rcases mem_append.1 hjob with hjob | hjob
    · exact h.jobs job hjob
    · rw [mem_singleton.1 hjob]
      exact hfresh frame mem_cons_self
  | act c o =>
    obtain ⟨i, threads, -, rfl⟩ := act_cases hstep
    exact ⟨h.jobs, h.inbox, h.live⟩
  | reply c written =>
    obtain ⟨conn, i, answer, hconn, -, -, rfl⟩ := reply_cases hstep
    have hmem := mem_of_getElem? hconn
    refine h.set c _ (fun hended => ?_) fun hlive => ?_
    · exact h.inbox conn hmem (Bool.or_eq_false_iff.1 hended).1
    · exact h.live conn hmem ⟨hlive.1, (Bool.or_eq_false_iff.1 hlive.2).1⟩
  | close c =>
    obtain ⟨conn, conn', hconn, hf, rfl⟩ := onConnection_cases hstep
    cases hf
    exact h.set c _ (h.inbox conn (mem_of_getElem? hconn)) fun hlive => nomatch hlive.1
  | hangUp c =>
    obtain ⟨conn, hconn, rfl⟩ := hangUp_cases hstep
    exact h.set c _ nofun fun hlive => nomatch hlive.2
  | respond requestId decision =>
    cases hstep
    exact ⟨h.jobs, h.inbox, h.live⟩
  | cancel requestId =>
    cases hstep
    exact ⟨h.jobs, h.inbox, h.live⟩
  | edit db =>
    cases hstep
    exact ⟨h.jobs, h.inbox, h.live⟩
  | start bound =>
    cases hstep
    obtain heq | ⟨-, heq⟩ := start_cases s bound <;> rw [heq]
    · exact h
    · exact ⟨h.jobs, h.inbox, fun conn hconn hlive => rfl⟩
  | stop =>
    cases hstep
    obtain ⟨heq, -⟩ | ⟨l, -, heq⟩ := stop_cases s <;> rw [heq]
    · exact h
    · exact ⟨h.jobs, h.inbox, fun conn hconn hlive => absurd hlive (hquiet conn hconn)⟩
  | accept l =>
    obtain ⟨loop, -, -, rfl⟩ := accept_cases hstep
    refine ⟨h.jobs, fun conn hconn => ?_, fun conn hconn _ => hquiet⟩
    rcases mem_append.1 hconn with hconn | hconn
    · exact h.inbox conn hconn
    · rw [mem_singleton.1 hconn]
      exact fun _ _ hframe => absurd hframe not_mem_nil
  | acceptFails l =>
    rw [ended_cases (Or.inl hstep)]
    exact ⟨h.jobs, h.inbox, h.live⟩
  | cancelled l =>
    rw [ended_cases (Or.inr hstep)]
    exact ⟨h.jobs, h.inbox, h.live⟩

end Calm

/-- **What is needed for `stop` to stop the signing.** -/
theorem stopEffective_of_quiet {KeyData : Type} [DecidableEq KeyData] (w : Wire KeyData) (db : Db Text) :
    StopEffective w db Quiet := by
  rintro labels s hquiet hrun ⟨e, -, -, job, hjob, hstopped⟩
  have hcalm : Calm s := run_invariant (fun _ _ _ h hok hstep => calm_step h hok hstep) (calm_init db) hquiet hrun
  rw [hcalm.jobs job (mem_of_getElem? hjob)] at hstopped
  cases hstopped

instance (s : Agent Unit) (label : Label Unit) : Decidable (Quiet s label) :=
  match label with
  | .stop => inferInstanceAs (Decidable (∀ conn ∈ s.connections, ¬ (_ ∧ _)))
  | .accept _ => inferInstanceAs (Decidable (s.stopped = false))
  | .send _ _ | .read _ | .act _ _ | .reply _ _ | .close _ | .hangUp _ | .respond _ _ | .cancel _ | .edit _ | .start _
  | .acceptFails _ | .cancelled _ => inferInstanceAs (Decidable True)

/-- A client gets its signature and hangs up; the agent is stopped, and the frame that is written after that is not read. -/
def sampleQuiet : List (Label Unit) :=
  [.start true, .accept 0, .send 0 sampleRequest, .read 0, .act 0 {}, .act 0 sampleSigned, .reply 0 true, .hangUp 0, .stop,
    .cancelled 0, .send 0 sampleRequest]

theorem stopEffective_of_quiet_signed : ∃ s, run (step sampleWire) (init (sampleDb .always)) sampleQuiet = some s ∧
    s.stopped ∧ (∃ e ∈ s.threads.log, e.op.signedRow.isSome) ∧ ¬SignsStopped s := by
  have hsigned : ((run (step sampleWire) (init (sampleDb .always)) sampleQuiet).map fun s =>
      (s.stopped, s.threads.log.any fun e => e.op.signedRow.isSome)) = some (true, true) := by decide +kernel
  obtain ⟨s, hrun, hs⟩ := Option.map_eq_some_iff.1 hsigned
  obtain ⟨hstopped, hlog⟩ := Prod.mk.inj hs
  have htest : ∀ (s : Agent Unit) (label : Label Unit), decide (Quiet s label) = true → Quiet s label :=
    fun _ _ h => of_decide_eq_true h
  exact ⟨s, hrun, hstopped, any_eq_true.1 hlog,
    stopEffective_of_quiet sampleWire (sampleDb .always) sampleQuiet s (along_of_checks htest (by decide +kernel)) hrun⟩

/-- A client that was connected before the stop asks for a signature after it. -/
def sampleStop : List (Label Unit) :=
  [.start true, .accept 0, .stop, .cancelled 0, .send 0 sampleRequest, .read 0, .act 0 {}, .act 0 sampleSigned]

theorem sampleStop_signs : ((run (step sampleWire) (init (sampleDb .always)) sampleStop).map fun s =>
    decide (SignsStopped s)) = some true := by
  decide +kernel

/-- **An open connection goes on signing.** -/
theorem stopEffective_open : ¬ StopEffective sampleWire (sampleDb .always) fun _ _ => True := by
  intro h
  obtain ⟨s, hrun, hsigns⟩ := Option.map_eq_some_iff.1 sampleStop_signs
  exact h sampleStop s (along_of_forall fun _ _ _ _ _ _ => trivial) hrun (of_decide_eq_true hsigns)

end LetsFlutSsh.SshAgent
