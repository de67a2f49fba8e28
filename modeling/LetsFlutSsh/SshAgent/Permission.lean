import LetsFlutSsh.SshAgent.Agent

/-!
# SSH agent: permission

A signer is only called with permission, whatever the order of frames, edits, answers, cancellations and time-outs.

* `Answering` : each thread answers the frame of its job;
* `Mints`, `Prompted` : every prompt has a channel of its own, and a verdict that was received is an answer to its id;
* `Sessions` : the session of a connection is what its frames left;
* `Granted` : what stands behind a call of a signer.
-/

namespace LetsFlutSsh.SshAgent
open Lib Agent List

variable {Text : Type}

abbrev LogEntry (Text : Type) := Threads.Entry Op Op.Resp (Shared Text)

def eventOf (e : LogEntry Text) : Event := ⟨e.op, e.answer⟩

/-! ## Prompts -/

/-- The operation made a prompt, with the channel `rx`. -/
def Mints (e : LogEntry Text) (prompt : PendingPrompt) (rx : Nat) : Prop :=
  ∃ keyId keyLabel requester, eventOf e = ⟨.enqueue keyId keyLabel requester, (prompt, rx)⟩

theorem perform_prompts (o : Outcome) (op : Op) (s : Shared Text) :
    (s.prompts.Sound → (perform o op s).2.prompts.Sound) ∧ s.prompts.Grows (perform o op s).2.prompts := by
  cases op with
  | listRows => exact ⟨id, PromptLot.Grows.refl _⟩
  | lookupCert keyId => exact ⟨id, PromptLot.Grows.refl _⟩
  | enqueue keyId keyLabel requester =>
    exact ⟨(PromptLot.sound_enqueue · _ keyId keyLabel requester), PromptLot.grows_enqueue _ _ keyId keyLabel requester⟩
  | publishPrompt prompt => exact ⟨id, PromptLot.Grows.refl _⟩
  | awaitDecision rx => exact ⟨(PromptLot.sound_receive · rx), PromptLot.grows_receive _ rx⟩
  | persistPolicy keyId policy =>
    have hprompts : (perform o (.persistPolicy keyId policy) s).2.prompts = s.prompts := by
      rw [perform]
      split <;> rfl
    rw [hprompts]
    exact ⟨id, PromptLot.Grows.refl _⟩
  | sign signer row data => exact ⟨id, PromptLot.Grows.refl _⟩

/-- What the log says of the prompts. -/
structure Prompted (lot : PromptLot) (log : List (LogEntry Text)) : Prop where
  sound : lot.Sound
  minted : ∀ e ∈ log, ∀ prompt rx, Mints e prompt rx → lot.ids[rx]? = some prompt.requestId
  own : ∀ e ∈ log, ∀ e' ∈ log, ∀ prompt prompt' rx, Mints e prompt rx → Mints e' prompt' rx → e.thread = e'.thread
  decided : ∀ e ∈ log, ∀ rx d, eventOf e = ⟨.awaitDecision rx, .decided d⟩ →
    ∃ id, lot.ids[rx]? = some id ∧ ⟨id, d, rx⟩ ∈ lot.answers

section Prompted
variable {lot lot' : PromptLot} {log : List (LogEntry Text)}

theorem prompted_init : Prompted .empty ([] : List (LogEntry Text)) :=
  ⟨PromptLot.sound_empty, fun _ he => absurd he not_mem_nil, fun _ he => absurd he not_mem_nil,
    fun _ he => absurd he not_mem_nil⟩

theorem Prompted.grow (h : Prompted lot log) (hsound : lot'.Sound) (hgrows : lot.Grows lot') : Prompted lot' log := by
  refine ⟨hsound, fun e he prompt rx hmints => ?_, h.own, fun e he rx d hevent => ?_⟩
  · exact hgrows.id (h.minted e he prompt rx hmints)
  · obtain ⟨id, hid, hanswer⟩ := h.decided e he rx d hevent
    exact ⟨id, hgrows.id hid, hgrows.answers hanswer⟩

theorem Prompted.act {s : Shared Text} (h : Prompted s.prompts log) (o : Outcome) (i : Nat) (op : Op) :
    Prompted (perform o op s).2.prompts (log ++ [⟨i, op, (perform o op s).1, (perform o op s).2⟩]) := by
  obtain ⟨hsound, hgrows⟩ := perform_prompts o op s
  have hgrown := h.grow (hsound h.sound) hgrows
  -- a prompt of this operation has the next channel
  have hnew : ∀ prompt rx, Mints (⟨i, op, (perform o op s).1, (perform o op s).2⟩ : LogEntry Text) prompt rx →
      rx = s.prompts.ids.length ∧ (perform o op s).2.prompts.ids[rx]? = some prompt.requestId := by
    rintro prompt rx ⟨keyId, keyLabel, requester, hevent⟩
    obtain ⟨hop, hanswer⟩ := Sigma.mk.inj hevent
    subst hop
    obtain ⟨hspec, hid⟩ := PromptLot.enqueue_spec s.prompts o.requestId keyId keyLabel requester
    cases hspec.symm.trans (eq_of_heq hanswer)
    exact ⟨rfl, hid⟩
  have hold : ∀ e ∈ log, ∀ prompt rx, Mints e prompt rx → rx < s.prompts.ids.length := fun e he prompt rx hmints =>
    (List.getElem?_eq_some_iff.1 (h.minted e he prompt rx hmints)).1
  refine ⟨hgrown.sound, ?_, ?_, ?_⟩
  · intro e he prompt rx hmints
    rcases mem_append.1 he with he | he
    · exact hgrown.minted e he prompt rx hmints
    · rw [mem_singleton.1 he] at hmints
      exact (hnew prompt rx hmints).2
  · intro e he e' he' prompt prompt' rx hmints hmints'
    rcases mem_append.1 he with he | he <;> rcases mem_append.1 he' with he' | he'
    · exact h.own e he e' he' prompt prompt' rx hmints hmints'
    · rw [mem_singleton.1 he'] at hmints'
      have hlt := hold e he prompt rx hmints
      have heq := (hnew prompt' rx hmints').1
      omega
    · rw [mem_singleton.1 he] at hmints
      have hlt := hold e' he' prompt' rx hmints'
      have heq := (hnew prompt rx hmints).1
      omega
    · rw [mem_singleton.1 he, mem_singleton.1 he']
  · intro e he rx d hevent
    rcases mem_append.1 he with he | he
    · exact hgrown.decided e he rx d hevent
    · rw [mem_singleton.1 he] at hevent
      obtain ⟨hop, hanswer⟩ := Sigma.mk.inj hevent
      subst hop
      obtain ⟨id, hid, hmem⟩ := PromptLot.answered_of_receive h.sound (eq_of_heq hanswer)
      exact ⟨id, hgrows.id hid, hgrows.answers hmem⟩

end Prompted

variable {KeyData : Type}

/-! ## Threads -/

section Answering
variable {w : Wire KeyData} {s t : Agent Text}
variable (w) in
def Answering (jobs : List Job) (i : Nat) (p : Handler (Bytes × Endpoint)) (q : List Event) : Prop :=
  ∃ job, jobs[i]? = some job ∧ Keeping job.session p (fun answer _ => answer.2 = sessionAfter w job.session job.payload) q

variable (w s) in
/-- Each job has a thread, which answers its frame. -/
structure Orderly : Prop where
  lined : s.jobs.length = s.threads.progs.length
  answering : Threads.Tracks Threads.keepEvents [] (Answering w s.jobs) s.threads

theorem orderly_init (db : Db Text) : Orderly w (init db) := ⟨rfl, Threads.tracks_init _⟩

theorem orderly_step [DecidableEq KeyData] (h : Orderly w s) (heffect : Effect w s t) : Orderly w t := by
  cases heffect with
  | shared x hthreads hjobs hsound hgrows =>
    refine ⟨?_, ?_⟩
    · rw [hjobs, hthreads]
      exact h.lined
    · rw [hjobs, hthreads]
      exact h.answering.shared x
  | read c conn frame hconn hthreads hjobs =>
    refine ⟨?_, ?_⟩
    · rw [hjobs, hthreads, Threads.spawn, length_append, length_append, h.lined]
      rfl
    rw [hjobs, hthreads]
    refine (h.answering.mono fun i p q hi hp => ?_).spawn ?_
    · obtain ⟨job, hjob, hkeeps⟩ := hp
      refine ⟨job, ?_, hkeeps⟩
      rw [getElem?_append_left (h.lined ▸ hi)]
      exact hjob
    · refine ⟨⟨c, conn.session, frame.payload, frame.stopped⟩, ?_, dispatchPayload_keeping since_nil frame.payload⟩
      rw [← h.lined, getElem?_concat_length]
  | act i o hact hjobs =>
    refine ⟨?_, ?_⟩
    · obtain ⟨op, next, -, hthreads⟩ := Threads.act_cases hact
      rw [hjobs, hthreads, length_set]
      exact h.lined
    · rw [hjobs]
      refine h.answering.act hact fun op next q r hp => ?_
      obtain ⟨job, hjob, hkeeps⟩ := hp
      exact ⟨job, hjob, hkeeps.2 r⟩

end Answering

/-! ## Sessions -/

def framesOn (jobs : List Job) (c : Nat) : List Bytes := (jobs.filter (·.connection = c)).map Job.payload

section Sessions
variable {w : Wire KeyData} {s t : Agent Text}
variable (w) in
def sessionOf (payloads : List Bytes) : Endpoint := payloads.foldl (sessionAfter w) {}

variable (w) in
/-- The session of a connection, and of its jobs, is what the frames before left. -/
structure Sessions (jobs : List Job) (connections : List Connection) : Prop where
  chained : Since (fun before job => job.session = sessionOf w (framesOn before job.connection)) jobs
  known : ∀ job ∈ jobs, job.connection < connections.length
  idle : ∀ c conn, connections[c]? = some conn → conn.current = none → conn.session = sessionOf w (framesOn jobs c)
  busy : ∀ c conn i, connections[c]? = some conn → conn.current = some i →
    ∃ job, jobs[i]? = some job ∧ sessionAfter w job.session job.payload = sessionOf w (framesOn jobs c)

variable {jobs : List Job} {connections : List Connection}

theorem sessions_init : Sessions w [] [] :=
  ⟨since_nil, fun _ h => absurd h not_mem_nil, (fun _ _ h => nomatch h), (fun _ _ _ h => nomatch h)⟩

theorem framesOn_concat (jobs : List Job) (job : Job) (c : Nat) :
    framesOn (jobs ++ [job]) c = if job.connection = c then framesOn jobs c ++ [job.payload] else framesOn jobs c := by
  unfold framesOn
  rw [filter_append, map_append]
  split
  · next h => simp [h]
  · next h => simp [h]

theorem Sessions.set (h : Sessions w jobs connections) {c : Nat} {conn conn' : Connection}
    (hconn : connections[c]? = some conn)
    (hidle : conn'.current = none → conn'.session = sessionOf w (framesOn jobs c))
    (hbusy : ∀ i, conn'.current = some i → conn.current = some i) : Sessions w jobs (connections.set c conn') := by
  have hlt : c < connections.length := (List.getElem?_eq_some_iff.1 hconn).1
  refine ⟨h.chained, fun job hjob => ?_, fun c' conn'' hconn'' hcurrent => ?_, fun c' conn'' i hconn'' hcurrent => ?_⟩
  · rw [length_set]
    exact h.known job hjob
  · rcases Decidable.em (c = c') with rfl | hne
    · rw [getElem?_set_self hlt] at hconn''
      cases hconn''
      exact hidle hcurrent
    · rw [getElem?_set_ne hne] at hconn''
      exact h.idle c' conn'' hconn'' hcurrent
  · rcases Decidable.em (c = c') with rfl | hne
    · rw [getElem?_set_self hlt] at hconn''
      cases hconn''
      exact h.busy c conn i hconn (hbusy i hcurrent)
    · rw [getElem?_set_ne hne] at hconn''
      exact h.busy c' conn'' i hconn'' hcurrent

theorem Sessions.accept (h : Sessions w jobs connections) : Sessions w jobs (connections ++ [({} : Connection)]) := by
  have hnone : framesOn jobs connections.length = [] := by
    unfold framesOn
    rw [map_eq_nil_iff, filter_eq_nil_iff]
    intro job hjob heq
    have hlt := h.known job hjob
    rw [decide_eq_true_eq] at heq
    omega
  refine ⟨h.chained, fun job hjob => ?_, fun c conn hconn hcurrent => ?_, fun c conn i hconn hcurrent => ?_⟩
  · rw [length_append]
    exact Nat.lt_add_right 1 (h.known job hjob)
  · rcases getElem?_concat_cases hconn with hconn | ⟨rfl, rfl⟩
    · exact h.idle c conn hconn hcurrent
    · rw [hnone]
      rfl
  · rcases getElem?_concat_cases hconn with hconn | ⟨rfl, rfl⟩
    · exact h.busy c conn i hconn hcurrent
    · cases hcurrent

theorem Sessions.read (h : Sessions w jobs connections) {c : Nat} {conn : Connection} (hconn : connections[c]? = some conn)
    (hcurrent : conn.current = none) (payload : Bytes) (stopped : Bool) (inbox : List Frame) :
    Sessions w (jobs ++ [⟨c, conn.session, payload, stopped⟩])
      (connections.set c { conn with inbox, current := some jobs.length }) := by
  have hlt : c < connections.length := (List.getElem?_eq_some_iff.1 hconn).1
  have hsession := h.idle c conn hconn hcurrent
  refine ⟨since_concat.2 ⟨h.chained, hsession⟩, fun job hjob => ?_, fun c' conn' hconn' hcurrent' => ?_,
    fun c' conn' i hconn' hcurrent' => ?_⟩
  · rw [length_set]
    rcases mem_append.1 hjob with hjob | hjob
    · exact h.known job hjob
    · rw [mem_singleton.1 hjob]
      exact hlt
  · rcases Decidable.em (c = c') with rfl | hne
    · rw [getElem?_set_self hlt] at hconn'
      cases hconn'
      cases hcurrent'
    · rw [getElem?_set_ne hne] at hconn'
      rw [framesOn_concat, if_neg hne]
      exact h.idle c' conn' hconn' hcurrent'
  · rcases Decidable.em (c = c') with rfl | hne
    · rw [getElem?_set_self hlt] at hconn'
      cases hconn'
      cases hcurrent'
      refine ⟨⟨c, conn.session, payload, stopped⟩, getElem?_concat_length, ?_⟩
      rw [framesOn_concat, if_pos rfl, sessionOf, foldl_append, foldl_cons, foldl_nil]
      exact congrArg (fun session => sessionAfter w session payload) hsession
    · rw [getElem?_set_ne hne] at hconn'
      obtain ⟨job, hjob, hafter⟩ := h.busy c' conn' i hconn' hcurrent'
      refine ⟨job, ?_, ?_⟩
      · rw [List.getElem?_append_left (List.getElem?_eq_some_iff.1 hjob).1]
        exact hjob
      · rw [framesOn_concat, if_neg hne]
        exact hafter

theorem sessions_step [DecidableEq KeyData] {label : Label Text} (horderly : Orderly w s)
    (h : Sessions w s.jobs s.connections) (hstep : step w s label = some t) : Sessions w t.jobs t.connections := by
  cases label with
  | send c payload =>
    obtain ⟨conn, hconn, -, rfl⟩ := arrive_cases hstep
    exact h.set hconn (h.idle c conn hconn) fun i hi => hi
  | read c =>
    obtain ⟨conn, frame, inbox, hconn, -, hcurrent, -, rfl | rfl⟩ := read_cases hstep
    · exact h.set hconn (h.idle c conn hconn) fun i hi => hi
    · exact h.read hconn hcurrent frame.payload frame.stopped inbox
  | act c o =>
    obtain ⟨i, threads, -, rfl⟩ := act_cases hstep
    exact h
  | reply c written =>
    obtain ⟨conn, i, answer, hconn, hcurrent, hp, rfl⟩ := reply_cases hstep
    refine h.set hconn (fun _ => ?_) nofun
    obtain ⟨job, hjob, hafter⟩ := h.busy c conn i hconn hcurrent
    obtain ⟨job', hjob', hkeeps⟩ := horderly.answering.here i _ hp
    cases hjob.symm.trans hjob'
    exact hkeeps.2.trans hafter
  | close c =>
    obtain ⟨conn, conn', hconn, hf, rfl⟩ := onConnection_cases hstep
    cases hf
    exact h.set hconn (h.idle c conn hconn) fun i hi => hi
  | hangUp c =>
    obtain ⟨conn, hconn, rfl⟩ := hangUp_cases hstep
    exact h.set hconn (h.idle c conn hconn) fun i hi => hi
  | respond requestId decision =>
    cases hstep
    exact h
  | cancel requestId =>
    cases hstep
    exact h
  | edit db =>
    cases hstep
    exact h
  | start bound =>
    cases hstep
    obtain heq | ⟨-, heq⟩ := start_cases s bound <;> rw [heq] <;> exact h
  | stop =>
    cases hstep
    obtain ⟨heq, -⟩ | ⟨l, -, heq⟩ := stop_cases s <;> rw [heq] <;> exact h
  | accept l =>
    obtain ⟨loop, -, -, rfl⟩ := accept_cases hstep
    exact h.accept
  | acceptFails l =>
    rw [ended_cases (Or.inl hstep)]
    exact h
  | cancelled l =>
    rw [ended_cases (Or.inr hstep)]
    exact h

end Sessions

/-! ## What stands behind a signature -/

/-- The user authorised the prompt that this request made for the row. -/
def Authorised (before : List (LogEntry Text)) (e : LogEntry Text) (row : SshKeyRow) : Prop :=
  ∃ e' ∈ before, e'.thread = e.thread ∧ ∃ prompt rx d,
    eventOf e' = ⟨.enqueue row.id row.label peerRequester, (prompt, rx)⟩ ∧
      ⟨prompt.requestId, d, rx⟩ ∈ e.after.prompts.answers ∧ d ≠ .deny

structure Granted (jobs : List Job) (before : List (LogEntry Text)) (e : LogEntry Text) (row : SshKeyRow) : Prop where
  unlocked : ∃ job, jobs[e.thread]? = some job ∧ job.session.locked = false
  hardware : BackendKind.fromRow row ≠ .software
  read : ∃ e' ∈ before, e'.thread = e.thread ∧ ∃ rows, eventOf e' = ⟨.listRows, .ok rows⟩ ∧ row ∈ rows
  notDenied : row.agentPolicy ≠ .deny
  permitted : row.agentPolicy = .always ∨ Authorised before e row

def Signed (s : Agent Text) : Prop :=
  Since (fun before e => ∀ row, e.op.signedRow = some row → Granted s.jobs before e row) s.threads.log

section Signed
variable {w : Wire KeyData} {s t : Agent Text}

theorem granted_of_allowed {i : Nat} {job : Job} {row : SshKeyRow} (hprompted : Prompted s.threads.shared.prompts s.threads.log)
    (hjob : s.jobs[i]? = some job) (hrow : Allowed job.session (s.threads.notes Threads.keepEvents [] i) row)
    {op : Op} (r : op.Resp) {after : Shared Text} (hafter : after.prompts = s.threads.shared.prompts) :
    Granted s.jobs s.threads.log ⟨i, op, r, after⟩ row := by
  refine ⟨⟨job, hjob, hrow.unlocked⟩, hrow.hardware, ?_, hrow.notDenied, hrow.permitted.imp_right ?_⟩
  · obtain ⟨rows, hrows, hmem⟩ := hrow.read
    obtain ⟨e, he, hthread, hevent⟩ := Threads.mem_notes_keepEvents.1 hrows
    exact ⟨e, he, hthread, rows, hevent, hmem⟩
  rintro ⟨prompt, rx, d, hminted, hdecided, hd⟩
  obtain ⟨e, he, hthread, hevent⟩ := Threads.mem_notes_keepEvents.1 hminted
  obtain ⟨e', he', -, hevent'⟩ := Threads.mem_notes_keepEvents.1 hdecided
  -- the id that the channel was made for is that of the prompt
  have hid := hprompted.minted e he prompt rx ⟨_, _, _, hevent⟩
  obtain ⟨id, hid', hanswer⟩ := hprompted.decided e' he' rx d hevent'
  cases hid.symm.trans hid'
  refine ⟨e, he, hthread, prompt, rx, d, hevent, ?_, hd⟩
  rw [hafter]
  exact hanswer

theorem signed_step [DecidableEq KeyData] (horderly : Orderly w s)
    (hprompted : Prompted s.threads.shared.prompts s.threads.log) (h : Signed s) (heffect : Effect w s t) : Signed t := by
  cases heffect with
  | shared x hthreads hjobs hsound hgrows =>
    rw [Signed, hthreads, hjobs]
    exact h
  | read c conn frame hconn hthreads hjobs =>
    rw [Signed, hthreads, hjobs]
    intro before e after hlog row hrow
    have hgranted := h before e after hlog row hrow
    obtain ⟨job, hjob, hlocked⟩ := hgranted.unlocked
    refine { hgranted with unlocked := ⟨job, ?_, hlocked⟩ }
    rw [List.getElem?_append_left (List.getElem?_eq_some_iff.1 hjob).1]
    exact hjob
  | act i o hact hjobs =>
    obtain ⟨op, next, hp, hthreads⟩ := Threads.act_cases hact
    rw [Signed, hthreads, hjobs]
    refine since_concat.2 ⟨h, fun row hrow => ?_⟩
    obtain ⟨job, hjob, hkeeps⟩ := horderly.answering.here i _ hp
    have hlawful := (hkeeps.2 (perform o op s.threads.shared).1).here fun _ _ h' => h'.1
    have hallowed := (since_concat.1 hlawful).2 row hrow
    refine granted_of_allowed hprompted hjob hallowed _ ?_
    cases op <;> cases hrow
    rfl

end Signed

/-! ## Runs -/

section Runs
variable {w : Wire KeyData} {s t : Agent Text}
variable (w s) in
structure Inv : Prop where
  orderly : Orderly w s
  prompted : Prompted s.threads.shared.prompts s.threads.log
  sessions : Sessions w s.jobs s.connections
  signed : Signed s

theorem inv_init (db : Db Text) : Inv w (init db) := ⟨orderly_init db, prompted_init, sessions_init, since_nil⟩

variable [DecidableEq KeyData]

theorem prompted_step (h : Prompted s.threads.shared.prompts s.threads.log) (heffect : Effect w s t) :
    Prompted t.threads.shared.prompts t.threads.log := by
  cases heffect with
  | shared x hthreads hjobs hsound hgrows =>
    rw [hthreads]
    exact h.grow (hsound h.sound) hgrows
  | read c conn frame hconn hthreads hjobs =>
    rw [hthreads]
    exact h
  | act i o hact hjobs =>
    obtain ⟨op, next, -, hthreads⟩ := Threads.act_cases hact
    rw [hthreads]
    exact h.act o i op

theorem inv_step {label : Label Text} (h : Inv w s) (hstep : step w s label = some t) : Inv w t := by
  have heffect := step_effect hstep
  exact ⟨orderly_step h.orderly heffect, prompted_step h.prompted heffect, sessions_step h.orderly h.sessions hstep,
    signed_step h.orderly h.prompted h.signed heffect⟩

/-- What stands behind the call of a signer, in the whole run: the connection is not locked, the row was read for this
request, and no other request was given the prompt. -/
structure Permitted (w : Wire KeyData) (s : Agent Text) (before : List (LogEntry Text)) (e : LogEntry Text)
    (row : SshKeyRow) : Prop where
  unlocked : ∃ job, s.jobs[e.thread]? = some job ∧
    (sessionOf w (framesOn (s.jobs.take e.thread) job.connection)).locked = false
  hardware : BackendKind.fromRow row ≠ .software
  read : ∃ e' ∈ before, e'.thread = e.thread ∧ ∃ rows, eventOf e' = ⟨.listRows, .ok rows⟩ ∧ row ∈ rows
  notDenied : row.agentPolicy ≠ .deny
  permitted : row.agentPolicy = .always ∨ ∃ e' ∈ before, e'.thread = e.thread ∧ ∃ prompt rx d,
    eventOf e' = ⟨.enqueue row.id row.label peerRequester, (prompt, rx)⟩ ∧
      ⟨prompt.requestId, d, rx⟩ ∈ e.after.prompts.answers ∧ d ≠ .deny ∧
      ∀ e'' ∈ s.threads.log, ∀ prompt', Mints e'' prompt' rx → e''.thread = e.thread

/-- **Nothing is signed without permission.** -/
theorem signsWithPermission {db : Db Text} {labels : List (Label Text)}
    (hrun : run (step w) (init db) labels = some s) {before after : List (LogEntry Text)} {e : LogEntry Text}
    (hlog : s.threads.log = before ++ e :: after) {row : SshKeyRow} (hsign : e.op.signedRow = some row) :
    Permitted w s before e row := by
  have hinv : Inv w s := run_keeps (fun _ _ _ h hstep => inv_step h hstep) (inv_init db) hrun
  have hgranted := hinv.signed before e after hlog row hsign
  obtain ⟨job, hjob, hlocked⟩ := hgranted.unlocked
  refine ⟨⟨job, hjob, ?_⟩, hgranted.hardware, hgranted.read, hgranted.notDenied, hgranted.permitted.imp_right ?_⟩
  · have hsplit : s.jobs = s.jobs.take e.thread ++ job :: s.jobs.drop (e.thread + 1) := by
      rw [← (List.getElem?_eq_some_iff.1 hjob).2, List.cons_getElem_drop_succ, List.take_append_drop]
    rw [← hinv.sessions.chained _ _ _ hsplit]
    exact hlocked
  · rintro ⟨e', he', hthread, prompt, rx, d, hevent, hanswer, hd⟩
    refine ⟨e', he', hthread, prompt, rx, d, hevent, hanswer, hd, fun e'' he'' prompt' hmints => ?_⟩
    have hmem : e' ∈ s.threads.log := by
      rw [hlog]
      exact mem_append_left _ he'
    rw [← hthread]
    exact hinv.prompted.own e'' he'' e' hmem prompt' prompt rx hmints ⟨_, _, _, hevent⟩

end Runs

/-- A request under `ask` that the user answers. -/
def sampleAsk : List (Label Unit) :=
  [.start true, .accept 0, .send 0 sampleRequest, .read 0, .act 0 {}, .act 0 { requestId := "r1" }, .act 0 {},
    .respond "r1" .authorizeOnce, .act 0 {}, .act 0 sampleSigned]

theorem sampleAsk_signs : ((run (step sampleWire) (init (sampleDb .ask)) sampleAsk).map fun s =>
    s.threads.log.map fun e => e.op.signedRow) = some [none, none, none, none, some (sampleRow .ask)] := by
  decide +kernel

theorem signsWithPermission_sample : ∃ (s : Agent Unit) (before : List (LogEntry Unit)) (e : LogEntry Unit),
      Permitted sampleWire s before e (sampleRow .ask) := by
  obtain ⟨s, hrun, hlog⟩ := Option.map_eq_some_iff.1 sampleAsk_signs
  have hmem : some (sampleRow .ask) ∈ s.threads.log.map fun e => e.op.signedRow := by
    rw [hlog]
    exact mem_of_mem_getLast? rfl
  obtain ⟨e, he, hsign⟩ := mem_map.1 hmem
  obtain ⟨before, after, hsplit⟩ := append_of_mem he
  exact ⟨s, before, e, signsWithPermission hrun hsplit hsign⟩

end LetsFlutSsh.SshAgent
