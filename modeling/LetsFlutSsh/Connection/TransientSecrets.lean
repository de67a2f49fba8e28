import LetsFlutSsh.Connection.AuthCompose
import LetsFlutSsh.Lib.Leases
import LetsFlutSsh.Lib.Threads

/-!
# Secrets of connect attempts

Connect attempts run side by side and share the secret store.

* `step` : an attempt begins, or does its next operation;
* `Notes`, `note` : the transient secrets that an attempt holds, and the reference that it runs with;
* `SecretsScoped`, `Careful` : what should hold of transient secrets, and the steps that see to it;
* `secretsScoped_of_careful` : the secrets are scoped in every run of such steps.
-/

namespace LetsFlutSsh.Connection
open Lib Attempt List Option
open Security.Secrets (SecretStore)

/-! ## Attempts side by side -/

/-- Where the allocator puts a secret, and what the database, the user and the server answer. -/
structure Outcome where
  addr : Nat := 0
  answer : (op : Op) → op.Resp

def perform (size : Nat) (o : Outcome) (op : Op) (store : SecretStore) : op.Resp × SecretStore :=
  match op with
  | .put id bytes => ((), store.put size o.addr id bytes)
  | .get id => (store.get id, store)
  | .dropId id => ((), store.dropId size id)
  | op => (o.answer op, store)

variable {o : Outcome} {op : Op} {input : PrepareAuthInput} {passphraseId : Option String} {sessionId : String}
variable {auth : Option PreparedAuthRef}

namespace Attempt

abbrev System := Threads Op Op.Resp SecretStore (Except Error Unit)

abbrev LogEntry := Threads.Entry Op Op.Resp SecretStore

def init (store : SecretStore) : System := { shared := store }

inductive Step where
  | attempt (id : String) (input : PrepareAuthInput)
  | act (i : Nat) (o : Outcome)

def drawnBy : (op : Op) → op.Resp → List String
  | .randomHandle, handle => [handle]
  | .randomUuid, uuid => [uuid]
  | _, _ => []

def drawn (log : List LogEntry) : List String := log.flatMap fun e => drawnBy e.op e.answer

def step (size : Nat) (s : System) : Step → Option System
  | .attempt id input => some (s.spawn (connectAttempt id input))
  | .act i o => (s.act (perform size) i o).filter fun t => decide (drawn t.log).Nodup

/-! ## What an attempt holds -/

/-- The reference that an attempt runs with, the transient secrets it put and did not drop, and its random texts. -/
structure Notes where
  auth : Option PreparedAuthRef := none
  held : AList (fun _ : String => Bytes) := ∅
  draws : List String := []

def note (q : Notes) : (op : Op) → op.Resp → Notes
  | .put id bytes, _ => if isTransient id then { q with held := q.held.insert id bytes } else q
  | .dropId id, _ => { q with held := q.held.erase id }
  | .randomHandle, handle => { q with draws := handle :: q.draws }
  | .connectAsync auth, _ | .runAuth auth, _ => { q with auth := some auth }
  | .settle _, _ => { q with auth := none }
  | _, _ => q

def System.at (s : System) (i : Nat) : Notes := s.notes note {} i

def Finished (s : System) (i : Nat) : Prop := ∃ r, s.progs[i]? = some (.done r)

def Staged (log : List LogEntry) (id : String) : Prop := isTransient id = true ∧ ∃ e ∈ log, ∃ bytes, e.op = .put id bytes

/-- **Transient secrets are scoped to their attempts**: while an attempt runs, the ids that its reference names hold what
it put there; and a transient secret that is still in the store is held by an attempt that is not finished. -/
structure SecretsScoped (s : System) : Prop where
  named : ∀ i auth, (s.at i).auth = some auth → ∀ id ∈ auth.secretIds, isTransient id = true →
    ∃ bytes, (s.at i).held.lookup id = some bytes ∧ s.shared.get id = some bytes
  gone : ∀ id, Staged s.log id → s.shared.get id = none ∨ ∃ i, ¬Finished s i ∧ id ∈ (s.at i).held

/-- No other attempt holds the key's id that a secret is staged under, the database does not fail once something is
staged, and no slot is minted for a passphrase. -/
def Careful (s : System) : Step → Prop
  | .attempt _ _ => True
  | .act i o => ∀ op next, s.progs[i]? = some (.call op next) →
      match op with
      | .put id _ => isKeyed id = true → ∀ j, j ≠ i → id ∉ (s.at j).held
      | .certificate keyId => ∀ e, o.answer (.certificate keyId) = .error e → (s.at i).held = ∅
      | .randomUuid => False
      | _ => True

/-! ## One attempt -/

/-- An id that an attempt may put: a key's, or one with a random text of its own. -/
def Notes.MayStage (q : Notes) (id : String) : Prop :=
  isKeyed id = true ∨ ∃ slot owner, Slot.isFresh slot = true ∧ owner ∈ q.draws ∧ id = slot.id owner

def Notes.Named (q : Notes) : Prop :=
  ∀ auth, q.auth = some auth → ∀ id ∈ auth.secretIds, isTransient id = true → id ∈ q.held

def allowed (q : Notes) (op : Op) : Prop :=
  q.Named ∧
    match op with
    | .put id _ => isTransient id = true → q.MayStage id
    | .dropId id => id ∈ q.held
    | _ => True

def fair (q : Notes) : (op : Op) → op.Resp → Prop
  | .certificate _, .error _ => q.held = ∅
  | .randomUuid, _ => False
  | _, _ => True

def Ended (_ : Except Error Unit) (q : Notes) : Prop := q.auth = none ∧ q.held = ∅

/-- The attempt holds these ids, and runs with this reference, if any. -/
structure Holds (auth : Option PreparedAuthRef) (ids : List String) (q : Notes) : Prop where
  running : q.auth = auth
  names : ∀ ref, auth = some ref → ∀ id ∈ ref.secretIds, isTransient id = true → id ∈ ids
  held : ∀ id, id ∈ q.held ↔ id ∈ ids
  nodup : ids.Nodup
  own : ∀ id ∈ ids, isTransient id = true ∧ q.MayStage id

section
variable {ref : PreparedAuthRef} {ids : List String} {q : Notes} {id : String} {bytes : Bytes}

theorem holds_nil : Holds none [] {} := ⟨rfl, nofun, fun _ => Iff.rfl, nodup_nil, nofun⟩

theorem Holds.named (h : Holds auth ids q) : q.Named := by
  intro ref href id hid htransient
  rw [h.held]
  exact h.names ref (h.running.symm.trans href) id hid htransient

theorem Holds.empty (h : Holds auth ids q) : q.held = ∅ ↔ ids = [] := by
  rw [eq_nil_iff_forall_not_mem]
  constructor
  · intro hempty id hid
    rw [← h.held, hempty] at hid
    exact absurd hid (AList.notMem_empty id)
  · intro hnone
    refine AList.ext (eq_nil_iff_forall_not_mem.2 fun entry hentry => ?_)
    exact hnone entry.1 ((h.held entry.1).1 (AList.mem_keys.2 (mem_map_of_mem hentry)))

theorem Holds.call {α : Type} {E : α → Notes → Prop} {next : op.Resp → Connect α} (h : Holds auth ids q)
    (hallowed : q.Named → allowed q op) (hnote : ∀ r, note q op r = q)
    (hnext : ∀ r, fair q op r → (next r).Obeys note allowed fair E q) :
    (Prog.call op next : Connect α).Obeys note allowed fair E q := by
  refine ⟨hallowed h.named, fun r hr => ?_⟩
  rw [hnote]
  exact hnext r hr

theorem note_put (r : (Op.put id bytes).Resp) :
    note q (.put id bytes) r = if isTransient id = true then { q with held := q.held.insert id bytes } else q := rfl

theorem mayStage_put {r : (Op.put id bytes).Resp} {other : String} (h : q.MayStage other) :
    (note q (.put id bytes) r).MayStage other := by
  rw [note_put]
  split_ifs
  · exact h
  · exact h

theorem allowed_put (hnamed : q.Named) (hmay : isTransient id = true → q.MayStage id) : allowed q (.put id bytes) :=
  ⟨hnamed, hmay⟩

theorem Holds.put_new {r : (Op.put id bytes).Resp} (h : Holds none ids q) (htransient : isTransient id = true)
    (hmay : q.MayStage id) (hnew : id ∉ ids) : Holds none (ids ++ [id]) (note q (.put id bytes) r) := by
  rw [note_put, if_pos htransient]
  refine ⟨h.running, nofun, fun other => ?_, nodup_append.2 ⟨h.nodup, nodup_singleton id, ?_⟩, fun other hother => ?_⟩
  · rw [AList.mem_insert, h.held, mem_append, mem_singleton, or_comm]
  · rintro a ha b hb rfl
    rw [mem_singleton.1 hb] at ha
    exact hnew ha
  · rcases mem_append.1 hother with hother | hother
    · exact h.own other hother
    · rw [mem_singleton.1 hother]
      exact ⟨htransient, hmay⟩

theorem Holds.put_again {r : (Op.put id bytes).Resp} (h : Holds auth ids q) (hid : isTransient id = true → id ∈ ids) :
    Holds auth ids (note q (.put id bytes) r) := by
  rw [note_put]
  split_ifs with htransient
  · refine ⟨h.running, h.names, fun other => ?_, h.nodup, h.own⟩
    rw [AList.mem_insert, h.held]
    refine ⟨?_, .inr⟩
    rintro (rfl | hother)
    · exact hid htransient
    · exact hother
  · exact h

theorem Holds.run (h : Holds auth ids q) (hnames : ∀ id ∈ ref.secretIds, isTransient id = true → id ∈ ids) :
    Holds (some ref) ids { q with auth := some ref } := by
  refine ⟨rfl, ?_, h.held, h.nodup, h.own⟩
  rintro _ ⟨⟩
  exact hnames

theorem Holds.settle (h : Holds auth ids q) : Holds none ids { q with auth := none } :=
  ⟨rfl, nofun, h.held, h.nodup, h.own⟩

theorem Holds.draw (h : Holds auth ids q) (owner : String) : Holds auth ids { q with draws := owner :: q.draws } := by
  refine ⟨h.running, h.names, h.held, h.nodup, fun id hid => ⟨(h.own id hid).1, ?_⟩⟩
  rcases (h.own id hid).2 with hkeyed | ⟨slot, owner', hslot, howner, rfl⟩
  · exact .inl hkeyed
  · exact .inr ⟨slot, owner', hslot, mem_cons_of_mem _ howner, rfl⟩

theorem Holds.drop (h : Holds none (id :: ids) q) : Holds none ids { q with held := q.held.erase id } := by
  have hnodup := nodup_cons.1 h.nodup
  refine ⟨h.running, nofun, fun other => ?_, hnodup.2, fun other hother => h.own other (mem_cons_of_mem id hother)⟩
  rw [AList.mem_erase, h.held, mem_cons]
  constructor
  · rintro ⟨hne, hother⟩
    exact hother.resolve_left hne
  · intro hother
    refine ⟨?_, .inr hother⟩
    rintro rfl
    exact hnodup.1 hother

/-! ### `prepare_auth` -/

def Prepared (prepared : PreparedAuth) (q : Notes) : Prop :=
  Holds none prepared.transientSecretIds q ∧
    ∀ id ∈ prepared.auth.secretIds, isTransient id = true → id ∈ prepared.transientSecretIds

theorem transient_id (slot : Slot) (owner : String) : isTransient (slot.id owner) = (slot.isKeyed || slot.isFresh) :=
  hasSlot_id _ slot owner

theorem putUnlessEmpty_obeys {slot : Slot} {owner text : String} (hslot : (slot.isKeyed || slot.isFresh) = false)
    (h : Holds auth ids q) : (putUnlessEmpty (slot.id owner) text).Obeys note allowed fair (fun _ q => Holds auth ids q) q := by
  have hid : isTransient (slot.id owner) ≠ true := by
    rw [transient_id, hslot]
    decide
  unfold putUnlessEmpty
  split_ifs
  · exact h
  · exact ⟨allowed_put h.named fun hit => absurd hit hid, fun _ _ => h.put_again fun hit => absurd hit hid⟩

theorem stageSessionSecrets_obeys (h : Holds none [] q) :
    (stageSessionSecrets sessionId).Obeys note allowed fair (fun _ q => Holds none [] q) q := by
  refine h.call (fun hnamed => ⟨hnamed, trivial⟩) (fun _ => rfl) fun r _ => ?_
  rcases r with e | _ | row
  · exact h
  · exact h
  · refine (putUnlessEmpty_obeys rfl h).bind fun _ q h => ?_
    refine (putUnlessEmpty_obeys rfl h).bind fun _ q h => ?_
    exact (putUnlessEmpty_obeys rfl h).bind fun _ q h => h

theorem stagePrivateKey_obeys {keyId : String} (h : Holds none [] q) :
    (stagePrivateKey keyId).Obeys note allowed fair (fun _ q => Holds none [] q) q := by
  have hid : isTransient (Slot.keyPriv.id keyId) ≠ true := by
    rw [transient_id]
    decide
  refine h.call (fun hnamed => ⟨hnamed, trivial⟩) (fun _ => rfl) fun r _ => ?_
  rcases r with e | _ | pem
  · exact h
  · exact h
  · dsimp only
    split_ifs
    · exact h
    · exact ⟨allowed_put h.named fun hit => absurd hit hid, fun _ _ => h.put_again fun hit => absurd hit hid⟩

theorem stageCertificate_obeys {keyId : String} (h : Holds none ids q) :
    (stageCertificate keyId).Obeys note allowed fair (fun r q => Holds none ids q ∧ ∀ e, r = .error e → ids = []) q := by
  have hid : isTransient (Slot.keyCert.id keyId) ≠ true := by
    rw [transient_id]
    decide
  have hnone : ∀ paired : Bool, ∀ e : Error, (Except.ok paired : Except Error Bool) = .error e → ids = [] := nofun
  refine h.call (fun hnamed => ⟨hnamed, trivial⟩) (fun _ => rfl) fun r hr => ?_
  rcases r with e | _ | bytes
  · exact ⟨h, fun _ _ => h.empty.1 hr⟩
  · exact ⟨h, hnone _⟩
  · dsimp only
    split_ifs
    · exact ⟨h, hnone _⟩
    · exact ⟨allowed_put h.named fun hit => absurd hit hid,
        fun _ _ => ⟨h.put_again fun hit => absurd hit hid, hnone _⟩⟩

theorem stageTyped_obeys {wanted : Bool} {text : String} (h : Holds none ids q) (htransient : isTransient id = true)
    (hmay : q.MayStage id) (hnew : id ∉ ids) :
    (stageTyped wanted id text).Obeys note allowed fair
      (fun typed q => Holds none (ids ++ typed.toList) q ∧ ∀ other ∈ typed, other = id) q := by
  unfold stageTyped
  split_ifs
  · refine ⟨allowed_put h.named fun _ => hmay, fun _ _ => ⟨h.put_new htransient hmay hnew, ?_⟩⟩
    rintro other ⟨⟩
    rfl
  · refine ⟨?_, nofun⟩
    rwa [toList_none, append_nil]

def Outlives (passphraseId : Option String) : Prop := ∀ id ∈ passphraseId, isTransient id = false

theorem outlives_none : Outlives none := fun _ h => absurd h (not_mem_none _)

theorem outlives_savedPassphraseId (sessionId : String) (staged : SessionSecrets) :
    Outlives (savedPassphraseId sessionId staged) := by
  intro id hid
  unfold savedPassphraseId at hid
  split_ifs at hid
  · exact absurd hid (not_mem_none _)
  · rw [← some_inj.1 hid]
    exact transient_id .sessPassphrase sessionId

theorem prepared_savedAuth {staged : SessionSecrets}
    {prepared : PreparedAuth} (h : Holds none [] q) (hpassphrase : Outlives passphraseId)
    (hprepared : savedAuth sessionId staged passphraseId = some prepared) : Prepared prepared q := by
  unfold savedAuth at hprepared
  split_ifs at hprepared
  · cases hprepared
    refine ⟨h, fun id hid htransient => ?_⟩
    rcases mem_cons.1 hid with rfl | hid
    · rw [transient_id] at htransient
      cases htransient
    · rw [hpassphrase id (mem_toList.1 hid)] at htransient
      cases htransient
  · cases hprepared
    refine ⟨h, fun id hid htransient => ?_⟩
    rw [mem_singleton.1 hid, transient_id] at htransient
    cases htransient

theorem trySavedSession_obeys (h : Holds none [] q) :
    (trySavedSession input).Obeys note allowed fair
      (fun r q => Holds none [] q ∧ ∀ found passphraseId, r = .ok (found, passphraseId) →
        (∀ prepared, found = some prepared → Prepared prepared q) ∧ Outlives passphraseId) q := by
  have hnothing : ∀ q found passphraseId, (Except.ok (none, none) : Except Error _) = .ok (found, passphraseId) →
      (∀ prepared, found = some prepared → Prepared prepared q) ∧ Outlives passphraseId := by
    rintro q _ _ ⟨⟩
    exact ⟨fun prepared hfound => absurd hfound.symm (some_ne_none prepared), outlives_none⟩
  unfold trySavedSession
  split
  · exact ⟨h, hnothing q⟩
  next sessionId _ =>
  refine (stageSessionSecrets_obeys h).andThen (fun e q h => ⟨h, fun _ _ hfound => by cases hfound⟩) fun staged q h => ?_
  rcases staged with _ | staged
  · exact ⟨h, hnothing q⟩
  · refine ⟨h, ?_⟩
    rintro _ _ ⟨⟩
    have hpassphrase := outlives_savedPassphraseId sessionId staged
    exact ⟨fun _ hfound => prepared_savedAuth h hpassphrase hfound, hpassphrase⟩

theorem prepared_of_pin {pin : Option String} (rest : List String) (h : Holds none pin.toList q)
    (hids : ref.secretIds ⊆ rest ++ pin.toList) (hrest : ∀ id ∈ rest, isTransient id = false) :
    Prepared ⟨ref, pin.toList⟩ q := by
  refine ⟨h, fun id hid htransient => ?_⟩
  rcases mem_append.1 (hids hid) with hid | hid
  · rw [hrest id hid] at htransient
    cases htransient
  · exact hid

/-- What `prepare_auth` and its parts leave. -/
def Leaves (r : Except Error PreparedAuth) (q : Notes) : Prop :=
  match r with
  | .ok prepared => Prepared prepared q
  | .error _ => Holds none [] q

theorem column_obeys {α : Type} {value : Option α} {message : String} {next : α → Connect (Except Error PreparedAuth)}
    (h : Holds none [] q) (hnext : ∀ a, (next a).Obeys note allowed fair Leaves q) :
    ((column value message).andThen next).Obeys note allowed fair Leaves q := by
  rcases value with _ | a
  · exact h
  · exact hnext a

theorem stagePin_obeys {wanted : Bool} {slot : Slot} (hslot : slot.isKeyed = true)
    (h : Holds none [] q) :
    (stagePin wanted slot input).Obeys note allowed fair (fun pin q => Holds none pin.toList q) q := by
  have htransient : isTransient (slot.id input.keyId) = true := by
    rw [transient_id, hslot, Bool.true_or]
  have hkeyed : isKeyed (slot.id input.keyId) = true := (hasSlot_id _ slot _).trans hslot
  exact (stageTyped_obeys h htransient (.inl hkeyed) not_mem_nil).conseq fun _ _ hend => hend.1

theorem keyCert_outlives (keyId : String) : ∀ id ∈ [Slot.keyCert.id keyId], isTransient id = false := by
  intro id hid
  rw [mem_singleton.1 hid]
  exact transient_id _ _

variable {row : ManagerKey}

section

variable (h : Holds none [] q)
include h

theorem enclaveRef_obeys : (enclaveRef row).Obeys note allowed fair Leaves q :=
  column_obeys h fun _ => ⟨h, nofun⟩

theorem helloRef_obeys : (helloRef row).Obeys note allowed fair Leaves q :=
  column_obeys h fun _ => ⟨h, nofun⟩

theorem keystoreRef_obeys : (keystoreRef row).Obeys note allowed fair Leaves q :=
  column_obeys h fun _ => ⟨h, nofun⟩

theorem tpmRef_obeys : (tpmRef row input).Obeys note allowed fair Leaves q := by
  refine column_obeys h fun provider => ?_
  refine (stagePin_obeys rfl h).bind fun pin q h => ?_
  exact prepared_of_pin [] h (List.Subset.refl _) nofun

theorem pkcs11Ref_obeys : (pkcs11Ref row input).Obeys note allowed fair Leaves q := by
  refine column_obeys h fun modulePath => column_obeys h fun tokenSerial => column_obeys h fun ckaId => ?_
  refine (stagePin_obeys rfl h).bind fun pin q h => ?_
  exact prepared_of_pin [] h (List.Subset.refl _) nofun

end

theorem skRef_obeys {credentialId : Bytes} {application : String} (h : Holds none [] q) :
    (skRef row input credentialId application).Obeys note allowed fair Leaves q := by
  refine (stagePin_obeys rfl h).bind fun pin q h => ?_
  refine (stageCertificate_obeys h).andThen (fun e q hend => ?_) fun paired q hend => ?_
  · rw [Leaves, ← hend.2 e rfl]
    exact hend.1
  · refine prepared_of_pin [Slot.keyCert.id input.keyId] hend.1 ?_ (keyCert_outlives _)
    split_ifs
    · exact List.Subset.refl _
    · exact subset_cons_self _ _

theorem typed_or_session {typed : Option String} (hpassphrase : Outlives passphraseId)
    (hid : id ∈ (typed.or passphraseId).toList) (htransient : isTransient id = true) : id ∈ typed.toList := by
  rcases typed with _ | typed
  · rw [none_or, mem_toList] at hid
    rw [hpassphrase id hid] at htransient
    cases htransient
  · exact hid

section

variable (h : Holds none [] q) (hpassphrase : Outlives passphraseId)
include h hpassphrase

theorem softwarePubkeyAuth_obeys : (softwarePubkeyAuth input passphraseId).Obeys note allowed fair (fun r q => match r with
    | .ok (some prepared) => Prepared prepared q
    | _ => Holds none [] q) q := by
  refine (stagePrivateKey_obeys h).andThen (fun e q h => h) fun present q h => ?_
  cases present with
  | false => exact h
  | true =>
    have htransient : isTransient (Slot.keyPassphrase.id input.keyId) = true := transient_id _ _
    have hkeyed : isKeyed (Slot.keyPassphrase.id input.keyId) = true := hasSlot_id _ _ _
    refine (stageTyped_obeys h htransient (.inl hkeyed) not_mem_nil).bind fun typed q hend => ?_
    refine (stageCertificate_obeys hend.1).andThen (fun e q hcert => ?_) fun paired q hcert => ⟨hcert.1, fun id hid hit => ?_⟩
    · have hnil := hcert.2 e rfl
      rw [← hnil]
      exact hcert.1
    have hkey : id ≠ Slot.keyPriv.id input.keyId := by
      rintro rfl
      rw [transient_id] at hit
      cases hit
    split_ifs at hid
    · rcases mem_cons.1 hid with rfl | hid
      · exact absurd rfl hkey
      · rcases mem_cons.1 hid with rfl | hid
        · rw [transient_id] at hit
          cases hit
        · exact typed_or_session hpassphrase hid hit
    · rcases mem_cons.1 hid with rfl | hid
      · exact absurd rfl hkey
      · exact typed_or_session hpassphrase hid hit

theorem quickConnectFallback_obeys : (quickConnectFallback input passphraseId).Obeys note allowed fair Prepared q := by
  refine ⟨⟨h.named, trivial⟩, fun transientId _ => ?_⟩
  have hdraw := h.draw transientId
  have hmay : ∀ slot, Slot.isFresh slot = true → Notes.MayStage { q with draws := transientId :: q.draws } (slot.id transientId) :=
    fun slot hslot => .inr ⟨slot, transientId, hslot, mem_cons_self, rfl⟩
  have hkey : isTransient (Slot.connKey.id transientId) = true := transient_id _ _
  have hpassword : isTransient (Slot.connPassword.id transientId) = true := transient_id _ _
  have htyped : isTransient (Slot.connPassphrase.id transientId) = true := transient_id _ _
  split_ifs
  · refine ⟨allowed_put hdraw.named fun _ => hmay .connKey rfl, fun r _ => ?_⟩
    have hput : Holds none _ (note _ (.put _ (utf8 input.keyData)) r) :=
      hdraw.put_new hkey (hmay .connKey rfl) not_mem_nil
    have hnew : Slot.connPassphrase.id transientId ∉ [] ++ [Slot.connKey.id transientId] := by
      exact fun hmem => absurd (Slot.id_inj.1 (mem_singleton.1 hmem)).1 (by decide)
    refine (stageTyped_obeys hput htyped (mayStage_put (hmay .connPassphrase rfl)) hnew).bind fun typed q hend => ?_
    refine ⟨hend.1, fun id hid hit => ?_⟩
    rcases mem_cons.1 hid with rfl | hid
    · exact mem_cons_self
    · exact mem_cons_of_mem _ (typed_or_session hpassphrase hid hit)
  · refine ⟨allowed_put hdraw.named fun _ => hmay .connPassword rfl, fun _ _ => ?_⟩
    exact ⟨hdraw.put_new hpassword (hmay .connPassword rfl) not_mem_nil, fun id hid _ => hid⟩

theorem tryManagerKey_obeys : (tryManagerKey input passphraseId).Obeys note allowed fair (fun r q => match r with
    | .ok (some prepared) => Prepared prepared q
    | _ => Holds none [] q) q := by
  have hhardware : ∀ {ref : Connect (Except Error PreparedAuth)} {q : Notes}, ref.Obeys note allowed fair Leaves q →
      (ref.andThen fun prepared => .done (.ok (some prepared))).Obeys note allowed fair (fun r q => match r with
          | .ok (some prepared) => Prepared prepared q
          | _ => Holds none [] q) q :=
    fun href => href.andThen (fun _ _ h => h) fun _ _ h => h
  unfold tryManagerKey
  split_ifs
  · exact h
  refine h.call (fun hnamed => ⟨hnamed, trivial⟩) (fun _ => rfl) fun r _ => ?_
  rcases r with e | _ | row
  · exact h
  · exact h
  · dsimp only
    split
    · exact hhardware (enclaveRef_obeys h)
    · exact hhardware (helloRef_obeys h)
    · exact hhardware (tpmRef_obeys h)
    · exact hhardware (keystoreRef_obeys h)
    · exact hhardware (pkcs11Ref_obeys h)
    · split
      · exact hhardware (skRef_obeys h)
      · exact softwarePubkeyAuth_obeys h hpassphrase

end

theorem prepareAuth_obeys (h : Holds none [] q) : (prepareAuth input).Obeys note allowed fair Leaves q := by
  refine (trySavedSession_obeys h).andThen (fun e q hend => hend.1) fun found q hend => ?_
  obtain ⟨saved, passphraseId⟩ := found
  obtain ⟨hsaved, hpassphrase⟩ := hend.2 saved passphraseId rfl
  rcases saved with _ | prepared
  · refine (tryManagerKey_obeys hend.1 hpassphrase).andThen (fun e q h => h) fun found q h => ?_
    rcases found with _ | prepared
    · exact (quickConnectFallback_obeys h hpassphrase).bind fun _ _ hprepared => hprepared
    · exact h
  · exact hsaved prepared rfl

/-! ### The dial -/

section
variable {E : Except Error Unit → Notes → Prop}

theorem ensurePassphraseSlot_obeys (h : Holds (some ref) ids q) : (ensurePassphraseSlot ref).Obeys note allowed fair
    (fun found q => Holds (some ref) ids q ∧
      ∀ slot ref', found = some (slot, ref') → ref' = ref ∧ (isTransient slot = true → slot ∈ ids)) q := by
  have hslot : ∀ slot, slot ∈ ref.secretIds → isTransient slot = true → slot ∈ ids := h.names ref rfl
  unfold ensurePassphraseSlot
  split
  · refine ⟨h, ?_⟩
    rintro _ _ ⟨⟩
    exact ⟨rfl, hslot _ (by simp [PreparedAuthRef.secretIds])⟩
  · refine ⟨h, ?_⟩
    rintro _ _ ⟨⟩
    exact ⟨rfl, hslot _ (by simp [PreparedAuthRef.secretIds])⟩
  · exact ⟨⟨h.named, trivial⟩, fun _ hr => hr.elim⟩
  · exact ⟨⟨h.named, trivial⟩, fun _ hr => hr.elim⟩
  · exact ⟨h, fun _ _ hfound => by cases hfound⟩

theorem authLoop_obeys {left : Nat} (h : Holds auth ids q)
    (hnames : ∀ id ∈ ref.secretIds, isTransient id = true → id ∈ ids) :
    (authLoop sessionId left ref).Obeys note allowed fair (fun _ q => Holds (some ref) ids q) q := by
  induction left generalizing q auth with
  | zero => exact ⟨⟨h.named, trivial⟩, fun _ _ => h.run hnames⟩
  | succ left ih =>
    refine ⟨⟨h.named, trivial⟩, fun r _ => ?_⟩
    have hrun := h.run hnames
    rcases r with e | _
    · dsimp only
      split_ifs
      · exact hrun
      refine hrun.call (fun hnamed => ⟨hnamed, trivial⟩) (fun _ => rfl) fun r _ => ?_
      rcases r with _ | secret
      · exact hrun
      · refine (ensurePassphraseSlot_obeys hrun).bind fun found q hend => ?_
        rcases found with _ | ⟨slot, ref'⟩
        · exact hend.1
        · obtain ⟨rfl, hslot⟩ := hend.2 slot ref' rfl
          have hmay : isTransient slot = true → q.MayStage slot := fun hit => (hend.1.own slot (hslot hit)).2
          exact ⟨allowed_put hend.1.named hmay, fun _ _ => ih (hend.1.put_again hslot)⟩
    · exact hrun

theorem promptForPassword_obeys (h : Holds (some ref) ids q) :
    (promptForPassword sessionId ref).Obeys note allowed fair (fun _ q => Holds (some ref) ids q) q := by
  unfold promptForPassword
  split
  · next secretId =>
    refine h.call (fun hnamed => ⟨hnamed, trivial⟩) (fun _ => rfl) fun stored _ => ?_
    split_ifs
    · refine h.call (fun hnamed => ⟨hnamed, trivial⟩) (fun _ => rfl) fun r _ => ?_
      rcases r with _ | secret
      · exact h
      · have hid : isTransient secretId = true → secretId ∈ ids := h.names _ rfl secretId mem_cons_self
        exact ⟨allowed_put h.named fun hit => (h.own secretId (hid hit)).2, fun _ _ => h.put_again hid⟩
    · exact h
  · exact h

theorem dropMany_obeys (h : Holds none ids q) : (dropMany ids).Obeys note allowed fair (fun _ q => Holds none [] q) q := by
  induction ids generalizing q with
  | nil => exact h
  | cons id ids ih => exact ⟨⟨h.named, (h.held id).2 mem_cons_self⟩, fun _ _ => ih h.drop⟩

/-- **An attempt names only what it holds, and at its end it holds nothing**, as long as the database does not fail once
something is staged and no slot is minted. -/
theorem connectAttempt_obeys (id : String) (input : PrepareAuthInput) :
    (connectAttempt id input).Obeys note allowed fair Ended {} := by
  refine (prepareAuth_obeys holds_nil).andThen (fun e q h => ⟨h.running, h.empty.2 rfl⟩) fun prepared q h => ?_
  refine ⟨⟨h.1.named, trivial⟩, fun _ _ => ?_⟩
  refine (((promptForPassword_obeys (h.1.run h.2)).bind fun _ q h' => authLoop_obeys h' h.2)).bind fun result q h' => ?_
  refine ⟨⟨h'.named, trivial⟩, fun _ _ => ?_⟩
  exact (dropMany_obeys h'.settle).bind fun _ q hend => ⟨hend.running, hend.empty.2 rfl⟩

end

/-! ## Every order of attempts -/

end

section
variable {size i j : Nat} {s t : System} {l : Step} {id : String}

/-- Every thread is on its way, and no two attempts hold one id. -/
structure Sound (s : System) : Prop where
  obeys : Threads.Tracks note {} (fun _ p => p.Obeys note allowed fair Ended) s
  leased : Leased (fun id => s.shared.get id) (fun i id => (s.at i).held.lookup id) (Staged s.log)
  own : ∀ i, ∀ id ∈ (s.at i).held, isTransient id = true ∧ (s.at i).MayStage id
  drawn : ∀ i, ∀ owner ∈ (s.at i).draws, owner ∈ drawn s.log
  apart : ∀ i j, ∀ owner ∈ (s.at i).draws, owner ∈ (s.at j).draws → i = j

theorem sound_init (store : SecretStore) : Sound (init store) := by
  refine ⟨Threads.tracks_init store, ?_, nofun, nofun, nofun⟩
  have h : Leased (fun id => store.get id) (fun (_ : Nat) (_ : String) => (none : Option Bytes)) (fun _ => False) :=
    leased_nil fun _ _ => rfl
  refine ⟨h.found, h.exclusive, fun id hstaged => ?_⟩
  obtain ⟨-, e, he, -⟩ := hstaged
  exact absurd he not_mem_nil

theorem Sound.free (h : Sound s) (hmay : (s.at i).MayStage id)
    (hkeyed : isKeyed id = true → ∀ j, j ≠ i → id ∉ (s.at j).held)
    (hj : j ≠ i) : id ∉ (s.at j).held := by
  rcases hmay with hkey | ⟨slot, owner, hslot, howner, rfl⟩
  · exact hkeyed hkey j hj
  · intro hmem
    rcases (h.own j _ hmem).2 with hkey | ⟨slot', owner', -, howner', heq⟩
    · exact hkeyed hkey j hj hmem
    · obtain ⟨-, rfl⟩ := Slot.id_inj.1 heq
      exact hj (h.apart j i owner howner' howner)

theorem draws_note (q : Notes) (op : Op) (r : op.Resp) {owner : String} (h : owner ∈ (note q op r).draws) :
    owner ∈ drawnBy op r ∨ owner ∈ q.draws := by
  cases op with
  | randomHandle => exact (mem_cons.1 h).imp_left mem_singleton.2
  | put id bytes =>
    rw [note_put] at h
    split_ifs at h <;> exact .inr h
  | _ => exact .inr h

theorem mayStage_note (q : Notes) (op : Op) (r : op.Resp) (h : q.MayStage id) : (note q op r).MayStage id := by
  cases op with
  | randomHandle =>
    rcases h with h | ⟨slot, owner, hslot, howner, heq⟩
    · exact .inl h
    · exact .inr ⟨slot, owner, hslot, mem_cons_of_mem _ howner, heq⟩
  | put id bytes => exact mayStage_put h
  | _ => exact h

theorem held_note (q : Notes) (op : Op) (r : op.Resp) (h : id ∈ (note q op r).held) :
    id ∈ q.held ∨ isTransient id = true ∧ ∃ bytes, op = .put id bytes := by
  cases op with
  | put id' bytes =>
    rw [note_put] at h
    split_ifs at h with htransient
    · rcases (AList.mem_insert _).1 h with rfl | h
      · exact .inr ⟨htransient, bytes, rfl⟩
      · exact .inl h
    · exact .inl h
  | dropId id' => exact .inl (AList.mem_erase.1 h).2
  | _ => exact .inl h

theorem staged_concat {log : List LogEntry} {e : LogEntry} (h : Staged (log ++ [e]) id) :
    Staged log id ∨ isTransient id = true ∧ ∃ bytes, e.op = .put id bytes := by
  obtain ⟨htransient, e', he', bytes, hput⟩ := h
  rcases mem_append.1 he' with he' | he'
  · exact .inl ⟨htransient, e', he', bytes, hput⟩
  · rw [mem_singleton.1 he'] at hput
    exact .inr ⟨htransient, bytes, hput⟩

theorem lookup_eq_none_iff {held : AList fun _ : String => Bytes} : held.lookup id = none ↔ id ∉ held :=
  AList.lookup_eq_none

theorem leased_act {r : op.Resp} {at' : Nat → Notes} {log' : List LogEntry} (h : Sound s)
    (hallowed : allowed (s.at i) op)
    (hcareful : ∀ id bytes, op = .put id bytes → isKeyed id = true → ∀ j, j ≠ i → id ∉ (s.at j).held)
    (hat : ∀ j, at' j = if i = j then note (s.at j) op r else s.at j)
    (hlog : ∀ id, Staged log' id → Staged s.log id ∨ isTransient id = true ∧ ∃ bytes, op = .put id bytes) :
    Leased (fun id => (perform size o op s.shared).2.get id) (fun j id => (at' j).held.lookup id) (Staged log') := by
  -- An operation that touches neither the store nor what is held.
  have hsame : (perform size o op s.shared).2 = s.shared → (∀ q, (note q op r).held = q.held) →
      (∀ id bytes, op ≠ .put id bytes) →
      Leased (fun id => (perform size o op s.shared).2.get id) (fun j id => (at' j).held.lookup id) (Staged log') := by
    intro hstore hheld hput
    refine h.leased.aside (fun id _ => by rw [hstore]) (fun j id => ?_) fun id hid => ?_
    · rw [hat]
      split_ifs
      · rw [hheld]
      · rfl
    · exact (hlog id hid).resolve_right fun ⟨_, bytes, heq⟩ => hput id bytes heq
  cases op with
  | put id bytes =>
    have hget : ∀ other, (perform size o (.put id bytes) s.shared).2.get other =
        if other = id then some bytes else s.shared.get other := SecretStore.get_put o.addr id bytes s.shared
    rcases Bool.eq_false_or_eq_true (isTransient id) with htransient | htransient
    · refine h.leased.put (i := i) (k := id) (v := bytes) (fun j hj => ?_) hget (fun j other => ?_) fun other hother => ?_
      · exact lookup_eq_none_iff.2 (h.free (hallowed.2 htransient) (hcareful id bytes rfl) hj)
      · rw [hat]
        rcases eq_or_ne i j with rfl | hij
        · rw [if_pos rfl, note_put, if_pos htransient]
          rcases eq_or_ne other id with rfl | hne
          · rw [AList.lookup_insert, if_pos ⟨rfl, rfl⟩]
          · rw [AList.lookup_insert_ne hne, if_neg fun hboth => hne hboth.2]
        · rw [if_neg hij, if_neg fun hboth => hij hboth.1.symm]
      · rcases hlog other hother with hold | ⟨-, bytes', heq⟩
        · exact .inr hold
        · cases heq
          exact .inl rfl
    · refine h.leased.aside (fun other hother => ?_) (fun j other => ?_) fun other hother => ?_
      · rw [hget, if_neg]
        rintro rfl
        rcases hother with hstaged | ⟨j, hj⟩
        · rw [hstaged.1] at htransient
          cases htransient
        · have hmem : other ∈ (s.at j).held := by
            by_contra hnot
            exact hj (lookup_eq_none_iff.2 hnot)
          rw [(h.own j other hmem).1] at htransient
          cases htransient
      · rw [hat, note_put, htransient]
        split_ifs
        · next hfalse => cases hfalse
        · rfl
        · rfl
      · refine (hlog other hother).resolve_right ?_
        rintro ⟨hother, bytes', heq⟩
        cases heq
        rw [hother] at htransient
        cases htransient
  | dropId id =>
    refine h.leased.drop (i := i) (k := id) ?_ (SecretStore.get_dropId id s.shared) (fun j other => ?_) fun other hother => ?_
    · exact fun hnone => lookup_eq_none_iff.1 hnone hallowed.2
    · rw [hat]
      rcases eq_or_ne i j with rfl | hij
      · rw [if_pos rfl]
        change ((s.at i).held.erase id).lookup other = _
        rcases eq_or_ne other id with rfl | hne
        · rw [AList.lookup_erase, if_pos ⟨rfl, rfl⟩]
        · rw [AList.lookup_erase_ne hne, if_neg fun hboth => hne hboth.2]
      · rw [if_neg hij, if_neg fun hboth => hij hboth.1.symm]
    · refine (hlog other hother).resolve_right ?_
      rintro ⟨-, bytes', heq⟩
      cases heq
  | _ => exact hsame rfl (fun _ => rfl) fun _ _ heq => by cases heq

theorem drawn_concat (log : List LogEntry) (e : LogEntry) : drawn (log ++ [e]) = drawn log ++ drawnBy e.op e.answer := by
  rw [drawn, flatMap_append, flatMap_singleton]
  rfl

theorem act_leaves (h : s.act (perform size) i o = some t) :
    ∃ op next, s.progs[i]? = some (.call op next) ∧ t.shared = (perform size o op s.shared).2 ∧
      t.log = s.log ++ [⟨i, op, (perform size o op s.shared).1, (perform size o op s.shared).2⟩] ∧
      ∀ j, t.at j = if i = j then note (s.at j) op (perform size o op s.shared).1 else s.at j := by
  obtain ⟨op, next, hprog, hshared, hat⟩ : ∃ op next, s.progs[i]? = some (.call op next) ∧
      t.shared = (perform size o op s.shared).2 ∧
      ∀ j, t.at j = if i = j then note (s.at j) op (perform size o op s.shared).1 else s.at j := Threads.notes_act h
  obtain ⟨op', next', hprog', ht⟩ := Threads.act_cases h
  rw [hprog] at hprog'
  cases hprog'
  exact ⟨op, next, hprog, hshared, by rw [ht], hat⟩

theorem fair_of_careful {next : op.Resp → Connect (Except Error Unit)} (hok : Careful s (.act i o))
    (hprog : s.progs[i]? = some (.call op next)) : fair (s.at i) op (perform size o op s.shared).1 := by
  have hcareful := hok op next hprog
  cases op with
  | certificate keyId =>
    change fair _ _ (o.answer (.certificate keyId))
    rcases hanswer : o.answer (.certificate keyId) with e | found
    · exact hcareful e hanswer
    · trivial
  | randomUuid => exact hcareful.elim
  | _ => trivial

theorem sound_step (h : Sound s) (hok : Careful s l) (hstep : step size s l = some t) : Sound t := by
  cases l with
  | attempt id input =>
    cases hstep
    exact ⟨h.obeys.spawn (connectAttempt_obeys id input), h.leased, h.own, h.drawn, h.apart⟩
  | act i o =>
    obtain ⟨hact, hrandom⟩ := filter_eq_some_iff.1 hstep
    obtain ⟨op, next, hprog, hshared, hlog, hat⟩ := act_leaves hact
    have hallowed : allowed (s.at i) op := (h.obeys.here i _ hprog).1
    have hrandom : (drawn t.log).Nodup := of_decide_eq_true hrandom
    rw [hlog, drawn_concat] at hrandom
    -- What the operation drew was not drawn before.
    have hnew : ∀ owner ∈ drawnBy op (perform size o op s.shared).1, ∀ j, owner ∉ (s.at j).draws :=
      fun owner howner j hold => (nodup_append.1 hrandom).2.2 owner (h.drawn j owner hold) owner howner rfl
    have hdraws : ∀ {j owner}, owner ∈ (t.at j).draws →
        j = i ∧ owner ∈ drawnBy op (perform size o op s.shared).1 ∨ owner ∈ (s.at j).draws := by
      intro j owner howner
      rw [hat] at howner
      split_ifs at howner with hij
      · exact (draws_note _ _ _ howner).imp_left fun hdrawn => ⟨hij.symm, hdrawn⟩
      · exact .inr howner
    refine ⟨?_, ?_, fun j id hid => ?_, fun j owner howner => ?_, fun j k owner hj hk => ?_⟩
    · refine Threads.obeys_act h.obeys hact fun op' next' hprog' => ?_
      exact fair_of_careful hok hprog'
    · rw [hshared]
      refine leased_act h hallowed (fun id bytes hop => ?_) hat fun id hid => ?_
      · subst hop
        exact hok _ next hprog
      · rw [hlog] at hid
        exact staged_concat hid
    · rw [hat] at hid ⊢
      split_ifs at hid ⊢ with hij
      · subst hij
        rcases held_note _ _ _ hid with hold | ⟨htransient, bytes, rfl⟩
        · exact (h.own i id hold).imp_right (mayStage_note _ _ _)
        · exact ⟨htransient, mayStage_put (hallowed.2 htransient)⟩
      · exact h.own j id hid
    · rw [hlog, drawn_concat]
      rcases hdraws howner with ⟨-, hdrawn⟩ | hold
      · exact mem_append_right _ hdrawn
      · exact mem_append_left _ (h.drawn j owner hold)
    · rcases hdraws hj with ⟨rfl, hdrawn⟩ | hold
      · rcases hdraws hk with ⟨rfl, -⟩ | hold
        · rfl
        · exact absurd hold (hnew owner hdrawn k)
      · rcases hdraws hk with ⟨rfl, hdrawn⟩ | hold'
        · exact absurd hold (hnew owner hdrawn j)
        · exact h.apart j k owner hold hold'

theorem Sound.scoped (h : Sound s) : SecretsScoped s := by
  have hended : ∀ {i}, (∀ op next, s.progs[i]? ≠ some (.call op next)) → (s.at i).auth = none ∧ (s.at i).held = ∅ := by
    intro i hnone
    rcases hprog : s.progs[i]? with _ | ⟨r | ⟨op, next⟩⟩
    · have hat : s.at i = {} := Threads.notes_of_unknown h.obeys.known (getElem?_eq_none_iff.1 hprog)
      rw [hat]
      exact ⟨rfl, rfl⟩
    · exact h.obeys.here i _ hprog
    · exact absurd hprog (hnone op next)
  refine ⟨fun i auth hauth id hid htransient => ?_, fun id hstaged => ?_⟩
  · obtain ⟨op, next, hprog⟩ : ∃ op next, s.progs[i]? = some (.call op next) := by
      by_contra hnone
      rw [(hended fun op next hprog => hnone ⟨op, next, hprog⟩).1] at hauth
      cases hauth
    have hmem : id ∈ (s.at i).held := (h.obeys.here i _ hprog).1.1 auth hauth id hid htransient
    obtain ⟨bytes, hbytes⟩ := isSome_iff_exists.1 (AList.lookup_isSome.2 hmem)
    exact ⟨bytes, hbytes, h.leased.found i id bytes hbytes⟩
  · by_cases hall : ∀ i, (s.at i).held.lookup id = none
    · exact .inl (h.leased.gone id hstaged hall)
    obtain ⟨i, hi⟩ := not_forall.1 hall
    have hmem : id ∈ (s.at i).held := by
      by_contra hnot
      exact hi (lookup_eq_none_iff.2 hnot)
    refine .inr ⟨i, ?_, hmem⟩
    rintro ⟨r, hprog⟩
    have hempty : (s.at i).held = ∅ := (h.obeys.here i _ hprog).2
    rw [hempty] at hmem
    exact AList.notMem_empty id hmem

end

/-- **Transient secrets are scoped to their attempts** in every order of attempts whose steps are careful. -/
theorem secretsScoped_of_careful {size : Nat} {store : SecretStore} {ls : List Step} {t : System}
    (hcareful : Along (step size) Careful (init store) ls) (hrun : run (step size) (init store) ls = some t) :
    SecretsScoped t :=
  (run_invariant (fun _ _ _ h hok hstep => sound_step h hok hstep) (sound_init store) hcareful hrun).scoped

/-! ## Attempts that overlap -/

/-- What the world answers: the row of a key, and what comes of the random text, the dial and the prompt. -/
def answers (row : Option ManagerKey) (random : String) (dial : Except Error Unit) (typed : Option Bytes) :
    (op : Op) → op.Resp
  | .sessionSecrets _ => .ok none
  | .managerKey _ => .ok row
  | .privateKey _ => .ok (some "PEM")
  | .certificate _ => .ok none
  | .randomHandle | .randomUuid => random
  | .get _ => none
  | .promptCredential _ _ => typed
  | .runAuth _ => dial
  | .put _ _ | .dropId _ | .connectAsync _ | .settle _ => ()

def tpmKey : ManagerKey :=
  { publicKey := "P", keyType := "T", backend := .tpm, tpmProvider := some "tss-esapi", tpmPinRequired := true }

def softwareKey : ManagerKey := { publicKey := "P", keyType := "T" }

/-- The dial succeeds, and the user types a passphrase where one is missing. -/
def connects (row : ManagerKey) : Outcome := { answer := answers (some row) "r" (.ok ()) (some [1]) }

def wants (row : ManagerKey) (e : Error) : Outcome := { answer := answers (some row) "r" (.error e) (some [1]) }

/-- A key of the TPM and a pasted key; the passphrase of the second is wrong at first. -/
def twoKeys : List Step :=
  [.attempt "a" { keyId := "k", pin := "7" }, .attempt "b" { keyData := "K", passphrase := "p" }] ++
    List.replicate 3 (.act 0 (connects tpmKey)) ++ List.replicate 4 (.act 1 (connects tpmKey)) ++
    [.act 1 (wants tpmKey .passphraseIncorrect)] ++ List.replicate 3 (.act 0 (connects tpmKey)) ++
    List.replicate 6 (.act 1 (connects tpmKey))

def isCareful (s : System) : Step → Bool
  | .attempt _ _ => true
  | .act i o =>
    match s.progs[i]? with
    | some (.call op _) =>
      match op with
      | .put id _ => !isKeyed id || (s.log.map (·.thread)).all fun j => j = i || !decide (id ∈ (s.at j).held)
      | .certificate keyId =>
        match o.answer (.certificate keyId) with
        | .ok _ => true
        | .error _ => (s.at i).held.entries.isEmpty
      | .randomUuid => false
      | _ => true
    | _ => true

theorem careful_of_isCareful (s : System) (l : Step) (h : isCareful s l = true) : Careful s l := by
  cases l with
  | attempt id input => trivial
  | act i o =>
    intro op next hprog
    unfold isCareful at h
    dsimp only at h
    rw [hprog] at h
    cases op with
    | put id bytes =>
      intro hkeyed j hj hmem
      dsimp only at h
      rw [hkeyed, Bool.not_true, Bool.false_or, List.all_eq_true] at h
      by_cases hthread : j ∈ s.log.map (·.thread)
      · have htest := h j hthread
        rw [decide_eq_false hj, Bool.false_or, decide_eq_true hmem] at htest
        cases htest
      · rw [show s.at j = {} from Threads.notes_of_not_mem hthread] at hmem
        exact AList.notMem_empty id hmem
    | certificate keyId =>
      intro e he
      dsimp only at h
      rw [he] at h
      exact AList.ext (isEmpty_iff.1 h)
    | randomUuid => cases h
    | _ => trivial

theorem secretsScoped_of_careful_two :
    ∃ t, run (step 4096) (init {}) twoKeys = some t ∧ t.shared.get "tpm.pin.k" = none ∧ SecretsScoped t := by
  have hgone : (run (step 4096) (init {}) twoKeys).map (fun t => t.shared.get "tpm.pin.k") = some none := by decide +kernel
  obtain ⟨t, hrun, hnone⟩ := map_eq_some_iff.1 hgone
  exact ⟨t, hrun, hnone, secretsScoped_of_careful (along_of_checks careful_of_isCareful (by decide +kernel)) hrun⟩

/-- An encrypted key without a stored passphrase: the passphrase is typed into a slot that is minted for it. -/
def typedLater : List Step :=
  [.attempt "a" { keyId := "k" }] ++ List.replicate 5 (.act 0 (connects softwareKey)) ++
    [.act 0 (wants softwareKey .passphraseRequired)] ++ List.replicate 5 (.act 0 (connects softwareKey))

def samePinSlot : List Step :=
  [.attempt "a" { keyId := "k", pin := "7" }, .attempt "b" { keyId := "k", pin := "8" }] ++
    List.replicate 3 (.act 0 (connects tpmKey)) ++ List.replicate 2 (.act 1 (connects tpmKey))

/-- What is looked at after `typedLater`. -/
def afterTyped (t : System) : Option Bytes × List Nat × Bool × Bool :=
  (t.shared.get "conn.passphrase.r", t.log.map (·.thread), t.log.any fun e =>
      match e.op with
      | .put id _ => id = "conn.passphrase.r"
      | _ => false,
    match t.progs with
    | [.done _] => true
    | _ => false)

/-- What is looked at after `samePinSlot`. -/
def afterSamePin (t : System) : Option Bytes × Option Bytes × Option (List String) :=
  (t.shared.get "tpm.pin.k", (t.at 0).held.lookup "tpm.pin.k", (t.at 0).auth.map PreparedAuthRef.secretIds)

/-- **A typed passphrase stays, and a PIN is overwritten**: after its only attempt the store still has the passphrase that
was typed for it; and while an attempt runs, its PIN is that of another. -/
theorem typed_passphrase_stays :
    (∃ t, run (step 4096) (init {}) typedLater = some t ∧ t.Idle ∧ t.shared.get "conn.passphrase.r" = some [1] ∧
      ¬SecretsScoped t) ∧
    ∃ t, run (step 4096) (init {}) samePinSlot = some t ∧ (t.at 0).held.lookup "tpm.pin.k" = some [55] ∧
      t.shared.get "tpm.pin.k" = some [56] ∧ ¬SecretsScoped t := by
  constructor
  · have hafter : (run (step 4096) (init {}) typedLater).map afterTyped = some (some [1], List.replicate 11 0, true, true) := by
      decide +kernel
    obtain ⟨t, hrun, ht⟩ := map_eq_some_iff.1 hafter
    simp only [afterTyped, Prod.mk.injEq] at ht
    obtain ⟨hget, hthreads, hput, hdone⟩ := ht
    obtain ⟨r, hprogs⟩ : ∃ r, t.progs = [.done r] := by
      split at hdone
      · next r heq => exact ⟨r, heq⟩
      · cases hdone
    refine ⟨t, hrun, fun p hp => ?_, hget, fun h => ?_⟩
    · rw [hprogs, mem_singleton] at hp
      exact ⟨r, hp⟩
    obtain ⟨e, he, hop⟩ := any_eq_true.1 hput
    have hstaged : Staged t.log "conn.passphrase.r" := by
      refine ⟨by decide +kernel, e, he, ?_⟩
      split at hop
      · next id bytes heq =>
        rw [heq, of_decide_eq_true hop]
        exact ⟨bytes, rfl⟩
      · cases hop
    rcases h.gone _ hstaged with hnone | ⟨i, hunfinished, hmem⟩
    · rw [hget] at hnone
      cases hnone
    have hi : i ∈ t.log.map (·.thread) := by
      by_contra hnot
      rw [show t.at i = {} from Threads.notes_of_not_mem hnot] at hmem
      exact AList.notMem_empty _ hmem
    rw [hthreads, mem_replicate] at hi
    refine hunfinished ⟨r, ?_⟩
    rw [hprogs, hi.2]
    rfl
  · have hafter : (run (step 4096) (init {}) samePinSlot).map afterSamePin =
        some (some [56], some [55], some ["tpm.pin.k"]) := by
      decide +kernel
    obtain ⟨t, hrun, ht⟩ := map_eq_some_iff.1 hafter
    simp only [afterSamePin, Prod.mk.injEq] at ht
    obtain ⟨hget, hheld, hnamed⟩ := ht
    obtain ⟨auth, hauth, hids⟩ := map_eq_some_iff.1 hnamed
    refine ⟨t, hrun, hheld, hget, fun h => ?_⟩
    have hmem : "tpm.pin.k" ∈ auth.secretIds := by
      rw [hids]
      exact mem_singleton_self _
    obtain ⟨bytes, hbytes, hstore⟩ := h.named 0 auth hauth _ hmem (by decide +kernel)
    rw [hheld] at hbytes
    rw [hget] at hstore
    cases hbytes
    cases hstore

end Attempt

end LetsFlutSsh.Connection
