import LetsFlutSsh.SshAgent.Agent

/-!
# SSH agent: a remembered approval and the edits of its key

A signature request reads the row of its key, may wait for the user, and applies the answer to the store afterwards. Meanwhile
the user may edit the same row. A step is one operation of the request, or one edit under its hold of the connection.

* `updateKeyPolicy`, `Edit` : what the user does to the row of a key;
* `Signing`, `Label`, `step` : the request, and what the user stored since the prompt was shown;
* `Kept` : the policy that the user stored last stands, a key under Deny was not signed with, a deleted row is gone;
* `Timely` : the promotion and the signer come in time (`kept_throughout_iff`, `deny_overwritten`).
-/

namespace LetsFlutSsh.SshAgent.Promotion
open Lib

variable {Text : Type}

/-! ## Edits -/

/-- `ssh_agent_update_key_policy`, under one hold of the connection. -/
def updateKeyPolicy (db : Db Text) (keyId : String) (policy : AgentPolicy) : Except String (Db Text) :=
  match SshKeys.get db keyId with
  | none => .error s!"key {keyId} not found"
  | some row => .ok (SshKeys.upsert db { row with agentPolicy := policy })

/-- What the user does to the row of the key. -/
inductive Edit where
  | updatePolicy (policy : AgentPolicy)
  /-- The row is saved from the key manager: under a new name, or after it was deleted. -/
  | save (row : SshKeyRow)
  | delete (nowMs : Int64)

def policyOf (db : Db Text) (keyId : String) : Option AgentPolicy := (SshKeys.get db keyId).map SshKeyRow.agentPolicy

/-! ## The request -/

/-- A signature request, and what the user did to the row of the key. -/
structure Signing (Text : Type) where
  shared : Shared Text
  /-- What is left of the request. -/
  request : Handler (Except AgentError Signature)
  /-- The prompt of the key was shown. -/
  shown : Bool := false
  /-- The policy that the user stored last since then. -/
  stored : Option AgentPolicy := none
  /-- The user deleted the row, and did not save it again. -/
  deleted : Bool := false
  /-- A signer was called with the key when the user had set it to Deny. -/
  signedDenied : Bool := false

inductive Label where
  /-- The next operation of the request. -/
  | act (o : Outcome)
  | edit (e : Edit)
  | respond (requestId : String) (decision : Decision)
  | cancel (requestId : String)

namespace Signing

variable (keyId : String)

def waits (s : Signing Text) : Bool :=
  match s.request with
  | .call (.awaitDecision rx) _ => s.shared.prompts.stateOf rx = some .waiting
  | _ => false

def setDb (s : Signing Text) (db : Db Text) : Signing Text := { s with shared := { s.shared with db } }
def setPrompts (s : Signing Text) (prompts : PromptLot) : Signing Text := { s with shared := { s.shared with prompts } }

def shows : Op → Bool
  | .publishPrompt prompt => prompt.keyId = keyId
  | _ => false

def signsWith : Op → Bool
  | .sign _ row _ => row.id = keyId
  | _ => false

def after (s : Signing Text) (o : Outcome) (op : Op) (next : op.Resp → Handler (Except AgentError Signature)) :
    Signing Text where
  shared := (perform o op s.shared).2
  request := next (perform o op s.shared).1
  shown := s.shown || shows keyId op
  stored := s.stored
  deleted := s.deleted
  signedDenied := s.signedDenied || signsWith keyId op && s.stored = some .deny

def act (s : Signing Text) (o : Outcome) : Option (Signing Text) :=
  match s.request with
  | .done _ => none
  | .call op next => if s.waits && !o.elapsed then none else some (s.after keyId o op next)

/-- What the user has stored since the prompt was shown, once a policy is stored. -/
def noting (s : Signing Text) (policy : AgentPolicy) : Option AgentPolicy := if s.shown then some policy else none

def edit (s : Signing Text) : Edit → Signing Text
  | .updatePolicy policy =>
    match updateKeyPolicy s.shared.db keyId policy with
    | .error _ => s
    | .ok db => { s.setDb db with stored := s.noting policy }
  | .save row =>
    -- a row that is saved with the policy that it has stores none
    let stored := if policyOf s.shared.db keyId = some row.agentPolicy then s.stored else s.noting row.agentPolicy
    { s.setDb (SshKeys.upsert s.shared.db { row with id := keyId }) with stored, deleted := false }
  | .delete nowMs => { s.setDb (SshKeys.delete s.shared.db keyId nowMs) with deleted := true }

def step (s : Signing Text) : Label → Option (Signing Text)
  | .act o => s.act keyId o
  | .edit e => some (s.edit keyId e)
  | .respond requestId decision => some (s.setPrompts (s.shared.prompts.respondToRequest requestId decision).2)
  | .cancel requestId => some (s.setPrompts (s.shared.prompts.cancelRequest requestId))

end Signing

/-! ## What should hold, and when -/

/-- No update is lost, a key under Deny is not signed with, and no row comes back. -/
structure Kept (keyId : String) (s : Signing Text) : Prop where
  stands : ∀ policy, s.stored = some policy → ∀ row, SshKeys.get s.shared.db keyId = some row → row.agentPolicy = policy
  refused : s.signedDenied = false
  gone : s.deleted = true → SshKeys.get s.shared.db keyId = none

/-- The promotion is written only while the user has stored no policy but Always since the prompt was shown, and the signer
is called only while the policy that the user stored is not Deny. -/
def Timely (keyId : String) (s : Signing Text) : Label → Prop
  | .act o =>
    match s.request with
    | .call (.persistPolicy id _) _ =>
      id = keyId → o.dbError = none → (SshKeys.get s.shared.db keyId).isSome → s.stored = none ∨ s.stored = some .always
    | .call (.sign _ row _) _ => row.id = keyId → s.stored ≠ some .deny
    | _ => True
  | _ => True

/-! ## The request promotes to Always only -/

def Op.promotes : Op → Prop
  | .persistPolicy _ policy => policy = .always
  | _ => True

abbrev Promotes {α : Type} (p : Handler α) : Prop := p.Within Op.promotes (fun _ _ => True) fun _ => True

variable {KeyData : Type}

section Promotes
variable (w : Wire KeyData)

theorem promotes_andThen {α β ε : Type} {p : Handler (Except ε α)} {f : α → Handler (Except ε β)} (hp : Promotes p)
    (hf : ∀ a, Promotes (f a)) : Promotes (p.andThen f) := by
  refine Prog.Within.bind hp fun r _ => ?_
  cases r with
  | error e => trivial
  | ok a => exact hf a

theorem promotes_mapError {α ε ε' : Type} {p : Handler (Except ε α)} (hp : Promotes p) (f : ε → ε') :
    Promotes (p.mapError f) := Prog.Within.bind hp fun _ _ => trivial

theorem promotes_askUser (row : SshKeyRow) : Promotes (askUser row) := by
  refine ⟨trivial, fun parked _ => ⟨trivial, fun _ _ => ⟨trivial, fun received _ => ?_⟩⟩⟩
  cases received with
  | closed => trivial
  | elapsed => trivial
  | decided d =>
    cases d with
    | deny => trivial
    | authorizeOnce => trivial
    | authorizeAndRemember => exact ⟨rfl, fun _ _ => trivial⟩

theorem promotes_dispatchSign (row : SshKeyRow) (data : Bytes) (flags : UInt32) :
    Promotes (dispatchSign w.fingerprint row data flags) := by
  obtain ⟨e, heq⟩ | ⟨-, signer, heq⟩ := dispatchSign_cases w.fingerprint row data flags
  · rw [heq]
    trivial
  · rw [heq]
    exact ⟨trivial, fun _ _ => trivial⟩

theorem promotes_runSign (ep : Endpoint) (row : SshKeyRow) (data : Bytes) (flags : UInt32) :
    Promotes (runSign w ep row data flags) := by
  unfold runSign
  split
  · trivial
  split
  · trivial
  split
  · trivial
  refine promotes_andThen ?_ fun _ => ?_
  · split
    · exact promotes_askUser row
    · trivial
  · exact promotes_andThen (promotes_mapError (promotes_dispatchSign w row data flags) _) fun _ => trivial

theorem promotes_sign [DecidableEq KeyData] (ep : Endpoint) (keyData : KeyData) (data : Bytes) (flags : UInt32) :
    Promotes (sign w ep keyData data flags) := by
  refine promotes_andThen (promotes_mapError ?_ _) fun found => ?_
  · exact promotes_andThen ⟨trivial, fun _ _ => trivial⟩ fun _ => trivial
  · cases found with
    | none => trivial
    | some row => exact promotes_runSign w ep row data flags

end Promotes

variable {policy : AgentPolicy} {keyId : String}

/-! ## What a step can do -/

section Steps
variable {s t : Signing Text}

theorem act_cases {o : Outcome} (h : s.act keyId o = some t) :
    ∃ op next, s.request = .call op next ∧ t = s.after keyId o op next := by
  unfold Signing.act at h
  cases hreq : s.request with
  | done a => simp [hreq] at h
  | call op next =>
    rw [hreq] at h
    dsimp only at h
    split at h
    · cases h
    · exact ⟨op, next, rfl, (Option.some.inj h).symm⟩

theorem perform_persistPolicy (o : Outcome) (id : String) (policy : AgentPolicy) (x : Shared Text) :
    (perform o (.persistPolicy id policy) x).2.db = x.db ∧ (o.dbError ≠ none ∨ SshKeys.get x.db id = none) ∨
      o.dbError = none ∧ ∃ row, SshKeys.get x.db id = some row ∧
        (perform o (.persistPolicy id policy) x).2.db = SshKeys.upsert x.db { row with agentPolicy := policy } := by
  cases herror : o.dbError with
  | some e => exact Or.inl ⟨by simp [perform, Outcome.read, herror, Except.bind], Or.inl nofun⟩
  | none =>
    cases hrow : SshKeys.get x.db id with
    | none => exact Or.inl ⟨by simp [perform, Outcome.read, herror, Except.bind, persistPolicy, hrow], Or.inr rfl⟩
    | some row =>
      exact Or.inr ⟨rfl, row, rfl, by simp [perform, Outcome.read, herror, Except.bind, persistPolicy, hrow]⟩

theorem perform_db (o : Outcome) (op : Op) (x : Shared Text) (hop : ∀ id policy, op ≠ .persistPolicy id policy) :
    (perform o op x).2.db = x.db := by
  cases op with
  | persistPolicy id policy => exact absurd rfl (hop id policy)
  | _ => rfl

theorem policyOf_eq_some {db : Db Text} (h : policyOf db keyId = some policy) :
    ∃ row, SshKeys.get db keyId = some row ∧ row.agentPolicy = policy := Option.map_eq_some_iff.1 h

theorem of_noting {p : AgentPolicy} (h : s.noting policy = some p) : policy = p := by
  unfold Signing.noting at h
  split at h
  · exact Option.some.inj h
  · cases h

theorem edit_request (s : Signing Text) (e : Edit) : (s.edit keyId e).request = s.request := by
  cases e with
  | updatePolicy policy =>
    simp only [Signing.edit]
    split <;> rfl
  | save row => rfl
  | delete nowMs => rfl

theorem kept_edit (hs : Kept keyId s) (e : Edit) : Kept keyId (s.edit keyId e) := by
  cases e with
  | updatePolicy policy =>
    cases hrow : SshKeys.get s.shared.db keyId with
    | none =>
      have hsame : s.edit keyId (.updatePolicy policy) = s := by simp [Signing.edit, updateKeyPolicy, hrow]
      rw [hsame]
      exact hs
    | some row =>
      have hlive : s.deleted ≠ true := fun hdeleted => by simpa [hrow] using hs.gone hdeleted
      have hedit : s.edit keyId (.updatePolicy policy) =
          { s.setDb (SshKeys.upsert s.shared.db { row with agentPolicy := policy }) with stored := s.noting policy } := by
        simp [Signing.edit, updateKeyPolicy, hrow]
      rw [hedit]
      refine ⟨fun p hp row' hrow' => ?_, hs.refused, fun hdeleted => absurd hdeleted hlive⟩
      rw [Signing.setDb, SshKeys.get_upsert, if_pos (SshKeys.get_id hrow).symm, Option.some.injEq] at hrow'
      rw [← hrow', ← of_noting hp]
  | save row =>
    refine ⟨fun p hp row' hrow' => ?_, hs.refused, nofun⟩
    have hsaved : SshKeys.get (SshKeys.upsert s.shared.db { row with id := keyId }) keyId =
        some { row with id := keyId } := by
      rw [SshKeys.get_upsert, if_pos rfl]
    have hpolicy : row.agentPolicy = p := by
      rcases Decidable.em (policyOf s.shared.db keyId = some row.agentPolicy) with hsame | hother
      · have hstored : s.stored = some p := by simpa [Signing.edit, hsame] using hp
        obtain ⟨old, hold, heq⟩ := policyOf_eq_some hsame
        rw [← heq]
        exact hs.stands p hstored old hold
      · exact of_noting (by simpa [Signing.edit, hother] using hp)
    rw [← hpolicy, ← Option.some.inj (hsaved.symm.trans hrow')]
  | delete nowMs =>
    have hgone := SshKeys.get_delete s.shared.db keyId nowMs
    refine ⟨fun p _ row hrow => ?_, hs.refused, fun _ => hgone⟩
    rw [show SshKeys.get (SshKeys.delete s.shared.db keyId nowMs) keyId = some row from hrow] at hgone
    cases hgone

theorem kept_iff_of_same (hs : Kept keyId s) (hstored : t.stored = s.stored) (hdeleted : t.deleted = s.deleted)
    (hrow : SshKeys.get t.shared.db keyId = SshKeys.get s.shared.db keyId) : Kept keyId t ↔ t.signedDenied = false := by
  refine ⟨Kept.refused, fun hrefused => ⟨fun p hp row hget => ?_, hrefused, fun hgone => ?_⟩⟩
  · rw [hstored] at hp
    rw [hrow] at hget
    exact hs.stands p hp row hget
  · rw [hdeleted] at hgone
    rw [hrow]
    exact hs.gone hgone

theorem kept_iff_of_promoted (hs : Kept keyId s) {row : SshKeyRow}
    (hlive : SshKeys.get s.shared.db keyId = some row) (hstored : t.stored = s.stored) (hdeleted : t.deleted = s.deleted)
    (hrefused : t.signedDenied = s.signedDenied)
    (hrow : SshKeys.get t.shared.db keyId = some { row with agentPolicy := policy }) :
    Kept keyId t ↔ s.stored = none ∨ s.stored = some policy := by
  constructor
  · intro ht
    cases hp : s.stored with
    | none => exact Or.inl rfl
    | some p =>
      have hsame : policy = p := ht.stands p (hstored.trans hp) _ hrow
      exact Or.inr (congrArg some hsame.symm)
  · intro hp
    refine ⟨fun p hp' row' hrow' => ?_, hrefused.trans hs.refused, fun hgone => ?_⟩
    · rw [hrow, Option.some.injEq] at hrow'
      rw [← hrow']
      rw [hstored] at hp'
      rcases hp with hp | hp
      · rw [hp] at hp'
        cases hp'
      · exact Option.some.inj (hp.symm.trans hp')
    · rw [hdeleted] at hgone
      rw [hs.gone hgone] at hlive
      cases hlive

theorem kept_act_iff (hpromotes : Promotes s.request) (hs : Kept keyId s) {o : Outcome} (h : s.act keyId o = some t) :
    Kept keyId t ↔ Timely keyId s (.act o) := by
  obtain ⟨op, next, hreq, rfl⟩ := act_cases h
  rw [Timely, hreq]
  rw [hreq] at hpromotes
  have hsame : SshKeys.get (s.after keyId o op next).shared.db keyId = SshKeys.get s.shared.db keyId →
      (Kept keyId (s.after keyId o op next) ↔ (Signing.signsWith keyId op && s.stored = some .deny) = false) := by
    intro hrow
    refine (kept_iff_of_same (t := s.after keyId o op next) hs rfl rfl hrow).trans ?_
    rw [Signing.after, hs.refused, Bool.false_or]
  have hother : (∀ id policy, op ≠ .persistPolicy id policy) → Signing.signsWith keyId op = false →
      Kept keyId (s.after keyId o op next) := by
    intro hop hsigns
    apply (hsame (congrArg (SshKeys.get · keyId) (perform_db o op s.shared hop))).2
    rw [hsigns, Bool.false_and]
  cases op with
  | listRows => exact iff_of_true (hother nofun rfl) trivial
  | lookupCert id => exact iff_of_true (hother nofun rfl) trivial
  | enqueue id label requester => exact iff_of_true (hother nofun rfl) trivial
  | publishPrompt prompt => exact iff_of_true (hother nofun rfl) trivial
  | awaitDecision rx => exact iff_of_true (hother nofun rfl) trivial
  | sign signer row data =>
    refine (hsame rfl).trans ?_
    simp [Signing.signsWith]
  | persistPolicy id policy =>
    obtain rfl : policy = .always := hpromotes.1
    obtain ⟨hdb, hfails⟩ | ⟨herror, row, hrow, hdb⟩ := perform_persistPolicy o id .always s.shared
    · -- nothing is written
      refine iff_of_true ((hsame (congrArg (SshKeys.get · keyId) hdb)).2 rfl) ?_
      rintro rfl herror hlive
      rcases hfails with hfails | hnone
      · exact absurd herror hfails
      · simp [hnone] at hlive
    · have hid := SshKeys.get_id hrow
      have hafter : SshKeys.get (s.after keyId o (.persistPolicy id .always) next).shared.db keyId =
          if keyId = id then some { row with agentPolicy := .always } else SshKeys.get s.shared.db keyId := by
        rw [Signing.after, hdb, SshKeys.get_upsert, hid]
      rcases Decidable.em (keyId = id) with rfl | hne
      · rw [if_pos rfl] at hafter
        refine (kept_iff_of_promoted (t := s.after keyId o _ next) hs hrow rfl rfl ?_ hafter).trans ?_
        · simp [Signing.after, Signing.signsWith]
        · simp [herror, hrow]
      · rw [if_neg hne] at hafter
        exact iff_of_true ((hsame hafter).2 rfl) fun heq => absurd heq.symm hne

end Steps

/-! ## Runs -/

section Runs
variable {s t : Signing Text}

theorem promotes_step {label : Label} (hs : Promotes s.request) (h : s.step keyId label = some t) : Promotes t.request := by
  cases label with
  | act o =>
    obtain ⟨op, next, hreq, rfl⟩ := act_cases h
    rw [hreq] at hs
    exact hs.2 _ trivial
  | edit e =>
    cases h
    rw [edit_request]
    exact hs
  | respond requestId decision =>
    cases h
    exact hs
  | cancel requestId =>
    cases h
    exact hs

theorem kept_step_iff {label : Label} (hpromotes : Promotes s.request) (hs : Kept keyId s)
    (h : s.step keyId label = some t) : Kept keyId t ↔ Timely keyId s label := by
  cases label with
  | act o => exact kept_act_iff hpromotes hs h
  | edit e =>
    cases h
    exact iff_of_true (kept_edit hs e) trivial
  | respond requestId decision =>
    cases h
    exact iff_of_true ⟨hs.stands, hs.refused, hs.gone⟩ trivial
  | cancel requestId =>
    cases h
    exact iff_of_true ⟨hs.stands, hs.refused, hs.gone⟩ trivial

end Runs

section Arriving
variable [DecidableEq KeyData] (w : Wire KeyData)

def arriving (shared : Shared Text) (ep : Endpoint) (keyData : KeyData) (data : Bytes) (flags : UInt32) : Signing Text where
  shared
  request := sign w ep keyData data flags

variable {w}

/-- **A remembered approval loses no update exactly in the runs whose promotions and signers come in time.** -/
theorem kept_throughout_iff {keyId : String} {shared : Shared Text} {ep : Endpoint} {keyData : KeyData} {data : Bytes}
    {flags : UInt32} {ls : List Label} {t : Signing Text}
    (hrun : run (Signing.step keyId) (arriving w shared ep keyData data flags) ls = some t) :
    (∀ pre, pre <+: ls → ∀ u, run (Signing.step keyId) (arriving w shared ep keyData data flags) pre = some u →
        Kept keyId u) ↔
      Along (Signing.step keyId) (Timely keyId) (arriving w shared ep keyData data flags) ls :=
  run_invariant_iff (J := fun s => Promotes s.request) (fun _ _ _ hs h => promotes_step hs h)
    (fun _ _ _ hpromotes hs h => kept_step_iff hpromotes hs h) (promotes_sign w ep keyData data flags)
    ⟨nofun, rfl, nofun⟩ hrun

end Arriving

/-! ## A key that is set to Deny while its prompt is open -/

def sampleArriving : Signing Unit := arriving sampleWire { db := sampleDb .ask } {} sampleKeyBlob [7] 0

/-- The user sets the key to Deny while the prompt is open, and then answers the prompt. -/
def denyThenRemember : List Label :=
  [.act {}, .act { requestId := "r1" }, .act {}, .edit (.updatePolicy .deny), .respond "r1" .authorizeAndRemember,
    .act {}, .act {}, .act sampleSigned]

/-- The promotion overwrites Deny with Always, and the key is signed with. -/
theorem deny_overwritten : ∃ t, run (Signing.step "k1") sampleArriving denyThenRemember = some t ∧
    t.stored = some .deny ∧ policyOf t.shared.db "k1" = some .always ∧ t.signedDenied = true ∧ ¬Kept "k1" t := by
  have heval : (run (Signing.step "k1") sampleArriving denyThenRemember).map (fun t =>
      (t.stored, policyOf t.shared.db "k1", t.signedDenied)) = some (some .deny, some .always, true) := by
    decide +kernel
  obtain ⟨t, hrun, ht⟩ := Option.map_eq_some_iff.1 heval
  simp only [Prod.mk.injEq] at ht
  refine ⟨t, hrun, ht.1, ht.2.1, ht.2.2, fun hkept => ?_⟩
  exact Bool.false_ne_true (hkept.refused.symm.trans ht.2.2)

/-- The user renames the key while the prompt is open, and then answers the prompt. -/
def renameThenRemember : List Label :=
  [.act {}, .act { requestId := "r1" }, .act {}, .edit (.save { sampleRow .ask with label := "Office key" }),
    .respond "r1" .authorizeAndRemember, .act {}, .act {}, .act sampleSigned]

theorem kept_throughout_iff_rename : ∃ t, run (Signing.step "k1") sampleArriving renameThenRemember = some t ∧
    ((∀ pre, pre <+: renameThenRemember → ∀ u, run (Signing.step "k1") sampleArriving pre = some u → Kept "k1" u) ↔
      Along (Signing.step "k1") (Timely "k1") sampleArriving renameThenRemember) := by
  have hruns : (run (Signing.step "k1") sampleArriving renameThenRemember).isSome = true := by
    decide +kernel
  obtain ⟨t, hrun⟩ := Option.isSome_iff_exists.1 hruns
  exact ⟨t, hrun, kept_throughout_iff hrun⟩

end LetsFlutSsh.SshAgent.Promotion
