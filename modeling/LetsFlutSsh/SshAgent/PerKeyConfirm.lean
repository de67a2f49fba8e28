import LetsFlutSsh.Lib.Table

/-!
# SSH agent: the confirmation gate

`ssh_agent/per_key_confirm.rs`: prompts wait in a parking lot for the user's verdict. A prompt is a oneshot channel; the
lot keeps the sending halves by request id, the request that asks keeps the receiving half.

* `PromptLot.enqueueWithReceiver`, `respondToRequest`, `cancelRequest` : what the request and the user do;
* `PromptLot.receive` : the receiving half under its time-out;
* `Sound` : a verdict that was sent is one of the answers to the id that the channel was made for
  (`sound_enqueue`, `sound_respond`, `sound_receive`);
* `Grows` : channels and answers stay.
-/

namespace LetsFlutSsh.SshAgent
open Lib List

inductive Decision where
  | authorizeOnce
  | authorizeAndRemember
  | deny
deriving DecidableEq

structure PendingPrompt where
  requestId : String
  keyId : String
  keyLabel : String
  requester : Option String

inductive Oneshot where
  | waiting
  | sent (decision : Decision)
  /-- The sender was dropped. -/
  | closed
  /-- The receiver was dropped. -/
  | abandoned
deriving DecidableEq

/-- A channel, with the id that it was made for. -/
structure Channel where
  requestId : String
  state : Oneshot

/-- A verdict that reached a channel. -/
structure Answer where
  requestId : String
  decision : Decision
  channel : Nat

/-- The parking lot: the senders by request id. The channels and the answers so far are kept for good. -/
structure PromptLot where
  pending : Table String Nat
  channels : List Channel
  answers : List Answer

/-- What the receiving half gets before its time is up. -/
inductive Received where
  | decided (decision : Decision)
  | closed
  | elapsed

/-- `timeout(PROMPT_TIMEOUT, rx).await.unwrap_or(Ok(Deny)).unwrap_or(Deny)`. -/
def Received.decision : Received → Decision
  | .decided d => d
  | .closed => .deny
  | .elapsed => .deny

namespace PromptLot

def empty : PromptLot := ⟨.empty, [], []⟩

def stateOf (lot : PromptLot) (rx : Nat) : Option Oneshot := lot.channels[rx]?.map Channel.state

def setState (lot : PromptLot) (rx : Nat) (state : Oneshot) : PromptLot :=
  { lot with channels := lot.channels.modify rx fun c => { c with state } }

def dropSender (lot : PromptLot) (requestId : String) : PromptLot :=
  match lot.pending.get requestId with
  | none => lot
  | some tx =>
    let lot := { lot with pending := lot.pending.erase requestId }
    if lot.stateOf tx = some .waiting then lot.setState tx .closed else lot

def enqueueWithReceiver (lot : PromptLot) (requestId keyId keyLabel : String) (requester : Option String) :
    (PendingPrompt × Nat) × PromptLot :=
  let lot := lot.dropSender requestId
  ((⟨requestId, keyId, keyLabel, requester⟩, lot.channels.length), { lot with
    pending := lot.pending.set requestId lot.channels.length
    channels := lot.channels ++ [⟨requestId, .waiting⟩] })

def respondToRequest (lot : PromptLot) (requestId : String) (decision : Decision) : Except String Unit × PromptLot :=
  match lot.pending.get requestId with
  | none => (.error "no pending request with this id", lot)
  | some tx =>
    let lot := { lot with pending := lot.pending.erase requestId }
    if lot.stateOf tx = some .waiting then
      (.ok (), { lot.setState tx (.sent decision) with answers := lot.answers ++ [⟨requestId, decision, tx⟩] })
    else (.error "awaiting half dropped (caller disconnected)", lot)

def cancelRequest (lot : PromptLot) (requestId : String) : PromptLot := lot.dropSender requestId

/-- The receiving half when it is polled: a verdict is taken even when the time is up. -/
def receive (lot : PromptLot) (rx : Nat) : Received × PromptLot :=
  match lot.stateOf rx with
  | some (.sent d) => (.decided d, lot)
  | some .waiting => (.elapsed, lot.setState rx .abandoned)
  | _ => (.closed, lot)

def ids (lot : PromptLot) : List String := lot.channels.map Channel.requestId

/-- A sender is kept under the id of its channel, and a verdict that was sent is an answer to that id. -/
structure Sound (lot : PromptLot) : Prop where
  pending : ∀ id tx, lot.pending.get id = some tx → lot.ids[tx]? = some id
  sent : ∀ rx id d, lot.channels[rx]? = some ⟨id, .sent d⟩ → ⟨id, d, rx⟩ ∈ lot.answers

structure Grows (lot lot' : PromptLot) : Prop where
  ids : lot.ids <+: lot'.ids
  answers : lot.answers ⊆ lot'.answers

theorem Grows.refl (lot : PromptLot) : Grows lot lot := ⟨prefix_rfl, List.Subset.refl _⟩

theorem Grows.trans {lot lot' lot'' : PromptLot} (h : Grows lot lot') (h' : Grows lot' lot'') : Grows lot lot'' :=
  ⟨h.ids.trans h'.ids, List.Subset.trans h.answers h'.answers⟩

theorem Grows.id {lot lot' : PromptLot} (h : Grows lot lot') {rx : Nat} {id : String} (hid : lot.ids[rx]? = some id) :
    lot'.ids[rx]? = some id := by
  obtain ⟨rest, hrest⟩ := h.ids
  rw [← hrest, List.getElem?_append_left (List.getElem?_eq_some_iff.1 hid).1]
  exact hid

variable {lot : PromptLot}

theorem sound_empty : Sound empty := ⟨nofun, nofun⟩

@[simp] theorem ids_setState (lot : PromptLot) (rx : Nat) (state : Oneshot) : (lot.setState rx state).ids = lot.ids := by
  apply ext_getElem?
  intro i
  simp only [ids, setState, getElem?_map, getElem?_modify]
  rcases lot.channels[i]? with _ | c
  · rfl
  · split <;> rfl

theorem grows_of_ids {lot lot' : PromptLot} (hids : lot'.ids = lot.ids) (hanswers : lot.answers ⊆ lot'.answers) :
    Grows lot lot' :=
  ⟨hids ▸ prefix_rfl, hanswers⟩

theorem Sound.erase (h : Sound lot) (id : String) : Sound { lot with pending := lot.pending.erase id } := by
  refine ⟨fun id' tx htx => ?_, h.sent⟩
  rw [Table.get_erase] at htx
  split at htx
  · cases htx
  · exact h.pending id' tx htx

theorem Sound.setState (h : Sound lot) (rx : Nat) {state : Oneshot} (hstate : ∀ d, state ≠ .sent d) :
    Sound (lot.setState rx state) := by
  refine ⟨fun id tx htx => ?_, fun i id d hi => ?_⟩
  · rw [ids_setState]
    exact h.pending id tx htx
  rw [PromptLot.setState, getElem?_modify] at hi
  obtain ⟨c, hc, heq⟩ := Option.map_eq_some_iff.1 hi
  split at heq
  · cases heq
    exact absurd rfl (hstate d)
  · apply h.sent
    rw [hc, ← heq]

theorem dropSender_cases (lot : PromptLot) (id : String) :
    lot.dropSender id = lot ∨ lot.dropSender id = { lot with pending := lot.pending.erase id } ∨
      ∃ tx, lot.dropSender id = { lot with pending := lot.pending.erase id }.setState tx .closed := by
  rcases htx : lot.pending.get id with _ | tx
  · left
    rw [dropSender, htx]
  · right
    rw [dropSender, htx]
    dsimp only
    split
    · exact Or.inr ⟨tx, rfl⟩
    · exact Or.inl rfl

theorem Sound.dropSender (h : Sound lot) (id : String) : Sound (lot.dropSender id) := by
  obtain heq | heq | ⟨tx, heq⟩ := dropSender_cases lot id
  · rwa [heq]
  · rw [heq]
    exact h.erase id
  · rw [heq]
    exact (h.erase id).setState tx nofun

theorem ids_dropSender (lot : PromptLot) (id : String) : (lot.dropSender id).ids = lot.ids := by
  obtain heq | heq | ⟨tx, heq⟩ := dropSender_cases lot id
  · rw [heq]
  · rw [heq]
    rfl
  · rw [heq, ids_setState]
    rfl

theorem answers_dropSender (lot : PromptLot) (id : String) : (lot.dropSender id).answers = lot.answers := by
  obtain heq | heq | ⟨tx, heq⟩ := dropSender_cases lot id <;> rw [heq]
  rfl

theorem grows_dropSender (lot : PromptLot) (id : String) : Grows lot (lot.dropSender id) :=
  grows_of_ids (ids_dropSender lot id) (answers_dropSender lot id ▸ List.Subset.refl _)

theorem enqueue_spec (lot : PromptLot) (id keyId keyLabel : String) (requester : Option String) :
    (lot.enqueueWithReceiver id keyId keyLabel requester).1 = (⟨id, keyId, keyLabel, requester⟩, lot.ids.length) ∧
      (lot.enqueueWithReceiver id keyId keyLabel requester).2.ids[lot.ids.length]? = some id := by
  have hlength : lot.ids.length = (lot.dropSender id).channels.length := by
    rw [← ids_dropSender lot id, ids, length_map]
  rw [hlength]
  refine ⟨rfl, ?_⟩
  simp [enqueueWithReceiver, ids]

theorem sound_enqueue (h : Sound lot) (id keyId keyLabel : String) (requester : Option String) :
    Sound (lot.enqueueWithReceiver id keyId keyLabel requester).2 := by
  have hdrop := h.dropSender id
  refine ⟨fun id' tx htx => ?_, fun rx id' d hrx => ?_⟩
  · simp only [enqueueWithReceiver, Table.get_set] at htx
    simp only [enqueueWithReceiver, ids, map_append]
    split at htx
    · next heq =>
      cases htx
      rw [heq]
      simp
    · rw [getElem?_append_left]
      · exact hdrop.pending id' tx htx
      · exact (List.getElem?_eq_some_iff.1 (hdrop.pending id' tx htx)).1
  · simp only [enqueueWithReceiver] at hrx ⊢
    rw [getElem?_append] at hrx
    split at hrx
    · exact hdrop.sent rx id' d hrx
    · rw [getElem?_singleton] at hrx
      split at hrx <;> cases hrx

theorem grows_enqueue (lot : PromptLot) (id keyId keyLabel : String) (requester : Option String) :
    Grows lot (lot.enqueueWithReceiver id keyId keyLabel requester).2 := by
  refine (grows_dropSender lot id).trans ⟨?_, List.Subset.refl _⟩
  simp only [enqueueWithReceiver, ids, map_append]
  exact prefix_append _ _

theorem sound_respond (h : Sound lot) (id : String) (d : Decision) : Sound (lot.respondToRequest id d).2 := by
  unfold respondToRequest
  rcases htx : lot.pending.get id with _ | tx
  · exact h
  dsimp only
  have herase := h.erase id
  split
  · refine ⟨fun id' tx' htx' => ?_, fun rx id' d' hrx => ?_⟩
    · exact (ids_setState { lot with pending := lot.pending.erase id } tx (.sent d)) ▸ herase.pending id' tx' htx'
    simp only [setState, getElem?_modify] at hrx
    obtain ⟨c, hc, heq⟩ := Option.map_eq_some_iff.1 hrx
    split at heq
    · next htx' =>
      -- the sender was kept under the id of its channel
      have hid := h.pending id tx htx
      rw [ids, getElem?_map, htx', hc] at hid
      cases heq
      cases hid
      rw [htx']
      exact mem_append_right _ (mem_singleton_self _)
    · refine mem_append_left _ (h.sent rx id' d' ?_)
      rw [hc, ← heq]
  · exact herase

theorem grows_respond (lot : PromptLot) (id : String) (d : Decision) : Grows lot (lot.respondToRequest id d).2 := by
  unfold respondToRequest
  rcases lot.pending.get id with _ | tx
  · exact Grows.refl lot
  · dsimp only
    split
    · apply grows_of_ids
      · exact ids_setState { lot with pending := lot.pending.erase id } tx (.sent d)
      · exact subset_append_left _ _
    · exact grows_of_ids rfl (List.Subset.refl _)

theorem receive_cases (lot : PromptLot) (rx : Nat) :
    (∃ id d, lot.channels[rx]? = some ⟨id, .sent d⟩ ∧ lot.receive rx = (.decided d, lot)) ∨
      lot.receive rx = (.elapsed, lot.setState rx .abandoned) ∨ lot.receive rx = (.closed, lot) := by
  unfold receive stateOf
  rcases lot.channels[rx]? with _ | ⟨id, state⟩
  · exact Or.inr (Or.inr rfl)
  · cases state with
    | waiting => exact Or.inr (Or.inl rfl)
    | sent d => exact Or.inl ⟨id, d, rfl, rfl⟩
    | closed => exact Or.inr (Or.inr rfl)
    | abandoned => exact Or.inr (Or.inr rfl)

theorem sound_receive (h : Sound lot) (rx : Nat) : Sound (lot.receive rx).2 := by
  obtain ⟨id, d, -, heq⟩ | heq | heq := receive_cases lot rx
  · rwa [heq]
  · rw [heq]
    exact h.setState rx nofun
  · rwa [heq]

theorem grows_receive (lot : PromptLot) (rx : Nat) : Grows lot (lot.receive rx).2 := by
  obtain ⟨id, d, -, heq⟩ | heq | heq := receive_cases lot rx
  · rw [heq]
    exact Grows.refl lot
  · rw [heq]
    exact grows_of_ids (ids_setState lot rx .abandoned) (List.Subset.refl _)
  · rw [heq]
    exact Grows.refl lot

theorem answered_of_receive (h : Sound lot) {rx : Nat} {d : Decision} (hd : (lot.receive rx).1 = .decided d) :
    ∃ id, lot.ids[rx]? = some id ∧ ⟨id, d, rx⟩ ∈ lot.answers := by
  obtain ⟨id, d', hrx, heq⟩ | heq | heq := receive_cases lot rx
  · rw [heq] at hd
    cases hd
    refine ⟨id, ?_, h.sent rx id d hrx⟩
    rw [ids, getElem?_map, hrx]
    rfl
  · rw [heq] at hd
    cases hd
  · rw [heq] at hd
    cases hd

end PromptLot

end LetsFlutSsh.SshAgent
