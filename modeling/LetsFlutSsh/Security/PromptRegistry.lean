import Mathlib.Data.List.Nodup
import Mathlib.Data.List.Perm.Subperm

/-!
# Prompt registry

A prompt parks the sender of a channel under its id, and its caller waits at the receiver.

* `Prompts` : the registry, and the receivers of all prompts;
* `register`, `resolve`, `cancel` : the operations of the registry;
* `dropReceivers` : callers that no longer wait;
* `Parked` : whoever waits has an entry (`parked_register`, `parked_remove`, `parked_dropReceivers`);
* `Matched` : and every entry is of one who waits (`matched_register`, `matched_remove`).
-/

namespace LetsFlutSsh.Security
open List

inductive Receiver (R : Type) where
  | waiting
  | answered (response : R)
  /-- The sender went away without an answer. -/
  | closed
  /-- The caller no longer waits. -/
  | dropped

def Receiver.isWaiting {R : Type} : Receiver R → Bool
  | .waiting => true
  | _ => false

def Receiver.wake {R : Type} (r : Receiver R) : Receiver R → Receiver R
  | .waiting => r
  | other => other

/-- The senders by prompt id, each with the place of its receiver, and all receivers. -/
structure Prompts (R : Type) where
  pending : List (String × Nat) := []
  receivers : List (Receiver R) := []

variable {c : Nat}

namespace Prompts

variable {R : Type}

/-- Takes a sender out; its receiver wakes, if it is still there. -/
def remove (p : Prompts R) (promptId : String) (r : Receiver R) : Prompts R :=
  match p.pending.find? (·.1 = promptId) with
  | none => p
  | some entry =>
    { pending := p.pending.filter (·.1 ≠ promptId), receivers := p.receivers.modify entry.2 r.wake }

/-- `register`. An entry of the same id is replaced, and its sender goes away. -/
def register (p : Prompts R) (promptId : String) : Prompts R :=
  let freed := p.remove promptId .closed
  { pending := freed.pending ++ [(promptId, freed.receivers.length)], receivers := freed.receivers ++ [.waiting] }

/-- `resolve`: whether a receiver was woken. -/
def resolve (p : Prompts R) (promptId : String) (response : R) : Bool × Prompts R :=
  let woken := (p.pending.find? (·.1 = promptId)).any fun entry => (p.receivers[entry.2]?).any Receiver.isWaiting
  (woken, p.remove promptId (.answered response))

def cancel (p : Prompts R) (promptId : String) : Prompts R := p.remove promptId .closed

def pendingCount (p : Prompts R) : Nat := p.pending.length

/-- The callers among these no longer wait; the registry does not hear of it. -/
def dropReceivers (p : Prompts R) (gone : Nat → Bool) : Prompts R :=
  { p with receivers := p.receivers.mapIdx fun c r => if gone c then Receiver.wake .dropped r else r }

def Waits (p : Prompts R) (c : Nat) : Prop := p.receivers[c]? = some .waiting

def waitingPrompts (p : Prompts R) : List Nat :=
  (List.range p.receivers.length).filter fun c => (p.receivers[c]?).any Receiver.isWaiting

def waitingCount (p : Prompts R) : Nat := p.waitingPrompts.length

theorem any_isWaiting {r : Option (Receiver R)} : r.any Receiver.isWaiting = true ↔ r = some .waiting := by
  rcases r with _ | _ | _ | _ | _ <;> simp [Receiver.isWaiting]

theorem mem_waitingPrompts {p : Prompts R} : c ∈ p.waitingPrompts ↔ p.Waits c := by
  unfold waitingPrompts Waits
  rw [mem_filter, mem_range, any_isWaiting]
  exact ⟨And.right, fun h => ⟨(List.getElem?_eq_some_iff.1 h).1, h⟩⟩

theorem nodup_waitingPrompts (p : Prompts R) : p.waitingPrompts.Nodup := nodup_range.filter _

/-- Every prompt that waits can be answered. -/
structure Parked (p : Prompts R) : Prop where
  ids : (p.pending.map Prod.fst).Nodup
  places : (p.pending.map Prod.snd).Nodup
  known : ∀ c ∈ p.pending.map Prod.snd, c < p.receivers.length
  parked : ∀ c, p.Waits c → c ∈ p.pending.map Prod.snd

def Matched (p : Prompts R) : Prop := ∀ c ∈ p.pending.map Prod.snd, p.Waits c

theorem pendingCount_eq_iff {p : Prompts R} (h : p.Parked) : p.pendingCount = p.waitingCount ↔ p.Matched := by
  have hsubperm : Subperm p.waitingPrompts (p.pending.map Prod.snd) :=
    (nodup_waitingPrompts p).subperm fun c hc => h.parked c (mem_waitingPrompts.1 hc)
  have hlength : p.pendingCount = (p.pending.map Prod.snd).length := (length_map _).symm
  rw [hlength]
  constructor
  · intro heq c hc
    exact mem_waitingPrompts.1 ((hsubperm.perm_of_length_le (Nat.le_of_eq heq)).mem_iff.2 hc)
  · intro hmatched
    have hback : Subperm (p.pending.map Prod.snd) p.waitingPrompts :=
      h.places.subperm fun c hc => mem_waitingPrompts.2 (hmatched c hc)
    exact Nat.le_antisymm hback.length_le hsubperm.length_le

variable {p : Prompts R} {promptId : String} {r : Receiver R}

theorem wake_ne_waiting {r other : Receiver R} (hr : r ≠ .waiting) : r.wake other ≠ .waiting := by
  cases other <;> first | exact hr | nofun

theorem remove_cases (p : Prompts R) (promptId : String) (r : Receiver R) :
    ((∀ entry ∈ p.pending, entry.1 ≠ promptId) ∧ p.remove promptId r = p) ∨
      ∃ place, (promptId, place) ∈ p.pending ∧ p.remove promptId r =
        { pending := p.pending.filter (·.1 ≠ promptId), receivers := p.receivers.modify place r.wake } := by
  unfold remove
  rcases hfind : p.pending.find? (·.1 = promptId) with _ | ⟨key, place⟩
  · rw [hfind]
    exact .inl ⟨fun entry he heq => find?_eq_none.1 hfind entry he (decide_eq_true heq), rfl⟩
  · have hkey : decide (key = promptId) = true := find?_some (p := fun entry : String × Nat => entry.1 = promptId) hfind
    obtain rfl := of_decide_eq_true hkey
    rw [hfind]
    exact .inr ⟨place, mem_of_find?_eq_some hfind, rfl⟩

section Waking
variable {place : Nat}

theorem waits_modify_iff (hr : r ≠ .waiting) (pending : List (String × Nat)) :
    ({ pending, receivers := p.receivers.modify place r.wake } : Prompts R).Waits c ↔ c ≠ place ∧ p.Waits c := by
  unfold Waits
  rw [getElem?_modify]
  rcases eq_or_ne place c with rfl | hne
  · refine iff_of_false (fun h => ?_) fun h => h.1 rfl
    obtain ⟨other, -, hother⟩ := Option.map_eq_some_iff.1 h
    rw [if_pos rfl] at hother
    exact wake_ne_waiting hr hother
  · simp [hne, hne.symm]

end Waking

theorem mem_places_remove (h : p.Parked) {place : Nat} (hmem : (promptId, place) ∈ p.pending) :
    c ∈ (p.pending.filter (·.1 ≠ promptId)).map Prod.snd ↔ c ∈ p.pending.map Prod.snd ∧ c ≠ place := by
  constructor
  · intro hc
    obtain ⟨⟨key, c⟩, hentry, rfl⟩ := mem_map.1 hc
    obtain ⟨hentry, hne⟩ := mem_filter.1 hentry
    refine ⟨mem_map_of_mem hentry, ?_⟩
    rintro rfl
    have heq : (key, c) = (promptId, c) := inj_on_of_nodup_map h.places hentry hmem rfl
    exact of_decide_eq_true hne (congrArg Prod.fst heq)
  · rintro ⟨hc, hne⟩
    obtain ⟨⟨key, c⟩, hentry, rfl⟩ := mem_map.1 hc
    refine mem_map_of_mem (mem_filter.2 ⟨hentry, decide_eq_true ?_⟩)
    rintro rfl
    have heq : (key, c) = (key, place) := inj_on_of_nodup_map h.ids hentry hmem rfl
    exact hne (congrArg Prod.snd heq)

theorem parked_remove (h : p.Parked) (hr : r ≠ .waiting) : (p.remove promptId r).Parked := by
  rcases remove_cases p promptId r with ⟨-, hsame⟩ | ⟨place, hmem, hremove⟩
  · rwa [hsame]
  · rw [hremove]
    refine ⟨h.ids.sublist (filter_sublist.map _), h.places.sublist (filter_sublist.map _), fun c hc => ?_, fun c hc => ?_⟩
    · rw [length_modify]
      exact h.known c ((mem_places_remove h hmem).1 hc).1
    · obtain ⟨hne, hwaits⟩ := (waits_modify_iff hr _).1 hc
      exact (mem_places_remove h hmem).2 ⟨h.parked c hwaits, hne⟩

theorem matched_remove (h : p.Parked) (hmatched : p.Matched) (hr : r ≠ .waiting) : (p.remove promptId r).Matched := by
  rcases remove_cases p promptId r with ⟨-, hsame⟩ | ⟨place, hmem, hremove⟩
  · rwa [hsame]
  · rw [hremove]
    intro c hc
    obtain ⟨hc, hne⟩ := (mem_places_remove h hmem).1 hc
    exact (waits_modify_iff hr _).2 ⟨hne, hmatched c hc⟩

theorem not_mem_ids_remove : promptId ∉ (p.remove promptId r).pending.map Prod.fst := by
  rw [mem_map]
  rintro ⟨entry, hentry, hid⟩
  rcases remove_cases p promptId r with ⟨hnone, hsame⟩ | ⟨place, -, hremove⟩
  · rw [hsame] at hentry
    exact hnone entry hentry hid
  · rw [hremove] at hentry
    exact of_decide_eq_true (mem_filter.1 hentry).2 hid

theorem waits_concat_iff {pending : List (String × Nat)} :
    ({ pending, receivers := p.receivers ++ [.waiting] } : Prompts R).Waits c ↔ p.Waits c ∨ c = p.receivers.length := by
  unfold Waits
  rcases Nat.lt_trichotomy c p.receivers.length with h | rfl | h
  · rw [getElem?_append_left h]
    exact ⟨.inl, fun hor => hor.resolve_right (by omega)⟩
  · rw [getElem?_concat_length]
    exact iff_of_true rfl (.inr rfl)
  · refine iff_of_false (fun hsome => ?_) fun hor => hor.elim (fun hsome => ?_) fun heq => by omega
    · have hlt := (List.getElem?_eq_some_iff.1 hsome).1
      rw [length_append, length_singleton] at hlt
      omega
    · have hlt := (List.getElem?_eq_some_iff.1 hsome).1
      omega

theorem parked_register (h : p.Parked) : (p.register promptId).Parked := by
  have hfreed : (p.remove promptId .closed).Parked := parked_remove h nofun
  have hid : promptId ∉ (p.remove promptId .closed).pending.map Prod.fst := not_mem_ids_remove
  unfold register
  refine ⟨?_, ?_, fun c hc => ?_, fun c hc => ?_⟩
  · rw [map_append, map_singleton]
    refine nodup_append.2 ⟨hfreed.ids, nodup_singleton _, fun a ha b hb heq => hid ?_⟩
    rw [mem_singleton] at hb
    rw [heq, hb] at ha
    exact ha
  · rw [map_append, map_singleton]
    refine nodup_append.2 ⟨hfreed.places, nodup_singleton _, fun a ha b hb heq => ?_⟩
    have hlt := hfreed.known a ha
    rw [mem_singleton] at hb
    omega
  · rw [map_append, mem_append] at hc
    rw [length_append, length_singleton]
    rcases hc with hc | hc
    · exact Nat.lt_succ_of_lt (hfreed.known c hc)
    · rw [map_singleton, mem_singleton] at hc
      omega
  · rw [map_append, map_singleton, mem_append, mem_singleton]
    exact (waits_concat_iff.1 hc).imp_left (hfreed.parked c)

theorem matched_register (h : p.Parked) (hmatched : p.Matched) : (p.register promptId).Matched := by
  have hfreed : (p.remove promptId .closed).Matched := matched_remove h hmatched nofun
  intro c hc
  unfold register at hc ⊢
  rw [map_append, map_singleton, mem_append, mem_singleton] at hc
  exact waits_concat_iff.2 (hc.imp_left (hfreed c))

theorem waits_dropReceivers_iff {gone : Nat → Bool} : (p.dropReceivers gone).Waits c ↔ p.Waits c ∧ gone c = false := by
  unfold Waits dropReceivers
  rw [getElem?_mapIdx]
  rcases p.receivers[c]? with _ | other
  · exact iff_of_false nofun nofun
  · rw [Option.map_some]
    cases gone c <;> cases other <;> simp [Receiver.wake]

theorem parked_dropReceivers (h : p.Parked) (gone : Nat → Bool) : (p.dropReceivers gone).Parked := by
  refine ⟨h.ids, h.places, fun c hc => ?_, fun c hc => h.parked c (waits_dropReceivers_iff.1 hc).1⟩
  have hlength : (p.dropReceivers gone).receivers.length = p.receivers.length := length_mapIdx
  rw [hlength]
  exact h.known c hc

end Prompts

end LetsFlutSsh.Security
