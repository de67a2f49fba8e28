import LetsFlutSsh.Lib.Bytes
import LetsFlutSsh.Lib.PageLocks
import LetsFlutSsh.Lib.Run
import Mathlib.Data.List.AList

/-!
# The secret store and its page locks

* `Buffer` : the bytes of a secret where the allocator put them;
* `SecretStore` : the map of the store, with the pages that the process has locked for it;
* `pageLock`, `pageUnlock`, `put`, `get`, `take`, `dropId`, `rename`, `clear` : the store's functions;
* `Pinned` : every page that holds a byte of a resident secret is locked;
* `Released` : an empty store leaves no page locked (`tight_step`, `Tight.released`);
* `KeepsApart` : the secret that leaves shares no page with one that stays (`pinned_step_iff`, `pagesLocked_iff`).

The two calls of the system act on whole pages and do not nest; none is refused.
-/

namespace LetsFlutSsh.Security.Secrets
open Lib

/-- A `Zeroizing<Vec<u8>>`: its bytes, and the address of the first of them. -/
structure Buffer where
  addr : Nat
  bytes : Bytes
  deriving DecidableEq

def Buffer.extent (buf : Buffer) : Extent := ⟨buf.addr, buf.bytes.length⟩

/-- The map, and the pages that are locked on its behalf. -/
structure SecretStore where
  inner : AList (fun _ : String => Buffer) := ∅
  locked : Finset Nat := ∅

/-! ## The calls of the system -/

def lockMemory (size addr len : Nat) (locked : Finset Nat) : Bool × Finset Nat :=
  if len = 0 then (false, locked) else (true, locked ∪ (Extent.mk addr len).pages size)

def unlockMemory (size addr len : Nat) (locked : Finset Nat) : Finset Nat :=
  if len = 0 then locked else locked \ (Extent.mk addr len).pages size

def pageLock (size : Nat) (buf : Buffer) (locked : Finset Nat) : Finset Nat :=
  if buf.bytes.isEmpty then locked else (lockMemory size buf.addr buf.bytes.length locked).2

def pageUnlock (size : Nat) (buf : Buffer) (locked : Finset Nat) : Finset Nat :=
  if buf.bytes.isEmpty then locked else unlockMemory size buf.addr buf.bytes.length locked

variable {size : Nat} {buf : Buffer} {locked : Finset Nat} {s : SecretStore}

theorem extent_pages_of_isEmpty (h : buf.bytes.isEmpty) : buf.extent.pages size = ∅ := by
  apply Extent.pages_nil
  rw [List.isEmpty_iff] at h
  rw [Buffer.extent, h, List.length_nil]

theorem pageLock_eq : pageLock size buf locked = locked ∪ buf.extent.pages size := by
  unfold pageLock lockMemory
  split
  · next h => rw [extent_pages_of_isEmpty h, Finset.union_empty]
  · next h =>
    rw [List.isEmpty_iff_length_eq_zero] at h
    rw [if_neg h]
    rfl

theorem pageUnlock_eq : pageUnlock size buf locked = locked \ buf.extent.pages size := by
  unfold pageUnlock unlockMemory
  split
  · next h => rw [extent_pages_of_isEmpty h, Finset.sdiff_empty]
  · next h =>
    rw [List.isEmpty_iff_length_eq_zero] at h
    rw [if_neg h]
    rfl

/-! ## The store -/

namespace SecretStore

def unlockOld (size : Nat) (old : Option Buffer) (locked : Finset Nat) : Finset Nat :=
  match old with
  | some old => pageUnlock size old locked
  | none => locked

/-- The new buffer, at the address that the allocator chose, is locked before the old one is unlocked. -/
def put (size addr : Nat) (id : String) (bytes : Bytes) (s : SecretStore) : SecretStore :=
  let z : Buffer := ⟨addr, bytes⟩
  let locked := pageLock size z s.locked
  { inner := s.inner.insert id z
    locked := unlockOld size (s.inner.lookup id) locked }

def has (id : String) (s : SecretStore) : Bool := decide (id ∈ s.inner)

def get (id : String) (s : SecretStore) : Option Bytes := (s.inner.lookup id).map Buffer.bytes

def dropId (size : Nat) (id : String) (s : SecretStore) : SecretStore :=
  { inner := s.inner.erase id
    locked := unlockOld size (s.inner.lookup id) s.locked }

def take (size : Nat) (id : String) (s : SecretStore) : Option Buffer × SecretStore :=
  let removed := s.inner.lookup id
  (removed, {
    inner := s.inner.erase id
    locked := unlockOld size removed s.locked })

def clear (size : Nat) (s : SecretStore) : SecretStore :=
  { inner := ∅
    locked := s.inner.entries.foldl (fun locked entry => pageUnlock size entry.2 locked) s.locked }

def rename (size : Nat) (fromId toId : String) (s : SecretStore) : Bool × SecretStore :=
  if fromId = toId then (s.has fromId, s)
  else
    match s.inner.lookup fromId with
    | none => (false, s)
    | some buf =>
      let rest := s.inner.erase fromId
      (true, {
        inner := rest.insert toId buf
        locked := unlockOld size (rest.lookup toId) s.locked })

theorem get_put (addr : Nat) (id : String) (bytes : Bytes) (s : SecretStore) (other : String) :
    (s.put size addr id bytes).get other = if other = id then some bytes else s.get other := by
  unfold get put
  split_ifs with h
  · rw [h, AList.lookup_insert]
    rfl
  · rw [AList.lookup_insert_ne h]

theorem get_dropId (id : String) (s : SecretStore) (other : String) :
    (s.dropId size id).get other = if other = id then none else s.get other := by
  unfold get dropId
  split_ifs with h
  · rw [h, AList.lookup_erase]
    rfl
  · rw [AList.lookup_erase_ne h]

end SecretStore

/-- The calls on the store, with the address that a `put` gets from the allocator. -/
inductive Op where
  | put (addr : Nat) (id : String) (bytes : Bytes)
  | take (id : String)
  | dropId (id : String)
  | rename (fromId toId : String)
  | clear

def step (size : Nat) (s : SecretStore) : Op → Option SecretStore
  | .put addr id bytes => some (s.put size addr id bytes)
  | .take id => some (s.take size id).2
  | .dropId id => some (s.dropId size id)
  | .rename fromId toId => some (s.rename size fromId toId).2
  | .clear => some (s.clear size)

/-! ## What the locks should be -/

/-- Every page that holds a byte of a secret in the store is locked. -/
def Pinned (size : Nat) (s : SecretStore) : Prop :=
  ∀ id buf, s.inner.lookup id = some buf → Covered size s.locked buf.extent

def Released (s : SecretStore) : Prop := s.inner = ∅ → s.locked = ∅

def Live (s : SecretStore) (x : Extent) : Prop := ∃ id buf, s.inner.lookup id = some buf ∧ buf.extent = x

theorem Tight.released (h : Tight size s.locked (Live s)) : Released s := by
  intro hempty
  refine h.eq_empty fun x ⟨id, buf, hbuf, _⟩ => ?_
  rw [hempty, AList.lookup_empty] at hbuf
  cases hbuf

/-- A buffer shares no page with the secrets under the other ids. -/
def Alone (size : Nat) (s : SecretStore) (id : String) (old : Buffer) : Prop :=
  ∀ other buf, other ≠ id → s.inner.lookup other = some buf → Apart size old.extent buf.extent

/-- The secret that a call lets go shares no page with a secret that is in the store after it. -/
def KeepsApart (size : Nat) (s : SecretStore) : Op → Prop
  | .put addr id bytes => ∀ old, s.inner.lookup id = some old →
      Apart size old.extent ⟨addr, bytes.length⟩ ∧ Alone size s id old
  | .take id | .dropId id => ∀ old, s.inner.lookup id = some old → Alone size s id old
  | .rename fromId toId => fromId ≠ toId → fromId ∈ s.inner → ∀ old, s.inner.lookup toId = some old → Alone size s toId old
  | .clear => True

/-! ## Empty stores -/

variable {old : Option Buffer}

theorem Tight.unlockOld {l l' : Extent → Prop} (h : Tight size locked l)
    (hlive : ∀ x, l x → (∃ buf, old = some buf ∧ x = buf.extent) ∨ l' x) :
    Tight size (SecretStore.unlockOld size old locked) l' := by
  rcases old with _ | buf
  · refine h.mono fun x hx => ?_
    rcases hlive x hx with ⟨buf, hbuf, -⟩ | hx'
    · cases hbuf
    · exact hx'
  · change Tight size (pageUnlock size buf locked) l'
    rw [pageUnlock_eq]
    refine h.unlock fun x hx => ?_
    rcases hlive x hx with ⟨buf', hbuf, rfl⟩ | hx'
    · cases hbuf
      exact .inl rfl
    · exact .inr hx'

theorem mem_foldl_pageUnlock {entries : List (Sigma fun _ : String => Buffer)} {p : Nat} :
    p ∈ entries.foldl (fun locked entry => pageUnlock size entry.2 locked) locked ↔
      p ∈ locked ∧ ∀ entry ∈ entries, p ∉ entry.2.extent.pages size := by
  induction entries generalizing locked with
  | nil => simp
  | cons entry entries ih =>
    rw [List.foldl_cons, ih, pageUnlock_eq, Finset.mem_sdiff, and_assoc, List.forall_mem_cons]

theorem locked_clear (h : Tight size s.locked (Live s)) : (s.clear size).locked = ∅ := by
  rw [Finset.eq_empty_iff_forall_notMem]
  intro p hp
  obtain ⟨hlocked, hall⟩ := mem_foldl_pageUnlock.1 hp
  obtain ⟨x, ⟨id, buf, hbuf, rfl⟩, hx⟩ := h p hlocked
  exact hall ⟨id, buf⟩ (AList.mem_lookup_iff.1 hbuf) hx

theorem live_erase {id : String} {x : Extent} (h : Live s x) : (∃ buf, s.inner.lookup id = some buf ∧ x = buf.extent) ∨
    ∃ other buf, (s.inner.erase id).lookup other = some buf ∧ buf.extent = x := by
  obtain ⟨other, buf, hbuf, rfl⟩ := h
  rcases eq_or_ne other id with rfl | hne
  · exact .inl ⟨buf, hbuf, rfl⟩
  · exact .inr ⟨other, buf, by rw [AList.lookup_erase_ne hne, hbuf], rfl⟩

theorem tight_step {s' : SecretStore} {op : Op} (h : Tight size s.locked (Live s)) (hstep : step size s op = some s') :
    Tight size s'.locked (Live s') := by
  cases op with
  | put addr id bytes =>
    cases hstep
    refine Tight.unlockOld (l := fun x => Live s x ∨ x = ⟨addr, bytes.length⟩) ?_ fun x hx => ?_
    · rw [pageLock_eq]
      exact h.lock (fun x hx => .inl hx) (.inr rfl)
    · rcases hx with ⟨other, buf, hbuf, rfl⟩ | rfl
      · rcases eq_or_ne other id with rfl | hne
        · exact .inl ⟨buf, hbuf, rfl⟩
        · exact .inr ⟨other, buf, by rw [← hbuf]; exact AList.lookup_insert_ne hne, rfl⟩
      · exact .inr ⟨id, ⟨addr, bytes⟩, AList.lookup_insert s.inner, rfl⟩
  | take id =>
    cases hstep
    exact Tight.unlockOld h fun x hx => live_erase hx
  | dropId id =>
    cases hstep
    exact Tight.unlockOld h fun x hx => live_erase hx
  | rename fromId toId =>
    cases hstep
    unfold SecretStore.rename
    split
    · exact h
    next hne =>
    split
    · exact h
    next buf hbuf =>
    refine Tight.unlockOld h fun x ⟨other, b, hb, hx⟩ => ?_
    rcases eq_or_ne other toId with rfl | hto
    · exact .inl ⟨b, by rw [AList.lookup_erase_ne (Ne.symm hne), hb], hx.symm⟩
    · refine .inr ?_
      rcases eq_or_ne other fromId with rfl | hfrom
      · rw [hbuf] at hb
        cases hb
        exact ⟨toId, buf, AList.lookup_insert _, hx⟩
      · exact ⟨other, b, by rw [AList.lookup_insert_ne hto, AList.lookup_erase_ne hfrom, hb], hx⟩
  | clear =>
    cases hstep
    rw [locked_clear h]
    exact tight_empty

/-! ## Resident secrets -/

theorem covered_unlockOld_iff {x : Extent} (h : Covered size locked x) :
    Covered size (SecretStore.unlockOld size old locked) x ↔ ∀ buf, old = some buf → Apart size buf.extent x := by
  rcases old with _ | buf
  · exact iff_of_true h nofun
  · change Covered size (pageUnlock size buf locked) x ↔ _
    rw [pageUnlock_eq, covered_unlock_iff h]
    simp

theorem pinned_unlockOld_iff {inner : AList (fun _ : String => Buffer)}
    (h : Pinned size ⟨inner, locked⟩) : Pinned size ⟨inner, SecretStore.unlockOld size old locked⟩ ↔
      ∀ buf, old = some buf → ∀ id b, inner.lookup id = some b → Apart size buf.extent b.extent := by
  refine ⟨fun hpinned buf hold id b hb => ?_, fun hapart id b hb => ?_⟩
  · exact (covered_unlockOld_iff (h id b hb)).1 (hpinned id b hb) buf hold
  · exact (covered_unlockOld_iff (h id b hb)).2 fun buf hold => hapart buf hold id b hb

theorem pinned_erase (h : Pinned size s) (id : String) : Pinned size ⟨s.inner.erase id, s.locked⟩ := by
  intro other buf hbuf
  rcases eq_or_ne other id with rfl | hne
  · rw [AList.lookup_erase] at hbuf
    cases hbuf
  · rw [AList.lookup_erase_ne hne] at hbuf
    exact h other buf hbuf

theorem alone_iff_erase {id : String} {old : Buffer} : Alone size s id old ↔
    ∀ other buf, (s.inner.erase id).lookup other = some buf → Apart size old.extent buf.extent := by
  refine ⟨fun h other buf hbuf => ?_, fun h other buf hne hbuf => h other buf ?_⟩
  · rcases eq_or_ne other id with rfl | hne
    · rw [AList.lookup_erase] at hbuf
      cases hbuf
    · rw [AList.lookup_erase_ne hne] at hbuf
      exact h other buf hne hbuf
  · rw [AList.lookup_erase_ne hne]
    exact hbuf

theorem pinned_remove_iff (h : Pinned size s) (id : String) :
    Pinned size ⟨s.inner.erase id, SecretStore.unlockOld size (s.inner.lookup id) s.locked⟩ ↔
      ∀ old, s.inner.lookup id = some old → Alone size s id old := by
  rw [pinned_unlockOld_iff (pinned_erase h id)]
  exact forall_congr' fun old => imp_congr_right fun _ => alone_iff_erase.symm

theorem pinned_put_iff (h : Pinned size s) (addr : Nat) (id : String) (bytes : Bytes) :
    Pinned size (s.put size addr id bytes) ↔ KeepsApart size s (.put addr id bytes) := by
  have hboth : Pinned size ⟨s.inner.insert id ⟨addr, bytes⟩, pageLock size ⟨addr, bytes⟩ s.locked⟩ := by
    intro other buf hbuf
    rw [pageLock_eq]
    rcases eq_or_ne other id with rfl | hne
    · rw [AList.lookup_insert] at hbuf
      cases hbuf
      exact covered_lock_self _ _
    · rw [AList.lookup_insert_ne hne] at hbuf
      exact (h other buf hbuf).lock _
  refine (pinned_unlockOld_iff hboth).trans (forall_congr' fun old => imp_congr_right fun _ => ?_)
  refine ⟨fun hall => ⟨hall id ⟨addr, bytes⟩ (AList.lookup_insert _), fun other buf hne hbuf => ?_⟩, ?_⟩
  · exact hall other buf (by rw [AList.lookup_insert_ne hne, hbuf])
  rintro ⟨hnew, halone⟩ other buf hbuf
  rcases eq_or_ne other id with rfl | hne
  · rw [AList.lookup_insert] at hbuf
    cases hbuf
    exact hnew
  · rw [AList.lookup_insert_ne hne] at hbuf
    exact halone other buf hne hbuf

theorem pinned_rename_iff (h : Pinned size s) (fromId toId : String) :
    Pinned size (s.rename size fromId toId).2 ↔ KeepsApart size s (.rename fromId toId) := by
  unfold SecretStore.rename
  split
  · next heq => exact iff_of_true h fun hne => absurd heq hne
  next hne =>
  split
  · next hnone =>
    refine iff_of_true h fun _ hmem => ?_
    rw [← AList.lookup_isSome, hnone] at hmem
    cases hmem
  next buf hbuf =>
  have hto : (s.inner.erase fromId).lookup toId = s.inner.lookup toId := AList.lookup_erase_ne (Ne.symm hne)
  have hmem : fromId ∈ s.inner := by rw [← AList.lookup_isSome, hbuf]; rfl
  have hmoved : Pinned size ⟨(s.inner.erase fromId).insert toId buf, s.locked⟩ := by
    intro other b hb
    rcases eq_or_ne other toId with rfl | hne'
    · rw [AList.lookup_insert] at hb
      cases hb
      exact h fromId buf hbuf
    · rw [AList.lookup_insert_ne hne'] at hb
      exact pinned_erase h fromId other b hb
  rw [pinned_unlockOld_iff hmoved, hto]
  refine ⟨fun hall _ _ old hold other b hne' hb => ?_, fun hkeeps old hold other b hb => ?_⟩
  · rcases eq_or_ne other fromId with rfl | hfrom
    · rw [hbuf] at hb
      cases hb
      exact hall old hold toId buf (AList.lookup_insert _)
    · refine hall old hold other b ?_
      rw [AList.lookup_insert_ne hne', AList.lookup_erase_ne hfrom, hb]
  · have halone := hkeeps hne hmem old hold
    rcases eq_or_ne other toId with rfl | hne'
    · rw [AList.lookup_insert] at hb
      cases hb
      exact halone fromId buf hne hbuf
    · rw [AList.lookup_insert_ne hne'] at hb
      rcases eq_or_ne other fromId with rfl | hfrom
      · rw [AList.lookup_erase] at hb
        cases hb
      · rw [AList.lookup_erase_ne hfrom] at hb
        exact halone other b hne' hb

theorem pinned_step_iff {s' : SecretStore} {op : Op} (h : Pinned size s) (hstep : step size s op = some s') :
    Pinned size s' ↔ KeepsApart size s op := by
  cases op with
  | put addr id bytes =>
    cases hstep
    exact pinned_put_iff h addr id bytes
  | take id =>
    cases hstep
    exact pinned_remove_iff h id
  | dropId id =>
    cases hstep
    exact pinned_remove_iff h id
  | rename fromId toId =>
    cases hstep
    exact pinned_rename_iff h fromId toId
  | clear =>
    cases hstep
    refine iff_of_true (fun id buf hbuf => ?_) trivial
    change (∅ : AList fun _ : String => Buffer).lookup id = some buf at hbuf
    rw [AList.lookup_empty] at hbuf
    cases hbuf

theorem exists_run (size : Nat) (s : SecretStore) (ops : List Op) : ∃ t, run (step size) s ops = some t := by
  induction ops generalizing s with
  | nil => exact ⟨s, rfl⟩
  | cons op ops ih =>
    obtain ⟨s', hs'⟩ : ∃ s', step size s op = some s' := by cases op <;> exact ⟨_, rfl⟩
    obtain ⟨t, ht⟩ := ih s'
    refine ⟨t, ?_⟩
    rw [run, hs']
    exact ht

theorem pinned_new : Pinned size {} := by
  intro id buf hbuf
  rw [AList.lookup_empty] at hbuf
  cases hbuf

/-- **Page locks.** In every state of a run the resident secrets are locked and an empty store leaves nothing
locked, if and only if no call lets go of a secret that shares a page with one that stays. -/
theorem pagesLocked_iff (size : Nat) (ops : List Op) :
    (∀ pre, pre <+: ops → ∀ s, run (step size) {} pre = some s → Pinned size s ∧ Released s) ↔
      Along (step size) (KeepsApart size) {} ops := by
  obtain ⟨t, hrun⟩ := exists_run size {} ops
  rw [← run_invariant_iff (J := fun s => Tight size s.locked (Live s)) (fun s op s' h hs => tight_step h hs)
    (fun s op s' _ h hs => pinned_step_iff h hs) tight_empty pinned_new hrun]
  refine ⟨fun h pre hpre s hs => (h pre hpre s hs).1, fun h pre hpre s hs => ⟨h pre hpre s hs, ?_⟩⟩
  exact Tight.released (run_keeps (fun s op s' h hs => tight_step h hs) tight_empty hs)

/-- Two short secrets on one page: dropping the first unlocks the page of the second. -/
theorem pagesLocked_shared_page : ¬ ∀ (size : Nat) (ops : List Op) (s : SecretStore),
    run (step size) {} ops = some s → Pinned size s ∧ Released s := by
  intro h
  have hpinned := (h 4096 [.put 4112 "a" [1], .put 4128 "b" [2], .dropId "a"] _ rfl).1
  have hcovered := hpinned "b" ⟨4128, [2]⟩ (by decide)
  revert hcovered
  decide

end LetsFlutSsh.Security.Secrets
