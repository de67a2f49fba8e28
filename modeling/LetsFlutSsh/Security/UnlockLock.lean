import LetsFlutSsh.Security.UnlockCourse

/-!
# Security: a lock in the middle of an unlock

Calls of `security/tier_unlock_orchestrator.rs` side by side, with locks, cancellations and wipes between their
operations.

* `Notes`, `LockWins` : what a call has done, and that a call whose success was dropped did nothing;
* `lockWins_iff` : a lock wins as long as every success finds the machine in `unlocking`.
-/

namespace LetsFlutSsh.Security.Unlock
open Lib Prog
open Config (SecurityTier)

structure Notes where
  /-- The key is in the active slot. -/
  staged : Bool := false
  /-- The success was dropped. -/
  rejected : Bool := false
  /-- The cascade has opened the database, written the tier or told others. -/
  cascaded : Bool := false

def Notes.see (n : Notes) : (op : TierOp) → op.Resp → Notes
  | .putSecret id _, _ => { n with staged := n.staged || id = tierUnlockKeyId }
  | .renameSecret _ dst, moved => { n with staged := n.staged || (moved && dst = tierUnlockKeyId) }
  | .instanceDispatch _ event, next => { n with rejected := n.rejected || (event = .unlockSucceeded && next.isNone) }
  | .dbInit _ _, _ | .updateSecurityTier _, _ | .publish _, _ => { n with cascaded := true }
  | _, _ => n

/-- What the `i`-th call has done. -/
def System.notes (s : System) (i : Nat) : Notes := Threads.notes Notes.see {} s i

/-- **The lock wins.** A call whose success was dropped staged no key and ran no cascade. -/
structure LockWins (s : System) : Prop where
  call : ∀ i, (s.notes i).rejected → ¬ (s.notes i).staged ∧ ¬ (s.notes i).cascaded
  rest : s.shared.machine.state = .locked ∨ s.shared.machine.state = .wiping → s.Idle →
    ∀ i, (s.notes i).rejected → ¬ (s.notes i).staged

def Notes.Careless (n : Notes) : Prop := n.rejected → n.staged ∨ n.cascaded

variable (tier : SecurityTier)

theorem rejected_other (n : Notes) (op : TierOp) (r : op.Resp)
    (hop : ∀ tier, op ≠ .instanceDispatch tier .unlockSucceeded) : (n.see op r).rejected = n.rejected := by
  cases op with
  | instanceDispatch tier event =>
    have hevent : event ≠ .unlockSucceeded := by
      rintro rfl
      exact hop tier rfl
    simp [Notes.see, hevent]
  | _ => rfl

theorem cascade_careless (n : Notes) :
    (runPostUnlockCascade tier).Keeps Notes.see (fun _ => True) (fun _ => Notes.Careless) n := by
  refine ⟨trivial, fun hasKey => ⟨trivial, fun dir => ?_⟩⟩
  rcases dir with _ | dir
  · exact ⟨trivial, fun _ _ => .inr rfl⟩
  · exact ⟨trivial, fun key => ⟨trivial, fun opened => ⟨trivial, fun stored => ⟨trivial, fun _ => ⟨trivial, fun _ =>
      ⟨trivial, fun _ => ⟨trivial, fun _ _ => .inr rfl⟩⟩⟩⟩⟩⟩⟩

/-- Until a call reports its success, none of its successes is dropped. -/
theorem careless_course :
    Course Notes.see (fun _ => True) Notes.Careless fun _ _ n => n.rejected = false where
  held _ := trivial
  after h hrejected := by simp [h] at hrejected
  plain r hop h := by
    rw [rejected_other _ _ r, h]
    rintro tier rfl
    cases hop
  verify op r hop h := by
    rw [rejected_other _ _ r, h]
    rintro tier rfl
    cases hop
  status _ h := h
  failure _ h := h
  failure_free _ h := h
  success _ h := h
  unlocks tier _ _ := cascade_careless tier _
  dropped _ _ h := h

/-- A success that is reported finds the machine in `unlocking`. -/
def Admitted (s : System) : Step → Prop
  | .act i _ => ∀ tier next, s.progs[i]? = some (.call (.instanceDispatch tier .unlockSucceeded) next) →
    s.shared.machine.state = .unlocking
  | _ => True

section Runs

variable {s t : System} {l : Step}

theorem notes_act {i : Nat} {o : Answers} (h : step s (.act i o) = some t) : ∃ op next,
    s.progs[i]? = some (.call op next) ∧ ∀ j, t.notes j =
      if i = j then (s.notes j).see op (op.perform o s.shared).1 else s.notes j := by
  have hact : s.act TierOp.perform i o = some t := h
  obtain ⟨op, next, hp, -, hnotes⟩ := Threads.notes_act hact
  exact ⟨op, next, hp, hnotes⟩

theorem notes_step (h : step s l = some t) (j : Nat) : t.notes j = s.notes j ∨
    ∃ o op next, l = .act j o ∧ s.progs[j]? = some (.call op next) ∧
      t.notes j = (s.notes j).see op (op.perform o s.shared).1 := by
  rcases step_cases h with ⟨call, rfl, rfl⟩ | ⟨i, o, rfl, -⟩ | ⟨-, -, rfl⟩
  · exact .inl rfl
  · obtain ⟨op, next, hp, hnotes⟩ := notes_act h
    rw [hnotes]
    split
    · next hij =>
      subst hij
      exact .inr ⟨o, op, next, rfl, hp, rfl⟩
    · exact .inl rfl
  · exact .inl rfl

theorem rejected_see (n : Notes) (op : TierOp) (r : op.Resp) (h : n.rejected = true) : (n.see op r).rejected = true := by
  cases op <;> simp [Notes.see, h]

theorem rejected_step (h : step s l = some t) (j : Nat) (hj : (s.notes j).rejected = true) :
    (t.notes j).rejected = true := by
  rcases notes_step h j with hsame | ⟨o, op, next, -, -, hsee⟩
  · rw [hsame]
    exact hj
  · rw [hsee]
    exact rejected_see _ _ _ hj

theorem rejected_success (n : Notes) (o : Answers) (app : App) :
    (n.see (.instanceDispatch tier .unlockSucceeded) ((TierOp.instanceDispatch tier .unlockSucceeded).perform o app).1).rejected =
      (n.rejected || app.machine.state != .unlocking) := by
  simp only [Notes.see, TierOp.perform, App.moveMachine_fst, Machine.instanceDispatch_fst, decide_true, Bool.true_and]
  rcases hs : app.machine.state with _ | _ | _ | _ <;> rfl

theorem admitted_iff (hs : ∀ j, (s.notes j).rejected = false) (h : step s l = some t) :
    (∀ j, (t.notes j).rejected = false) ↔ Admitted s l := by
  refine ⟨fun ht => ?_, fun hok j => ?_⟩
  · rcases step_cases h with ⟨call, rfl, -⟩ | ⟨i, o, rfl, -⟩ | ⟨hbegin, hact, -⟩
    · trivial
    · intro tier next hp
      obtain ⟨op, next', hp', hnotes⟩ := notes_act h
      rw [hp] at hp'
      cases hp'
      have hi := ht i
      rw [hnotes, if_pos rfl, rejected_success, hs i, Bool.false_or] at hi
      simpa using hi
    · cases l with
      | act i o => exact absurd rfl (hact i o)
      | _ => trivial
  · rcases notes_step h j with hsame | ⟨o, op, next, rfl, hp, hsee⟩
    · rw [hsame]
      exact hs j
    rw [hsee]
    by_cases hop : ∃ tier, op = .instanceDispatch tier .unlockSucceeded
    · obtain ⟨tier, rfl⟩ := hop
      rw [rejected_success, hs j, hok tier next hp]
      rfl
    · rw [rejected_other _ _ _ fun tier heq => hop ⟨tier, heq⟩]
      exact hs j

theorem follows_step (hs : s.Follows Notes.see {} (fun _ => True) fun _ => Notes.Careless) (h : step s l = some t) :
    t.Follows Notes.see {} (fun _ => True) fun _ => Notes.Careless := by
  rcases step_cases h with ⟨call, rfl, rfl⟩ | ⟨i, o, rfl, hact⟩ | ⟨-, -, rfl⟩
  · exact hs.spawn (careless_course.program (fun _ => rfl) call)
  · exact hs.act hact
  · exact hs.shared _

/-- **When the lock wins.** It does in every state of a run whose successes all find the machine in `unlocking`; and
where all calls have ended and it did, they all did. -/
theorem lockWins_iff (app : App) (ls : List Step) (s : System) (hrun : run step { shared := app } ls = some s) :
    (Along step Admitted { shared := app } ls →
      ∀ pre, pre <+: ls → ∀ u, run step { shared := app } pre = some u → LockWins u) ∧
    (s.Idle → LockWins s → Along step Admitted { shared := app } ls) := by
  have hiff : (∀ pre, pre <+: ls → ∀ u, run step { shared := app } pre = some u → ∀ j, (u.notes j).rejected = false) ↔
      Along step Admitted { shared := app } ls :=
    run_invariant_iff (J := fun _ => True) (fun _ _ _ _ _ => trivial) (fun s l t _ hs h => admitted_iff hs h) trivial
      (fun _ => rfl) hrun
  refine ⟨fun halong pre hpre u hu => ?_, fun hidle hwins => hiff.1 fun pre hpre u hu j => ?_⟩
  · have hnone := hiff.2 halong pre hpre u hu
    have hno : ∀ i, ¬ (u.notes i).rejected := fun i => by simp [hnone i]
    exact ⟨fun i hi => absurd hi (hno i), fun _ _ i hi => absurd hi (hno i)⟩
  have hfollows : s.Follows Notes.see {} (fun _ => True) fun _ => Notes.Careless :=
    run_keeps (fun _ _ _ hs h => follows_step hs h) (Threads.follows_init app) hrun
  have hcareless : (s.notes j).Careless := hfollows.ended hidle nofun (fun _ _ h => h) j
  obtain ⟨post, rfl⟩ := hpre
  rw [run_append, hu, Option.bind_some] at hrun
  by_contra hrejected
  have hj : (s.notes j).rejected = true :=
    run_keeps (I := fun s : System => (s.notes j).rejected = true) (fun _ _ _ hs h => rejected_step h j hs)
      (by simpa using hrejected) hrun
  obtain ⟨hstaged, hcascaded⟩ := hwins.call j hj
  exact (hcareless hj).elim hstaged hcascaded

end Runs

def undisturbed : List Step :=
  .begin .unlockKeychain :: .act 0 {} :: .act 0 { keychainRead := .ok (some [1]) } :: List.replicate 11 (.act 0 {})

/-- `Admitted`, as a test. -/
def admits (s : System) : Step → Bool
  | .act i _ =>
    match s.progs[i]? with
    | some (.call (.instanceDispatch _ .unlockSucceeded) _) => s.shared.machine.state = .unlocking
    | _ => true
  | _ => true

theorem lockWins_undisturbed : ∃ s, run step { shared := { supportDir := some "/data" } } undisturbed = some s ∧
    s.shared.machine.state = .unlocked ∧ LockWins s := by
  have htest : ∀ (s : System) l, admits s l = true → Admitted s l := by
    intro s l h
    cases l with
    | act i o =>
      intro tier next hp
      simpa [admits, hp] using h
    | _ => trivial
  have hall : Along step Admitted { shared := { supportDir := some "/data" } } undisturbed :=
    along_of_checks htest (by decide +kernel)
  exact ⟨_, rfl, rfl, (lockWins_iff { supportDir := some "/data" } undisturbed _ rfl).1 hall undisturbed
    List.prefix_rfl _ rfl⟩

def lockedMeanwhile : List Step :=
  .begin .unlockKeychain :: .act 0 {} :: .dispatch .lockRequested :: .act 0 { keychainRead := .ok (some [1]) } ::
    List.replicate 11 (.act 0 {})

/-- The machine is locked, no call is under way, and the key is there and the database open. -/
theorem lockWins_locked_meanwhile :
    ∃ s, run step { shared := { supportDir := some "/data" } } lockedMeanwhile = some s ∧ s.Idle ∧
      s.shared.machine.state = .locked ∧ s.shared.secrets tierUnlockKeyId = some [1] ∧
      s.shared.dbSlot.db = some ⟨"/data/letsflutssh.db", [1], 0⟩ ∧ (s.notes 0).rejected ∧ (s.notes 0).staged ∧
      (s.notes 0).cascaded ∧ ¬ LockWins s := by
  refine ⟨_, rfl, fun p hp => ?_, rfl, rfl, rfl, rfl, rfl, rfl, fun h => (h.call 0 rfl).1 rfl⟩
  rw [List.mem_singleton.1 hp]
  exact ⟨(), rfl⟩

end LetsFlutSsh.Security.Unlock
