import LetsFlutSsh.Config.Security

/-!
# Security: the tier machine

`security/tier_machine.rs`: the lock state of the active tier.

* `TierState`, `TierEvent`, `nextState` : the states, the events and the transition table;
* `Machine.dispatch`, `Machine.instanceDispatch`, `Machine.tryAdvance` : what moves the machine;
* `nextState_wiping` : no way out of `wiping`.
-/

namespace LetsFlutSsh.Security
open Config (SecurityTier)

inductive TierState where
  | locked
  | unlocking
  | unlocked
  | wiping
  deriving DecidableEq

def TierState.wireName : TierState → String
  | .locked => "locked"
  | .unlocking => "unlocking"
  | .unlocked => "unlocked"
  | .wiping => "wiping"

inductive UnlockFailureReason where
  | wrongSecret
  | pluginUnavailable (code : String)
  | userCancelled
  | corruption (detail : String)
  deriving DecidableEq

inductive TierEvent where
  | unlockRequested
  | unlockSucceeded
  | unlockFailed (reason : UnlockFailureReason)
  | lockRequested
  | wiped
  deriving DecidableEq

/-- `next_state`; nothing for an event that is dropped. -/
def nextState : TierState → TierEvent → Option TierState
  | .locked, .unlockRequested => some .unlocking
  | .locked, .wiped => some .wiping
  | .unlocking, .unlockSucceeded => some .unlocked
  | .unlocking, .unlockFailed _ => some .locked
  | .unlocking, .lockRequested => some .locked
  | .unlocked, .lockRequested => some .locked
  | .unlocked, .wiped => some .wiping
  | .wiping, _ => none
  | _, _ => none

@[simp] theorem nextState_wiping (e : TierEvent) : nextState .wiping e = none := rfl

theorem nextState_wiped_eq {s : TierState} (h : s ≠ .unlocking) : (nextState s .wiped).getD s = .wiping := by
  cases s <;> simp_all [nextState]

structure Machine where
  state : TierState
  tier : SecurityTier

variable (event : TierEvent)
variable (m : Machine)

namespace Machine

def new (initialTier : SecurityTier) : Machine := { state := .locked, tier := initialTier }

def setTier (m : Machine) (tier : SecurityTier) : Machine := { m with tier }

def dispatch (m : Machine) (event : TierEvent) : Option TierState × Machine :=
  match nextState m.state event with
  | none => (none, m)
  | some next => (some next, { m with state := next })

/-- `instance_dispatch`: the tier changes even when the event is dropped. -/
def instanceDispatch (m : Machine) (tier : SecurityTier) (event : TierEvent) : Option TierState × Machine :=
  (m.setTier tier).dispatch event

/-- `try_advance`: the plaintext tier has nothing to wait for. -/
def tryAdvance (m : Machine) : Option TierState × Machine :=
  if m.state ≠ .unlocking then (none, m)
  else
    match m.tier with
    | .plaintext => m.dispatch .unlockSucceeded
    | _ => (none, m)

@[simp] theorem dispatch_fst : (m.dispatch event).1 = nextState m.state event := by
  unfold dispatch
  split <;> simp_all

@[simp] theorem dispatch_state :
    (m.dispatch event).2.state = (nextState m.state event).getD m.state := by
  unfold dispatch
  split <;> simp_all

@[simp] theorem instanceDispatch_fst (tier : SecurityTier) :
    (m.instanceDispatch tier event).1 = nextState m.state event := dispatch_fst _ _

theorem dispatch_wiping {m : Machine} (h : m.state = .wiping) :
    (m.dispatch event).2.state = .wiping := by
  rw [dispatch_state, h, nextState_wiping]
  rfl

theorem tryAdvance_wiping {m : Machine} (h : m.state = .wiping) : m.tryAdvance.2.state = .wiping := by
  rw [tryAdvance, if_pos (by rw [h]; exact nofun)]
  exact h

end Machine

end LetsFlutSsh.Security
