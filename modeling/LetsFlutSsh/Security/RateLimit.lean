import Mathlib.Tactic.Common
import Mathlib.Order.Lattice

/-!
# Security: the password-attempt rate limiter

`rate_limit.rs`. Times are milliseconds of the limiter's clock.

* `backoffSchedule`, `RateLimitStatus` : what both limiters share;
* `InMemoryRateLimiter` : the limiter that lives as long as the process.
-/

namespace LetsFlutSsh.Security

/-- `BACKOFF_SCHEDULE`: seconds to wait after so many failures. -/
def backoffSchedule : List Nat := [0, 1, 2, 4, 8, 16, 32, 60, 60, 60]

structure RateLimitStatus where
  failureCount : Nat
  cooldownRemainingMs : Int

def RateLimitStatus.isLocked (s : RateLimitStatus) : Bool := decide (0 < s.cooldownRemainingMs)

structure InMemoryRateLimiter where
  failureCount : Nat := 0
  nextRetryAtMs : Option Int := none

namespace InMemoryRateLimiter

def status (l : InMemoryRateLimiter) (now : Int) : RateLimitStatus where
  failureCount := l.failureCount
  cooldownRemainingMs :=
    match l.nextRetryAtMs with
    | some at' => max (at' - now) 0
    | none => 0

def recordFailure (l : InMemoryRateLimiter) (now : Int) : InMemoryRateLimiter :=
  let failureCount := min (l.failureCount + 1) (backoffSchedule.length - 1)
  let secs := backoffSchedule.getD failureCount 0
  { failureCount, nextRetryAtMs := if secs = 0 then none else some (now + secs * 1000) }

def recordSuccess (_ : InMemoryRateLimiter) : InMemoryRateLimiter := { failureCount := 0, nextRetryAtMs := none }

theorem isLocked_status_iff {l : InMemoryRateLimiter} {now : Int} :
    (l.status now).isLocked ↔ ∃ retry, l.nextRetryAtMs = some retry ∧ now < retry := by
  unfold RateLimitStatus.isLocked status
  rcases l.nextRetryAtMs with _ | retry
  · simp
  · simp

theorem backoff_pos : ∀ n < backoffSchedule.length, 0 < n → backoffSchedule.getD n 0 ≠ 0 := by decide

theorem recordFailure_nextRetry (l : InMemoryRateLimiter) (now : Int) :
    ∃ retry, (l.recordFailure now).nextRetryAtMs = some retry ∧ now < retry := by
  have hlast : backoffSchedule.length - 1 = 9 := rfl
  have hpos := backoff_pos (min (l.failureCount + 1) (backoffSchedule.length - 1)) (by omega) (by omega)
  unfold recordFailure
  dsimp only
  rw [if_neg hpos]
  refine ⟨_, rfl, ?_⟩
  omega

end InMemoryRateLimiter

end LetsFlutSsh.Security
