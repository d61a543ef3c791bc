import Mathlib.Tactic.NormNum
import WarpMotor.Event

/-!
The source rate limiter that all workers share: a rate, the size of a lease,
and the deadline that reservations move ahead under a lock. Instants and
durations are nanoseconds; `horizon` is the largest instant the clock type
holds.
-/
namespace WarpMotor

/-- The environment variables the limiter reads: `WP_SOURCE_RATE_LEASE_EVENTS`,
    `WP_SOURCE_RATE_LIMIT_MODE` and `WP_SOURCE_AUTO_INITIAL_RPS`. -/
structure RateEnv where
  leaseEvents : Option Nat
  limitModeOff : Bool
  autoInitialRps : Option Nat
  deriving DecidableEq, Repr

/-- None of the variables is set. -/
def plainRateEnv : RateEnv := { leaseEvents := none, limitModeOff := false, autoInitialRps := none }

inductive SourceRateMode where
  | auto | fixed
  deriving DecidableEq, Repr

/-- A reservation: its call may go on at `due`, after a sleep of `due - now`. -/
structure Grant where
  events : Nat
  due : Nat
  duration : Nat
  deriving DecidableEq, Repr

structure SourceRateLimiter where
  mode : SourceRateMode
  ratePerSec : Nat
  leaseEvents : Nat
  nextDeadline : Nat
  deriving DecidableEq, Repr

namespace SourceRateLimiter

def autoInitialRatePerSec (env : RateEnv) : Nat := env.autoInitialRps.getD 100000

def defaultLeaseEvents (env : RateEnv) (ratePerSec : Nat) : Nat :=
  let scaled := min (max (ratePerSec / 200) 1) 4096
  match env.leaseEvents with
  | some value => if 0 < value then value else scaled
  | none => scaled

def withMode (env : RateEnv) (mode : SourceRateMode) (ratePerSec now : Nat) : SourceRateLimiter :=
  { mode, ratePerSec, leaseEvents := defaultLeaseEvents env ratePerSec, nextDeadline := now }

def new (env : RateEnv) (ratePerSec now : Nat) : Option SourceRateLimiter :=
  if ratePerSec = 0 && env.limitModeOff then none
  else
    let mode := if ratePerSec = 0 then .auto else .fixed
    let initialRate := if mode = .auto then autoInitialRatePerSec env else ratePerSec
    some (withMode env mode initialRate now)

def setRatePerSec (env : RateEnv) (l : SourceRateLimiter) (ratePerSec : Nat) : SourceRateLimiter :=
  { l with ratePerSec, leaseEvents := defaultLeaseEvents env ratePerSec }

/-- The product saturates in 128 bits before the division. -/
def durationFor (l : SourceRateLimiter) (events : Nat) : Option Nat :=
  if l.ratePerSec = 0 then none
  else some (min (max (min (10 ^ 9 * events) u128Max / l.ratePerSec) 1) u64Max)

/-- The part of `wait_for_events` under the lock: the reservation, if any, and the limiter after
    it. `none` is the panic of an instant past the horizon. -/
def waitForEvents (horizon : Nat) (l : SourceRateLimiter) (now events : Nat) :
    Option (Option Grant × SourceRateLimiter) :=
  if events = 0 then some (none, l)
  else
    match l.durationFor events with
    | none => some (none, l)
    | some duration =>
      let wait := l.nextDeadline - now
      let base := if wait = 0 then now else l.nextDeadline
      if base + duration ≤ horizon then
        some (some ⟨events, base, duration⟩, { l with nextDeadline := base + duration })
      else none

end SourceRateLimiter

theorem new_fixed (env : RateEnv) {ratePerSec : Nat} (fixed : ratePerSec ≠ 0) (now : Nat) :
    SourceRateLimiter.new env ratePerSec now =
      some (SourceRateLimiter.withMode env .fixed ratePerSec now) := by
  simp [SourceRateLimiter.new, fixed]

namespace SourceRateLimiter

theorem durationFor_le {l : SourceRateLimiter} {events duration : Nat}
    (priced : l.durationFor events = some duration) : duration ≤ u64Max := by
  unfold durationFor at priced
  split at priced
  · cases priced
  · cases priced
    exact Nat.min_le_right _ _

/-- No `usize` count of events comes near the 128-bit product's limit. -/
theorem durationFor_exact (l : SourceRateLimiter) {events : Nat} (fixed : l.ratePerSec ≠ 0)
    (counted : events ≤ usizeMax) :
    l.durationFor events = some (min (max (10 ^ 9 * events / l.ratePerSec) 1) u64Max) := by
  have fits : 10 ^ 9 * events ≤ u128Max :=
    calc 10 ^ 9 * events ≤ 10 ^ 9 * usizeMax := Nat.mul_le_mul_left _ counted
      _ ≤ u128Max := by norm_num [usizeMax, u128Max]
  rw [durationFor, if_neg fixed, Nat.min_eq_left fits]

theorem base_eq (now deadline : Nat) : (if deadline - now = 0 then now else deadline) = max now deadline := by
  split <;> omega

theorem waitForEvents_panics {horizon now events : Nat} {l : SourceRateLimiter}
    (panics : l.waitForEvents horizon now events = none) :
    ∃ duration, l.durationFor events = some duration ∧
      horizon < max now l.nextDeadline + duration := by
  unfold waitForEvents at panics
  split at panics
  · cases panics
  · split at panics
    · cases panics
    · rename_i duration priced
      dsimp only at panics
      rw [base_eq] at panics
      split at panics
      · cases panics
      · rename_i past
        exact ⟨duration, priced, Nat.lt_of_not_le past⟩

theorem waitForEvents_free {horizon now events : Nat} {l l' : SourceRateLimiter}
    (free : l.waitForEvents horizon now events = some (none, l')) : l' = l := by
  unfold waitForEvents at free
  split at free
  · cases free
    rfl
  · split at free
    · cases free
      rfl
    · dsimp only at free
      rw [base_eq] at free
      split at free <;> cases free

/-- What a reservation takes: the time line from the deadline on, or from now. -/
structure Reserves (l : SourceRateLimiter) (now events : Nat) (g : Grant)
    (l' : SourceRateLimiter) : Prop where
  amount : g.events = events
  due : g.due = max now l.nextDeadline
  priced : l.durationFor events = some g.duration
  after : l' = { l with nextDeadline := g.due + g.duration }

theorem waitForEvents_reserves {horizon now events : Nat} {l l' : SourceRateLimiter} {g : Grant}
    (granted : l.waitForEvents horizon now events = some (some g, l')) :
    l.Reserves now events g l' := by
  unfold waitForEvents at granted
  split at granted
  · cases granted
  · split at granted
    · cases granted
    · rename_i duration priced
      dsimp only at granted
      rw [base_eq] at granted
      split at granted
      · cases granted
        exact ⟨rfl, rfl, priced, rfl⟩
      · cases granted

end SourceRateLimiter
end WarpMotor
