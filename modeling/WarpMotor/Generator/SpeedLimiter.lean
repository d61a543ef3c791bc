import Mathlib.Algebra.Order.Field.Rat
import Mathlib.Data.Rat.Floor
import Mathlib.Tactic.Linarith
import Mathlib.Tactic.NormNum
import WarpMotor.Lib.Runs

/-!
The rate limiter of the generator: a bucket of tokens that is filled at the rate
of a profile. The rate is looked up anew at most every 100 milliseconds, and
never once it is zero, which stands for no limit. Times are rational numbers of
seconds, tokens are rational too.
-/
namespace WarpMotor.Generator

inductive CombineMode where
  | average | max | min | sum
  deriving DecidableEq, Repr

/-- Sinusoidal, burst and random walk profiles are sampled: they are known by the rate at each
    time. -/
inductive SpeedProfile where
  | constant (rate : Nat)
  | stepped (steps : List (ℚ × Nat)) (loopForever : Bool)
  | ramp (start stop : Nat) (durationSecs : ℚ)
  | composite (profiles : List SpeedProfile) (combineMode : CombineMode)
  | sampled (rate : ℚ → Nat)

/-- The rate of the first step that ends after that time, counted from `accumulated`. -/
def stepAt (effectiveElapsed : ℚ) : ℚ → List (ℚ × Nat) → Option Nat
  | _, [] => none
  | accumulated, (duration, rate) :: steps =>
    if effectiveElapsed < accumulated + duration then some rate
    else stepAt effectiveElapsed (accumulated + duration) steps

def calcStepped (steps : List (ℚ × Nat)) (loopForever : Bool) (elapsedSecs : ℚ) : Nat :=
  match steps with
  | [] => 1000
  | first :: rest =>
    let totalDuration := ((first :: rest).map (·.1)).foldl (· + ·) 0
    if totalDuration ≤ 0 then first.2
    else
      let effectiveElapsed :=
        if loopForever then elapsedSecs - totalDuration * (elapsedSecs / totalDuration).floor
        else min elapsedSecs totalDuration
      (stepAt effectiveElapsed 0 (first :: rest)).getD ((first :: rest).getLast?.elim 1000 (·.2))

def calcRamp (start stop : Nat) (durationSecs elapsedSecs : ℚ) : Nat :=
  if durationSecs ≤ 0 then stop
  else
    let progress := max 0 (min (elapsedSecs / durationSecs) 1)
    (max (start + ((stop : ℚ) - start) * progress) 1).floor.toNat

def CombineMode.combine (rates : List Nat) : CombineMode → Nat
  | average => rates.sum / rates.length
  | max => rates.max?.getD 1000
  | min => rates.min?.getD 1000
  | sum => rates.sum

mutual
def SpeedProfile.calculateSpeed : SpeedProfile → ℚ → Nat
  | .constant rate, _ => rate
  | .stepped steps loopForever, elapsedSecs => calcStepped steps loopForever elapsedSecs
  | .ramp start stop durationSecs, elapsedSecs => calcRamp start stop durationSecs elapsedSecs
  | .composite profiles combineMode, elapsedSecs =>
    if profiles.isEmpty then 1000
    else combineMode.combine (SpeedProfile.speeds profiles elapsedSecs)
  | .sampled rate, elapsedSecs => rate elapsedSecs

def SpeedProfile.speeds : List SpeedProfile → ℚ → List Nat
  | [], _ => []
  | profile :: rest, elapsedSecs =>
    profile.calculateSpeed elapsedSecs :: SpeedProfile.speeds rest elapsedSecs
end

theorem stepAt_mem {effectiveElapsed accumulated : ℚ} {steps : List (ℚ × Nat)} {rate : Nat}
    (found : stepAt effectiveElapsed accumulated steps = some rate) :
    ∃ step ∈ steps, step.2 = rate := by
  induction steps generalizing accumulated with
  | nil => cases found
  | cons step steps ih =>
    rw [stepAt] at found
    split at found
    · exact ⟨step, List.mem_cons_self, Option.some.inj found⟩
    · obtain ⟨later, member, same⟩ := ih found
      exact ⟨later, List.mem_cons_of_mem step member, same⟩

/-- The rate of a stepped profile is that of one of its steps. -/
theorem calcStepped_mem {steps : List (ℚ × Nat)} (some_step : steps ≠ []) (loopForever : Bool)
    (elapsedSecs : ℚ) : ∃ step ∈ steps, calcStepped steps loopForever elapsedSecs = step.2 := by
  cases steps with
  | nil => exact absurd rfl some_step
  | cons first rest =>
    unfold calcStepped
    dsimp only
    split
    · exact ⟨first, List.mem_cons_self, rfl⟩
    · cases found : stepAt _ 0 (first :: rest) with
      | some rate =>
        obtain ⟨step, member, same⟩ := stepAt_mem found
        exact ⟨step, member, same.symm⟩
      | none =>
        refine ⟨(first :: rest).getLast some_step, List.getLast_mem some_step, ?_⟩
        rw [Option.getD_none, List.getLast?_eq_some_getLast some_step]
        rfl

/-- The time between two instants, none when the first is later. -/
def durationSince (now earlier : ℚ) : ℚ := max 0 (now - earlier)

/-- The rate of a controller started at `startTime`. -/
def SpeedProfile.currentSpeed (profile : SpeedProfile) (startTime now : ℚ) : Nat :=
  profile.calculateSpeed (durationSince now startTime)

def asMillis (duration : ℚ) : Nat := (duration * 1000).floor.toNat

/-- Capacity for a fifth of a second. -/
def calcMaxTokens (rate : Nat) : ℚ := max (rate * (1 / 5)) 10

structure DynamicRateLimiter where
  tokens : ℚ
  maxTokens : ℚ
  lastRefill : ℚ
  currentRate : Nat
  lastRateUpdate : ℚ
  rateUpdateIntervalMs : Nat
  totalConsumed : Nat
  totalWaitedMs : Nat
  deriving DecidableEq, Repr

namespace DynamicRateLimiter

/-- The controller's profile is the rate at each instant. -/
def new (profile : ℚ → Nat) (now : ℚ) : DynamicRateLimiter where
  tokens := calcMaxTokens (profile now)
  maxTokens := calcMaxTokens (profile now)
  lastRefill := now
  currentRate := profile now
  lastRateUpdate := now
  rateUpdateIntervalMs := 100
  totalConsumed := 0
  totalWaitedMs := 0

def refillTokensAt (l : DynamicRateLimiter) (now : ℚ) : DynamicRateLimiter :=
  let elapsed := durationSince now l.lastRefill
  if 0 < l.currentRate then
    { l with lastRefill := now, tokens := min (l.tokens + elapsed * l.currentRate) l.maxTokens }
  else { l with lastRefill := now }

/-- With whether the rate is another one. -/
def maybeUpdateRateAt (profile : ℚ → Nat) (l : DynamicRateLimiter) (now : ℚ) :
    DynamicRateLimiter × Bool :=
  if l.rateUpdateIntervalMs ≤ asMillis (durationSince now l.lastRateUpdate) then
    let newRate := profile now
    if newRate ≠ l.currentRate then
      let refilled := l.refillTokensAt now
      let maxTokens := calcMaxTokens newRate
      ({ refilled with
          maxTokens, tokens := min refilled.tokens maxTokens, currentRate := newRate,
          lastRateUpdate := now }, true)
    else ({ l with lastRateUpdate := now }, false)
  else (l, false)

/-- `from_secs_f64` of a quotient; it panics on one by zero. -/
def waitSecs (debt : ℚ) (rate : Nat) : Option ℚ := if rate = 0 then none else some (debt / rate)

/-- The limiter with the tokens and the rate for a call at that time. -/
def readyAt (profile : ℚ → Nat) (l : DynamicRateLimiter) (now : ℚ) : DynamicRateLimiter :=
  let update := l.maybeUpdateRateAt profile now
  if update.2 then update.1 else update.1.refillTokensAt now

/-- The limiter and the time to wait; `none` is a panic. -/
def consume (profile : ℚ → Nat) (l : DynamicRateLimiter) (now : ℚ) (count : Nat) :
    DynamicRateLimiter × Option ℚ :=
  if l.currentRate = 0 then ({ l with totalConsumed := l.totalConsumed + count }, some 0)
  else
    let ready := l.readyAt profile now
    let spent : DynamicRateLimiter :=
      { ready with tokens := ready.tokens - count, totalConsumed := ready.totalConsumed + count }
    if spent.tokens < 0 then
      match waitSecs (-spent.tokens) spent.currentRate with
      | none => (spent, none)
      | some wait => ({ spent with totalWaitedMs := spent.totalWaitedMs + asMillis wait }, some wait)
    else (spent, some 0)

/-- The rate is looked up 100 milliseconds after it was last, and there is room for ten tokens. -/
structure Filled (l : DynamicRateLimiter) : Prop where
  interval : l.rateUpdateIntervalMs = 100
  capacity : 10 ≤ l.maxTokens
  bounded : l.tokens ≤ l.maxTokens

/-- A call at that time comes at least 100 milliseconds after the rate was last looked up. -/
def Due (l : DynamicRateLimiter) (now : ℚ) : Prop := l.lastRateUpdate + 1 / 10 ≤ now

instance (l : DynamicRateLimiter) (now : ℚ) : Decidable (l.Due now) :=
  inferInstanceAs (Decidable (l.lastRateUpdate + 1 / 10 ≤ now))

section Steps

variable (profile : ℚ → Nat) {l : DynamicRateLimiter} (now : ℚ) (count : Nat)

theorem due_iff (filled : l.Filled) :
    l.rateUpdateIntervalMs ≤ asMillis (durationSince now l.lastRateUpdate) ↔ l.Due now := by
  have floor : (100 : Int) ≤ (durationSince now l.lastRateUpdate * 1000).floor ↔
      ((100 : Int) : ℚ) ≤ durationSince now l.lastRateUpdate * 1000 := Rat.le_floor_iff
  have cut : (100 : Nat) ≤ asMillis (durationSince now l.lastRateUpdate) ↔
      (100 : Int) ≤ (durationSince now l.lastRateUpdate * 1000).floor := by
    unfold asMillis
    omega
  rw [filled.interval, cut, floor, Due, durationSince]
  push_cast
  constructor
  · intro long
    rcases max_choice 0 (now - l.lastRateUpdate) with none | some
    · rw [none] at long
      norm_num at long
    · rw [some] at long
      linarith
  · intro late
    have some := le_max_right 0 (now - l.lastRateUpdate)
    linarith

theorem new_filled (start : ℚ) : (new profile start).Filled :=
  ⟨rfl, le_max_right _ _, le_refl _⟩

theorem refillTokensAt_rate : (l.refillTokensAt now).currentRate = l.currentRate := by
  unfold refillTokensAt
  dsimp only
  split <;> rfl

theorem refillTokensAt_filled (filled : l.Filled) : (l.refillTokensAt now).Filled := by
  unfold refillTokensAt
  dsimp only
  split
  · exact ⟨filled.interval, filled.capacity, min_le_right _ _⟩
  · exact ⟨filled.interval, filled.capacity, filled.bounded⟩

/-- What is in the bucket when it has been filled up at the old rate. -/
def filledUp (l : DynamicRateLimiter) (now : ℚ) : ℚ :=
  min (l.tokens + durationSince now l.lastRefill * l.currentRate) l.maxTokens

theorem readyAt_early (filled : l.Filled) (early : ¬ l.Due now) :
    l.readyAt profile now = l.refillTokensAt now := by
  have soon := mt (due_iff now filled).mp early
  rw [readyAt, maybeUpdateRateAt, if_neg soon]
  rfl

theorem readyAt_same (filled : l.Filled) (due : l.Due now) (same : profile now = l.currentRate) :
    l.readyAt profile now = { l with lastRateUpdate := now }.refillTokensAt now := by
  rw [readyAt, maybeUpdateRateAt, if_pos ((due_iff now filled).mpr due)]
  simp [same]

theorem readyAt_other (filled : l.Filled) (due : l.Due now) (other : profile now ≠ l.currentRate) :
    l.readyAt profile now =
      { l.refillTokensAt now with
        maxTokens := calcMaxTokens (profile now),
        tokens := min (l.refillTokensAt now).tokens (calcMaxTokens (profile now)),
        currentRate := profile now, lastRateUpdate := now } := by
  rw [readyAt, maybeUpdateRateAt, if_pos ((due_iff now filled).mpr due)]
  simp [other]

theorem readyAt_filled (filled : l.Filled) : (l.readyAt profile now).Filled := by
  by_cases due : l.Due now
  · by_cases same : profile now = l.currentRate
    · rw [readyAt_same profile now filled due same]
      exact refillTokensAt_filled now ⟨filled.interval, filled.capacity, filled.bounded⟩
    · rw [readyAt_other profile now filled due same]
      exact ⟨(refillTokensAt_filled now filled).interval, le_max_right _ _, min_le_right _ _⟩
  · rw [readyAt_early profile now filled due]
    exact refillTokensAt_filled now filled

theorem readyAt_rate (filled : l.Filled) :
    (l.readyAt profile now).currentRate = if l.Due now then profile now else l.currentRate := by
  split
  · next due =>
    by_cases same : profile now = l.currentRate
    · rw [readyAt_same profile now filled due same, refillTokensAt_rate, same]
    · rw [readyAt_other profile now filled due same]
  · next early => rw [readyAt_early profile now filled early, refillTokensAt_rate]

/-- A rate that goes to zero leaves ten tokens at most. -/
theorem readyAt_tokens_of_stop (filled : l.Filled) (due : l.Due now) (limited : l.currentRate ≠ 0)
    (stop : profile now = 0) : (l.readyAt profile now).tokens = min (l.filledUp now) 10 := by
  have other : profile now ≠ l.currentRate := by omega
  have room : calcMaxTokens 0 = 10 := by norm_num [calcMaxTokens]
  rw [readyAt_other profile now filled due other, stop, room]
  simp only [refillTokensAt, Nat.pos_of_ne_zero limited, if_true, filledUp]

theorem consume_limited (limited : l.currentRate ≠ 0) :
    (∃ waited, (l.consume profile now count).1 =
      { l.readyAt profile now with
        tokens := (l.readyAt profile now).tokens - count,
        totalConsumed := (l.readyAt profile now).totalConsumed + count,
        totalWaitedMs := waited }) ∧
    ((l.consume profile now count).2 = none ↔
      (l.readyAt profile now).tokens < count ∧ (l.readyAt profile now).currentRate = 0) := by
  rw [consume, if_neg limited]
  dsimp only
  have debt : (l.readyAt profile now).tokens - count < 0 ↔
      (l.readyAt profile now).tokens < count := sub_neg
  split
  · next short =>
    by_cases stop : (l.readyAt profile now).currentRate = 0
    · simp [waitSecs, stop, debt.mp short]
    · simp [waitSecs, stop]
  · next enough => simp [mt debt.mpr enough]

theorem consume_filled (filled : l.Filled) : (l.consume profile now count).1.Filled := by
  by_cases unlimited : l.currentRate = 0
  · rw [consume, if_pos unlimited]
    exact ⟨filled.interval, filled.capacity, filled.bounded⟩
  · obtain ⟨⟨waited, after⟩, -⟩ := consume_limited profile now count unlimited
    have ready := readyAt_filled profile now filled
    rw [after]
    refine ⟨ready.interval, ready.capacity, ?_⟩
    have spent : (0 : ℚ) ≤ count := Nat.cast_nonneg count
    have bounded := ready.bounded
    dsimp only
    linarith

/-- What a call keeps: a wait that is finite, the rate of the profile once it is due, and no more
    tokens than there is room for. -/
structure CallHolds (profile : ℚ → Nat) (l : DynamicRateLimiter) (call : ℚ × Nat) : Prop where
  finite : (l.consume profile call.1 call.2).2 ≠ none
  follows : l.Due call.1 → (l.consume profile call.1 call.2).1.currentRate = profile call.1
  bounded : (l.consume profile call.1 call.2).1.tokens ≤
    (l.consume profile call.1 call.2).1.maxTokens

/-- Once the rate is due, it has not just left zero; and where it has just become zero, the count is
    in the bucket, up to ten. -/
def CallFits (profile : ℚ → Nat) (l : DynamicRateLimiter) (call : ℚ × Nat) : Prop :=
  l.Due call.1 →
    (l.currentRate = 0 → profile call.1 = 0) ∧
      (l.currentRate ≠ 0 → profile call.1 = 0 → call.2 ≤ min (l.filledUp call.1) 10)

theorem callHolds_iff (filled : l.Filled) (call : ℚ × Nat) :
    CallHolds profile l call ↔ CallFits profile l call := by
  have bounded := (consume_filled profile call.1 call.2 filled).bounded
  by_cases unlimited : l.currentRate = 0
  · have shortcut : l.consume profile call.1 call.2 =
        ({ l with totalConsumed := l.totalConsumed + call.2 }, some 0) := if_pos unlimited
    constructor
    · intro holds due
      have rate := holds.follows due
      rw [shortcut] at rate
      exact ⟨fun _ => by rw [← rate]; exact unlimited, fun limited => absurd unlimited limited⟩
    · intro fits
      refine ⟨by rw [shortcut]; exact Option.some_ne_none 0, ?_, bounded⟩
      intro due
      rw [shortcut, (fits due).1 unlimited]
      exact unlimited
  · obtain ⟨⟨waited, after⟩, panics⟩ :=
      consume_limited profile call.1 call.2 unlimited
    have rate := readyAt_rate profile call.1 filled
    constructor
    · intro holds due
      refine ⟨fun zero => absurd zero unlimited, fun _ stop => ?_⟩
      have tokens := readyAt_tokens_of_stop profile call.1 filled due unlimited stop
      by_contra short
      rw [not_le, ← tokens] at short
      rw [if_pos due] at rate
      exact holds.finite (panics.mpr ⟨short, rate.trans stop⟩)
    · intro fits
      refine ⟨?_, ?_, bounded⟩
      · intro panic
        obtain ⟨short, stop⟩ := panics.mp panic
        rw [stop] at rate
        by_cases due : l.Due call.1
        · rw [if_pos due] at rate
          have enough := (fits due).2 unlimited rate.symm
          have tokens := readyAt_tokens_of_stop profile call.1 filled due unlimited rate.symm
          rw [← tokens] at enough
          exact absurd short (not_lt.mpr enough)
        · rw [if_neg due] at rate
          exact unlimited rate.symm
      · intro due
        rw [after]
        rw [if_pos due] at rate
        exact rate

end Steps

/-- One call after another, from the moment that the limiter is made. -/
def step (profile : ℚ → Nat) (l : DynamicRateLimiter) (call : ℚ × Nat) : DynamicRateLimiter :=
  (l.consume profile call.1 call.2).1

/-- Every call of a run keeps what it should exactly when every call of it fits: none that is due
    finds the rate at zero and the profile elsewhere, and none finds that the profile has just become
    zero and asks for more than the bucket then holds. -/
theorem limiter_follows_profile_iff (profile : ℚ → Nat) (start : ℚ) (calls : List (ℚ × Nat)) :
    Runs.AllSteps (step profile) (CallHolds profile) (new profile start) calls ↔
      Runs.AllSteps (step profile) (CallFits profile) (new profile start) calls :=
  Runs.allSteps_congr Filled (fun _ call filled => callHolds_iff profile filled call)
    (fun _ call filled => consume_filled profile call.1 call.2 filled) calls _
    (new_filled profile start)

/-- A profile that is never zero is followed. -/
theorem never_zero_followed {profile : ℚ → Nat} (limits : ∀ now, profile now ≠ 0) (start : ℚ)
    (calls : List (ℚ × Nat)) :
    Runs.AllSteps (step profile) (CallHolds profile) (new profile start) calls := by
  apply Runs.allSteps_of_invariant (fun l => Filled l ∧ l.currentRate ≠ 0)
  · rintro l call ⟨filled, limited⟩
    apply (callHolds_iff profile filled call).mpr
    intro _
    exact ⟨fun zero => absurd zero limited, fun _ stop => absurd stop (limits call.1)⟩
  · rintro l call ⟨filled, limited⟩
    obtain ⟨⟨waited, after⟩, -⟩ := consume_limited profile call.1 call.2 limited
    refine ⟨consume_filled profile call.1 call.2 filled, ?_⟩
    rw [step, after]
    dsimp only
    rw [readyAt_rate profile call.1 filled]
    split
    · exact limits call.1
    · exact limited
  · exact ⟨new_filled profile start, limits start⟩

/-- So is a profile of steps each of which has a limit. -/
theorem steps_followed {steps : List (ℚ × Nat)} (some_step : steps ≠ [])
    (limits : ∀ step ∈ steps, step.2 ≠ 0) (loopForever : Bool) (start : ℚ)
    (calls : List (ℚ × Nat)) :
    Runs.AllSteps (step ((SpeedProfile.stepped steps loopForever).currentSpeed start))
      (CallHolds ((SpeedProfile.stepped steps loopForever).currentSpeed start))
      (new ((SpeedProfile.stepped steps loopForever).currentSpeed start) start) calls := by
  apply never_zero_followed
  intro now
  obtain ⟨step, member, rate⟩ := calcStepped_mem some_step loopForever (durationSince now start)
  rw [SpeedProfile.currentSpeed, SpeedProfile.calculateSpeed, rate]
  exact limits step member

/-- Ten events a second for a second, and then no limit. -/
def limitFirst : SpeedProfile := .stepped [(1, 10), (1, 0)] false

/-- No limit for a second, and then ten events a second. -/
def limitLast : SpeedProfile := .stepped [(1, 0), (1, 10)] false

/-- Half a second into the second step, 100 events are divided by the new rate of zero; and a rate
    of zero stays. -/
theorem unlimited_rates_are_lost :
    ¬ Runs.AllSteps (step (limitFirst.currentSpeed 0)) (CallHolds (limitFirst.currentSpeed 0))
        (new (limitFirst.currentSpeed 0) 0) [(3 / 2, 100)] ∧
      ¬ Runs.AllSteps (step (limitLast.currentSpeed 0)) (CallHolds (limitLast.currentSpeed 0))
        (new (limitLast.currentSpeed 0) 0) [(3 / 2, 1)] := by
  have divides : ((new (limitFirst.currentSpeed 0) 0).consume
      (limitFirst.currentSpeed 0) (3 / 2) 100).2 = none := by
    decide +kernel
  have stays : ((new (limitLast.currentSpeed 0) 0).consume
      (limitLast.currentSpeed 0) (3 / 2) 1).1.currentRate ≠ limitLast.currentSpeed 0 (3 / 2) := by
    decide +kernel
  have due : (new (limitLast.currentSpeed 0) 0).Due (3 / 2) := by decide +kernel
  constructor
  · intro holds
    exact holds.1.finite divides
  · intro holds
    exact stays (holds.1.follows due)

end DynamicRateLimiter

end WarpMotor.Generator
