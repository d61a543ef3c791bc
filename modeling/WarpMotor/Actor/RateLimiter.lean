import WarpMotor.Event
import WarpMotor.Lib.Runs

/-!
The rate limiter of a task controller. `next_deadline` moves ahead by whole
periods: by one if a call comes early, past the missed ones if it comes late.
The number of missed periods is narrowed to 32 bits.
-/
namespace WarpMotor

/-- The instants of a clock, as nanoseconds from its first one: two of them are a `Duration`
    apart. An instant past `last` is a panic. -/
structure InstantRange where
  last : Nat
  fits : last ≤ durationMax

def InstantRange.add (range : InstantRange) (instant duration : Nat) : Option Nat :=
  if instant + duration ≤ range.last then some (instant + duration) else none

structure RateLimiter where
  limitNs : Nat
  nextDeadline : Nat
  runCnt : Nat
  unitCnt : Nat
  deriving DecidableEq, Repr

namespace RateLimiter

/-- The period is cut to 64 bits. -/
def new (range : InstantRange) (secCount unitCnt now : Nat) : Option RateLimiter :=
  let limitNs :=
    if secCount = 0 then 0 else min (10 ^ 9 * unitCnt) u128Max / secCount % 2 ^ 64
  let limiter : RateLimiter := { limitNs, nextDeadline := now, runCnt := 0, unitCnt }
  if limitNs = 0 then some limiter
  else (range.add now limitNs).map fun deadline => { limiter with nextDeadline := deadline }

/-- The time to wait, and the limiter with its next deadline. -/
def limitSpeedTime (range : InstantRange) (l : RateLimiter) (now : Nat) :
    Option (Nat × RateLimiter) :=
  if l.limitNs = 0 then some (0, l)
  else if now < l.nextDeadline then
    (range.add l.nextDeadline l.limitNs).map fun deadline =>
      (l.nextDeadline - now, { l with nextDeadline := deadline })
  else
    let behind := now - l.nextDeadline
    let missed := behind / l.limitNs + 1
    let advance := min (l.limitNs * (missed % 2 ^ 32)) durationMax
    (range.add l.nextDeadline advance).map fun deadline =>
      (0, { l with nextDeadline := deadline })

/-- How many periods the deadline is from being later than `now`. -/
def periodsTo (l : RateLimiter) (now : Nat) : Nat :=
  if now < l.nextDeadline then 1 else (now - l.nextDeadline) / l.limitNs + 1

/-- A call for which the periods fit 32 bits and the deadline fits the clock. -/
def Reaches (range : InstantRange) (l : RateLimiter) (now : Nat) : Prop :=
  l.periodsTo now < 2 ^ 32 ∧ l.nextDeadline + l.periodsTo now * l.limitNs ≤ range.last

variable {range : InstantRange} {l : RateLimiter} {now : Nat}

theorem periodsTo_positive : 0 < l.periodsTo now := by
  unfold periodsTo
  split
  · exact Nat.one_pos
  · exact Nat.succ_pos _

/-- That many periods are enough, and one less is not. -/
theorem periodsTo_bounds (moving : l.limitNs ≠ 0) (late : l.nextDeadline ≤ now) :
    l.nextDeadline + (l.periodsTo now - 1) * l.limitNs ≤ now ∧
      now < l.nextDeadline + l.periodsTo now * l.limitNs := by
  have positive : 0 < l.limitNs := Nat.pos_of_ne_zero moving
  rw [periodsTo, if_neg (Nat.not_lt.mpr late), Nat.add_sub_cancel]
  have below := Nat.div_mul_le_self (now - l.nextDeadline) l.limitNs
  have above := Nat.lt_div_mul_add positive (a := now - l.nextDeadline)
  rw [Nat.add_mul, Nat.one_mul]
  omega

theorem add_of_le {instant duration : Nat} (fits : instant + duration ≤ range.last) :
    range.add instant duration = some (instant + duration) :=
  if_pos fits

theorem limitSpeedTime_early (moving : l.limitNs ≠ 0) (early : now < l.nextDeadline) :
    l.limitSpeedTime range now = (range.add l.nextDeadline l.limitNs).map fun deadline =>
      (l.nextDeadline - now, { l with nextDeadline := deadline }) := by
  unfold limitSpeedTime
  rw [if_neg moving, if_pos early]

theorem limitSpeedTime_late (moving : l.limitNs ≠ 0) (late : l.nextDeadline ≤ now) :
    l.limitSpeedTime range now =
      (range.add l.nextDeadline
        (min (l.limitNs * (l.periodsTo now % 2 ^ 32)) durationMax)).map fun deadline =>
          (0, { l with nextDeadline := deadline }) := by
  unfold limitSpeedTime periodsTo
  rw [if_neg moving, if_neg (Nat.not_lt.mpr late), if_neg (Nat.not_lt.mpr late)]

theorem limitSpeedTime_of_reaches (moving : l.limitNs ≠ 0) (reaches : l.Reaches range now) :
    l.limitSpeedTime range now = some (l.nextDeadline - now,
      { l with nextDeadline := l.nextDeadline + l.periodsTo now * l.limitNs }) := by
  obtain ⟨few, fits⟩ := reaches
  by_cases early : now < l.nextDeadline
  · have one : l.periodsTo now = 1 := if_pos early
    rw [one, Nat.one_mul] at fits ⊢
    rw [limitSpeedTime_early moving early, add_of_le fits, Option.map_some]
  · have late := Nat.le_of_not_lt early
    have within := range.fits
    have whole : min (l.limitNs * (l.periodsTo now % 2 ^ 32)) durationMax =
        l.periodsTo now * l.limitNs := by
      rw [Nat.mod_eq_of_lt few, Nat.mul_comm]
      omega
    rw [limitSpeedTime_late moving late, whole, add_of_le fits, Option.map_some,
      Nat.sub_eq_zero_of_le late]

/-- A deadline that is later than the call by whole periods is the one of `Reaches`. -/
theorem reaches_of_ahead (moving : l.limitNs ≠ 0) {wait n : Nat} {l' : RateLimiter}
    (returned : l.limitSpeedTime range now = some (wait, l')) (ahead : now < l'.nextDeadline)
    (whole : l'.nextDeadline = l.nextDeadline + n * l.limitNs) : l.Reaches range now := by
  by_cases early : now < l.nextDeadline
  · have one : l.periodsTo now = 1 := if_pos early
    rw [limitSpeedTime_early moving early] at returned
    obtain ⟨deadline, added, same⟩ := Option.map_eq_some_iff.mp returned
    unfold InstantRange.add at added
    split at added
    · rename_i fits
      rw [Reaches, one, Nat.one_mul]
      exact ⟨by decide, fits⟩
    · cases added
  · have late := Nat.le_of_not_lt early
    obtain ⟨before, after⟩ := periodsTo_bounds moving late
    rw [limitSpeedTime_late moving late] at returned
    obtain ⟨deadline, added, same⟩ := Option.map_eq_some_iff.mp returned
    cases same
    unfold InstantRange.add at added
    split at added
    · rename_i fits
      cases added
      dsimp only at ahead whole
      have positive : 0 < l.limitNs := Nat.pos_of_ne_zero moving
      have enough : l.periodsTo now ≤ n := by
        by_contra short
        have fewer : n * l.limitNs ≤ (l.periodsTo now - 1) * l.limitNs :=
          Nat.mul_le_mul_right _ (by omega)
        omega
      have narrowed : n ≤ l.periodsTo now % 2 ^ 32 := by
        apply Nat.le_of_mul_le_mul_right _ positive
        rw [Nat.mul_comm (l.periodsTo now % 2 ^ 32)]
        omega
      -- `m % 2 ^ 32 ≤ m ≤ n ≤ m % 2 ^ 32`
      have small : l.periodsTo now % 2 ^ 32 < 2 ^ 32 := Nat.mod_lt _ (by decide)
      have cut := Nat.mod_le (l.periodsTo now) (2 ^ 32)
      have exactly : n = l.periodsTo now := by omega
      refine ⟨by omega, ?_⟩
      rw [← exactly, ← whole]
      exact fits
    · cases added

theorem lt_deadline (moving : l.limitNs ≠ 0) :
    now < l.nextDeadline + l.periodsTo now * l.limitNs := by
  by_cases early : now < l.nextDeadline
  · exact Nat.lt_add_right _ early
  · exact (periodsTo_bounds moving (Nat.le_of_not_lt early)).2

/-- A call moves the deadline past its time by whole periods exactly if it reaches that far. -/
theorem reaches_iff (moving : l.limitNs ≠ 0) :
    l.Reaches range now ↔ ∃ wait l', l.limitSpeedTime range now = some (wait, l') ∧
      now < l'.nextDeadline ∧
        ∃ n, 0 < n ∧ l'.nextDeadline = l.nextDeadline + n * l.limitNs := by
  constructor
  · intro reaches
    exact ⟨_, _, limitSpeedTime_of_reaches moving reaches, lt_deadline moving, l.periodsTo now,
      periodsTo_positive, rfl⟩
  · rintro ⟨wait, l', returned, ahead, n, -, whole⟩
    exact reaches_of_ahead moving returned ahead whole

end RateLimiter

/-- A call of `limit_speed_time` with the deadline before and after it. -/
structure RateCall where
  time : Nat
  wait : Nat
  before : Nat
  after : Nat
  deriving DecidableEq, Repr

/-- A limiter with the calls made so far, and whether the last one has panicked. -/
structure RateCalls where
  limiter : RateLimiter
  calls : List RateCall
  panicked : Bool
  deriving DecidableEq, Repr

namespace RateCalls

def start (limiter : RateLimiter) : RateCalls := { limiter, calls := [], panicked := false }

def step (range : InstantRange) (s : RateCalls) (now : Nat) : RateCalls :=
  if s.panicked then s
  else
    match s.limiter.limitSpeedTime range now with
    | none => { s with panicked := true }
    | some (wait, limiter) =>
      { s with
        limiter
        calls := s.calls ++ [⟨now, wait, s.limiter.nextDeadline, limiter.nextDeadline⟩] }

/-- The calls that return without a wait. -/
def free (s : RateCalls) : List RateCall := s.calls.filter fun call => call.wait = 0

/-- The period of the limiter's grid that a call falls into. -/
def cell (l : RateLimiter) (call : RateCall) : Nat := (call.time - l.nextDeadline) / l.limitNs

/-- Every deadline is later than its call by whole periods, and no two calls in one period return
    without a wait. -/
structure Paced (l : RateLimiter) (s : RateCalls) : Prop where
  calm : s.panicked = false
  ahead : ∀ call ∈ s.calls, call.time < call.after
  whole : ∀ call ∈ s.calls, ∃ n, 0 < n ∧ call.after = call.before + n * l.limitNs
  single : s.free.Pairwise fun a b => cell l a < cell l b

/-- The deadline and the free calls on the grid that starts with the first deadline. -/
structure OnGrid (l : RateLimiter) (s : RateCalls) : Prop where
  period : s.limiter.limitNs = l.limitNs
  deadline : ∃ n, s.limiter.nextDeadline = l.nextDeadline + n * l.limitNs
  passed : ∀ call ∈ s.free, l.nextDeadline ≤ call.time ∧ call.time < call.after ∧
    call.after ≤ s.limiter.nextDeadline ∧ ∃ n, call.after = l.nextDeadline + n * l.limitNs

variable {range : InstantRange} {l : RateLimiter} {s : RateCalls} {now : Nat}

theorem step_of_reaches (calm : s.panicked = false) (moving : s.limiter.limitNs ≠ 0)
    (reaches : s.limiter.Reaches range now) :
    s.step range now =
      { s with
        limiter :=
          { s.limiter with
            nextDeadline :=
              s.limiter.nextDeadline + s.limiter.periodsTo now * s.limiter.limitNs }
        calls := s.calls ++ [⟨now, s.limiter.nextDeadline - now, s.limiter.nextDeadline,
          s.limiter.nextDeadline + s.limiter.periodsTo now * s.limiter.limitNs⟩] } := by
  unfold step
  rw [calm, if_neg Bool.false_ne_true, RateLimiter.limitSpeedTime_of_reaches moving reaches]

/-- A call that comes early waits; a late one is free. -/
theorem free_of_reaches (calm : s.panicked = false) (moving : s.limiter.limitNs ≠ 0)
    (reaches : s.limiter.Reaches range now) :
    (now < s.limiter.nextDeadline ∧ (s.step range now).free = s.free) ∨
      (s.limiter.nextDeadline ≤ now ∧
        (s.step range now).free = s.free ++ [⟨now, 0, s.limiter.nextDeadline,
          s.limiter.nextDeadline + s.limiter.periodsTo now * s.limiter.limitNs⟩]) := by
  rw [step_of_reaches calm moving reaches]
  unfold free
  dsimp only
  rw [List.filter_append]
  by_cases early : now < s.limiter.nextDeadline
  · have waits : s.limiter.nextDeadline - now ≠ 0 := by omega
    exact .inl ⟨early, by simp [waits]⟩
  · have late := Nat.le_of_not_lt early
    exact .inr ⟨late, by simp [Nat.sub_eq_zero_of_le late]⟩

theorem step_onGrid (moving : l.limitNs ≠ 0) (grid : s.OnGrid l) (paced : s.Paced l)
    (reaches : s.limiter.Reaches range now) : (s.step range now).OnGrid l := by
  have moves : s.limiter.limitNs ≠ 0 := grid.period ▸ moving
  obtain ⟨n, deadline⟩ := grid.deadline
  have later : (s.step range now).limiter.nextDeadline =
      s.limiter.nextDeadline + s.limiter.periodsTo now * s.limiter.limitNs := by
    rw [step_of_reaches paced.calm moves reaches]
  have on_grid : s.limiter.nextDeadline + s.limiter.periodsTo now * s.limiter.limitNs =
      l.nextDeadline + (n + s.limiter.periodsTo now) * l.limitNs := by
    rw [grid.period, deadline, Nat.add_mul, Nat.add_assoc]
  have old : ∀ call ∈ s.free, l.nextDeadline ≤ call.time ∧ call.time < call.after ∧
      call.after ≤ (s.step range now).limiter.nextDeadline ∧
        ∃ n, call.after = l.nextDeadline + n * l.limitNs := by
    intro call member
    obtain ⟨first, ahead, passed, whole⟩ := grid.passed call member
    rw [later]
    exact ⟨first, ahead, Nat.le_add_right_of_le passed, whole⟩
  refine ⟨?_, ⟨_, later.trans on_grid⟩, ?_⟩
  · rw [step_of_reaches paced.calm moves reaches]
    exact grid.period
  · rcases free_of_reaches paced.calm moves reaches with ⟨early, same⟩ | ⟨late, one_more⟩
    · rw [same]
      exact old
    · rw [one_more]
      intro call member
      rcases List.mem_append.mp member with before | new
      · exact old call before
      · rw [List.mem_singleton.mp new]
        refine ⟨?_, RateLimiter.lt_deadline moves, Nat.le_of_eq later.symm, _, on_grid⟩
        exact Nat.le_trans (Nat.le_trans (Nat.le_add_right _ _) (Nat.le_of_eq deadline.symm)) late

/-- A free call lies in an earlier period than every call past the deadline. -/
theorem cell_lt (moving : l.limitNs ≠ 0) (grid : s.OnGrid l) {call later : RateCall}
    (member : call ∈ s.free) (late : s.limiter.nextDeadline ≤ later.time) :
    cell l call < cell l later := by
  obtain ⟨first, ahead, passed, n, whole⟩ := grid.passed call member
  have positive : 0 < l.limitNs := Nat.pos_of_ne_zero moving
  have below : cell l call < n := by
    rw [cell, Nat.div_lt_iff_lt_mul positive]
    omega
  have above : n ≤ cell l later := by
    rw [cell, Nat.le_div_iff_mul_le positive]
    omega
  exact Nat.lt_of_lt_of_le below above

theorem paced_of_reaches (moving : l.limitNs ≠ 0) (grid : s.OnGrid l) (paced : s.Paced l)
    (reaches : s.limiter.Reaches range now) : (s.step range now).Paced l := by
  have moves : s.limiter.limitNs ≠ 0 := grid.period ▸ moving
  have single : (s.step range now).free.Pairwise fun a b => cell l a < cell l b := by
    rcases free_of_reaches paced.calm moves reaches with ⟨early, same⟩ | ⟨late, one_more⟩
    · rw [same]
      exact paced.single
    · rw [one_more]
      refine List.pairwise_append.mpr ⟨paced.single, List.pairwise_singleton _ _, ?_⟩
      intro call member other new
      rw [List.mem_singleton.mp new]
      exact cell_lt moving grid member late
  rw [step_of_reaches paced.calm moves reaches] at single ⊢
  refine ⟨paced.calm, ?_, ?_, single⟩
  · intro call member
    rcases List.mem_append.mp member with old | new
    · exact paced.ahead call old
    · rw [List.mem_singleton.mp new]
      exact RateLimiter.lt_deadline moves
  · intro call member
    rcases List.mem_append.mp member with old | new
    · exact paced.whole call old
    · rw [List.mem_singleton.mp new]
      exact ⟨_, RateLimiter.periodsTo_positive, by rw [grid.period]⟩

theorem step_paced_iff (moving : l.limitNs ≠ 0) (grid : s.OnGrid l) (paced : s.Paced l) :
    (s.step range now).Paced l ↔ s.limiter.Reaches range now := by
  have moves : s.limiter.limitNs ≠ 0 := grid.period ▸ moving
  constructor
  · intro after
    have calm := after.calm
    have ahead := after.ahead
    have whole := after.whole
    unfold step at calm ahead whole
    rw [paced.calm, if_neg Bool.false_ne_true] at calm ahead whole
    apply (RateLimiter.reaches_iff moves).mpr
    cases returned : s.limiter.limitSpeedTime range now with
    | none =>
      rw [returned] at calm
      cases calm
    | some answer =>
      obtain ⟨wait, l'⟩ := answer
      rw [returned] at ahead whole
      have last := List.mem_append_right s.calls (List.mem_singleton_self
        (⟨now, wait, s.limiter.nextDeadline, l'.nextDeadline⟩ : RateCall))
      obtain ⟨n, positive, moved⟩ := whole _ last
      rw [grid.period]
      exact ⟨wait, l', rfl, ahead _ last, n, positive, moved⟩
  · exact paced_of_reaches moving grid paced

theorem start_onGrid : (start l).OnGrid l :=
  ⟨rfl, ⟨0, by simp [start]⟩, by simp [start, free]⟩

theorem start_paced : (start l).Paced l :=
  ⟨rfl, by simp [start], by simp [start], by simp [start, free]⟩

end RateCalls

def rateCalls (range : InstantRange) (l : RateLimiter) (times : List Nat) : RateCalls :=
  Runs.run (RateCalls.step range) (RateCalls.start l) times

/-- However long the caller was idle, no period has two calls without a wait and every deadline
    is ahead by whole periods, exactly if the periods missed before each call fit 32 bits and its
    deadline fits the clock. -/
theorem limiter_never_bursts_iff (range : InstantRange) (l : RateLimiter)
    (moving : l.limitNs ≠ 0) (times : List Nat) :
    (∀ seen, seen <+: times → (rateCalls range l seen).Paced l) ↔
      Runs.AllSteps (RateCalls.step range) (fun s now => s.limiter.Reaches range now)
        (RateCalls.start l) times := by
  apply Runs.good_prefixes_iff_allSteps (RateCalls.OnGrid l) (RateCalls.Paced l)
  · intro s now grid paced
    exact RateCalls.step_paced_iff moving grid paced
  · intro s now grid paced reaches
    exact RateCalls.step_onGrid moving grid paced reaches
  · exact RateCalls.start_onGrid
  · exact RateCalls.start_paced

section Nanoseconds

/-- A clock of some thirty years. -/
def someClock : InstantRange := { last := 10 ^ 18, fits := by decide }

/-- One event per nanosecond, made at time 0. -/
def fastLimiter : RateLimiter := { limitNs := 1, nextDeadline := 1, runCnt := 0, unitCnt := 1 }

/-- Two calls at once after four idle seconds: the second one waits. -/
theorem four_idle_seconds_are_no_burst :
    (rateCalls someClock fastLimiter [4 * 10 ^ 9, 4 * 10 ^ 9]).Paced fastLimiter :=
  (limiter_never_bursts_iff someClock fastLimiter Nat.one_ne_zero [4 * 10 ^ 9, 4 * 10 ^ 9]).mpr
    ⟨⟨by decide, by decide⟩, ⟨by decide, by decide⟩, trivial⟩ _ List.prefix_rfl

/-- After `2 ^ 32` nanoseconds the missed periods are cut to zero: the deadline stays behind and
    no call at that time waits. -/
theorem missed_periods_are_cut :
    RateLimiter.new someClock (10 ^ 9) 1 0 = some fastLimiter ∧
      (rateCalls someClock fastLimiter [2 ^ 32, 2 ^ 32, 2 ^ 32]).calls =
          [⟨2 ^ 32, 0, 1, 1⟩, ⟨2 ^ 32, 0, 1, 1⟩, ⟨2 ^ 32, 0, 1, 1⟩] ∧
        ¬ ∀ seen, seen <+: [2 ^ 32, 2 ^ 32, 2 ^ 32] →
          (rateCalls someClock fastLimiter seen).Paced fastLimiter := by
  refine ⟨by decide, by decide, ?_⟩
  intro paced
  have ahead := (paced [2 ^ 32] ⟨[2 ^ 32, 2 ^ 32], rfl⟩).ahead ⟨2 ^ 32, 0, 1, 1⟩ (by decide)
  exact absurd ahead (by decide)

end Nanoseconds
end WarpMotor
