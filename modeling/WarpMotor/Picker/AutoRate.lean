import WarpMotor.Actor.SourceRate
import WarpMotor.Lib.Runs
import WarpMotor.Picker.Policy

/-!
The automatic control of the source rate. A worker reports every round; once a
sample window has passed, the controller decides from the worst of the window
and from the memory of the process, and sets the rate of the shared limiter.
`Ord::clamp` panics when its bounds are crossed. A rate of 0 is no limit.
-/
namespace WarpMotor

/-- An environment variable that parses as a `usize`. -/
abbrev Usize := { n : Nat // n ≤ usizeMax }

def readEnvUsize (value : Option Usize) (default : Nat) : Nat := (value.map Subtype.val).getD default

/-- The `WP_SOURCE_AUTO_*` variables of the controller. -/
structure AutoRateEnv where
  minRps : Option Usize
  maxRps : Option Usize
  increasePct : Option Usize
  startupIncreasePct : Option Usize
  decreasePct : Option Usize
  minIncreaseStep : Option Usize
  startupMinIncreaseStep : Option Usize
  startupWindowMs : Option Usize
  sampleWindowMs : Option Usize
  rssGrowthMb : Option Usize
  rssMaxMb : Option Usize

inductive AutoRateDecision where
  | keep | increase | decrease
  deriving DecidableEq, Repr

structure AutoRateSample where
  pendingCount : Nat
  pendingBytes : Nat
  round : RoundStat
  deriving DecidableEq, Repr

def defaultMinRps : Nat := 10000
def defaultMaxRps : Nat := 10000000
def defaultIncreasePct : Nat := 25
def defaultStartupIncreasePct : Nat := 100
def defaultDecreasePct : Nat := 85
def defaultMinIncreaseStepPerWorker : Nat := 5000
def defaultStartupMinIncreaseStepPerWorker : Nat := 1000
def defaultStartupWindowMs : Nat := 10000
def defaultSampleWindowMs : Nat := 1000
def defaultLowPendingBytesRatio : Nat := 30
def defaultHighPendingBytesRatio : Nat := 70
def defaultRssGrowthMb : Nat := 32

def mbToBytes (mb : Nat) : Nat := saturatingMul (saturatingMul mb 1024) 1024

structure AutoRateController where
  minRps : Nat
  maxRps : Nat
  increasePct : Nat
  startupIncreasePct : Nat
  decreasePct : Nat
  minIncreaseStep : Nat
  startupMinIncreaseStep : Nat
  startupWindow : Nat
  sampleWindow : Nat
  startupDone : Bool
  lowPendingBytes : Nat
  highPendingBytes : Nat
  rssGrowthBytes : Nat
  rssMaxBytes : Option Nat
  lastRssBytes : Option Nat
  startTick : Nat
  lastTick : Nat
  lastPendingBytes : Nat
  windowPendingCount : Nat
  windowPendingBytes : Nat
  windowDistPending : Bool
  windowSentBatches : Nat
  maxFits : maxRps ≤ usizeMax

/-- What one call of `observe` reads outside: three clock readings in milliseconds, and the
    memory of the process. -/
structure ObserveEnv where
  checkedAt : Nat
  tickedAt : Nat
  scaledAt : Nat
  rss : Option Nat
  deriving DecidableEq, Repr

theorem readEnvUsize_le (value : Option Usize) {default : Nat} (fits : default ≤ usizeMax) :
    readEnvUsize value default ≤ usizeMax := by
  cases value with
  | none => exact fits
  | some n => exact n.2

/-- `Ord::clamp`; `none` is its assertion. -/
def clampTo (x lo hi : Nat) : Option Nat := if lo ≤ hi then some (max lo (min x hi)) else none

namespace AutoRateController

def newForWorkers (env : AutoRateEnv) (workers maxPendingBytes now : Nat) : AutoRateController :=
  let workers := max workers 1
  let maxPendingBytes := max maxPendingBytes 1
  { minRps := readEnvUsize env.minRps defaultMinRps
    maxRps := readEnvUsize env.maxRps defaultMaxRps
    increasePct := readEnvUsize env.increasePct defaultIncreasePct
    startupIncreasePct := readEnvUsize env.startupIncreasePct defaultStartupIncreasePct
    decreasePct := readEnvUsize env.decreasePct defaultDecreasePct
    minIncreaseStep :=
      readEnvUsize env.minIncreaseStep (saturatingMul defaultMinIncreaseStepPerWorker workers)
    startupMinIncreaseStep := readEnvUsize env.startupMinIncreaseStep
      (saturatingMul defaultStartupMinIncreaseStepPerWorker workers)
    startupWindow := readEnvUsize env.startupWindowMs defaultStartupWindowMs
    sampleWindow := readEnvUsize env.sampleWindowMs defaultSampleWindowMs
    startupDone := false
    lowPendingBytes := saturatingMul maxPendingBytes defaultLowPendingBytesRatio / 100
    highPendingBytes := saturatingMul maxPendingBytes defaultHighPendingBytesRatio / 100
    rssGrowthBytes := mbToBytes (readEnvUsize env.rssGrowthMb defaultRssGrowthMb)
    rssMaxBytes := env.rssMaxMb.map fun mb => mbToBytes mb.val
    lastRssBytes := none, startTick := now, lastTick := now, lastPendingBytes := 0
    windowPendingCount := 0, windowPendingBytes := 0, windowDistPending := false
    windowSentBatches := 0
    maxFits := readEnvUsize_le _ (by decide) }

def mergeSample (c : AutoRateController) (sample : AutoRateSample) : AutoRateController :=
  { c with
    windowPendingCount := max c.windowPendingCount sample.pendingCount
    windowPendingBytes := max c.windowPendingBytes sample.pendingBytes
    windowDistPending := c.windowDistPending || sample.round.distStatus == .pending
    windowSentBatches := saturatingAdd c.windowSentBatches sample.round.sendCnt }

def increaseParams (c : AutoRateController) (now : Nat) : Nat × Nat :=
  if !c.startupDone && now - c.startTick < c.startupWindow then
    (c.startupIncreasePct, c.startupMinIncreaseStep)
  else (c.increasePct, c.minIncreaseStep)

def resetWindow (c : AutoRateController) : AutoRateController :=
  { c with
    windowPendingCount := 0, windowPendingBytes := 0, windowDistPending := false
    windowSentBatches := 0 }

def rssOverMaxLimit (c : AutoRateController) (rss : Option Nat) : Bool :=
  match rss, c.rssMaxBytes with
  | some rss, some rssMax => rssMax < rss
  | _, _ => false

def rssGrowingFast (c : AutoRateController) (rss : Option Nat) : Bool :=
  match rss, c.lastRssBytes with
  | some rss, some lastRss => saturatingAdd lastRss c.rssGrowthBytes < rss
  | _, _ => false

def recordRssBytes (c : AutoRateController) (rss : Option Nat) : AutoRateController :=
  match rss with
  | none => c
  | some rss => { c with lastRssBytes := some rss }

end AutoRateController

def AutoRateController.decide (c : AutoRateController) (pendingCount pendingBytes : Nat)
    (distPending : Bool) (sentBatches : Nat) (rssGrowingFast rssOverMax : Bool) :
    AutoRateDecision :=
  let pendingGrowing : Bool := c.lastPendingBytes < pendingBytes
  if distPending || (c.highPendingBytes ≤ pendingBytes : Bool) ||
      (pendingGrowing && (c.lowPendingBytes < pendingBytes : Bool)) || rssGrowingFast || rssOverMax
  then .decrease
  else if pendingBytes ≤ c.lowPendingBytes && pendingCount == 0 && (0 < sentBatches : Bool) then
    .increase
  else .keep

namespace AutoRateController

/-- The decision on the window so far. -/
def decision (c : AutoRateController) (rss : Option Nat) : AutoRateDecision :=
  c.decide c.windowPendingCount c.windowPendingBytes c.windowDistPending c.windowSentBatches
    (c.rssGrowingFast rss) (c.rssOverMaxLimit rss)

def increased (c : AutoRateController) (now current : Nat) : Option Nat :=
  let (increasePct, minIncreaseStep) := c.increaseParams now
  let step := max (saturatingMul current increasePct / 100) minIncreaseStep
  clampTo (saturatingAdd current step) c.minRps c.maxRps

def decreased (c : AutoRateController) (current : Nat) : Option Nat :=
  clampTo (saturatingMul current c.decreasePct / 100) c.minRps c.maxRps

def next (c : AutoRateController) (env : ObserveEnv) (current : Nat) : Option Nat :=
  match c.decision env.rss with
  | .keep => some current
  | .increase => c.increased env.scaledAt current
  | .decrease => c.decreased current

/-- The controller after a decision on its window. -/
def decided (c : AutoRateController) (env : ObserveEnv) : AutoRateController :=
  { c.resetWindow with
    startupDone := c.startupDone || (c.decision env.rss == AutoRateDecision.decrease)
    lastPendingBytes := c.windowPendingBytes }.recordRssBytes env.rss

def windowOver (c : AutoRateController) (env : ObserveEnv) : Bool :=
  !(env.checkedAt - c.lastTick < c.sampleWindow : Bool)

/-- `none` is a panic in `clamp`. -/
def observe (rateEnv : RateEnv) (c : AutoRateController) (limiter : SourceRateLimiter)
    (sample : AutoRateSample) (env : ObserveEnv) :
    Option (AutoRateDecision × AutoRateController × SourceRateLimiter) :=
  if limiter.mode ≠ .auto then some (.keep, c, limiter)
  else
    let c := c.mergeSample sample
    if !c.windowOver env then some (.keep, c, limiter)
    else
      let c := { c with lastTick := env.tickedAt }
      (clampTo limiter.ratePerSec c.minRps c.maxRps).bind fun current =>
        (c.next env current).map fun next =>
          (c.decision env.rss, c.decided env,
            if next ≠ limiter.ratePerSec then limiter.setRatePerSec rateEnv next else limiter)

end AutoRateController
/-- A rate lets events pass no faster than another one; 0 is no limit. -/
def AdmitsAtMost (rate bound : Nat) : Prop := bound = 0 ∨ (rate ≠ 0 ∧ rate ≤ bound)

instance (rate bound : Nat) : Decidable (AdmitsAtMost rate bound) :=
  inferInstanceAs (Decidable (_ ∨ _))

/-- Under the slower rate no reservation of the limiter is shorter. -/
theorem durationFor_of_admitsAtMost (l : SourceRateLimiter) {rate bound : Nat}
    (slower : AdmitsAtMost rate bound) (events : Nat) :
    (SourceRateLimiter.durationFor { l with ratePerSec := bound } events).getD 0 ≤
      (SourceRateLimiter.durationFor { l with ratePerSec := rate } events).getD 0 := by
  unfold SourceRateLimiter.durationFor
  rcases slower with unlimited | ⟨limited, le⟩
  · rw [if_pos unlimited]
    exact Nat.zero_le _
  · have bounded : bound ≠ 0 := by omega
    have quotient : min (10 ^ 9 * events) u128Max / bound ≤ min (10 ^ 9 * events) u128Max / rate :=
      Nat.div_le_div_left le (Nat.pos_of_ne_zero limited)
    simp only [if_neg bounded, if_neg limited, Option.getD_some]
    omega

theorem clampTo_of_le {x lo hi : Nat} (valid : lo ≤ hi) :
    clampTo x lo hi = some (max lo (min x hi)) :=
  if_pos valid

namespace AutoRateController

/-- The rate before a decrease for which the decrease does not let events pass faster. -/
def DecreaseFits (c : AutoRateController) (rate : Nat) : Prop :=
  rate = 0 ∨
    (c.minRps ≤ rate ∧ (c.maxRps ≤ rate ∨ saturatingMul rate c.decreasePct / 100 ≤ rate) ∧
      (0 < c.minRps ∨ 0 < saturatingMul (min rate c.maxRps) c.decreasePct / 100))

/-- The rate before an increase for which the increase does not let events pass slower. -/
def IncreaseFits (c : AutoRateController) (now rate : Nat) : Prop :=
  (0 < rate ∧ rate ≤ c.maxRps) ∨ c.maxRps = 0 ∨
    (rate = 0 ∧ c.minRps = 0 ∧ (c.increaseParams now).2 = 0)

theorem decrease_fits_iff (c : AutoRateController) (rate : Nat) (valid : c.minRps ≤ c.maxRps) :
    ∃ next, c.decreased (max c.minRps (min rate c.maxRps)) = some next ∧
      c.minRps ≤ next ∧ next ≤ c.maxRps ∧ (AdmitsAtMost next rate ↔ c.DecreaseFits rate) := by
  refine ⟨_, clampTo_of_le valid, Nat.le_max_left _ _, by omega, ?_⟩
  unfold AdmitsAtMost DecreaseFits
  by_cases low : rate < c.minRps
  · omega
  · have capped : max c.minRps (min rate c.maxRps) = min rate c.maxRps := by omega
    rw [capped]
    by_cases high : c.maxRps ≤ rate
    · have top : min rate c.maxRps = c.maxRps := by omega
      rw [top]
      by_cases closed : c.maxRps = 0
      · have nothing : saturatingMul c.maxRps c.decreasePct = 0 := by simp [saturatingMul, closed]
        rw [nothing]
        omega
      · omega
    · have inside : min rate c.maxRps = rate := by omega
      rw [inside]
      omega

theorem increase_fits_iff (c : AutoRateController) (now rate : Nat) (valid : c.minRps ≤ c.maxRps) :
    ∃ next, c.increased now (max c.minRps (min rate c.maxRps)) = some next ∧
      c.minRps ≤ next ∧ next ≤ c.maxRps ∧ (AdmitsAtMost rate next ↔ c.IncreaseFits now rate) := by
  have fits := c.maxFits
  rcases params : c.increaseParams now with ⟨percent, least⟩
  have step_zero : max c.minRps (min rate c.maxRps) = 0 →
      saturatingMul (max c.minRps (min rate c.maxRps)) percent / 100 = 0 := by
    intro nothing
    rw [nothing]
    simp [saturatingMul]
  unfold increased
  rw [params]
  dsimp only
  refine ⟨_, clampTo_of_le valid, Nat.le_max_left _ _, by omega, ?_⟩
  unfold AdmitsAtMost IncreaseFits saturatingAdd
  rw [params]
  dsimp only
  revert step_zero
  generalize saturatingMul (max c.minRps (min rate c.maxRps)) percent / 100 = scaled
  intro step_zero
  omega

/-- What the decision on a window needs for the rate not to move against it. -/
structure Fits (c : AutoRateController) (env : ObserveEnv) (rate : Nat) : Prop where
  valid : c.minRps ≤ c.maxRps
  decrease : c.decision env.rss = .decrease → c.DecreaseFits rate
  increase : c.decision env.rss = .increase → c.IncreaseFits env.scaledAt rate

/-- A rate that has not moved against a decision. -/
structure Follows (decision : AutoRateDecision) (before after : Nat) : Prop where
  decrease : decision = .decrease → AdmitsAtMost after before
  increase : decision = .increase → AdmitsAtMost before after

theorem next_follows_iff (c : AutoRateController) (env : ObserveEnv) (rate : Nat)
    (valid : c.minRps ≤ c.maxRps) :
    ∃ next, c.next env (max c.minRps (min rate c.maxRps)) = some next ∧
      c.minRps ≤ next ∧ next ≤ c.maxRps ∧
        (Follows (c.decision env.rss) rate next ↔ c.Fits env rate) := by
  unfold AutoRateController.next
  cases decided : c.decision env.rss with
  | keep =>
    refine ⟨_, rfl, Nat.le_max_left _ _, by omega, ?_⟩
    constructor
    · intro _
      exact ⟨valid, by simp [decided], by simp [decided]⟩
    · intro _
      exact ⟨nofun, nofun⟩
  | increase =>
    obtain ⟨next, step, low, high, fits⟩ := c.increase_fits_iff env.scaledAt rate valid
    refine ⟨next, step, low, high, ?_⟩
    constructor
    · intro follows
      exact ⟨valid, by simp [decided], fun _ => fits.mp (follows.increase rfl)⟩
    · intro meets
      exact ⟨nofun, fun _ => fits.mpr (meets.increase decided)⟩
  | decrease =>
    obtain ⟨next, step, low, high, fits⟩ := c.decrease_fits_iff rate valid
    refine ⟨next, step, low, high, ?_⟩
    constructor
    · intro follows
      exact ⟨valid, fun _ => fits.mp (follows.decrease rfl), by simp [decided]⟩
    · intro meets
      exact ⟨fun _ => fits.mpr (meets.decrease decided), nofun⟩

/-- The controller that decides on a sample: the sample merged, the window begun anew. -/
def windowed (c : AutoRateController) (sample : AutoRateSample) (env : ObserveEnv) :
    AutoRateController :=
  { c.mergeSample sample with lastTick := env.tickedAt }

/-- The settings that `observe` never changes. -/
def SameSetting (c c' : AutoRateController) : Prop :=
  c'.minRps = c.minRps ∧ c'.maxRps = c.maxRps ∧ c'.decreasePct = c.decreasePct

theorem decided_setting (c : AutoRateController) (env : ObserveEnv) :
    c.SameSetting (c.decided env) := by
  unfold decided recordRssBytes
  split <;> exact ⟨rfl, rfl, rfl⟩

section Observe
variable (rateEnv : RateEnv) (c : AutoRateController) (limiter : SourceRateLimiter)
  (sample : AutoRateSample) (env : ObserveEnv)

theorem windowOver_mergeSample : (c.mergeSample sample).windowOver env = c.windowOver env := rfl

theorem observe_fixed (fixed : limiter.mode ≠ .auto) :
    c.observe rateEnv limiter sample env = some (.keep, c, limiter) :=
  if_pos fixed

theorem observe_inside (auto : limiter.mode = .auto) (inside : c.windowOver env ≠ true) :
    c.observe rateEnv limiter sample env = some (.keep, c.mergeSample sample, limiter) := by
  have still : (!(c.mergeSample sample).windowOver env) = true := by
    rw [windowOver_mergeSample, Bool.eq_false_iff.mpr inside]
    rfl
  unfold observe
  rw [if_neg (not_not.mpr auto), if_pos still]

/-- A decision on a window: the limiter has the next rate and no other change. -/
theorem observe_over (auto : limiter.mode = .auto) (expired : c.windowOver env = true) :
    c.observe rateEnv limiter sample env =
      (clampTo limiter.ratePerSec c.minRps c.maxRps).bind fun current =>
        ((c.windowed sample env).next env current).map fun next =>
          ((c.windowed sample env).decision env.rss, (c.windowed sample env).decided env,
            if next ≠ limiter.ratePerSec then limiter.setRatePerSec rateEnv next
            else limiter) := by
  have ended : ¬ (!(c.mergeSample sample).windowOver env) = true := by
    rw [windowOver_mergeSample, expired]
    exact Bool.false_ne_true
  unfold observe
  rw [if_neg (not_not.mpr auto)]
  dsimp only
  rw [if_neg ended]
  rfl

end Observe
end AutoRateController

/-- A decision with the rate of the limiter before and after it. -/
structure RateChange where
  decision : AutoRateDecision
  before : Nat
  after : Nat
  deriving DecidableEq, Repr

/-- The controller and its limiter, with histories: whether a window has been decided on, whether
    `observe` has panicked (no worker gets the lock then), and the decisions. -/
structure AutoRun where
  ctrl : AutoRateController
  limiter : SourceRateLimiter
  adjusted : Bool
  panicked : Bool
  changes : List RateChange

namespace AutoRun

def start (ctrl : AutoRateController) (limiter : SourceRateLimiter) : AutoRun :=
  { ctrl, limiter, adjusted := false, panicked := false, changes := [] }

def step (rateEnv : RateEnv) (s : AutoRun) (sample : AutoRateSample × ObserveEnv) : AutoRun :=
  if s.panicked then s
  else
    match s.ctrl.observe rateEnv s.limiter sample.1 sample.2 with
    | none => { s with panicked := true }
    | some (decision, ctrl, limiter) =>
      { ctrl, limiter
        adjusted := s.adjusted || (s.limiter.mode == .auto && s.ctrl.windowOver sample.2)
        panicked := false
        changes := s.changes ++ [(⟨decision, s.limiter.ratePerSec, limiter.ratePerSec⟩ : RateChange)] }

structure Safe (s : AutoRun) : Prop where
  calm : s.panicked = false
  bounded : s.adjusted = true →
    s.ctrl.minRps ≤ s.limiter.ratePerSec ∧ s.limiter.ratePerSec ≤ s.ctrl.maxRps
  follows : ∀ change ∈ s.changes,
    AutoRateController.Follows change.decision change.before change.after

/-- The condition on one sample: where it ends a window, the decision fits the rate. -/
def Allows (s : AutoRun) (sample : AutoRateSample × ObserveEnv) : Prop :=
  s.limiter.mode = .auto → s.ctrl.windowOver sample.2 = true →
    (s.ctrl.windowed sample.1 sample.2).Fits sample.2 s.limiter.ratePerSec

variable {rateEnv : RateEnv} {s : AutoRun}

theorem setRate_ratePerSec (limiter : SourceRateLimiter) (next : Nat) :
    (if next ≠ limiter.ratePerSec then limiter.setRatePerSec rateEnv next
      else limiter).ratePerSec = next := by
  split
  · rfl
  · rename_i same
    exact (not_not.mp same).symm

/-- What one sample can do to a run without a panic: it is kept, it panics, or it ends a window
    with a decision and the next rate. -/
inductive StepEffect (s : AutoRun) (sample : AutoRateSample × ObserveEnv) : AutoRun → Prop
  | keeps {ctrl : AutoRateController} (same : s.ctrl.SameSetting ctrl)
      (waits : ¬ (s.limiter.mode = .auto ∧ s.ctrl.windowOver sample.2 = true)) :
      StepEffect s sample ⟨ctrl, s.limiter, s.adjusted, false,
        s.changes ++ [⟨.keep, s.limiter.ratePerSec, s.limiter.ratePerSec⟩]⟩
  | panics (auto : s.limiter.mode = .auto) (expired : s.ctrl.windowOver sample.2 = true)
      (crossed : ¬ s.ctrl.minRps ≤ s.ctrl.maxRps) :
      StepEffect s sample { s with panicked := true }
  | decides {ctrl : AutoRateController} {limiter : SourceRateLimiter} {next : Nat}
      (auto : s.limiter.mode = .auto) (expired : s.ctrl.windowOver sample.2 = true)
      (same : s.ctrl.SameSetting ctrl) (rate : limiter.ratePerSec = next)
      (low : s.ctrl.minRps ≤ next) (high : next ≤ s.ctrl.maxRps)
      (follows : AutoRateController.Follows
          ((s.ctrl.windowed sample.1 sample.2).decision sample.2.rss) s.limiter.ratePerSec next ↔
        (s.ctrl.windowed sample.1 sample.2).Fits sample.2 s.limiter.ratePerSec) :
      StepEffect s sample ⟨ctrl, limiter, true, false,
        s.changes ++ [⟨(s.ctrl.windowed sample.1 sample.2).decision sample.2.rss,
          s.limiter.ratePerSec, next⟩]⟩

variable (rateEnv) in
theorem step_effect (running : s.panicked = false) (sample : AutoRateSample × ObserveEnv) :
    StepEffect s sample (s.step rateEnv sample) := by
  obtain ⟨report, env⟩ := sample
  unfold step
  rw [running, if_neg Bool.false_ne_true]
  dsimp only
  by_cases auto : s.limiter.mode = .auto
  · by_cases expired : s.ctrl.windowOver env = true
    · rw [AutoRateController.observe_over rateEnv s.ctrl s.limiter report env auto expired]
      by_cases valid : s.ctrl.minRps ≤ s.ctrl.maxRps
      · obtain ⟨next, chosen, low, high, follows⟩ :=
          (s.ctrl.windowed report env).next_follows_iff env s.limiter.ratePerSec valid
        have current : (s.ctrl.windowed report env).next env
            (max s.ctrl.minRps (min s.limiter.ratePerSec s.ctrl.maxRps)) = some next := chosen
        rw [clampTo_of_le valid, Option.bind_some, current, Option.map_some]
        dsimp only
        rw [setRate_ratePerSec, auto, expired, beq_self_eq_true, Bool.and_true, Bool.or_true]
        exact .decides auto expired (AutoRateController.decided_setting _ _)
          (setRate_ratePerSec ..) low high follows
      · rw [show clampTo s.limiter.ratePerSec s.ctrl.minRps s.ctrl.maxRps = none from if_neg valid]
        exact .panics auto expired valid
    · rw [AutoRateController.observe_inside rateEnv s.ctrl s.limiter report env auto expired,
        Bool.eq_false_iff.mpr expired, Bool.and_false, Bool.or_false]
      exact .keeps ⟨rfl, rfl, rfl⟩ fun both => expired both.2
  · rw [AutoRateController.observe_fixed rateEnv s.ctrl s.limiter report env auto,
      beq_false_of_ne auto, Bool.false_and, Bool.or_false]
    exact .keeps ⟨rfl, rfl, rfl⟩ fun both => auto both.1

theorem step_safe_iff (safe : s.Safe) (sample : AutoRateSample × ObserveEnv) :
    (s.step rateEnv sample).Safe ↔ s.Allows sample := by
  have effect := step_effect rateEnv safe.calm sample
  generalize s.step rateEnv sample = s' at effect ⊢
  cases effect with
  | keeps same waits =>
    have allowed : s.Allows sample := fun auto expired => absurd ⟨auto, expired⟩ waits
    refine iff_of_true ⟨rfl, ?_, ?_⟩ allowed
    · intro adjusted
      dsimp only
      rw [same.1, same.2.1]
      exact safe.bounded adjusted
    · intro change member
      rcases List.mem_append.mp member with old | new
      · exact safe.follows change old
      · rw [List.mem_singleton.mp new]
        exact ⟨nofun, nofun⟩
  | panics auto expired crossed =>
    refine iff_of_false ?_ ?_
    · intro broken
      cases broken.calm
    · intro allows
      exact crossed (allows auto expired).valid
  | decides auto expired same rate low high follows =>
    constructor
    · intro after _ _
      exact follows.mp (after.follows _ (List.mem_append_right _ (List.mem_singleton_self _)))
    · intro allows
      refine ⟨rfl, ?_, ?_⟩
      · intro _
        dsimp only
        rw [same.1, same.2.1, rate]
        exact ⟨low, high⟩
      · intro change member
        rcases List.mem_append.mp member with old | new
        · exact safe.follows change old
        · rw [List.mem_singleton.mp new]
          exact follows.mpr (allows auto expired)

/-- The claim about a run holds in every state of it exactly if every sample is allowed. -/
theorem safe_iff_allSteps (safe : s.Safe) (samples : List (AutoRateSample × ObserveEnv)) :
    (∀ seen, seen <+: samples → (Runs.run (step rateEnv) s seen).Safe) ↔
      Runs.AllSteps (step rateEnv) Allows s samples :=
  Runs.prefixes_iff_allSteps Safe (fun _ sample safe => step_safe_iff safe sample) samples s safe

theorem start_safe (ctrl : AutoRateController) (limiter : SourceRateLimiter) :
    (start ctrl limiter).Safe :=
  ⟨rfl, nofun, nofun⟩

/-- Bounds that are no limit to nothing, a rate between them, and a decrease that is one. -/
structure Sound (s : AutoRun) : Prop where
  positive : 0 < s.ctrl.minRps
  low : s.ctrl.minRps ≤ s.limiter.ratePerSec
  high : s.limiter.ratePerSec ≤ s.ctrl.maxRps
  shrinks : s.ctrl.decreasePct ≤ 100
  calm : s.panicked = false

theorem Sound.allows (sound : s.Sound) (sample : AutoRateSample × ObserveEnv) :
    s.Allows sample := by
  intro _ _
  refine ⟨Nat.le_trans sound.low sound.high, ?_, ?_⟩
  · intro _
    refine .inr ⟨sound.low, .inr ?_, .inl sound.positive⟩
    have product : saturatingMul s.limiter.ratePerSec s.ctrl.decreasePct ≤
        s.limiter.ratePerSec * 100 :=
      Nat.le_trans (Nat.min_le_left _ _) (Nat.mul_le_mul_left _ sound.shrinks)
    show saturatingMul s.limiter.ratePerSec s.ctrl.decreasePct / 100 ≤ s.limiter.ratePerSec
    omega
  · intro _
    exact .inl ⟨Nat.lt_of_lt_of_le sound.positive sound.low, sound.high⟩

theorem Sound.step (sound : s.Sound) (sample : AutoRateSample × ObserveEnv) :
    (s.step rateEnv sample).Sound := by
  have effect := step_effect rateEnv sound.calm sample
  generalize s.step rateEnv sample = s' at effect ⊢
  cases effect with
  | keeps same waits =>
    obtain ⟨minRps, maxRps, decreasePct⟩ := same
    exact ⟨minRps ▸ sound.positive, minRps ▸ sound.low, maxRps ▸ sound.high,
      decreasePct ▸ sound.shrinks, rfl⟩
  | panics auto expired crossed => exact absurd (Nat.le_trans sound.low sound.high) crossed
  | decides auto expired same rate low high follows =>
    obtain ⟨minRps, maxRps, decreasePct⟩ := same
    subst rate
    exact ⟨minRps ▸ sound.positive, minRps ▸ low, maxRps ▸ high, decreasePct ▸ sound.shrinks, rfl⟩

/-- Settings that are sound once allow every sample. -/
theorem sound_allows_every_sample (sound : s.Sound)
    (samples : List (AutoRateSample × ObserveEnv)) :
    Runs.AllSteps (AutoRun.step rateEnv) Allows s samples :=
  Runs.allSteps_of_invariant Sound (fun _ sample sound => sound.allows sample)
    (fun _ sample sound => sound.step sample) samples s sound

end AutoRun

/-- An automatic limiter and its controller as they start. -/
def autoStart (rateEnv : RateEnv) (setting : AutoRateEnv)
    (workers maxPendingBytes now initialRate : Nat) : AutoRun :=
  AutoRun.start (AutoRateController.newForWorkers setting workers maxPendingBytes now)
    (SourceRateLimiter.withMode rateEnv .auto initialRate now)

def autoRun (rateEnv : RateEnv) (setting : AutoRateEnv)
    (workers maxPendingBytes now initialRate : Nat)
    (samples : List (AutoRateSample × ObserveEnv)) : AutoRun :=
  Runs.run (AutoRun.step rateEnv)
    (autoStart rateEnv setting workers maxPendingBytes now initialRate) samples

/-- For every setting and initial rate: all along a run nothing panics, the rate stays in the
    bounds once it has been adjusted and no rate moves against its decision, exactly if at every
    decision the bounds are in order and the rate before it fits the decision. -/
theorem auto_rate_follows_decisions_iff (rateEnv : RateEnv) (setting : AutoRateEnv)
    (workers maxPendingBytes now initialRate : Nat)
    (samples : List (AutoRateSample × ObserveEnv)) :
    (∀ seen, seen <+: samples →
        (autoRun rateEnv setting workers maxPendingBytes now initialRate seen).Safe) ↔
      Runs.AllSteps (AutoRun.step rateEnv) AutoRun.Allows
        (autoStart rateEnv setting workers maxPendingBytes now initialRate) samples :=
  AutoRun.safe_iff_allSteps (AutoRun.start_safe _ _) samples

section Settings

/-- None of the variables is set. -/
def defaultSetting : AutoRateEnv :=
  { minRps := none, maxRps := none, increasePct := none, startupIncreasePct := none
    decreasePct := none, minIncreaseStep := none, startupMinIncreaseStep := none
    startupWindowMs := none, sampleWindowMs := none, rssGrowthMb := none, rssMaxMb := none }

/-- A round after the first sample window that found the parser channels full. -/
def fullChannels : AutoRateSample × ObserveEnv :=
  (⟨1, 1, RoundStat.new.toDistPending⟩,
    { checkedAt := 2000, tickedAt := 2000, scaledAt := 2000, rss := none })

/-- From the default initial rate every run under the default setting is safe. -/
theorem default_setting_allows_every_sample (workers maxPendingBytes now : Nat)
    (samples : List (AutoRateSample × ObserveEnv)) :
    Runs.AllSteps (AutoRun.step plainRateEnv) AutoRun.Allows
      (autoStart plainRateEnv defaultSetting workers maxPendingBytes now
        (SourceRateLimiter.autoInitialRatePerSec plainRateEnv)) samples :=
  AutoRun.sound_allows_every_sample
    ⟨(by decide : 0 < defaultMinRps), (by decide : defaultMinRps ≤ 100000),
      (by decide : 100000 ≤ defaultMaxRps), (by decide : defaultDecreasePct ≤ 100), rfl⟩ samples

/-- A decrease raises an initial rate below the default minimum, one of 150 percent raises any
    rate, one to 0 lifts the limit, and crossed bounds make the first decision panic. -/
theorem decrease_lets_events_pass_faster :
    (autoRun plainRateEnv defaultSetting 1 4096 0 1000 [fullChannels]).changes =
        [⟨.decrease, 1000, 10000⟩] ∧
      (autoRun plainRateEnv { defaultSetting with decreasePct := some ⟨150, by decide⟩ } 1 4096 0
          100000 [fullChannels]).changes = [⟨.decrease, 100000, 150000⟩] ∧
        (autoRun plainRateEnv
            { defaultSetting with
              minRps := some ⟨0, by decide⟩, decreasePct := some ⟨0, by decide⟩ } 1 4096 0
            100000 [fullChannels]).changes = [⟨.decrease, 100000, 0⟩] ∧
          (autoRun plainRateEnv { defaultSetting with maxRps := some ⟨5000, by decide⟩ } 1 4096 0
              100000 [fullChannels]).panicked = true ∧
            ¬ ∀ seen, seen <+: [fullChannels] →
              (autoRun plainRateEnv defaultSetting 1 4096 0 1000 seen).Safe := by
  refine ⟨by decide, by decide, by decide, by decide, ?_⟩
  intro safe
  have follows := (safe [fullChannels] (List.prefix_refl _)).follows ⟨.decrease, 1000, 10000⟩
    (by decide)
  exact absurd (follows.decrease rfl) (by decide)

end Settings
end WarpMotor
