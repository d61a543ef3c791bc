import WarpMotor.Event

/-!
The pauses of a network writer whose kernel queue fills up. How full the queue
is counts in percent, cut to eight bits: 256 percent reads as none. A buffer of
2^56 bytes has no such percentage, every smaller one has.
-/
namespace WarpMotor.SendQueue

/-- `as u8`. -/
def toU8 (n : Nat) : Nat := n % 256

/-- The float nearest to a whole number of 64 bits; of two, the one whose last bit is even. -/
def nearestFloat (n : Nat) : Nat :=
  if n < 2 ^ 53 then n
  else
    let unit := 2 ^ (n.log2 - 52)
    let low := n / unit * unit
    if 2 * (n - low) < unit then low
    else if 2 * (n - low) = unit && n / unit % 2 = 0 then low
    else low + unit

def netSendqBackoffHighPct : Nat := 60
def netSendqBackoffSleepMs : Nat := 2
def netBackoffSmallBypassBytes : Nat := 1024
def netEmergencySleepMs : Nat := 2

/-- By the average length. -/
def emergencyPctFor (avgLen : Nat) : Nat :=
  if avgLen ≤ 400 then 30 else if avgLen ≤ 1024 then 50 else if avgLen ≤ 2048 then 60 else 80

structure AdaptiveCfg where
  targetPct : Nat
  hysteresisPct : Nat
  minMs : Nat
  maxMs : Nat
  stepMs : Nat
  curMs : Nat
  deriving DecidableEq, Repr

structure BackpressureCfg where
  highWaterPct : Nat
  sleepMs : Nat
  adaptive : Option AdaptiveCfg
  deriving DecidableEq, Repr

namespace BackpressureCfg

def standard : BackpressureCfg := ⟨netSendqBackoffHighPct, netSendqBackoffSleepMs, none⟩

def adaptiveDefault : BackpressureCfg := ⟨netSendqBackoffHighPct, 0, some ⟨30, 5, 0, 8, 1, 0⟩⟩

/-- The pause at a percentage, with the configuration that it leaves. -/
def autoSleepMs (cfg : BackpressureCfg) (pct : Nat) : BackpressureCfg × Nat :=
  match cfg.adaptive with
  | some ad =>
    let hi := min (ad.targetPct + ad.hysteresisPct) 255
    let lo := ad.targetPct - ad.hysteresisPct
    let curMs :=
      if hi < pct then min (ad.curMs + ad.stepMs) ad.maxMs
      else if pct < lo then max (ad.curMs - ad.stepMs) ad.minMs
      else ad.curMs
    ({ cfg with sleepMs := curMs, adaptive := some { ad with curMs } }, curMs)
  | none =>
    (cfg, if cfg.highWaterPct ≤ pct && 0 < cfg.sleepMs then cfg.sleepMs else 0)

end BackpressureCfg

/-- A length times its safety factor, as a float cut to a whole number. -/
def scaledWrite (avgWrite : Nat) : Nat :=
  if 4 * 1024 ≤ avgWrite then min (nearestFloat avgWrite) usizeMax
  else if 1024 ≤ avgWrite then avgWrite * 3 / 2
  else avgWrite * 2

/-- The room to leave in the buffer. -/
def safetyMargin (avgWrite sndbuf : Nat) : Nat :=
  let minMargin := if 2 * 1024 ≤ avgWrite then 4 * 1024 else 8 * 1024
  let maxMargin := sndbuf / 4
  max minMargin (min (scaledWrite avgWrite) (max maxMargin minMargin))

/-- The highest dynamic high water. -/
def highCap (avgWrite : Nat) : Nat := if netBackoffSmallBypassBytes < avgWrite then 98 else 95

def computeDynamicHighPct (avgWrite sndbuf : Nat) : Nat :=
  if sndbuf = 0 then netSendqBackoffHighPct
  else
    let usedPct := toU8 (saturatingMul (safetyMargin avgWrite sndbuf) 100 / sndbuf)
    max 60 (min (100 - usedPct) (highCap avgWrite))

def emergencySleepIfNeeded (pct avg sndbufCap : Nat) : Nat :=
  let emergPct :=
    if netBackoffSmallBypassBytes < avg && 0 < sndbufCap then
      max (emergencyPctFor avg) (computeDynamicHighPct avg sndbufCap - 5)
    else emergencyPctFor avg
  if emergPct ≤ pct then netEmergencySleepMs else 0

/-- The pause of a fast path, when one is taken. -/
def handleFastPaths (avg sndbufCap pct : Nat) : Option Nat :=
  let smallThreshold := max (sndbufCap / 16) 1
  if avg ≤ smallThreshold && avg ≤ netBackoffSmallBypassBytes then
    some (emergencySleepIfNeeded pct avg sndbufCap)
  else if sndbufCap / 8 ≤ avg then some 0
  else none

/-- The base scaled by the length over a 32nd of the buffer. The float product, cut to 0.5 to 3 times
    the base and rounded, is a parameter. -/
def scaleSleepMs (scaled : Nat → Nat → Nat → Nat) (baseMs avgWrite sndbuf : Nat) : Nat :=
  if baseMs = 0 || sndbuf / 32 = 0 then baseMs else scaled baseMs avgWrite (sndbuf / 32)

def backoffAdaptiveSleep (scaled : Nat → Nat → Nat → Nat) (cfg : BackpressureCfg)
    (pct avg cap : Nat) : BackpressureCfg × Nat :=
  let dynHigh := computeDynamicHighPct avg cap
  let adaptive := cfg.adaptive.map fun ad =>
    { ad with targetPct := max (dynHigh - ad.hysteresisPct) ad.hysteresisPct }
  let base := BackpressureCfg.autoSleepMs { cfg with highWaterPct := dynHigh, adaptive } pct
  (base.1, scaleSleepMs scaled base.2 avg cap)

/-- How full the queue reads. -/
def readPct (p sndbufCap : Nat) : Nat := toU8 (saturatingMul p 100 / sndbufCap)

/-- One decision, with the milliseconds that it sleeps. The queue is peeked at first; `adaptiveOn` is
    the global switch. -/
def doBackoff (scaled : Nat → Nat → Nat → Nat) (adaptiveOn : Bool) (avg : Nat)
    (cfg : BackpressureCfg) (pending sndbuf : Option Nat) : BackpressureCfg × Nat :=
  match pending, sndbuf with
  | some p, some cap =>
    if 0 < cap then
      match handleFastPaths avg cap (readPct p cap) with
      | some ms => (cfg, ms)
      | none =>
        if adaptiveOn then backoffAdaptiveSleep scaled cfg (readPct p cap) avg cap
        else cfg.autoSleepMs (readPct p cap)
    else (cfg, 0)
  | _, _ => (cfg, 0)

/-- The configurations that a writer comes to have. -/
inductive Held (scaled : Nat → Nat → Nat → Nat) : BackpressureCfg → Prop
  | standard : Held scaled .standard
  | adaptiveDefault : Held scaled .adaptiveDefault
  | backoff {cfg : BackpressureCfg} (held : Held scaled cfg) (adaptiveOn : Bool) (avg : Nat)
      (pending sndbuf : Option Nat) :
      Held scaled (doBackoff scaled adaptiveOn avg cfg pending sndbuf).1

section Pauses

/-- The percentages of a configuration are at most 100, and its pause is between its bounds. -/
structure Sound (cfg : BackpressureCfg) : Prop where
  highWater : cfg.highWaterPct ≤ 100
  band : ∀ ad ∈ cfg.adaptive, ad.hysteresisPct ≤ 49 ∧ ad.targetPct + ad.hysteresisPct < 100
  pause : ∀ ad ∈ cfg.adaptive, ad.minMs ≤ ad.curMs ∧ ad.curMs ≤ ad.maxMs

theorem computeDynamicHighPct_range (avgWrite sndbuf : Nat) :
    60 ≤ computeDynamicHighPct avgWrite sndbuf ∧ computeDynamicHighPct avgWrite sndbuf ≤ 98 := by
  unfold computeDynamicHighPct
  split
  · decide
  · have top : highCap avgWrite ≤ 98 := by
      unfold highCap
      split <;> decide
    dsimp only
    omega

theorem autoSleepMs_sound {cfg : BackpressureCfg} (sound : Sound cfg) (pct : Nat) :
    Sound (cfg.autoSleepMs pct).1 := by
  unfold BackpressureCfg.autoSleepMs
  split
  · next ad adaptive =>
    have band := sound.band ad adaptive
    have pause := sound.pause ad adaptive
    refine ⟨sound.highWater, ?_, ?_⟩
    · intro ad' same
      cases same
      exact band
    · intro ad' same
      cases same
      dsimp only
      split
      · omega
      · split <;> omega
  · exact sound

theorem doBackoff_sound (scaled : Nat → Nat → Nat → Nat) (adaptiveOn : Bool) (avg : Nat)
    {cfg : BackpressureCfg} (sound : Sound cfg) (pending sndbuf : Option Nat) :
    Sound (doBackoff scaled adaptiveOn avg cfg pending sndbuf).1 := by
  unfold doBackoff
  split
  · next p cap =>
    split
    · split
      · exact sound
      · split
        · apply autoSleepMs_sound
          have range := computeDynamicHighPct_range avg cap
          refine ⟨Nat.le_trans range.2 (by decide), ?_, ?_⟩
          · intro ad found
            obtain ⟨old, adaptive, rfl⟩ := Option.map_eq_some_iff.mp found
            have band := sound.band old adaptive
            dsimp only
            omega
          · intro ad found
            obtain ⟨old, adaptive, rfl⟩ := Option.map_eq_some_iff.mp found
            exact sound.pause old adaptive
        · exact autoSleepMs_sound sound _
    · exact sound
  · exact sound

theorem Held.sound {scaled : Nat → Nat → Nat → Nat} {cfg : BackpressureCfg}
    (held : Held scaled cfg) : Sound cfg := by
  induction held with
  | standard =>
    refine ⟨by decide, ?_, ?_⟩
    · intro ad none
      cases none
    · intro ad none
      cases none
  | adaptiveDefault =>
    refine ⟨by decide, ?_, ?_⟩
    · intro ad same
      cases same
      decide
    · intro ad same
      cases same
      decide
  | backoff _ adaptiveOn avg pending sndbuf ih =>
    exact doBackoff_sound scaled adaptiveOn avg ih pending sndbuf

/-- A sound configuration that pauses at a percentage pauses at every higher one, and at 100. -/
theorem autoSleepMs_mono {cfg : BackpressureCfg} (sound : Sound cfg) {pct : Nat} (higher : Nat)
    (above : pct ≤ higher ∨ 100 ≤ higher) (pauses : 0 < (cfg.autoSleepMs pct).2) :
    0 < (cfg.autoSleepMs higher).2 := by
  unfold BackpressureCfg.autoSleepMs at pauses ⊢
  cases adaptive : cfg.adaptive with
  | some ad =>
    have band := sound.band ad adaptive
    have pause := sound.pause ad adaptive
    simp only [adaptive] at pauses ⊢
    split at pauses
    · split
      · omega
      · split <;> omega
    · split at pauses
      · split
        · omega
        · split <;> omega
      · split
        · omega
        · split <;> omega
  | none =>
    have highWater := sound.highWater
    simp only [adaptive, Bool.and_eq_true, decide_eq_true_eq] at pauses ⊢
    split at pauses
    · split <;> omega
    · omega

/-- The pause at a percentage with the switch off. -/
def pauseAt (cfg : BackpressureCfg) (avg cap pct : Nat) : Nat :=
  (handleFastPaths avg cap pct).getD (cfg.autoSleepMs pct).2

theorem doBackoff_fixed (scaled : Nat → Nat → Nat → Nat) (cfg : BackpressureCfg) {cap : Nat}
    (some_cap : 0 < cap) (avg p : Nat) :
    (doBackoff scaled false avg cfg (some p) (some cap)).2 =
      pauseAt cfg avg cap (readPct p cap) := by
  rw [doBackoff, if_pos some_cap, pauseAt]
  cases handleFastPaths avg cap (readPct p cap) <;> rfl

/-- The average length is that of small writes. -/
def Small (avg cap : Nat) : Prop := avg ≤ max (cap / 16) 1 ∧ avg ≤ netBackoffSmallBypassBytes

/-- The writes are not small, and they are never paused: large ones, or with a configuration that
    pauses at no percentage or at every one. -/
def IgnoresPct (cfg : BackpressureCfg) (avg cap : Nat) : Prop :=
  ¬ Small avg cap ∧
    (cap / 8 ≤ avg ∨ 0 < (cfg.autoSleepMs 0).2 ∨ (cfg.autoSleepMs 100).2 = 0)

theorem pauseAt_small {avg cap : Nat} (cfg : BackpressureCfg) (small : Small avg cap) (pct : Nat) :
    0 < pauseAt cfg avg cap pct ↔ emergencyPctFor avg ≤ pct := by
  have plain : ¬ netBackoffSmallBypassBytes < avg := Nat.not_lt.mpr small.2
  have path : handleFastPaths avg cap pct = some (emergencySleepIfNeeded pct avg cap) := by
    simp [handleFastPaths, small.1, small.2]
  rw [pauseAt, path, Option.getD_some, emergencySleepIfNeeded]
  simp only [plain, decide_false, Bool.false_and, Bool.false_eq_true, if_false]
  split
  · next reached => simp [reached, netEmergencySleepMs]
  · next below => simp [below]

theorem pauseAt_large {avg cap : Nat} (cfg : BackpressureCfg) (other : ¬ Small avg cap)
    (large : cap / 8 ≤ avg) (pct : Nat) : pauseAt cfg avg cap pct = 0 := by
  have path : handleFastPaths avg cap pct = some 0 := by
    unfold Small at other
    simp only [handleFastPaths, Bool.and_eq_true, decide_eq_true_eq]
    rw [if_neg other, if_pos large]
  rw [pauseAt, path, Option.getD_some]

theorem pauseAt_medium {avg cap : Nat} (cfg : BackpressureCfg) (other : ¬ Small avg cap)
    (medium : ¬ cap / 8 ≤ avg) (pct : Nat) :
    pauseAt cfg avg cap pct = (cfg.autoSleepMs pct).2 := by
  have path : handleFastPaths avg cap pct = none := by
    unfold Small at other
    simp only [handleFastPaths, Bool.and_eq_true, decide_eq_true_eq]
    rw [if_neg other, if_neg medium]
  rw [pauseAt, path, Option.getD_none]

theorem emergencyPctFor_range (avg : Nat) : 30 ≤ emergencyPctFor avg ∧ emergencyPctFor avg ≤ 80 := by
  unfold emergencyPctFor
  repeat' split
  all_goals omega

theorem pauseAt_mono {cfg : BackpressureCfg} (sound : Sound cfg) (avg cap : Nat)
    {pct higher : Nat} (above : pct ≤ higher) (pauses : 0 < pauseAt cfg avg cap pct) :
    0 < pauseAt cfg avg cap higher := by
  by_cases small : Small avg cap
  · rw [pauseAt_small cfg small] at pauses ⊢
    omega
  · by_cases large : cap / 8 ≤ avg
    · rw [pauseAt_large cfg small large] at pauses
      omega
    · rw [pauseAt_medium cfg small large] at pauses ⊢
      exact autoSleepMs_mono sound higher (.inl above) pauses

/-- Where the percentage counts, there is no pause at 0 and one at 100. -/
theorem pauseAt_counts {cfg : BackpressureCfg} {avg cap : Nat} (counts : ¬ IgnoresPct cfg avg cap) :
    pauseAt cfg avg cap 0 = 0 ∧ 0 < pauseAt cfg avg cap 100 := by
  have range := emergencyPctFor_range avg
  by_cases small : Small avg cap
  · have none := pauseAt_small cfg small 0
    have full := pauseAt_small cfg small 100
    omega
  · by_cases large : cap / 8 ≤ avg
    · exact absurd ⟨small, .inl large⟩ counts
    · rw [pauseAt_medium cfg small large, pauseAt_medium cfg small large]
      constructor
      · by_contra always
        exact counts ⟨small, .inr (.inl (Nat.pos_of_ne_zero always))⟩
      · by_contra never
        exact counts ⟨small, .inr (.inr (Nat.eq_zero_of_not_pos never))⟩

/-- Where it does not count, one pause is as good as another. -/
theorem pauseAt_ignores {cfg : BackpressureCfg} (sound : Sound cfg) {avg cap : Nat}
    (ignores : IgnoresPct cfg avg cap) {pct : Nat} (pauses : 0 < pauseAt cfg avg cap pct)
    (other : Nat) : 0 < pauseAt cfg avg cap other := by
  obtain ⟨notSmall, path⟩ := ignores
  by_cases large : cap / 8 ≤ avg
  · rw [pauseAt_large cfg notSmall large] at pauses
    omega
  · rw [pauseAt_medium cfg notSmall large] at pauses ⊢
    rcases path with big | always | never
    · exact absurd big large
    · exact autoSleepMs_mono sound other (.inl (Nat.zero_le other)) always
    · have full := autoSleepMs_mono sound 100 (.inr (Nat.le_refl 100)) pauses
      omega

end Pauses

section Percentages

variable {p cap : Nat}

theorem saturatingMul_le (a b : Nat) : saturatingMul a b ≤ usizeMax := Nat.min_le_right _ _

/-- A percentage fits eight bits when it is below 256, or the buffer has 2^56 bytes. -/
theorem product_fits_iff (some_cap : 0 < cap) :
    toU8 (saturatingMul p 100 / cap) = saturatingMul p 100 / cap ↔
      100 * p < 256 * cap ∨ 2 ^ 56 ≤ cap := by
  have cut (n : Nat) : toU8 n = n ↔ n < 256 := by
    unfold toU8
    omega
  rw [cut, Nat.div_lt_iff_lt_mul some_cap, saturatingMul, usizeMax]
  omega

theorem readPct_mono {p' : Nat} (wide : 2 ^ 56 ≤ cap) (more : p ≤ p') :
    readPct p cap ≤ readPct p' cap := by
  have some_cap : 0 < cap := by omega
  rw [readPct, readPct, (product_fits_iff some_cap).mpr (.inr wide),
    (product_fits_iff some_cap).mpr (.inr wide)]
  apply Nat.div_le_div_right
  unfold saturatingMul
  omega

theorem readPct_full (some_cap : 0 < cap) (narrow : cap < 2 ^ 56) : readPct cap cap = 100 := by
  have product : saturatingMul cap 100 = 100 * cap := by
    unfold saturatingMul usizeMax
    omega
  rw [readPct, product, Nat.mul_div_cancel _ some_cap]
  rfl

/-- A buffer of less than 2^56 bytes reads as empty when some more is pending than it holds. -/
theorem readPct_wraps (some_cap : 0 < cap) (narrow : cap < 2 ^ 56) :
    ∃ p', cap ≤ p' ∧ p' ≤ usizeMax ∧ readPct p' cap = 0 := by
  by_cases tiny : cap < 100
  · refine ⟨64 * cap, by omega, by unfold usizeMax; omega, ?_⟩
    have product : saturatingMul (64 * cap) 100 = 6400 * cap := by
      unfold saturatingMul usizeMax
      omega
    rw [readPct, product, Nat.mul_div_cancel _ some_cap]
    rfl
  · refine ⟨(256 * cap + 99) / 100, by omega, by unfold usizeMax; omega, ?_⟩
    have product : saturatingMul ((256 * cap + 99) / 100) 100 / cap = 256 := by
      rw [Nat.div_eq_iff some_cap]
      unfold saturatingMul usizeMax
      omega
    rw [readPct, product]
    rfl

/-- The high water that leaves the margin: 60 when that is 40 percent of the buffer, else what the
    margin leaves of 100, in bounds. -/
def marginHighPct (avg cap : Nat) : Nat :=
  if 40 * cap ≤ 100 * safetyMargin avg cap then 60
  else max 60 (min (100 - 100 * safetyMargin avg cap / cap) (highCap avg))

/-- The percentage of the margin is read right where it matters: cut to eight bits it is still at
    least 40 where it is above, and where its product saturates it is 2 at most or as saturated. -/
def MarginFits (avg cap : Nat) : Prop :=
  if 100 * safetyMargin avg cap ≤ usizeMax then
    100 * safetyMargin avg cap / cap < 256 ∨ 40 ≤ 100 * safetyMargin avg cap / cap % 256
  else 100 * safetyMargin avg cap / cap ≤ 2 ∨
    usizeMax / cap = 100 * safetyMargin avg cap / cap

theorem highCap_range (avg : Nat) : 95 ≤ highCap avg ∧ highCap avg ≤ 98 := by
  unfold highCap
  split <;> decide

/-- A margin whose product saturates is a quarter of the buffer at most, of large writes. -/
theorem margin_of_saturated {avg : Nat} (wide : ¬ 100 * safetyMargin avg cap ≤ usizeMax) :
    4 * safetyMargin avg cap ≤ cap ∧ highCap avg = 98 := by
  have least : (if 2 * 1024 ≤ avg then 4 * 1024 else 8 * 1024) ≤ 8192 := by split <;> decide
  have margin : safetyMargin avg cap ≤ max 8192 (scaledWrite avg) ∧
      safetyMargin avg cap ≤ max 8192 (cap / 4) := by
    unfold safetyMargin
    dsimp only
    omega
  have long : 4 * 1024 ≤ avg := by
    by_contra short
    have scaled : scaledWrite avg ≤ 8192 := by
      unfold scaledWrite
      rw [if_neg short]
      split <;> omega
    unfold usizeMax at wide
    omega
  constructor
  · unfold usizeMax at wide
    omega
  · rw [highCap, if_pos]
    unfold netBackoffSmallBypassBytes
    omega

theorem dynamicHigh_iff (avg : Nat) (some_cap : 0 < cap) :
    computeDynamicHighPct avg cap = marginHighPct avg cap ↔ MarginFits avg cap := by
  have forty : 40 * cap ≤ 100 * safetyMargin avg cap ↔ 40 ≤ 100 * safetyMargin avg cap / cap :=
    (Nat.le_div_iff_mul_le some_cap).symm
  have top := highCap_range avg
  rw [computeDynamicHighPct, if_neg (by omega), marginHighPct, MarginFits, saturatingMul]
  simp only [forty]
  by_cases fits : 100 * safetyMargin avg cap ≤ usizeMax
  · have product : min (safetyMargin avg cap * 100) usizeMax = 100 * safetyMargin avg cap := by omega
    rw [product, if_pos fits, toU8]
    generalize 100 * safetyMargin avg cap / cap = used
    split <;> omega
  · have product : min (safetyMargin avg cap * 100) usizeMax = usizeMax := by omega
    obtain ⟨quarter, large⟩ := margin_of_saturated fits
    have low : 100 * safetyMargin avg cap / cap ≤ 25 := by
      apply Nat.div_le_of_le_mul
      omega
    have less : usizeMax / cap ≤ 100 * safetyMargin avg cap / cap :=
      Nat.div_le_div_right (by omega)
    rw [product, if_neg fits, large, toU8]
    generalize 100 * safetyMargin avg cap / cap = used at *
    generalize usizeMax / cap = saturated at *
    split <;> omega

end Percentages

/-- With the switch off, a pause lasts as the queue grows exactly when the percentage does not count
    or the buffer has 2^56 bytes. The dynamic high water is what the margin leaves exactly when the
    margin's percentage is read right where it matters. A percentage is not cut exactly when it is
    below 256 or the buffer has 2^56 bytes. -/
theorem congestion_read_iff (scaled : Nat → Nat → Nat → Nat) {cfg : BackpressureCfg}
    (held : Held scaled cfg) {cap : Nat} (some_cap : 0 < cap) (avg : Nat) :
    ((∀ p p', p ≤ p' → p' ≤ usizeMax →
        0 < (doBackoff scaled false avg cfg (some p) (some cap)).2 →
        0 < (doBackoff scaled false avg cfg (some p') (some cap)).2) ↔
      IgnoresPct cfg avg cap ∨ 2 ^ 56 ≤ cap) ∧
    (computeDynamicHighPct avg cap = marginHighPct avg cap ↔ MarginFits avg cap) ∧
    (∀ p, toU8 (saturatingMul p 100 / cap) = saturatingMul p 100 / cap ↔
      100 * p < 256 * cap ∨ 2 ^ 56 ≤ cap) ∧
    (toU8 (saturatingMul (safetyMargin avg cap) 100 / cap) =
        saturatingMul (safetyMargin avg cap) 100 / cap ↔
      100 * safetyMargin avg cap < 256 * cap ∨ 2 ^ 56 ≤ cap) := by
  have sound := held.sound
  refine ⟨?_, dynamicHigh_iff avg some_cap, fun p => product_fits_iff some_cap,
    product_fits_iff some_cap⟩
  simp only [doBackoff_fixed scaled cfg some_cap]
  constructor
  · intro monotone
    by_contra neither
    obtain ⟨counts, narrow⟩ := not_or.mp neither
    have smaller : cap < 2 ^ 56 := Nat.lt_of_not_le narrow
    obtain ⟨none, full⟩ := pauseAt_counts counts
    obtain ⟨p', more, size, empty⟩ := readPct_wraps some_cap smaller
    have still := monotone cap p' more size (by rwa [readPct_full some_cap smaller])
    rw [empty] at still
    omega
  · rintro (ignores | wide) p p' more size pauses
    · exact pauseAt_ignores sound ignores pauses _
    · exact pauseAt_mono sound avg cap (readPct_mono wide more) pauses

/-- A queue of 2^56 bytes stays paused; and a margin of 4 KiB in a buffer of 64 reads right. -/
theorem wide_queue_stays_paused :
    0 < (doBackoff (fun base _ _ => base) false 2048 .standard (some (2 ^ 56)) (some (2 ^ 56))).2 ∧
      computeDynamicHighPct 2048 65536 = marginHighPct 2048 65536 := by
  have wide := congestion_read_iff (fun base _ _ => base) .standard
    (show 0 < 2 ^ 56 by decide) 2048
  have small := congestion_read_iff (fun base _ _ => base) .standard (show 0 < 65536 by decide) 2048
  constructor
  · exact wide.1.mpr (.inr (by decide)) (2 ^ 55 + 2 ^ 54) (2 ^ 56) (by decide) (by decide)
      (by decide)
  · apply small.2.1.mpr
    rw [MarginFits, if_pos (by decide)]
    exact .inl (by decide)

/-- A buffer of 1000 bytes is paused with 1000 bytes pending and not with 2560; the margin of 8 KiB in
    a buffer of 3200 bytes reads as none. -/
theorem overfull_queue_reads_empty :
    0 < (doBackoff (fun base _ _ => base) false 100 .standard (some 1000) (some 1000)).2 ∧
      (doBackoff (fun base _ _ => base) false 100 .standard (some 2560) (some 1000)).2 = 0 ∧
      40 * 3200 ≤ 100 * safetyMargin 1024 3200 ∧ computeDynamicHighPct 1024 3200 = 95 := by
  decide

end WarpMotor.SendQueue
