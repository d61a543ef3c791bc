import WarpMotor.Lib.Parties
import WarpMotor.Generator.Batches

/-!
The sample pipelines and the total they share. A pipeline reserves a unit of
lines on the common counter, sends them, and gives back what it could not send.
A look at the counter and the exchange that depends on it are two steps, with
others in between. A unit goes to the pipeline's own sink: it is one step.
-/
namespace WarpMotor.Generator
open Parties

variable {F : Type*} (avg : LineAverage F)

def defaultUnitSize : Nat := 50000

def unitSize (baseRate : Nat) : Nat :=
  if 0 < baseRate then max 1 (min (baseRate / 10) 1000) else max defaultUnitSize 1

theorem unitSize_pos (baseRate : Nat) : 0 < unitSize baseRate := by
  unfold unitSize
  split <;> omega

/-- The numbers a `usize` can hold. -/
def usizeRange : Nat := 2 ^ 64

structure SharedTotal where
  limit : Nat
  fits : limit < usizeRange

inductive WorkQuota where
  | unlimited
  | shared (total : SharedTotal)

def WorkQuota.fromTotal : Option SharedTotal → WorkQuota
  | none => unlimited
  | some total => shared total

/-- The subtraction wraps below zero. -/
def SharedTotal.release (produced amount : Nat) : Nat :=
  if amount = 0 then produced else (produced + usizeRange - amount) % usizeRange

def WorkQuota.release (produced amount : Nat) : WorkQuota → Nat
  | unlimited => produced
  | shared _ => SharedTotal.release produced amount

/-- Where a pipeline is. `loaded` lies between the look at the counter and the exchange; `releasing`
    has sent that many lines of its unit, or has failed. -/
inductive Phase where
  | taking
  | loaded (current : Nat)
  | sending (reserved : Nat)
  | releasing (amount : Nat) (sent : Option Nat)
  | ended
  | failed
  | panicked (reserved : Nat)
  deriving DecidableEq, Repr

structure SamplePipeline (F : Type*) where
  phase : Phase
  run : UnitRun F
  produced : Nat

structure SampleConf where
  quota : WorkQuota
  baseRate : Nat
  samples : List String
  accepts : Nat → List (List String) → List String → Bool

namespace SamplePipeline

def start (baseRate : Nat) : SamplePipeline F where
  phase := .taking
  run := ⟨0, 0, .new avg baseRate, [], 0, [], 0, 0⟩
  produced := 0

/-- What has come out of a unit. -/
def afterUnit (reserved : Nat) (p : SamplePipeline F) :
    Except (UnitError × UnitRun F) (UnitRun F) → SamplePipeline F
  | .ok run =>
    if run.sent < reserved then
      { p with phase := .releasing (reserved - run.sent) (some run.sent), run := run }
    else { p with phase := .taking, run := run, produced := p.produced + run.sent }
  | .error (.panic, run) => { p with phase := .panicked reserved, run := run }
  | .error (_, run) => { p with phase := .releasing reserved none, run := run }

/-- One step of the pipeline with that number, on the counter and its own state. -/
def move (conf : SampleConf) (i produced : Nat) (p : SamplePipeline F) :
    Option (Nat × SamplePipeline F) :=
  match p.phase, conf.quota with
  | .taking, .unlimited => some (produced, { p with phase := .sending (unitSize conf.baseRate) })
  | .taking, .shared total =>
    if unitSize conf.baseRate = 0 ∨ total.limit ≤ produced then
      some (produced, { p with phase := .ended })
    else some (produced, { p with phase := .loaded produced })
  | .loaded current, .shared total =>
    let toTake := min (unitSize conf.baseRate) (total.limit - current)
    if produced = current then some (current + toTake, { p with phase := .sending toTake })
    else some (produced, { p with phase := .taking })
  | .loaded _, .unlimited => none
  | .sending reserved, _ =>
    some (produced, p.afterUnit reserved
      (sendUnitSamples avg (conf.accepts i) conf.samples reserved p.run))
  | .releasing amount (some sent), quota =>
    some (quota.release produced amount,
      { p with phase := .taking, produced := p.produced + sent })
  | .releasing amount none, quota =>
    some (quota.release produced amount, { p with phase := .failed })
  | .ended, _ | .failed, _ | .panicked _, _ => none

def Stopped (p : SamplePipeline F) : Prop :=
  match p.phase with
  | .ended | .failed | .panicked _ => True
  | _ => False

/-- The lines its sink has accepted. -/
def delivered (p : SamplePipeline F) : List String := p.run.log.flatten

/-- What it holds of the counter. -/
def held (p : SamplePipeline F) : Nat :=
  p.produced + match p.phase with
    | .sending reserved => reserved
    | .releasing amount sent => amount + sent.getD 0
    | .panicked reserved => reserved
    | _ => 0

/-- Lines that a failed unit had sent before it failed: they are counted nowhere. -/
def uncounted (p : SamplePipeline F) : Nat := p.delivered.length - p.produced

end SamplePipeline

/-- The counter and the pipelines. -/
structure SampleWorld (F : Type*) where
  produced : Nat
  pipelines : List (SamplePipeline F)

namespace SampleWorld

def start (conf : SampleConf) (parallel : Nat) : SampleWorld F where
  produced := 0
  pipelines := List.replicate (max 1 parallel) (.start avg conf.baseRate)

def step (conf : SampleConf) (w : SampleWorld F) (i : Nat) : Option (SampleWorld F) :=
  match w.pipelines[i]? with
  | none => none
  | some p => (p.move avg conf i w.produced).map fun moved =>
      { produced := moved.1, pipelines := w.pipelines.set i moved.2 }

/-- The pipelines move in the order of the schedule. -/
def run (conf : SampleConf) (w : SampleWorld F) (schedule : List Nat) : Option (SampleWorld F) :=
  schedule.foldlM (step avg conf) w

def delivered (w : SampleWorld F) : Nat := total (fun p => p.delivered.length) w.pipelines

def uncounted (w : SampleWorld F) : Nat := total SamplePipeline.uncounted w.pipelines

end SampleWorld

/-- The lines are the samples over and over, from the first on. -/
def Cycles (samples lines : List String) : Prop :=
  ∀ k, k < lines.length → lines[k]? = samples[k % samples.length]?

theorem take_samples (samples : List String) (n drawn k : Nat)
    (inside : k < ((sampleLines samples).take n drawn (drawn % max samples.length 1)).1.length) :
    ((sampleLines samples).take n drawn (drawn % max samples.length 1)).1[k]? =
      samples[(drawn + k) % samples.length]? := by
  induction n generalizing drawn k with
  | zero => simp [LineSource.take] at inside
  | succ n ih =>
    unfold LineSource.take at inside ⊢
    cases had : samples[drawn % max samples.length 1]? with
    | none => simp [sampleLines, had] at inside
    | some line =>
      have filled : drawn % max samples.length 1 < samples.length := by
        apply Classical.byContradiction
        intro outside
        rw [List.getElem?_eq_none (by omega)] at had
        cases had
      have whole : max samples.length 1 = samples.length := by omega
      have turn : (drawn % max samples.length 1 + 1) % max (sampleLines samples).len 1 =
          (drawn + 1) % max samples.length 1 := Nat.mod_add_mod drawn (max samples.length 1) 1
      simp only [sampleLines, had] at inside ⊢
      cases k with
      | zero =>
        rw [List.getElem?_cons_zero, Nat.add_zero, ← whole, had]
      | succ k =>
        have turned : (drawn % max samples.length 1 + 1) % max samples.length 1 =
          (drawn + 1) % max samples.length 1 := turn
        rw [turned] at inside ⊢
        rw [List.length_cons] at inside
        rw [List.getElem?_cons_succ]
        have later := ih (drawn + 1) k (by simpa [sampleLines] using inside)
        simp only [sampleLines] at later
        rw [later]
        congr 2
        omega

theorem Cycles.append {samples lines more taken : List String} {n : Nat} (cycles : Cycles samples lines)
    (first : more <+: taken)
    (next : ((sampleLines samples).take n lines.length (lines.length % max samples.length 1)).1 = taken) :
    Cycles samples (lines ++ more) := by
  intro k inside
  by_cases before : k < lines.length
  · rw [List.getElem?_append_left before]
    exact cycles k before
  · obtain ⟨rest, split⟩ := first
    rw [List.length_append] at inside
    have among : k - lines.length < more.length := by omega
    have inTaken : k - lines.length < taken.length := by
      rw [← split, List.length_append]
      omega
    rw [List.getElem?_append_right (by omega)]
    have here : more[k - lines.length]? = taken[k - lines.length]? := by
      rw [← split, List.getElem?_append_left among]
    subst next
    rw [here, take_samples samples n lines.length _ inTaken]
    congr 2
    omega

namespace SamplePipeline

/-- Between units the pipeline has sent all it has drawn. -/
structure Ready (conf : SampleConf) (p : SamplePipeline F) : Prop where
  curIdx : p.run.curIdx = p.produced % max conf.samples.length 1
  drawn : p.run.drawn = p.produced
  count : p.delivered.length = p.produced

/-- What holds in each phase; `limit` is that of the shared total. -/
def InPhase (conf : SampleConf) (limit : Nat) (p : SamplePipeline F) : Prop :=
  match p.phase with
  | .taking | .ended => p.Ready conf
  | .loaded current => p.Ready conf ∧ current < limit
  | .sending reserved => p.Ready conf ∧ 0 < reserved ∧ reserved ≤ unitSize conf.baseRate
  | .releasing amount sent => sent = none ∧
      amount ≤ unitSize conf.baseRate ∧ p.delivered.length < p.produced + amount
  | .failed => p.delivered.length < p.produced + unitSize conf.baseRate
  | .panicked reserved => reserved ≤ unitSize conf.baseRate ∧
      p.delivered.length < p.produced + reserved

structure Sound (conf : SampleConf) (limit : Nat) (p : SamplePipeline F) : Prop where
  cycles : Cycles conf.samples p.delivered
  recorded : p.run.recorded = p.delivered.length
  behind : p.produced ≤ p.delivered.length
  inPhase : p.InPhase conf limit

/-- The steps of a pipeline under a shared total. -/
inductive Moved (conf : SampleConf) (shared : SharedTotal) (i produced : Nat)
    (p : SamplePipeline F) : Nat → SamplePipeline F → Prop
  | ends (phase : p.phase = .taking) (full : shared.limit ≤ produced) :
      Moved conf shared i produced p produced { p with phase := .ended }
  | loads (phase : p.phase = .taking) (room : produced < shared.limit) :
      Moved conf shared i produced p produced { p with phase := .loaded produced }
  | exchanges (phase : p.phase = .loaded produced) :
      Moved conf shared i produced p
        (produced + min (unitSize conf.baseRate) (shared.limit - produced))
        { p with phase := .sending (min (unitSize conf.baseRate) (shared.limit - produced)) }
  | retries {current : Nat} (phase : p.phase = .loaded current) (stale : produced ≠ current) :
      Moved conf shared i produced p produced { p with phase := .taking }
  | sends {reserved : Nat} (phase : p.phase = .sending reserved) :
      Moved conf shared i produced p produced (p.afterUnit reserved
        (sendUnitSamples avg (conf.accepts i) conf.samples reserved p.run))
  | returns {amount sent : Nat} (phase : p.phase = .releasing amount (some sent)) :
      Moved conf shared i produced p (SharedTotal.release produced amount)
        { p with phase := .taking, produced := p.produced + sent }
  | fails {amount : Nat} (phase : p.phase = .releasing amount none) :
      Moved conf shared i produced p (SharedTotal.release produced amount)
        { p with phase := .failed }

theorem move_moved {conf : SampleConf} {shared : SharedTotal} (quota : conf.quota = .shared shared)
    {i produced : Nat} {p : SamplePipeline F} {moved : Nat × SamplePipeline F}
    (move : p.move avg conf i produced = some moved) :
    Moved avg conf shared i produced p moved.1 moved.2 := by
  have some_unit := unitSize_pos conf.baseRate
  unfold SamplePipeline.move at move
  rw [quota] at move
  cases phase : p.phase with
  | taking =>
    simp only [phase] at move
    split at move
    · rename_i full
      cases move
      exact .ends phase (full.resolve_left (by omega))
    · rename_i room
      cases move
      exact .loads phase (by omega)
  | loaded current =>
    simp only [phase] at move
    split at move
    · rename_i fresh
      cases move
      subst fresh
      exact .exchanges phase
    · rename_i stale
      cases move
      exact .retries phase stale
  | sending reserved =>
    simp only [phase] at move
    cases move
    exact .sends phase
  | releasing amount sent =>
    cases sent with
    | none =>
      simp only [phase] at move
      cases move
      exact .fails phase
    | some sent =>
      simp only [phase] at move
      cases move
      exact .returns phase
  | ended => simp [phase] at move
  | failed => simp [phase] at move
  | panicked reserved => simp [phase] at move

theorem move_none_iff {conf : SampleConf} {shared : SharedTotal} (quota : conf.quota = .shared shared)
    (i produced : Nat) (p : SamplePipeline F) : p.move avg conf i produced = none ↔ p.Stopped := by
  unfold SamplePipeline.move Stopped
  rw [quota]
  cases phase : p.phase with
  | taking =>
    simp only [iff_false]
    split <;> simp
  | loaded current =>
    simp only [iff_false]
    split <;> simp
  | sending reserved => simp
  | releasing amount sent => cases sent <;> simp
  | ended => simp
  | failed => simp
  | panicked reserved => simp

/-- A unit that is not sent whole makes the pipeline fail. -/
theorem Sound.afterUnit {conf : SampleConf} {limit reserved : Nat} {p : SamplePipeline F}
    (sound : p.Sound conf limit) (phase : p.phase = .sending reserved) (i : Nat) :
    let q := p.afterUnit reserved
      (sendUnitSamples avg (conf.accepts i) conf.samples reserved p.run)
    q.Sound conf limit ∧ (q.phase = .taking ∧ q.produced = p.produced + reserved ∨
      (q.phase = .releasing reserved none ∨ q.phase = .panicked reserved) ∧
        q.produced = p.produced) := by
  have inPhase := sound.inPhase
  unfold InPhase at inPhase
  rw [phase] at inPhase
  obtain ⟨ready, positive, within⟩ := inPhase
  have inside : p.run.curIdx < max (sampleLines conf.samples).len 1 := by
    rw [ready.curIdx]
    exact Nat.mod_lt _ (by omega)
  have next : (sampleLines conf.samples).take reserved p.run.drawn p.run.curIdx =
      (sampleLines conf.samples).take reserved p.delivered.length
        (p.delivered.length % max conf.samples.length 1) := by
    rw [ready.curIdx, ready.drawn, ready.count]
  intro q
  obtain ⟨front, t, whole | stops⟩ :=
    UnitRun.sendUnit_result avg (sampleLines conf.samples) (conf.accepts i) reserved p.run inside
  · obtain ⟨result, done⟩ := whole
    have not_short : ¬ t.sent < reserved := by
      rw [done.sent]
      omega
    have after : q = { p with phase := .taking, run := t, produced := p.produced + t.sent } := by
      change p.afterUnit reserved (p.run.sendUnit avg _ _ reserved) = _
      rw [result]
      exact if_neg not_short
    have logged : q.delivered = p.delivered ++ front.flatten := by
      rw [after]
      change t.log.flatten = p.run.log.flatten ++ front.flatten
      rw [done.log, List.flatten_append]
    have sent := congrArg List.length logged
    have books := done.recorded
    have recorded := sound.recorded
    have count := ready.count
    rw [List.length_append, done.all] at sent
    have produced : q.produced = p.produced + reserved := by
      rw [after, ← done.sent]
    refine ⟨⟨?_, ?_, ?_, ?_⟩, .inl ⟨by rw [after], produced⟩⟩
    · rw [logged]
      exact sound.cycles.append done.lines (by rw [next])
    · rw [done.all] at books
      rw [sent, after]
      change t.recorded = _
      omega
    · omega
    · have taking : q.phase = .taking := by rw [after]
      unfold InPhase
      rw [taking]
      refine ⟨?_, ?_, by omega⟩
      · rw [produced, after]
        change t.curIdx = _
        rw [done.curIdx, ready.curIdx]
        exact Nat.mod_add_mod _ _ _
      · rw [produced, after]
        change t.drawn = _
        rw [done.drawn, ready.drawn]
  · obtain ⟨e, result, part, short⟩ := stops
    have after : q = { p with phase := q.phase, run := t } ∧
        (q.phase = .releasing reserved none ∨ q.phase = .panicked reserved) := by
      have changed : q = p.afterUnit reserved (.error (e, t)) := by
        change p.afterUnit reserved (p.run.sendUnit avg _ _ reserved) = _
        rw [result]
      rw [changed]
      cases e with
      | panic => exact ⟨rfl, .inr rfl⟩
      | generate => exact ⟨rfl, .inl rfl⟩
      | sink => exact ⟨rfl, .inl rfl⟩
    obtain ⟨same, stopped⟩ := after
    have produced : q.produced = p.produced := by rw [same]
    have logged : q.delivered = p.delivered ++ front.flatten := by
      rw [same]
      change t.log.flatten = p.run.log.flatten ++ front.flatten
      rw [part.log, List.flatten_append]
    have sent := congrArg List.length logged
    have books := part.recorded
    have recorded := sound.recorded
    have count := ready.count
    rw [List.length_append] at sent
    refine ⟨⟨?_, ?_, ?_, ?_⟩, .inr ⟨stopped, produced⟩⟩
    · rw [logged]
      exact sound.cycles.append part.lines (by rw [next])
    · rw [sent, same]
      change t.recorded = _
      omega
    · omega
    · unfold InPhase
      rcases stopped with releasing | panicked
      · rw [releasing]
        exact ⟨rfl, within, by omega⟩
      · rw [panicked]
        exact ⟨within, by omega⟩

/-- One for a pipeline that gave a unit back and stopped. -/
def failures (p : SamplePipeline F) : Nat :=
  match p.phase with
  | .failed => 1
  | _ => 0

/-- One for a pipeline that stopped in the middle of a unit. -/
def lost (p : SamplePipeline F) : Nat :=
  match p.phase with
  | .failed | .panicked _ => 1
  | _ => 0

theorem release_eq {shared : SharedTotal} {produced amount : Nat} (held : amount ≤ produced)
    (within : produced ≤ shared.limit) :
    SharedTotal.release produced amount = produced - amount := by
  have fits := shared.fits
  unfold SharedTotal.release
  split
  · omega
  · have wraps : produced + usizeRange - amount = produced - amount + usizeRange := by omega
    rw [wraps, Nat.add_mod_right, Nat.mod_eq_of_lt (by omega)]

/-- What a step does to the counter and to what the pipeline holds of it. -/
structure Effect (conf : SampleConf) (limit produced : Nat) (p : SamplePipeline F)
    (produced' : Nat) (q : SamplePipeline F) : Prop where
  sound : q.Sound conf limit
  counter : produced' + p.held = produced + q.held
  within : produced' ≤ limit
  full : q.phase = .ended → limit ≤ produced'
  fallen : produced + unitSize conf.baseRate * p.failures ≤
    produced' + unitSize conf.baseRate * q.failures

theorem Ready.setPhase {conf : SampleConf} {p : SamplePipeline F} (ready : p.Ready conf)
    (phase : Phase) : Ready conf { p with phase := phase } :=
  ⟨ready.curIdx, ready.drawn, ready.count⟩

/-- A change of phase alone. -/
theorem Sound.setPhase {conf : SampleConf} {limit : Nat} {p : SamplePipeline F}
    (sound : p.Sound conf limit) (phase : Phase)
    (inPhase : InPhase conf limit { p with phase := phase }) :
    Sound conf limit { p with phase := phase } :=
  ⟨sound.cycles, sound.recorded, sound.behind, inPhase⟩

theorem Moved.effect {conf : SampleConf} {shared : SharedTotal} {i produced produced' : Nat}
    {p q : SamplePipeline F} (moved : Moved avg conf shared i produced p produced' q)
    (sound : p.Sound conf shared.limit) (held : p.held ≤ produced)
    (within : produced ≤ shared.limit) : Effect conf shared.limit produced p produced' q := by
  have inPhase := sound.inPhase
  have some_unit := unitSize_pos conf.baseRate
  unfold InPhase at inPhase
  cases moved with
  | ends phase full =>
    rw [phase] at inPhase
    refine ⟨sound.setPhase _ (inPhase.setPhase _), ?_, within, fun _ => full, ?_⟩
    · simp [SamplePipeline.held, phase]
    · simp [failures, phase]
  | loads phase room =>
    rw [phase] at inPhase
    refine ⟨sound.setPhase _ ⟨inPhase.setPhase _, room⟩, ?_, within, fun ended => ?_, ?_⟩
    · simp [SamplePipeline.held, phase]
    · cases ended
    · simp [failures, phase]
  | exchanges phase =>
    rw [phase] at inPhase
    obtain ⟨ready, room⟩ := inPhase
    refine ⟨sound.setPhase _ ⟨ready.setPhase _, by omega, Nat.min_le_left _ _⟩, ?_, by omega,
      fun ended => ?_, ?_⟩
    · simp only [SamplePipeline.held, phase]
      omega
    · cases ended
    · simp [failures, phase]
  | retries phase stale =>
    rw [phase] at inPhase
    refine ⟨sound.setPhase _ (inPhase.1.setPhase _), ?_, within, fun ended => ?_, ?_⟩
    · simp [SamplePipeline.held, phase]
    · cases ended
    · simp [failures, phase]
  | @sends reserved phase =>
    obtain ⟨kept, taking | ⟨stopped, produced_same⟩⟩ := sound.afterUnit avg phase i
    · obtain ⟨taking, counted⟩ := taking
      refine ⟨kept, ?_, within, fun ended => ?_, ?_⟩
      · simp only [SamplePipeline.held, phase, taking, counted]
        omega
      · rw [taking] at ended
        cases ended
      · simp [failures, phase]
    · refine ⟨kept, ?_, within, fun ended => ?_, ?_⟩
      · rcases stopped with releasing | panicked
        · simp [SamplePipeline.held, phase, releasing, produced_same]
        · simp [SamplePipeline.held, phase, panicked, produced_same]
      · rcases stopped with releasing | panicked
        · rw [releasing] at ended
          cases ended
        · rw [panicked] at ended
          cases ended
      · simp [failures, phase]
  | returns phase =>
    rw [phase] at inPhase
    cases inPhase.1
  | @fails amount phase =>
    rw [phase] at inPhase
    obtain ⟨_, small, short⟩ := inPhase
    have part : amount ≤ p.held := by
      simp only [SamplePipeline.held, phase]
      omega
    rw [release_eq (part.trans held) within]
    refine ⟨sound.setPhase _ ?_, ?_, by omega, fun ended => ?_, ?_⟩
    · change p.delivered.length < p.produced + unitSize conf.baseRate
      omega
    · simp only [SamplePipeline.held, phase] at part held ⊢
      simp only [Option.getD_none] at part held ⊢
      omega
    · cases ended
    · simp only [failures, phase]
      omega

end SamplePipeline

namespace SampleWorld

/-- The books of the shared total. -/
structure Balanced (conf : SampleConf) (shared : SharedTotal) (w : SampleWorld F) : Prop where
  sound : ∀ p ∈ w.pipelines, p.Sound conf shared.limit
  counter : w.produced = total SamplePipeline.held w.pipelines
  within : w.produced ≤ shared.limit
  reached : (∃ p ∈ w.pipelines, p.phase = .ended) →
    shared.limit ≤ w.produced + unitSize conf.baseRate * total SamplePipeline.failures w.pipelines

theorem start_sound (conf : SampleConf) (limit : Nat) :
    (SamplePipeline.start avg conf.baseRate).Sound conf limit := by
  refine ⟨?_, rfl, Nat.le_refl _, ?_⟩
  · intro k inside
    cases inside
  · exact ⟨(Nat.zero_mod _).symm, rfl, rfl⟩

theorem start_balanced (conf : SampleConf) (shared : SharedTotal) (parallel : Nat) :
    (start avg conf parallel).Balanced conf shared := by
  refine ⟨?_, ?_, Nat.zero_le _, ?_⟩
  · intro p member
    rw [List.eq_of_mem_replicate member]
    exact start_sound avg conf shared.limit
  · have nothing : total SamplePipeline.held (start avg conf parallel).pipelines ≤ 0 := by
      rw [← Nat.zero_mul (start avg conf parallel).pipelines.length]
      apply total_le_mul
      intro p member
      rw [List.eq_of_mem_replicate member]
      exact Nat.le_refl 0
    exact (Nat.le_zero.mp nothing).symm
  · rintro ⟨p, member, ended⟩
    rw [List.eq_of_mem_replicate member] at ended
    cases ended

/-- A step is the move of one pipeline. -/
theorem step_moved {conf : SampleConf} {shared : SharedTotal} (quota : conf.quota = .shared shared)
    {w w' : SampleWorld F} {i : Nat} (stepped : step avg conf w i = some w') :
    ∃ p q, w.pipelines[i]? = some p ∧ w'.pipelines = w.pipelines.set i q ∧
      p.Moved avg conf shared i w.produced w'.produced q := by
  unfold step at stepped
  cases here : w.pipelines[i]? with
  | none => simp [here] at stepped
  | some p =>
    simp only [here, Option.map_eq_some_iff] at stepped
    obtain ⟨moved, move, rfl⟩ := stepped
    exact ⟨p, moved.2, rfl, rfl, SamplePipeline.move_moved avg quota move⟩

theorem Balanced.step {conf : SampleConf} {shared : SharedTotal} (quota : conf.quota = .shared shared)
    {w w' : SampleWorld F} (balanced : w.Balanced conf shared) {i : Nat}
    (stepped : SampleWorld.step avg conf w i = some w') : w'.Balanced conf shared := by
  obtain ⟨p, q, here, pipelines, moved⟩ := step_moved avg quota stepped
  have member := List.mem_of_getElem? here
  have part : p.held ≤ w.produced := by
    rw [balanced.counter]
    exact le_total _ member
  have effect := moved.effect avg (balanced.sound p member) part balanced.within
  have counter := total_set SamplePipeline.held here q
  have losses := total_set SamplePipeline.failures here q
  refine ⟨?_, ?_, effect.within, ?_⟩
  · rw [pipelines]
    exact forall_set balanced.sound effect.sound
  · have before := balanced.counter
    have change_ := effect.counter
    rw [pipelines]
    omega
  · have fallen := effect.fallen
    have losses' := congrArg (unitSize conf.baseRate * ·) losses
    simp only [Nat.mul_add] at losses'
    rw [pipelines]
    rintro ⟨other, among, ended⟩
    rcases List.mem_or_eq_of_mem_set among with old | rfl
    · have reached := balanced.reached ⟨other, old, ended⟩
      omega
    · have full := effect.full ended
      omega

theorem run_balanced {conf : SampleConf} {shared : SharedTotal} (quota : conf.quota = .shared shared)
    {w w' : SampleWorld F} (balanced : w.Balanced conf shared) {schedule : List Nat}
    (ran : run avg conf w schedule = some w') : w'.Balanced conf shared := by
  induction schedule generalizing w with
  | nil =>
    cases ran
    exact balanced
  | cons i rest ih =>
    unfold run at ran
    rw [List.foldlM_cons] at ran
    cases stepped : step avg conf w i with
    | none => simp [stepped] at ran
    | some middle =>
      simp only [stepped, Option.bind_eq_bind, Option.bind_some] at ran
      exact ih (balanced.step avg quota stepped) ran

/-- In every order of steps, and whatever the sinks refuse: the counter is what the pipelines hold
    of the total and never passes it, the sinks get the samples over and over in order, the
    collectors record just what they got, and more than the total is sent only by what failing units
    had sent before they failed. -/
theorem shared_total_is_kept {conf : SampleConf} {shared : SharedTotal}
    (quota : conf.quota = .shared shared) {parallel : Nat} {schedule : List Nat} {w : SampleWorld F}
    (ran : run avg conf (start avg conf parallel) schedule = some w) :
    w.produced = total SamplePipeline.held w.pipelines ∧ w.produced ≤ shared.limit ∧
      w.delivered ≤ shared.limit + w.uncounted ∧
      ∀ p ∈ w.pipelines, Cycles conf.samples p.delivered ∧ p.run.recorded = p.delivered.length ∧
        p.uncounted < unitSize conf.baseRate ∧
        (p.uncounted ≠ 0 → (∃ amount, p.phase = .releasing amount none) ∨ p.phase = .failed ∨
          ∃ reserved, p.phase = .panicked reserved) := by
  have balanced := run_balanced avg quota (start_balanced avg conf shared parallel) ran
  have some_unit := unitSize_pos conf.baseRate
  refine ⟨balanced.counter, balanced.within, ?_, ?_⟩
  · have counted : w.delivered ≤ total SamplePipeline.held w.pipelines + w.uncounted := by
      unfold SampleWorld.delivered uncounted
      rw [← total_add]
      apply total_le_total
      intro p member
      unfold SamplePipeline.held SamplePipeline.uncounted
      omega
    have counter := balanced.counter
    have within := balanced.within
    omega
  · intro p member
    have sound := balanced.sound p member
    have behind := sound.behind
    have inPhase := sound.inPhase
    refine ⟨sound.cycles, sound.recorded, ?_⟩
    unfold SamplePipeline.InPhase at inPhase
    unfold SamplePipeline.uncounted
    cases phase : p.phase with
    | taking =>
      rw [phase] at inPhase
      have count := inPhase.count
      omega
    | ended =>
      rw [phase] at inPhase
      have count := inPhase.count
      omega
    | loaded current =>
      rw [phase] at inPhase
      have count := inPhase.1.count
      omega
    | sending reserved =>
      rw [phase] at inPhase
      have count := inPhase.1.count
      omega
    | releasing amount sent =>
      rw [phase] at inPhase
      obtain ⟨rfl, small, short⟩ := inPhase
      exact ⟨by omega, fun _ => .inl ⟨amount, rfl⟩⟩
    | failed =>
      rw [phase] at inPhase
      exact ⟨by omega, fun _ => .inr (.inl rfl)⟩
    | panicked reserved =>
      rw [phase] at inPhase
      exact ⟨by omega, fun _ => .inr (.inr ⟨reserved, rfl⟩)⟩

/-- Two pipelines share two lines; the second one looks before the first has taken. -/
def twoPipelines : SampleConf where
  quota := .shared ⟨2, by decide⟩
  baseRate := 0
  samples := [""]
  accepts _ _ _ := true

theorem two_pipelines_keep_the_total : ∃ w,
    run exactAverage twoPipelines (start exactAverage twoPipelines 2) [0, 1, 0, 1, 0] = some w ∧
      w.produced = total SamplePipeline.held w.pipelines ∧ w.produced ≤ 2 ∧
      w.delivered ≤ 2 + w.uncounted ∧
      ∀ p ∈ w.pipelines, Cycles [""] p.delivered ∧ p.run.recorded = p.delivered.length ∧
        p.uncounted < unitSize 0 ∧
        (p.uncounted ≠ 0 → (∃ amount, p.phase = .releasing amount none) ∨ p.phase = .failed ∨
          ∃ reserved, p.phase = .panicked reserved) := by
  have runs : (run exactAverage twoPipelines (start exactAverage twoPipelines 2)
      [0, 1, 0, 1, 0]).isSome := rfl
  obtain ⟨w, ran⟩ := Option.isSome_iff_exists.mp runs
  exact ⟨w, ran, shared_total_is_kept exactAverage rfl ran⟩

/-- What a stopped pipeline holds is what it has sent, up to a unit for one that was lost. -/
theorem held_le {conf : SampleConf} {limit : Nat} {p : SamplePipeline F}
    (sound : p.Sound conf limit) (stopped : p.Stopped) :
    p.held + unitSize conf.baseRate * p.failures ≤
      p.delivered.length + unitSize conf.baseRate * p.lost := by
  have behind := sound.behind
  have inPhase := sound.inPhase
  unfold SamplePipeline.InPhase at inPhase
  unfold SamplePipeline.Stopped at stopped
  unfold SamplePipeline.held SamplePipeline.failures SamplePipeline.lost
  cases phase : p.phase with
  | ended => simpa using behind
  | failed => simpa using behind
  | panicked reserved =>
    rw [phase] at inPhase
    have small := inPhase.1
    simp only [Nat.mul_zero, Nat.mul_one]
    omega
  | taking => simp [phase] at stopped
  | loaded current => simp [phase] at stopped
  | sending reserved => simp [phase] at stopped
  | releasing amount sent => simp [phase] at stopped

/-- When all pipelines have stopped and one of them found the total used up, the lines sent differ
    from the total by less than a unit for each pipeline that failed: without failures the sinks
    have got exactly the total. -/
theorem shared_total_is_delivered {conf : SampleConf} {shared : SharedTotal}
    (quota : conf.quota = .shared shared) {parallel : Nat} {schedule : List Nat} {w : SampleWorld F}
    (ran : run avg conf (start avg conf parallel) schedule = some w)
    (stopped : ∀ p ∈ w.pipelines, p.Stopped) (found : ∃ p ∈ w.pipelines, p.phase = .ended) :
    shared.limit ≤ w.delivered + unitSize conf.baseRate * total SamplePipeline.lost w.pipelines ∧
      w.delivered ≤ shared.limit + unitSize conf.baseRate * total SamplePipeline.lost w.pipelines ∧
      (total SamplePipeline.lost w.pipelines = 0 → w.delivered = shared.limit) := by
  have balanced := run_balanced avg quota (start_balanced avg conf shared parallel) ran
  obtain ⟨_, _, most, each⟩ := shared_total_is_kept avg quota ran
  have reached := balanced.reached found
  have counter := balanced.counter
  have covered : total (fun p => p.held + unitSize conf.baseRate * p.failures) w.pipelines ≤
      total (fun p => p.delivered.length + unitSize conf.baseRate * p.lost) w.pipelines :=
    total_le_total fun p member => held_le (balanced.sound p member) (stopped p member)
  rw [total_add, total_add, total_mul, total_mul] at covered
  have least : shared.limit ≤
      w.delivered + unitSize conf.baseRate * total SamplePipeline.lost w.pipelines := by
    unfold SampleWorld.delivered
    omega
  have beyond : w.uncounted ≤ unitSize conf.baseRate * total SamplePipeline.lost w.pipelines := by
    unfold SampleWorld.uncounted
    rw [← total_mul]
    apply total_le_total
    intro p member
    obtain ⟨_, _, small, only⟩ := each p member
    by_cases none_left : p.uncounted = 0
    · omega
    · have one : p.lost = 1 := by
        unfold SamplePipeline.lost
        have ends := stopped p member
        unfold SamplePipeline.Stopped at ends
        rcases only none_left with ⟨amount, phase⟩ | phase | ⟨reserved, phase⟩
        · simp [phase] at ends
        · rw [phase]
        · rw [phase]
      rw [one]
      omega
  refine ⟨least, by omega, ?_⟩
  intro none_lost
  rw [none_lost] at least beyond
  omega

theorem two_pipelines_deliver_the_total : ∃ w,
    run exactAverage twoPipelines (start exactAverage twoPipelines 2) [0, 1, 0, 1, 0, 0, 1] = some w ∧
      2 ≤ w.delivered + unitSize 0 * total SamplePipeline.lost w.pipelines ∧
      w.delivered ≤ 2 + unitSize 0 * total SamplePipeline.lost w.pipelines ∧
      (total SamplePipeline.lost w.pipelines = 0 → w.delivered = 2) := by
  have phases : (run exactAverage twoPipelines (start exactAverage twoPipelines 2)
      [0, 1, 0, 1, 0, 0, 1]).map (fun w => w.pipelines.map SamplePipeline.phase) =
        some [.ended, .ended] := rfl
  obtain ⟨w, ran, ended⟩ := Option.map_eq_some_iff.mp phases
  have all : ∀ p ∈ w.pipelines, p.phase = .ended := by
    intro p member
    have among := List.mem_map_of_mem (f := SamplePipeline.phase) member
    rw [ended] at among
    simpa using among
  refine ⟨w, ran, shared_total_is_delivered exactAverage rfl ran ?_ ?_⟩
  · intro p member
    unfold SamplePipeline.Stopped
    rw [all p member]
    trivial
  · cases pipelines : w.pipelines with
    | nil => simp [pipelines] at ended
    | cons p rest =>
      exact ⟨p, List.mem_cons_self .., all p (by rw [pipelines]; exact List.mem_cons_self ..)⟩

end SampleWorld

namespace SamplePipeline

/-- How much of the total a pipeline may still give back. -/
def returnable (conf : SampleConf) (p : SamplePipeline F) : Nat :=
  match p.phase with
  | .taking | .loaded _ | .sending _ => unitSize conf.baseRate
  | .releasing amount _ => amount
  | _ => 0

/-- The steps that a pipeline can take before it takes from the total again. A look at the counter
    that another has overtaken costs two more. -/
def pending (parallel produced : Nat) (p : SamplePipeline F) : Nat :=
  match p.phase with
  | .taking => 2
  | .loaded current => if current = produced then 1 else 3
  | .sending _ => 2 * parallel + 2
  | .releasing _ _ => 2 * parallel + 1
  | _ => 0

theorem pending_le (parallel produced produced' : Nat) (p : SamplePipeline F) :
    p.pending parallel produced' ≤ p.pending parallel produced + 2 := by
  unfold pending
  cases p.phase with
  | loaded current =>
    dsimp only
    split <;> split <;> omega
  | taking => exact Nat.le_add_right _ _
  | sending reserved => exact Nat.le_add_right _ _
  | releasing amount sent => exact Nat.le_add_right _ _
  | ended => exact Nat.le_add_right _ _
  | failed => exact Nat.le_add_right _ _
  | panicked reserved => exact Nat.le_add_right _ _

/-- A step leaves the counter alone and has one step less before it, or it takes from the total, or
    it gives a unit back and stops. -/
inductive Progress (conf : SampleConf) (limit parallel produced : Nat) (p : SamplePipeline F)
    (produced' : Nat) (q : SamplePipeline F) : Prop
  | quiet (same : produced' = produced) (returns : q.returnable conf ≤ p.returnable conf)
      (less : q.pending parallel produced < p.pending parallel produced)
  | takes (more : produced < produced') (within : produced' ≤ limit)
      (returns : q.returnable conf = p.returnable conf)
      (overtaken : p.pending parallel produced' = 3)
      (sends : q.pending parallel produced' = 2 * parallel + 2)
  | stops (gives : limit - produced' + q.returnable conf = limit - produced + p.returnable conf)
      (before : p.pending parallel produced' = 2 * parallel + 1)
      (after : q.pending parallel produced' = 0)

theorem Moved.progress {conf : SampleConf} {shared : SharedTotal} {i produced produced' : Nat}
    {p q : SamplePipeline F} (moved : Moved avg conf shared i produced p produced' q)
    (sound : p.Sound conf shared.limit) (held : p.held ≤ produced)
    (within : produced ≤ shared.limit) {parallel : Nat} (some_pipeline : 0 < parallel) :
    Progress conf shared.limit parallel produced p produced' q := by
  have inPhase := sound.inPhase
  have some_unit := unitSize_pos conf.baseRate
  unfold InPhase at inPhase
  cases moved with
  | ends phase full =>
    exact .quiet rfl (by simp [returnable]) (by simp [pending, phase])
  | loads phase room =>
    exact .quiet rfl (by simp [returnable, phase]) (by simp [pending, phase])
  | exchanges phase =>
    rw [phase] at inPhase
    have room := inPhase.2
    refine .takes (by omega) (by omega) (by simp [returnable, phase]) ?_ rfl
    simp only [pending, phase]
    exact if_neg (by omega)
  | retries phase stale =>
    refine .quiet rfl (by simp [returnable, phase]) ?_
    simp [pending, phase, Ne.symm stale]
  | @sends reserved phase =>
    rw [phase] at inPhase
    obtain ⟨_, _, small⟩ := inPhase
    obtain ⟨_, ⟨taking, _⟩ | ⟨releasing | panicked, _⟩⟩ := sound.afterUnit avg phase i
    · refine .quiet rfl ?_ ?_
      · simp [returnable, phase, taking]
      · simp only [pending, phase, taking]
        omega
    · refine .quiet rfl ?_ ?_
      · simpa [returnable, phase, releasing] using small
      · simp [pending, phase, releasing]
    · refine .quiet rfl ?_ ?_
      · simp [returnable, panicked]
      · simp [pending, phase, panicked]
  | returns phase =>
    rw [phase] at inPhase
    cases inPhase.1
  | @fails amount phase =>
    have part : amount ≤ produced := by
      refine Nat.le_trans ?_ held
      simp only [SamplePipeline.held, phase]
      omega
    rw [release_eq part within]
    refine .stops ?_ ?_ rfl
    · simp only [returnable, phase]
      omega
    · simp [pending, phase]

end SamplePipeline

namespace SampleWorld

/-- Steps that are left at most. -/
def fuel (conf : SampleConf) (limit : Nat) (w : SampleWorld F) : Nat :=
  (4 * w.pipelines.length + 2) *
      (limit - w.produced + total (SamplePipeline.returnable conf) w.pipelines) +
    total (SamplePipeline.pending w.pipelines.length w.produced) w.pipelines

theorem fuel_decreases {conf : SampleConf} {shared : SharedTotal}
    (quota : conf.quota = .shared shared) {w w' : SampleWorld F}
    (balanced : w.Balanced conf shared) {i : Nat} (stepped : step avg conf w i = some w') :
    w'.fuel conf shared.limit < w.fuel conf shared.limit := by
  obtain ⟨p, q, here, pipelines, moved⟩ := step_moved avg quota stepped
  have member := List.mem_of_getElem? here
  have some_pipeline : 0 < w.pipelines.length := List.length_pos_of_mem member
  have part : p.held ≤ w.produced := by
    rw [balanced.counter]
    exact le_total _ member
  have progress := moved.progress avg (balanced.sound p member) part balanced.within some_pipeline
  have returns := total_set (SamplePipeline.returnable conf) here q
  have steps := total_set (SamplePipeline.pending w.pipelines.length w'.produced) here q
  have overtaken : total (SamplePipeline.pending w.pipelines.length w'.produced) w.pipelines ≤
      total (SamplePipeline.pending w.pipelines.length w.produced) w.pipelines +
        2 * w.pipelines.length :=
    total_le_add fun p _ => p.pending_le w.pipelines.length w.produced w'.produced
  have own := le_total (SamplePipeline.returnable conf) member
  have within := balanced.within
  unfold fuel
  rw [pipelines, List.length_set]
  cases progress with
  | quiet same returnsLess less =>
    rw [same] at steps ⊢
    have fewer := Nat.mul_le_mul_left (4 * w.pipelines.length + 2) (show
      shared.limit - w.produced + total (SamplePipeline.returnable conf) (w.pipelines.set i q) ≤
        shared.limit - w.produced + total (SamplePipeline.returnable conf) w.pipelines by omega)
    omega
  | takes more most returnsSame before after =>
    have fewer := Nat.mul_le_mul_left (4 * w.pipelines.length + 2) (show
      shared.limit - w'.produced + total (SamplePipeline.returnable conf) (w.pipelines.set i q) + 1 ≤
        shared.limit - w.produced + total (SamplePipeline.returnable conf) w.pipelines by omega)
    rw [Nat.mul_add, Nat.mul_one] at fewer
    omega
  | stops gives before after =>
    have same : shared.limit - w'.produced +
        total (SamplePipeline.returnable conf) (w.pipelines.set i q) =
        shared.limit - w.produced + total (SamplePipeline.returnable conf) w.pipelines := by omega
    rw [same]
    omega

theorem run_length {conf : SampleConf} {shared : SharedTotal} (quota : conf.quota = .shared shared)
    {w w' : SampleWorld F} (balanced : w.Balanced conf shared) {schedule : List Nat}
    (ran : run avg conf w schedule = some w') :
    schedule.length + w'.fuel conf shared.limit ≤ w.fuel conf shared.limit := by
  induction schedule generalizing w with
  | nil =>
    cases ran
    simp
  | cons i rest ih =>
    unfold run at ran
    rw [List.foldlM_cons] at ran
    cases stepped : step avg conf w i with
    | none => simp [stepped] at ran
    | some middle =>
      simp only [stepped, Option.bind_eq_bind, Option.bind_some] at ran
      have later := ih (balanced.step avg quota stepped) ran
      have less := fuel_decreases avg quota balanced stepped
      rw [List.length_cons]
      omega

theorem start_fuel (conf : SampleConf) (limit parallel : Nat) :
    (start avg conf parallel).fuel conf limit ≤
      (4 * max 1 parallel + 2) * (limit + unitSize conf.baseRate * max 1 parallel) +
        2 * max 1 parallel := by
  have count : (start avg conf parallel).pipelines.length = max 1 parallel :=
    List.length_replicate
  have returns : total (SamplePipeline.returnable conf) (start avg conf parallel).pipelines ≤
      unitSize conf.baseRate * (start avg conf parallel).pipelines.length := by
    apply total_le_mul
    intro p member
    rw [List.eq_of_mem_replicate member]
    exact Nat.le_refl _
  have steps : total (SamplePipeline.pending (max 1 parallel) 0)
      (start avg conf parallel).pipelines ≤ 2 * (start avg conf parallel).pipelines.length := by
    apply total_le_mul
    intro p member
    rw [List.eq_of_mem_replicate member]
    exact Nat.le_refl _
  unfold fuel
  rw [count] at returns steps ⊢
  apply Nat.add_le_add _ steps
  apply Nat.mul_le_mul_left
  have nothing : limit - (start avg conf parallel).produced = limit := rfl
  omega

/-- No order of steps lets the retries of the exchange go on for ever: a run has a bound, and it
    goes on until every pipeline has stopped. -/
theorem sample_pipelines_stop {conf : SampleConf} {shared : SharedTotal}
    (quota : conf.quota = .shared shared) {parallel : Nat} {schedule : List Nat} {w : SampleWorld F}
    (ran : run avg conf (start avg conf parallel) schedule = some w) :
    schedule.length ≤
        (4 * max 1 parallel + 2) * (shared.limit + unitSize conf.baseRate * max 1 parallel) +
          2 * max 1 parallel ∧
      ((∀ i, step avg conf w i = none) ↔ ∀ p ∈ w.pipelines, p.Stopped) := by
  constructor
  · have length := run_length avg quota (start_balanced avg conf shared parallel) ran
    have first := start_fuel avg conf shared.limit parallel
    omega
  · constructor
    · intro stuck p member
      obtain ⟨i, here⟩ := List.getElem?_of_mem member
      have none_next := stuck i
      unfold step at none_next
      simp only [here, Option.map_eq_none_iff] at none_next
      exact (SamplePipeline.move_none_iff avg quota i w.produced p).mp none_next
    · intro stopped i
      unfold step
      cases here : w.pipelines[i]? with
      | none => rfl
      | some p =>
        have none_next := (SamplePipeline.move_none_iff avg quota i w.produced p).mpr
          (stopped p (List.mem_of_getElem? here))
        simp [none_next]

theorem two_pipelines_stop : ∃ w,
    run exactAverage twoPipelines (start exactAverage twoPipelines 2) [0, 1, 0, 1, 0, 0, 1] = some w ∧
      [0, 1, 0, 1, 0, 0, 1].length ≤
        (4 * max 1 2 + 2) * (2 + unitSize twoPipelines.baseRate * max 1 2) + 2 * max 1 2 ∧
      ((∀ i, step exactAverage twoPipelines w i = none) ↔ ∀ p ∈ w.pipelines, p.Stopped) := by
  have runs : (run exactAverage twoPipelines (start exactAverage twoPipelines 2)
      [0, 1, 0, 1, 0, 0, 1]).isSome := rfl
  obtain ⟨w, ran⟩ := Option.isSome_iff_exists.mp runs
  have quota : twoPipelines.quota = .shared ⟨2, by decide⟩ := rfl
  exact ⟨w, ran, sample_pipelines_stop exactAverage quota ran⟩

end SampleWorld

end WarpMotor.Generator
