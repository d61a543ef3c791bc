import WarpMotor.Generator.Quota

/-!
The rule pipelines. The total is split beforehand, the remainder goes to the
first ones, and each pipeline sends its share unit by unit. The rules take
turns in every pipeline, from the first one on.
-/
namespace WarpMotor.Generator

variable {F R : Type*} (avg : LineAverage F)

def splitTotalAmongParallel (parallel : Nat) : Option Nat → List (Option Nat)
  | some t =>
    let p := max parallel 1
    (List.range p).map fun i => some (t / p + if i < t % p then 1 else 0)
  | none => List.replicate (max parallel 1) none

/-- The shares make up the total and differ by one at most. -/
theorem splitTotal_sum (parallel t : Nat) :
    ∃ shares : List Nat, splitTotalAmongParallel parallel (some t) = shares.map some ∧
      shares.length = max parallel 1 ∧ shares.sum = t ∧
      ∀ share ∈ shares, t / max parallel 1 ≤ share ∧ share ≤ t / max parallel 1 + 1 := by
  have positive : 0 < max parallel 1 := by omega
  generalize hp : max parallel 1 = p at positive
  refine ⟨(List.range p).map fun i => t / p + if i < t % p then 1 else 0, ?_, by simp, ?_, ?_⟩
  · simp [splitTotalAmongParallel, hp]
  · have heads : ∀ n, ((List.range n).map fun i => t / p + if i < t % p then 1 else 0).sum =
        n * (t / p) + min n (t % p) := by
      intro n
      induction n with
      | zero => simp
      | succ n ih =>
        rw [List.range_succ, List.map_append, List.sum_append, ih, List.map_singleton,
          List.sum_singleton, Nat.succ_mul]
        split <;> omega
    have less : t % p < p := Nat.mod_lt t positive
    have whole := Nat.div_add_mod t p
    rw [heads p, Nat.min_eq_right (by omega)]
    exact whole
  · intro share member
    obtain ⟨i, _, rfl⟩ := List.mem_map.mp member
    split <;> omega

/-- `REPORT_LINES_PER_TASK`. -/
def reportLinesPerTask : Nat := 10000

theorem reportLinesPerTask_pos : 0 < reportLinesPerTask := Nat.succ_pos _

/-- One more task for every ten thousand lines: how many, and the lines that are left over. -/
def reportLoop : Nat → Nat → Nat × Nat
  | 0, accLines => (0, accLines)
  | fuel + 1, accLines =>
    if reportLinesPerTask ≤ accLines then
      let later := reportLoop fuel (accLines - reportLinesPerTask)
      (later.1 + 1, later.2)
    else (0, accLines)

theorem reportLoop_eq {fuel accLines : Nat} (enough : accLines ≤ fuel) :
    reportLoop fuel accLines =
      (accLines / reportLinesPerTask, accLines % reportLinesPerTask) := by
  have some_task := reportLinesPerTask_pos
  induction fuel generalizing accLines with
  | zero =>
    obtain rfl := Nat.le_zero.mp enough
    rw [Nat.zero_div, Nat.zero_mod]
    rfl
  | succ fuel ih =>
    unfold reportLoop
    by_cases full : reportLinesPerTask ≤ accLines
    · have less : accLines - reportLinesPerTask < accLines :=
        Nat.sub_lt (some_task.trans_le full) some_task
      rw [if_pos full, ih (Nat.le_of_lt_succ (less.trans_le enough)), Nat.mod_eq_sub_mod full,
        Nat.div_eq_sub_div some_task full]
    · have few : accLines < reportLinesPerTask := Nat.lt_of_not_le full
      rw [if_neg full, Nat.div_eq_of_lt few, Nat.mod_eq_of_lt few]

/-- `tasks` counts the tasks recorded beside those of the single lines. -/
structure RulePipeline (F : Type*) where
  run : UnitRun F
  produced : Nat
  accLines : Nat
  tasks : Nat

/-- Fewer lines are a first part of more. -/
theorem LineSource.take_mono (source : LineSource) {m n : Nat} (le : m ≤ n) (drawn curIdx : Nat) :
    (source.take m drawn curIdx).1 <+: (source.take n drawn curIdx).1 := by
  induction m generalizing n drawn curIdx with
  | zero => exact List.nil_prefix
  | succ m ih =>
    obtain ⟨n, rfl⟩ : ∃ k, n = k + 1 := ⟨n - 1, by omega⟩
    unfold LineSource.take
    cases source.lineAt drawn curIdx with
    | error e => exact List.prefix_rfl
    | ok line => exact List.cons_prefix_cons.mpr ⟨rfl, ih (by omega) _ _⟩

namespace RulePipeline

def start (baseRate : Nat) : RulePipeline F :=
  ⟨⟨0, 0, .new avg baseRate, [], 0, [], 0, 0⟩, 0, 0, 0⟩

/-- The books after a unit. -/
def afterUnit (p : RulePipeline F) (run : UnitRun F) : RulePipeline F where
  run := run
  produced := p.produced + run.sent
  accLines := (reportLoop (p.accLines + run.sent) (p.accLines + run.sent)).2
  tasks := p.tasks + (reportLoop (p.accLines + run.sent) (p.accLines + run.sent)).1

/-- The loop over the units; without a limit it does not end by itself. -/
def loop (draw : R → Nat → Option String)
    (accepts : List (List String) → List String → Bool) (src : RuleGenSource R) (unit : Nat)
    (limit : Option Nat) :
    Nat → RulePipeline F → Except (UnitError × RulePipeline F) (Option (RulePipeline F))
  | 0, _ => .ok none
  | fuel + 1, p =>
    if limit.any (· ≤ p.produced) then .ok (some p)
    else
      let take := match limit with
        | some limit => min unit (limit - p.produced)
        | none => unit
      match sendUnitRules avg draw accepts src take p.run with
      | .error (e, run) => .error (e, { p with run := run })
      | .ok run => loop draw accepts src unit limit fuel (p.afterUnit run)

variable {avg : LineAverage F}

/-- The lines a pipeline has sent are the first ones of its source. -/
structure Kept (source : LineSource) (p : RulePipeline F) : Prop where
  lines : p.run.log.flatten = (source.take p.produced 0 0).1
  count : p.run.log.flatten.length = p.produced
  drawn : p.run.drawn = p.produced
  curIdx : p.run.curIdx = p.produced % max source.len 1
  recorded : p.run.recorded = p.produced
  tasks : p.tasks = p.produced / reportLinesPerTask
  accLines : p.accLines = p.produced % reportLinesPerTask

theorem take_append (source : LineSource) (m n drawn curIdx : Nat)
    (inside : curIdx < max source.len 1) (whole : (source.take m drawn curIdx).1.length = m) :
    (source.take (m + n) drawn curIdx).1 = (source.take m drawn curIdx).1 ++
      (source.take n (drawn + m) ((curIdx + m) % max source.len 1)).1 := by
  induction m generalizing drawn curIdx with
  | zero =>
    rw [Nat.zero_add, Nat.add_zero, Nat.add_zero, Nat.mod_eq_of_lt inside]
    rfl
  | succ m ih =>
    have split : m + 1 + n = m + n + 1 := by omega
    have next : (curIdx + 1) % max source.len 1 < max source.len 1 := Nat.mod_lt _ (by omega)
    rw [split]
    cases had : source.lineAt drawn curIdx with
    | error e => simp [LineSource.take, had] at whole
    | ok line =>
      have step : ∀ k, (source.take (k + 1) drawn curIdx).1 =
          line :: (source.take k (drawn + 1) ((curIdx + 1) % max source.len 1)).1 := by
        intro k
        rw [LineSource.take, had]
      rw [step, List.length_cons, Nat.add_right_cancel_iff] at whole
      have turn : ((curIdx + 1) % max source.len 1 + m) % max source.len 1 =
          (curIdx + (m + 1)) % max source.len 1 := by
        rw [Nat.mod_add_mod]
        congr 1
        omega
      have count : drawn + 1 + m = drawn + (m + 1) := by omega
      rw [step, step, ih (drawn + 1) _ next whole, turn, count, List.cons_append]

/-- A unit that is sent whole keeps the books. -/
theorem Kept.unit {draw : R → Nat → Option String} {src : RuleGenSource R} {p : RulePipeline F}
    (kept : p.Kept (ruleLines draw src)) {take : Nat} {front : List (List String)} {run : UnitRun F}
    (done : UnitRun.UnitDone (ruleLines draw src) take p.run front run) :
    (p.afterUnit run).Kept (ruleLines draw src) := by
  have lines := kept.lines
  have count := kept.count
  have all := done.all
  have first : front.flatten = ((ruleLines draw src).take take p.run.drawn p.run.curIdx).1 := by
    apply done.lines.eq_of_length
    have bound := ((ruleLines draw src).take_length take p.run.drawn p.run.curIdx).1
    have least := done.lines.length_le
    omega
  have inside : 0 < max (ruleLines draw src).len 1 := by omega
  have whole : ((ruleLines draw src).take p.produced 0 0).1.length = p.produced := by
    rw [← lines, count]
  refine ⟨?_, ?_, ?_, ?_, ?_, ?_, ?_⟩
  · change run.log.flatten = ((ruleLines draw src).take (p.produced + run.sent) 0 0).1
    rw [done.sent, take_append _ _ _ _ _ inside whole, done.log, List.flatten_append, lines, first,
      kept.drawn, kept.curIdx, Nat.zero_add]
  · change run.log.flatten.length = p.produced + run.sent
    rw [done.log, List.flatten_append, List.length_append, done.sent]
    omega
  · change run.drawn = p.produced + run.sent
    rw [done.drawn, kept.drawn, done.sent]
  · change run.curIdx = (p.produced + run.sent) % max (ruleLines draw src).len 1
    rw [done.curIdx, kept.curIdx, done.sent]
    exact Nat.mod_add_mod _ _ _
  · change run.recorded = p.produced + run.sent
    rw [done.recorded, kept.recorded, done.sent, all]
  · change p.tasks + (reportLoop (p.accLines + run.sent) (p.accLines + run.sent)).1 =
      (p.produced + run.sent) / reportLinesPerTask
    rw [reportLoop_eq (Nat.le_refl _), kept.tasks, kept.accLines]
    have whole := Nat.div_add_mod p.produced reportLinesPerTask
    calc p.produced / reportLinesPerTask +
          (p.produced % reportLinesPerTask + run.sent) / reportLinesPerTask
        = (p.produced % reportLinesPerTask + run.sent +
            reportLinesPerTask * (p.produced / reportLinesPerTask)) / reportLinesPerTask := by
          rw [Nat.add_mul_div_left _ _ reportLinesPerTask_pos, Nat.add_comm]
      _ = (p.produced + run.sent) / reportLinesPerTask := by
          congr 1
          omega
  · change (reportLoop (p.accLines + run.sent) (p.accLines + run.sent)).2 =
      (p.produced + run.sent) % reportLinesPerTask
    rw [reportLoop_eq (Nat.le_refl _), kept.accLines]
    exact Nat.mod_add_mod _ _ _

variable (avg) in
/-- With a limit the loop ends after as many units as there are lines, at the latest. It ends with
    an error of a unit, or having sent just its share. -/
theorem loop_ends (draw : R → Nat → Option String)
    (accepts : List (List String) → List String → Bool) (src : RuleGenSource R) {unit : Nat}
    (some_unit : 0 < unit) (limit fuel : Nat) (p : RulePipeline F)
    (kept : p.Kept (ruleLines draw src)) (within : p.produced ≤ limit)
    (enough : limit - p.produced < fuel) :
    (∃ e t, loop avg draw accepts src unit (some limit) fuel p = .error (e, t) ∧
        t.run.log.flatten <+: ((ruleLines draw src).take limit 0 0).1 ∧
        t.run.log.flatten.length < limit) ∨
      ∃ t, loop avg draw accepts src unit (some limit) fuel p = .ok (some t) ∧
        t.Kept (ruleLines draw src) ∧ t.produced = limit := by
  induction fuel generalizing p with
  | zero => omega
  | succ fuel ih =>
    unfold loop
    by_cases done_ : limit ≤ p.produced
    · right
      refine ⟨p, ?_, kept, by omega⟩
      simp [done_]
    · have goes_on : (some limit).any (fun l => decide (l ≤ p.produced)) = false := by
        simpa using done_
      rw [if_neg (by simp [goes_on])]
      have inside : p.run.curIdx < max (ruleLines draw src).len 1 := by
        rw [kept.curIdx]
        exact Nat.mod_lt _ (by omega)
      have some_line : 0 < min unit (limit - p.produced) := by omega
      obtain ⟨front, run, whole | stops⟩ := UnitRun.sendUnit_result avg (ruleLines draw src)
        accepts (min unit (limit - p.produced)) p.run inside
      · obtain ⟨result, done⟩ := whole
        have sent := done.sent
        change sendUnitRules avg draw accepts src (min unit (limit - p.produced)) p.run =
          _ at result
        simp only [result]
        apply ih _ (kept.unit done)
        · change p.produced + run.sent ≤ limit
          omega
        · change limit - (p.produced + run.sent) < fuel
          omega
      · obtain ⟨e, result, part, short⟩ := stops
        change sendUnitRules avg draw accepts src (min unit (limit - p.produced)) p.run =
          _ at result
        left
        simp only [result]
        refine ⟨e, _, rfl, ?_, ?_⟩
        · change run.log.flatten <+: _
          have split : limit = p.produced + (limit - p.produced) := by omega
          have start : 0 < max (ruleLines draw src).len 1 := by omega
          have enough_lines : ((ruleLines draw src).take p.produced 0 0).1.length = p.produced := by
            rw [← kept.lines, kept.count]
          rw [split, take_append _ _ _ _ _ start enough_lines, part.log, List.flatten_append,
            kept.lines, Nat.zero_add, List.prefix_append_right_inj]
          have lines := part.lines
          rw [kept.drawn, kept.curIdx] at lines
          exact lines.trans (LineSource.take_mono _ (Nat.min_le_right _ _) _ _)
        · change run.log.flatten.length < limit
          rw [part.log, List.flatten_append, List.length_append, kept.count]
          omega

theorem start_kept (source : LineSource) (baseRate : Nat) :
    (start avg baseRate).Kept source := by
  refine ⟨rfl, rfl, rfl, ?_, rfl, ?_, ?_⟩
  · exact (Nat.zero_mod _).symm
  · exact (Nat.zero_div _).symm
  · exact (Nat.zero_mod _).symm

end RulePipeline

/-- The end of a pipeline, good or bad, if it comes to one. -/
def RuleResult (F : Type*) := Except (UnitError × RulePipeline F) (Option (RulePipeline F))

namespace RuleResult

def delivered : RuleResult F → List String
  | .ok (some p) => p.run.log.flatten
  | .ok none => []
  | .error (_, p) => p.run.log.flatten

def ended : RuleResult F → Bool
  | .ok none => false
  | _ => true

def succeeded : RuleResult F → Bool
  | .ok (some _) => true
  | _ => false

end RuleResult

/-- One pipeline for each share. What a rule draws at random is another for each pipeline. -/
def ruleResult (draw : Nat → R → Nat → Option String)
    (accepts : Nat → List (List String) → List String → Bool) (src : RuleGenSource R)
    (baseRate : Nat) (share : Nat × Nat) : RuleResult F :=
  RulePipeline.loop avg (draw share.2) (accepts share.2) src (unitSize baseRate) (some share.1)
    (share.1 + 1) (.start avg baseRate)

def runRuleDirect (draw : Nat → R → Nat → Option String)
    (accepts : Nat → List (List String) → List String → Bool) (src : RuleGenSource R)
    (baseRate parallel t : Nat) : List (RuleResult F) :=
  ((splitTotalAmongParallel parallel (some t)).filterMap id).zipIdx.map
    (ruleResult avg draw accepts src baseRate)

/-- A pipeline comes to an end. It sends its share, or less and fails; its rules take turns from the
    first one on. -/
theorem ruleResult_spec (draw : Nat → R → Nat → Option String)
    (accepts : Nat → List (List String) → List String → Bool) (src : RuleGenSource R)
    (baseRate : Nat) (share : Nat × Nat) :
    let result : RuleResult F := ruleResult avg draw accepts src baseRate share
    result.ended = true ∧
      result.delivered <+: ((ruleLines (draw share.2) src).take share.1 0 0).1 ∧
      result.delivered.length ≤ share.1 ∧
      (result.delivered.length = share.1 ↔ result.succeeded = true) := by
  intro result
  rcases RulePipeline.loop_ends avg (draw share.2) (accepts share.2) src (unitSize_pos baseRate)
      share.1 (share.1 + 1) (.start avg baseRate) (RulePipeline.start_kept _ baseRate)
      (Nat.zero_le _) (Nat.lt_succ_of_le (Nat.sub_le _ _)) with
    ⟨e, p, stops, lines, short⟩ | ⟨p, ends, kept, produced⟩
  · have same : result = .error (e, p) := stops
    rw [same]
    refine ⟨rfl, lines, Nat.le_of_lt short, ?_⟩
    constructor
    · intro all
      exact absurd all (Nat.ne_of_lt short)
    · intro good
      cases good
  · have same : result = .ok (some p) := ends
    have count := kept.count
    have lines := kept.lines
    rw [produced] at count lines
    rw [same]
    refine ⟨rfl, ?_, Nat.le_of_eq count, fun _ => rfl, fun _ => count⟩
    change p.run.log.flatten <+: _
    rw [lines]

end WarpMotor.Generator
