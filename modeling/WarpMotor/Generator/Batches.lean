import Mathlib.Algebra.BigOperators.Group.List.Basic
import Mathlib.Algebra.GroupWithZero.Nat
import Mathlib.Algebra.Order.Field.Rat
import Mathlib.Data.List.Infix
import Mathlib.Data.Rat.Floor
import WarpMotor.Lib.Batching

/-!
How the generator sends a unit of lines: line by line into a batch, which goes
to the sink when the next line would pass the byte budget or when it is full.
The budget follows the rate and the average length of the lines. The samples
are repeated without end, the rules take turns.
-/
namespace WarpMotor.Generator
open Batching

def batchFlushLines : Nat := 4096

def batchBudgetMin : Nat := 8 * 1024

def batchBudgetMax : Nat := 1024 * 1024

def batchSeedBudget : Nat := 256 * 1024

/-- The floating point numbers of the policy: the length of a first line, the average after a
    further line, and the bytes of the time window at a rate, cut to an integer. -/
structure LineAverage (F : Type*) where
  zero : F
  ofLen : Nat → F
  smooth : Nat → F → F
  windowBytes : Nat → F → Nat

/-- The policy in exact numbers: a new line counts one fiftieth, the window is a tenth of a second. -/
def exactAverage : LineAverage ℚ where
  zero := 0
  ofLen len := len
  smooth len average := len / 50 + average * (49 / 50)
  windowBytes baseRate average := (baseRate * average / 10).floor.toNat

variable {F : Type*} (avg : LineAverage F)

structure BatchSizePolicy (F : Type*) where
  baseRate : Nat
  avgLineBytes : F
  initialized : Bool

namespace BatchSizePolicy

def new (baseRate : Nat) : BatchSizePolicy F := ⟨baseRate, avg.zero, false⟩

def observeLine (p : BatchSizePolicy F) (len : Nat) : BatchSizePolicy F :=
  if p.initialized then { p with avgLineBytes := avg.smooth len p.avgLineBytes }
  else { p with avgLineBytes := avg.ofLen len, initialized := true }

def budgetBytes (p : BatchSizePolicy F) : Nat :=
  if p.baseRate = 0 then batchBudgetMax
  else if !p.initialized then batchSeedBudget
  else max batchBudgetMin (min (avg.windowBytes p.baseRate p.avgLineBytes) batchBudgetMax)

theorem budgetBytes_bounds (p : BatchSizePolicy F) :
    batchBudgetMin ≤ p.budgetBytes avg ∧ p.budgetBytes avg ≤ batchBudgetMax := by
  unfold budgetBytes batchBudgetMin batchBudgetMax batchSeedBudget
  split
  · omega
  · split <;> omega

end BatchSizePolicy

inductive UnitError where
  | panic | generate | sink
  deriving DecidableEq, Repr

/-- What a pipeline keeps from unit to unit, and the batch of the present unit. `drawn` counts the
    lines it has taken; `log` is what its sink has accepted. -/
structure UnitRun (F : Type*) where
  curIdx : Nat
  drawn : Nat
  policy : BatchSizePolicy F
  log : List (List String)
  recorded : Nat
  batch : List String
  batchBytes : Nat
  sent : Nat

/-- Where the lines come from. A line may depend on how many were drawn before it. The index moves
    on before the line is put into a batch, or after. -/
structure LineSource where
  lineAt : Nat → Nat → Except UnitError String
  len : Nat
  advanceFirst : Bool

/-- A sample out of range is a panic. -/
def sampleLines (samples : List String) : LineSource where
  lineAt _ curIdx := match samples[curIdx]? with
    | some line => .ok line
    | none => .error .panic
  len := samples.length
  advanceFirst := false

/-- Compiled rules, with the check that there is one. -/
structure RuleGenSource (R : Type*) where
  rules : List R
  some_rule : rules ≠ []

namespace RuleGenSource
variable {U R W : Type*}

/-- The rules of all units in order, those of empty units left out. -/
def fromUnits (rulesOf : U → List W) (isEmpty : U → Bool) (compile : U → W → Option R)
    (units : List U) : Option (RuleGenSource R) :=
  match (units.filter (!isEmpty ·)).mapM fun u => (rulesOf u).mapM (compile u) with
  | none => none
  | some compiled =>
    if some_rule : compiled.flatten ≠ [] then some ⟨compiled.flatten, some_rule⟩ else none

def ruleLen (src : RuleGenSource R) : Nat := src.rules.length

theorem ruleLen_pos (src : RuleGenSource R) : 0 < src.ruleLen :=
  List.length_pos_of_ne_nil src.some_rule

/-- The rule at an index, from the start again after the last. -/
def ruleAt (src : RuleGenSource R) (idx : Nat) : R :=
  src.rules.get ⟨idx % src.ruleLen, Nat.mod_lt idx src.ruleLen_pos⟩

/-- A rule draws at random: its line is known by how many were drawn before. -/
def genOne (draw : R → Nat → Option String) (src : RuleGenSource R) (drawn idx : Nat) :
    Option String :=
  draw (src.ruleAt idx) drawn

end RuleGenSource

def ruleLines {R : Type*} (draw : R → Nat → Option String) (src : RuleGenSource R) :
    LineSource where
  lineAt drawn curIdx := match src.genOne draw drawn curIdx with
    | some line => .ok line
    | none => .error .generate
  len := src.ruleLen
  advanceFirst := true

namespace UnitRun

def fail (r : UnitRun F) (e : UnitError) : Except (UnitError × UnitRun F) (UnitRun F) := .error (e, r)

/-- The batch goes to the sink; every line of an accepted batch is recorded as a task. -/
def flush (accepts : List (List String) → List String → Bool) (r : UnitRun F) :
    Except (UnitError × UnitRun F) (UnitRun F) :=
  if accepts r.log r.batch then
    .ok { r with
      log := r.log ++ [r.batch], recorded := r.recorded + r.batch.length,
      sent := r.sent + r.batch.length, batch := [] }
  else r.fail .sink

def advance (source : LineSource) (r : UnitRun F) : UnitRun F :=
  { r with curIdx := (r.curIdx + 1) % max source.len 1 }

def push (r : UnitRun F) (line : String) : UnitRun F :=
  { r with
    policy := r.policy.observeLine avg line.utf8ByteSize,
    batchBytes := r.batchBytes + line.utf8ByteSize,
    batch := r.batch ++ [line] }

/-- The test is made with the budget before the line. -/
def goesFirst (policy : BatchSizePolicy F) (batchBytes : Nat) (batch : List String) (len : Nat) :
    Bool :=
  (decide (policy.budgetBytes avg < batchBytes + len) && !batch.isEmpty) ||
    decide (batchFlushLines ≤ batch.length)

def sendLine (accepts : List (List String) → List String → Bool) (source : LineSource)
    (r : UnitRun F) : Except (UnitError × UnitRun F) (UnitRun F) :=
  match source.lineAt r.drawn r.curIdx with
  | .error e => r.fail e
  | .ok line =>
    let r := { r with drawn := r.drawn + 1 }
    let r := if source.advanceFirst then r.advance source else r
    let flushed :=
      if goesFirst avg r.policy r.batchBytes r.batch line.utf8ByteSize then
        (r.flush accepts).map fun r => { r with batchBytes := 0 }
      else .ok r
    flushed.map fun r =>
      if source.advanceFirst then r.push avg line else (r.push avg line).advance source

def sendLines (accepts : List (List String) → List String → Bool) (source : LineSource) :
    Nat → UnitRun F → Except (UnitError × UnitRun F) (UnitRun F)
  | 0, r => .ok r
  | n + 1, r => do
    let r ← r.sendLine avg accepts source
    sendLines accepts source n r

/-- A unit begins with an empty batch. -/
def start (r : UnitRun F) : UnitRun F := { r with batch := [], batchBytes := 0, sent := 0 }

def sendUnit (accepts : List (List String) → List String → Bool) (source : LineSource)
    (unitCnt : Nat) (r : UnitRun F) : Except (UnitError × UnitRun F) (UnitRun F) :=
  if unitCnt = 0 then .ok r.start
  else do
    let r ← sendLines avg accepts source unitCnt r.start
    if r.batch.isEmpty then pure r else r.flush accepts

end UnitRun

def sendUnitSamples (accepts : List (List String) → List String → Bool) (samples : List String)
    (unitCnt : Nat) (r : UnitRun F) : Except (UnitError × UnitRun F) (UnitRun F) :=
  r.sendUnit avg accepts (sampleLines samples) unitCnt

def sendUnitRules {R : Type*} (draw : R → Nat → Option String)
    (accepts : List (List String) → List String → Bool) (src : RuleGenSource R) (unitCnt : Nat)
    (r : UnitRun F) : Except (UnitError × UnitRun F) (UnitRun F) :=
  r.sendUnit avg accepts (ruleLines draw src) unitCnt

def bytes (batch : List String) : Nat := (batch.map String.utf8ByteSize).sum

/-- The same test as a cutter of lines. -/
def budgetCutter : Cutter (BatchSizePolicy F) String where
  cut policy batch line := UnitRun.goesFirst avg policy (bytes batch) batch line.utf8ByteSize
  observe policy line := policy.observeLine avg line.utf8ByteSize

namespace LineSource

/-- The next lines, up to the first that cannot be had, with what stops there. -/
def take (source : LineSource) : Nat → Nat → Nat → List String × Option UnitError
  | 0, _, _ => ([], none)
  | n + 1, drawn, curIdx =>
    match source.lineAt drawn curIdx with
    | .error e => ([], some e)
    | .ok line =>
      let later := source.take n (drawn + 1) ((curIdx + 1) % max source.len 1)
      (line :: later.1, later.2)

theorem take_length (source : LineSource) (n drawn curIdx : Nat) :
    (source.take n drawn curIdx).1.length ≤ n ∧
      ((source.take n drawn curIdx).2 = none ↔ (source.take n drawn curIdx).1.length = n) := by
  induction n generalizing drawn curIdx with
  | zero => simp [take]
  | succ n ih =>
    unfold take
    split
    · simp
    · have later := ih (drawn + 1) ((curIdx + 1) % max source.len 1)
      simpa using later

end LineSource

namespace UnitRun
variable {avg : LineAverage F} {accepts : List (List String) → List String → Bool}
  {source : LineSource}

/-- The collectors have recorded the lines that were added to the log. -/
def Recorded (r t : UnitRun F) : Prop :=
  t.recorded + r.log.flatten.length = r.recorded + t.log.flatten.length

/-- The loop over the lines has come to its end. -/
structure Looped (accepts : List (List String) → List String → Bool) (source : LineSource) (n : Nat)
    (fed : Fed (BatchSizePolicy F) String) (r t : UnitRun F) : Prop where
  delivered : deliver accepts r.log fed.out = (t.log, true)
  batch : t.batch = fed.held
  batchBytes : t.batchBytes = bytes t.batch
  policy : t.policy = fed.state
  drawn : t.drawn = r.drawn + n
  curIdx : t.curIdx = (r.curIdx + n) % max source.len 1
  recorded : Recorded r t
  sent : t.sent + r.log.flatten.length = r.sent + t.log.flatten.length

/-- The sink has refused a batch, or there was no next line. -/
structure Stopped (accepts : List (List String) → List String → Bool) (out : List (List String))
    (stop : Option UnitError) (r : UnitRun F) (e : UnitError) (t : UnitRun F) : Prop where
  delivered : (deliver accepts r.log out).1 = t.log
  cause : (deliver accepts r.log out).2 = true ∧ stop = some e ∨
    (deliver accepts r.log out).2 = false ∧ e = .sink
  recorded : Recorded r t

theorem flush_accepted {r : UnitRun F} (taken : accepts r.log r.batch = true) :
    r.flush accepts = .ok { r with
      log := r.log ++ [r.batch], recorded := r.recorded + r.batch.length,
      sent := r.sent + r.batch.length, batch := [] } :=
  if_pos taken

theorem flush_refused {r : UnitRun F} (refused : accepts r.log r.batch = false) :
    r.flush accepts = .error (.sink, r) :=
  if_neg (by simp [refused])

theorem sendLine_joins {r : UnitRun F} {line : String} (had : source.lineAt r.drawn r.curIdx = .ok line)
    (joins : goesFirst avg r.policy r.batchBytes r.batch line.utf8ByteSize = false) :
    r.sendLine avg accepts source = .ok { r with
      curIdx := (r.curIdx + 1) % max source.len 1, drawn := r.drawn + 1,
      policy := r.policy.observeLine avg line.utf8ByteSize,
      batchBytes := r.batchBytes + line.utf8ByteSize, batch := r.batch ++ [line] } := by
  unfold sendLine
  cases first : source.advanceFirst <;>
    simp [had, advance, push, Except.map, joins]

theorem sendLine_goes {r : UnitRun F} {line : String} (had : source.lineAt r.drawn r.curIdx = .ok line)
    (goes : goesFirst avg r.policy r.batchBytes r.batch line.utf8ByteSize = true)
    (taken : accepts r.log r.batch = true) :
    r.sendLine avg accepts source = .ok { r with
      curIdx := (r.curIdx + 1) % max source.len 1, drawn := r.drawn + 1,
      policy := r.policy.observeLine avg line.utf8ByteSize, log := r.log ++ [r.batch],
      recorded := r.recorded + r.batch.length, batch := [line], batchBytes := line.utf8ByteSize,
      sent := r.sent + r.batch.length } := by
  unfold sendLine
  cases first : source.advanceFirst <;>
    simp [had, advance, push, Except.map, goes, flush, taken]

theorem sendLine_refused {r : UnitRun F} {line : String}
    (had : source.lineAt r.drawn r.curIdx = .ok line)
    (goes : goesFirst avg r.policy r.batchBytes r.batch line.utf8ByteSize = true)
    (refused : accepts r.log r.batch = false) :
    ∃ t : UnitRun F, r.sendLine avg accepts source = .error (.sink, t) ∧ t.log = r.log ∧
      t.recorded = r.recorded := by
  unfold sendLine
  cases first : source.advanceFirst <;>
    simp [had, advance, Except.map, goes, flush, refused, fail]

def LoopOutcome (accepts : List (List String) → List String → Bool) (source : LineSource) (n : Nat)
    (fed : Fed (BatchSizePolicy F) String) (stop : Option UnitError) (r : UnitRun F) :
    Except (UnitError × UnitRun F) (UnitRun F) → Prop
  | .ok t => stop = none ∧ Looped accepts source n fed r t
  | .error (e, t) => Stopped accepts fed.out stop r e t

/-- A line that joins the batch leaves the log as it is. -/
theorem LoopOutcome.joined {n : Nat} {fed : Fed (BatchSizePolicy F) String}
    {stop : Option UnitError} {r s : UnitRun F} {result : Except (UnitError × UnitRun F) (UnitRun F)}
    (later : LoopOutcome accepts source n fed stop s result)
    (moved : s.curIdx = (r.curIdx + 1) % max source.len 1) (drawn : s.drawn = r.drawn + 1)
    (log : s.log = r.log) (recorded : s.recorded = r.recorded) (sent : s.sent = r.sent) :
    LoopOutcome accepts source (n + 1) fed stop r result := by
  cases result with
  | ok t =>
    obtain ⟨clean, looped⟩ := later
    have books := looped.recorded
    have count := looped.sent
    unfold Recorded at books
    refine ⟨clean, ?_, looped.batch, looped.batchBytes, looped.policy, ?_, ?_, ?_, ?_⟩
    · rw [← log]
      exact looped.delivered
    · rw [looped.drawn, drawn]
      omega
    · rw [looped.curIdx, moved, Nat.mod_add_mod]
      congr 1
      omega
    · unfold Recorded
      rw [← log, ← recorded]
      exact books
    · rw [← log, ← sent]
      exact count
  | error stopped =>
    obtain ⟨delivered, cause, books⟩ := later
    unfold Recorded at books
    refine ⟨?_, ?_, ?_⟩
    · rw [← log]
      exact delivered
    · rw [← log]
      exact cause
    · unfold Recorded
      rw [← log, ← recorded]
      exact books

/-- A batch that was accepted comes before what goes out later. -/
theorem LoopOutcome.sentFirst {n : Nat} {fed : Fed (BatchSizePolicy F) String}
    {stop : Option UnitError} {r s : UnitRun F} {result : Except (UnitError × UnitRun F) (UnitRun F)}
    (later : LoopOutcome accepts source n fed stop s result)
    (taken : accepts r.log r.batch = true)
    (moved : s.curIdx = (r.curIdx + 1) % max source.len 1) (drawn : s.drawn = r.drawn + 1)
    (log : s.log = r.log ++ [r.batch]) (recorded : s.recorded = r.recorded + r.batch.length)
    (sent : s.sent = r.sent + r.batch.length) :
    LoopOutcome accepts source (n + 1) ⟨r.batch :: fed.out, fed.held, fed.state⟩ stop r result := by
  have lines : s.log.flatten.length = r.log.flatten.length + r.batch.length := by simp [log]
  have step : deliver accepts r.log (r.batch :: fed.out) = deliver accepts s.log fed.out := by
    rw [deliver, if_pos taken, log]
  cases result with
  | ok t =>
    obtain ⟨clean, looped⟩ := later
    have books := looped.recorded
    have count := looped.sent
    unfold Recorded at books
    refine ⟨clean, step.trans looped.delivered, looped.batch, looped.batchBytes, looped.policy,
      ?_, ?_, ?_, ?_⟩
    · rw [looped.drawn, drawn]
      omega
    · rw [looped.curIdx, moved, Nat.mod_add_mod]
      congr 1
      omega
    · unfold Recorded
      omega
    · omega
  | error stopped =>
    obtain ⟨delivered, cause, books⟩ := later
    unfold Recorded at books
    refine ⟨?_, ?_, ?_⟩
    · rw [step]
      exact delivered
    · rw [step]
      exact cause
    · unfold Recorded
      omega

/-- The loop over the lines hands the sink the batches that the cutter makes of them. -/
theorem sendLines_outcome (n : Nat) (r : UnitRun F) (whole : r.batchBytes = bytes r.batch)
    (inside : r.curIdx < max source.len 1) :
    LoopOutcome accepts source n
      (feed (budgetCutter avg) r.policy r.batch (source.take n r.drawn r.curIdx).1)
      (source.take n r.drawn r.curIdx).2 r (sendLines avg accepts source n r) := by
  induction n generalizing r with
  | zero =>
    refine ⟨rfl, rfl, rfl, whole, rfl, rfl, ?_, rfl, rfl⟩
    rw [Nat.add_zero, Nat.mod_eq_of_lt inside]
  | succ n ih =>
    have turn : (r.curIdx + 1) % max source.len 1 < max source.len 1 := Nat.mod_lt _ (by omega)
    unfold sendLines LineSource.take
    cases had : source.lineAt r.drawn r.curIdx with
    | error e =>
      have stops : r.sendLine avg accepts source = .error (e, r) := by
        unfold sendLine
        rw [had]
        rfl
      rw [stops]
      exact ⟨rfl, .inl ⟨rfl, rfl⟩, rfl⟩
    | ok line =>
      cases goes : goesFirst avg r.policy r.batchBytes r.batch line.utf8ByteSize with
      | false =>
        have joins : (budgetCutter avg).cut r.policy r.batch line = false := by
          rw [whole] at goes
          exact goes
        rw [sendLine_joins had goes, feed, joins]
        refine (ih _ ?_ turn).joined rfl rfl rfl rfl rfl
        simp [bytes, whole]
      | true =>
        have cuts : (budgetCutter avg).cut r.policy r.batch line = true := by
          rw [whole] at goes
          exact goes
        rw [feed, cuts]
        cases taken : accepts r.log r.batch with
        | false =>
          obtain ⟨t, stops, log, recorded⟩ := sendLine_refused had goes taken
          rw [stops]
          refine ⟨?_, .inr ⟨?_, rfl⟩, ?_⟩
          · simp [deliver, taken, log]
          · simp [deliver, taken]
          · unfold Recorded
            rw [log, recorded]
        | true =>
          rw [sendLine_goes had goes taken]
          refine (ih _ ?_ turn).sentFirst taken rfl rfl rfl rfl rfl
          simp [bytes]

variable (avg accepts) in
/-- What a unit comes to: all its lines are sent, or the sink refused a batch, or a line was
    missing, and then the lines held back are dropped. -/
theorem sendUnit_outcome (n : Nat) (r : UnitRun F) (inside : r.curIdx < max source.len 1) :
    let taken := source.take n r.drawn r.curIdx
    let fed := feed (budgetCutter avg) r.policy [] taken.1
    match r.sendUnit avg accepts source n with
    | .ok t => taken.2 = none ∧ deliver accepts r.log fed.batches = (t.log, true) ∧ t.sent = n ∧
        t.policy = fed.state ∧ t.drawn = r.drawn + n ∧
        t.curIdx = (r.curIdx + n) % max source.len 1 ∧ Recorded r t
    | .error (e, t) =>
        Stopped accepts (if taken.2 = none then fed.batches else fed.out) taken.2 r e t := by
  intro taken fed
  unfold sendUnit
  by_cases no_line : n = 0
  · subst no_line
    rw [if_pos rfl]
    refine ⟨rfl, rfl, rfl, rfl, rfl, ?_, rfl⟩
    exact (Nat.mod_eq_of_lt inside).symm
  · rw [if_neg no_line]
    have outcome : LoopOutcome accepts source n fed taken.2 r.start
        (sendLines avg accepts source n r.start) := sendLines_outcome n r.start rfl inside
    cases loop : sendLines avg accepts source n r.start with
    | error stopped =>
      rw [loop] at outcome
      obtain ⟨delivered, cause, books⟩ := outcome
      change Stopped accepts _ _ r stopped.1 stopped.2
      rcases cause with ⟨sent, stop⟩ | ⟨refused, e⟩
      · rw [if_neg (by simp [stop])]
        exact ⟨delivered, .inl ⟨sent, stop⟩, books⟩
      · have none_later : deliver accepts r.log fed.batches = deliver accepts r.log fed.out := by
          unfold Fed.batches
          split
          · rfl
          · rw [deliver_append]
            exact if_neg (by simp [show (deliver accepts r.log fed.out).2 = false from refused])
        refine ⟨?_, .inr ⟨?_, e⟩, books⟩
        · split
          · rw [none_later]
            exact delivered
          · exact delivered
        · split
          · rw [none_later]
            exact refused
          · exact refused
    | ok last =>
      rw [loop] at outcome
      obtain ⟨clean, looped⟩ := outcome
      have sent_all : deliver accepts r.log fed.out = (last.log, true) := looped.delivered
      have out_log : last.log = r.log ++ fed.out := deliver_all sent_all
      have lines : fed.out.flatten ++ fed.held = taken.1 := feed_flatten _ _ [] taken.1
      have enough : taken.1.length = n := (source.take_length n r.drawn r.curIdx).2.mp clean
      have books := looped.recorded
      have count := looped.sent
      have begun : r.start.sent = 0 := rfl
      have from_log : r.start.log = r.log := rfl
      have from_recorded : r.start.recorded = r.recorded := rfl
      unfold Recorded at books
      rw [from_log, from_recorded] at books
      rw [from_log, begun] at count
      have sum := congrArg List.length lines
      rw [List.length_append, enough] at sum
      have logged := congrArg (fun log => log.flatten.length) out_log
      simp only [List.flatten_append, List.length_append] at logged
      change match (if last.batch.isEmpty then .ok last else last.flush accepts :
        Except (UnitError × UnitRun F) (UnitRun F)) with
        | .ok t => _
        | .error (e, t) => _
      cases empty : last.batch.isEmpty with
      | true =>
        have none_held : fed.held = [] := by
          rw [← looped.batch]
          exact List.isEmpty_iff.mp empty
        have all : fed.batches = fed.out := by simp [Fed.batches, none_held]
        rw [if_pos rfl]
        refine ⟨clean, ?_, ?_, looped.policy, looped.drawn, looped.curIdx, ?_⟩
        · rw [all]
          exact sent_all
        · rw [none_held] at sum
          simp only [List.length_nil] at sum
          omega
        · unfold Recorded
          omega
      | false =>
        have some_held : fed.held.isEmpty = false := by
          rw [← looped.batch]
          exact empty
        have all : fed.batches = fed.out ++ [last.batch] := by
          rw [Fed.batches, some_held, looped.batch]
          rfl
        have tail : deliver accepts r.log fed.batches = deliver accepts last.log [last.batch] := by
          rw [all, deliver_append, sent_all]
          rfl
        rw [if_neg (by simp)]
        cases accepted : accepts last.log last.batch with
        | true =>
          rw [flush_accepted accepted]
          refine ⟨clean, ?_, ?_, looped.policy, looped.drawn, looped.curIdx, ?_⟩
          · rw [tail]
            simp [deliver, accepted]
          · rw [← looped.batch] at sum
            change last.sent + last.batch.length = n
            omega
          · unfold Recorded
            simp only [List.flatten_append, List.length_append, List.flatten_cons, List.flatten_nil,
              List.append_nil]
            omega
        | false =>
          rw [flush_refused accepted]
          refine ⟨?_, .inr ⟨?_, rfl⟩, ?_⟩
          · rw [if_pos clean, tail]
            simp [deliver, accepted]
          · rw [if_pos clean, tail]
            simp [deliver, accepted]
          · unfold Recorded
            omega

/-- A batch that may go to the sink. -/
def FitsBatch (batch : List String) : Prop :=
  batch.length ≤ batchFlushLines ∧ (batch.length ≤ 1 ∨ bytes batch ≤ batchBudgetMax)

/-- The next batch begins with a line that no longer fitted. -/
def FullBefore (batch next : List String) : Prop :=
  batchFlushLines ≤ batch.length ∨
    ∃ line rest, next = line :: rest ∧ batchBudgetMin < bytes batch + line.utf8ByteSize

theorem fitsBatch_single (line : String) : FitsBatch [line] :=
  ⟨by simp [batchFlushLines], .inl (by simp)⟩

theorem fitsBatch_joins (policy : BatchSizePolicy F) (batch : List String) (line : String)
    (stays : (budgetCutter avg).cut policy batch line = false) (_ : FitsBatch batch) :
    FitsBatch (batch ++ [line]) := by
  have room := (policy.budgetBytes_bounds avg).2
  simp only [budgetCutter, goesFirst, Bool.or_eq_false_iff, Bool.and_eq_false_iff,
    decide_eq_false_iff_not, Bool.not_eq_false', List.isEmpty_iff] at stays
  obtain ⟨within, short⟩ := stays
  refine ⟨by simp; omega, ?_⟩
  rcases within with fits | rfl
  · right
    simp only [bytes, List.map_append, List.sum_append, List.map_cons, List.map_nil,
      List.sum_cons, List.sum_nil] at fits ⊢
    omega
  · exact .inl (by simp)

theorem cut_fullBefore (batch next : List String)
    (cut : CutBefore (budgetCutter avg) batch next) : FullBefore batch next := by
  obtain ⟨policy, line, rest, rfl, goes⟩ := cut
  have room := (policy.budgetBytes_bounds avg).1
  simp only [budgetCutter, goesFirst, Bool.or_eq_true, Bool.and_eq_true, decide_eq_true_eq] at goes
  rcases goes with ⟨big, _⟩ | long
  · exact .inr ⟨line, rest, rfl, by omega⟩
  · exact .inl long

theorem budgetCutter_holds (policy : BatchSizePolicy F) (line : String) :
    (budgetCutter avg).cut policy [] line = false := by
  simp [budgetCutter, goesFirst, batchFlushLines]

/-- Batches cut from lines have lines, fit, and are cut only where they are full. -/
structure WellCut (batches : List (List String)) : Prop where
  some_line : ∀ batch ∈ batches, batch ≠ []
  fits : ∀ batch ∈ batches, FitsBatch batch
  full : batches.IsChain FullBefore

theorem WellCut.of_front {front batches : List (List String)} (cut : WellCut batches)
    (first : front <+: batches) : WellCut front :=
  ⟨fun batch member => cut.some_line batch (first.subset member),
    fun batch member => cut.fits batch (first.subset member),
    List.IsChain.prefix cut.full first⟩

variable (avg) in
theorem feed_wellCut (policy : BatchSizePolicy F) (lines : List String) :
    WellCut (feed (budgetCutter avg) policy [] lines).batches := by
  obtain ⟨sent, held⟩ := feed_fits (c := budgetCutter avg) fitsBatch_single fitsBatch_joins policy []
    lines ⟨by simp, .inl (by simp)⟩
  refine ⟨?_, ?_, ?_⟩
  · intro batch member
    rcases Fed.mem_batches member with among | ⟨_, some_line⟩
    · exact feed_out_ne_nil budgetCutter_holds policy [] lines batch among
    · exact some_line
  · intro batch member
    rcases Fed.mem_batches member with among | ⟨rfl, _⟩
    · exact sent batch among
    · exact held
  · have chained := feed_cutBefore (budgetCutter avg) policy [] lines
    have sent_chained := List.IsChain.prefix chained (Fed.batches_front _)
    exact sent_chained.imp cut_fullBefore

variable (avg) in
theorem wellCut_out (policy : BatchSizePolicy F) (lines : List String) :
    (feed (budgetCutter avg) policy [] lines).out <+:
      (feed (budgetCutter avg) policy [] lines).batches := by
  unfold Fed.batches
  split
  · exact List.prefix_rfl
  · exact List.prefix_append _ _

/-- Delivered batches that are not all of them leave lines behind. -/
theorem front_shorter {front batches : List (List String)} (cut : WellCut batches)
    (first : front <+: batches) (some_left : front ≠ batches) :
    front.flatten.length < batches.flatten.length := by
  obtain ⟨more, rfl⟩ := first
  cases more with
  | nil => exact absurd (List.append_nil front).symm some_left
  | cons batch rest =>
    have some_line := List.length_pos_of_ne_nil
      (cut.some_line batch (List.mem_append_right _ (List.mem_cons_self ..)))
    simp only [List.flatten_append, List.flatten_cons, List.length_append]
    omega

/-- What the sink has got of a unit, `front`, and where the pipeline stands after it. -/
structure UnitSent (source : LineSource) (n : Nat) (r : UnitRun F) (front : List (List String))
    (t : UnitRun F) : Prop where
  log : t.log = r.log ++ front
  wellCut : WellCut front
  lines : front.flatten <+: (source.take n r.drawn r.curIdx).1
  recorded : t.recorded = r.recorded + front.flatten.length

structure UnitDone (source : LineSource) (n : Nat) (r : UnitRun F) (front : List (List String))
    (t : UnitRun F) : Prop extends UnitSent source n r front t where
  all : front.flatten.length = n
  sent : t.sent = n
  drawn : t.drawn = r.drawn + n
  curIdx : t.curIdx = (r.curIdx + n) % max source.len 1

variable (avg source) in
/-- A unit is sent whole, or a first part of its lines is. -/
theorem sendUnit_result (accepts : List (List String) → List String → Bool) (n : Nat)
    (r : UnitRun F) (inside : r.curIdx < max source.len 1) :
    ∃ front t, (r.sendUnit avg accepts source n = .ok t ∧ UnitDone source n r front t) ∨
      ∃ e, r.sendUnit avg accepts source n = .error (e, t) ∧ UnitSent source n r front t ∧
        front.flatten.length < n := by
  have outcome := sendUnit_outcome avg accepts n r inside
  have bound := source.take_length n r.drawn r.curIdx
  have wellCut := feed_wellCut avg r.policy (source.take n r.drawn r.curIdx).1
  have same := feed_batches_flatten (budgetCutter avg) r.policy (source.take n r.drawn r.curIdx).1
  have cut_off := wellCut_out avg r.policy (source.take n r.drawn r.curIdx).1
  cases result : r.sendUnit avg accepts source n with
  | ok t =>
    rw [result] at outcome
    obtain ⟨clean, delivered, sent, _, drawn, curIdx, books⟩ := outcome
    have logged := deliver_all delivered
    refine ⟨_, t, .inl ⟨rfl, ⟨logged, wellCut, ?_, ?_⟩, ?_, sent, drawn, curIdx⟩⟩
    · rw [same]
    · unfold Recorded at books
      rw [logged, List.flatten_append, List.length_append] at books
      omega
    · rw [same]
      exact bound.2.mp clean
  | error stopped =>
    rw [result] at outcome
    obtain ⟨e, t⟩ := stopped
    obtain ⟨delivered, cause, books⟩ := outcome
    have among : (if (source.take n r.drawn r.curIdx).2 = none then
        (feed (budgetCutter avg) r.policy [] (source.take n r.drawn r.curIdx).1).batches
        else (feed (budgetCutter avg) r.policy [] (source.take n r.drawn r.curIdx).1).out) <+:
        (feed (budgetCutter avg) r.policy [] (source.take n r.drawn r.curIdx).1).batches := by
      split
      · exact List.prefix_rfl
      · exact cut_off
    generalize (if (source.take n r.drawn r.curIdx).2 = none then
        (feed (budgetCutter avg) r.policy [] (source.take n r.drawn r.curIdx).1).batches
        else (feed (budgetCutter avg) r.policy [] (source.take n r.drawn r.curIdx).1).out) = out
      at among delivered cause
    obtain ⟨front, first, reached, whole⟩ := deliver_front accepts r.log out
    have lines : front.flatten <+: (source.take n r.drawn r.curIdx).1 := by
      rw [← same]
      exact List.IsPrefix.flatten (first.trans among)
    have logged : t.log = r.log ++ front := by rw [← delivered, reached]
    refine ⟨front, t, .inr ⟨e, rfl, ⟨logged, wellCut.of_front (first.trans among), lines, ?_⟩, ?_⟩⟩
    · unfold Recorded at books
      rw [logged, List.flatten_append, List.length_append] at books
      omega
    · have short := lines.length_le
      rcases cause with ⟨_, stop⟩ | ⟨refused, _⟩
      · have missing : (source.take n r.drawn r.curIdx).1.length ≠ n := fun enough => by
          rw [bound.2.mpr enough] at stop
          cases stop
        omega
      · have left : front ≠ out := fun all => by
          rw [whole.mpr all] at refused
          cases refused
        have shorter := front_shorter (wellCut.of_front among) first left
        have most := (List.IsPrefix.flatten among).length_le
        rw [same] at most
        omega

variable (avg source) in
/-- Whatever the sink refuses and wherever the lines end, the sink gets a first part of the lines of
    a unit in their order, in batches that fit and are cut only where they are full, and the
    collectors record just these; the unit ends well exactly if all its lines were sent. -/
theorem unit_is_sent_in_order (accepts : List (List String) → List String → Bool) (n : Nat)
    (r : UnitRun F) (inside : r.curIdx < max source.len 1) :
    ∃ front t, (r.sendUnit avg accepts source n = .ok t ∨
        ∃ e, r.sendUnit avg accepts source n = .error (e, t)) ∧
      t.log = r.log ++ front ∧ front.flatten <+: (source.take n r.drawn r.curIdx).1 ∧
      t.recorded = r.recorded + front.flatten.length ∧ WellCut front ∧
      (r.sendUnit avg accepts source n = .ok t ↔ front.flatten.length = n) := by
  obtain ⟨front, t, whole | ⟨e, stops, part, short⟩⟩ :=
    sendUnit_result avg source accepts n r inside
  · obtain ⟨result, done⟩ := whole
    refine ⟨front, t, .inl result, done.log, done.lines, done.recorded, done.wellCut, ?_⟩
    exact ⟨fun _ => done.all, fun _ => result⟩
  · refine ⟨front, t, .inr ⟨e, stops⟩, part.log, part.lines, part.recorded, part.wellCut, ?_⟩
    constructor
    · intro result
      rw [stops] at result
      cases result
    · intro all
      omega

theorem three_lines_of_two_samples : 0 < max (sampleLines ["a", "b"]).len 1 ∧
    ∃ front t, (sendUnit exactAverage (fun _ _ => true) (sampleLines ["a", "b"]) 3
          ⟨0, 0, .new exactAverage 0, [], 0, [], 0, 0⟩ = .ok t ∨
        ∃ e, sendUnit exactAverage (fun _ _ => true) (sampleLines ["a", "b"]) 3
          ⟨0, 0, .new exactAverage 0, [], 0, [], 0, 0⟩ = .error (e, t)) ∧
      t.log = [] ++ front ∧ front.flatten <+: ((sampleLines ["a", "b"]).take 3 0 0).1 ∧
      t.recorded = 0 + front.flatten.length ∧ WellCut front ∧
      (sendUnit exactAverage (fun _ _ => true) (sampleLines ["a", "b"]) 3
          ⟨0, 0, .new exactAverage 0, [], 0, [], 0, 0⟩ = .ok t ↔ front.flatten.length = 3) :=
  ⟨by decide, unit_is_sent_in_order exactAverage (sampleLines ["a", "b"]) (fun _ _ => true) 3
    ⟨0, 0, .new exactAverage 0, [], 0, [], 0, 0⟩ (by decide)⟩

end UnitRun

end WarpMotor.Generator
