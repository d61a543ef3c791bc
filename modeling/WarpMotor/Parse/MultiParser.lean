import Mathlib.Data.List.Sort
import WarpMotor.Lib.Runs
import WarpMotor.Event
import WarpMotor.Record

/-!
Matching one event against the rules of the engine. A rule is an evaluator
and a list of annotation functions; both come from the rule language and are
parameters here, as is the order on parse progress. The engine tries the
rules in their current order, takes the first parse that leaves at most a
fifth of the payload, and otherwise reports the attempt that got furthest.
The order changes between events: `optimized` sorts by hit count.
Statistics collectors and output channels of a rule are separate.
-/
namespace WarpMotor

inductive WparseReason where
  | plugin (detail : String)
  | lineProc (detail : String)
  | notMatch
  | uvs (reason : UnifiedReason)
  deriving DecidableEq, Repr

structure WparseError where
  reason : WparseReason
  detail : Option String
  deriving DecidableEq, Repr

/-- Parse progress and the digest, both from outside the engine. -/
structure ParserApi (Progress : Type) where
  noProgress : Progress
  isDeeperThan : Progress → Progress → Bool
  consumed : Progress → Nat
  md5 : List UInt8 → String

structure ParseOption where
  genMsgId : Bool
  genEventMd5 : Bool
  globalTags : Option GlobalTags
  deriving DecidableEq, Repr

abbrev SideRecords := List (String × DataRecord)
abbrev AnnotationFunc := SourceEvent → DataRecord → Except WparseError (DataRecord × SideRecords)

structure WplPipeline (Progress : Type) where
  parser : Nat → RawData → Except WparseError (DataRecord × String) × Progress
  funVec : List AnnotationFunc
  hitCnt : Nat
  index : Nat
  wplKey : String
  autoMatch : Bool
  late : Bool

structure ParseFailInfo where
  bestWpl : String
  bestError : WparseError
  depth : Nat
  deriving DecidableEq, Repr

inductive ProcessResult where
  | success (wplKey : String) (record : DataRecord) (sideRecords : SideRecords)
  | partialParse (wplKey : String) (record : DataRecord) (residue : String) (sideRecords : SideRecords)
  | miss (info : ParseFailInfo)
  deriving DecidableEq, Repr

def ProcessResult.isParsed : ProcessResult → Bool
  | .success .. => true
  | .partialParse .. => true
  | .miss _ => false

def RawData.asBytes : RawData → List UInt8
  | .string text => text.toUTF8.toList
  | .bytes data => data
  | .arcBytes data => data

section
variable {Progress : Type}

/-- The annotation functions in order; the first error is the result. -/
def annotate (event : SourceEvent) :
    List AnnotationFunc → DataRecord → SideRecords → Except WparseError (DataRecord × SideRecords)
  | [], record, sides => .ok (record, sides)
  | func :: rest, record, sides =>
    match func event record with
    | .error e => .error e
    | .ok (record, more) => annotate event rest record (sides ++ more)

namespace WplPipeline

def finishSuccess (p : WplPipeline Progress) (record : DataRecord) (left : String)
    (event : SourceEvent) : Except WparseError (DataRecord × String × SideRecords) :=
  match annotate event p.funVec record [] with
  | .error e => .error e
  | .ok (record, sides) => .ok (record, left, sides)

def proc (p : WplPipeline Progress) (event : SourceEvent) :
    Except WparseError (DataRecord × String × SideRecords) × Progress :=
  match p.parser event.eventId event.payload with
  | (.ok (record, left), progress) => (p.finishSuccess record left event, progress)
  | (.error e, progress) => (.error e, progress)

/-- `match_order_key`: normal rules first, then hit count descending, then declaration order. -/
def matchOrderLe (a b : WplPipeline Progress) : Bool :=
  if a.late = b.late then
    decide (b.hitCnt < a.hitCnt) || (decide (a.hitCnt = b.hitCnt) && decide (a.index ≤ b.index))
  else !a.late

/-- `initial_order_key`: normal rules first, then declaration order. -/
def initialOrderLe (a b : WplPipeline Progress) : Bool :=
  if a.late = b.late then decide (a.index ≤ b.index) else !a.late

end WplPipeline

def stampEventMeta (api : ParserApi Progress) (event : SourceEvent) (setting : ParseOption)
    (record : DataRecord) : DataRecord :=
  let record :=
    if setting.genMsgId then
      let record := record.setId event.eventId
      let record := record.append (DataField.fromChars "wp_src_key" event.srcKey)
      let record := match event.upsIp with
        | some ip => record.append (DataField.fromIp "wp_src_ip" ip)
        | none => record
      if setting.genEventMd5 then
        record.append (DataField.fromChars "wp_event_md5" (api.md5 event.payload.asBytes))
      else record
    else record
  match setting.globalTags with
  | some tags => applyGlobalTags record tags
  | none => record

def stampRecordAndSides (api : ParserApi Progress) (event : SourceEvent) (setting : ParseOption)
    (record : DataRecord) (sides : SideRecords) : DataRecord × SideRecords :=
  (stampEventMeta api event setting record,
    sides.map (fun side => (side.1, stampEventMeta api event setting side.2)))

/-- The attempt a miss would be attributed to. -/
structure Attribution (Progress : Type) where
  idx : Option Nat
  progress : Progress
  error : Option WparseError

inductive LoopEnd (Progress : Type) where
  | returned (result : ProcessResult)
  | missed (best : Attribution Progress)

def dataError : WparseError := ⟨.uvs .dataError, none⟩

/-- The loop over the rules from position `idx` on. A rule that is tried and not returned leaves
    its trace in `best`; the rules are handed back with their hit counts. The `break` at the
    last position ends a loop that is over anyway. -/
def parseLoop (api : ParserApi Progress) (event : SourceEvent) (setting : ParseOption) :
    Nat → List (WplPipeline Progress) → Attribution Progress →
      List (WplPipeline Progress) × LoopEnd Progress
  | _, [], best => ([], .missed best)
  | idx, p :: rest, best =>
    if p.autoMatch then
      let (parsed, progress) := p.proc event
      let isCandidate := best.idx.isNone || api.isDeeperThan progress best.progress
      match parsed with
      | .ok (record, left, sides) =>
        let hit := { p with hitCnt := p.hitCnt + 1 }
        let unParsed := RawData.string left
        if unParsed.isEmpty then
          let (record, sides) := stampRecordAndSides api event setting record sides
          (hit :: rest, .returned (.success p.wplKey record sides))
        else if event.payload.len < unParsed.len * 5 then
          let best := if isCandidate then ⟨some idx, progress, some dataError⟩ else best
          let (rest, result) := parseLoop api event setting (idx + 1) rest best
          (hit :: rest, result)
        else
          let (record, sides) := stampRecordAndSides api event setting record sides
          (hit :: rest, .returned (.partialParse p.wplKey record left sides))
      | .error e =>
        if e.reason = .uvs .dataError then
          let best := if isCandidate then ⟨some idx, progress, some e⟩ else best
          let (rest, result) := parseLoop api event setting (idx + 1) rest best
          (p :: rest, result)
        else if best.error.isNone then
          (p :: rest, .missed ⟨some idx, progress, some e⟩)
        else
          let (rest, result) := parseLoop api event setting (idx + 1) rest best
          (p :: rest, result)
    else
      let (rest, result) := parseLoop api event setting (idx + 1) rest best
      (p :: rest, result)

structure MultiParser (Progress : Type) where
  pipelines : List (WplPipeline Progress)

namespace MultiParser

def new (pipelines : List (WplPipeline Progress)) : MultiParser Progress :=
  ⟨pipelines.insertionSort (fun a b => a.initialOrderLe b = true)⟩

def missInfo (api : ParserApi Progress) (pipelines : List (WplPipeline Progress))
    (best : Attribution Progress) : ParseFailInfo :=
  { bestWpl := ((best.idx.bind (fun i => pipelines[i]?)).map WplPipeline.wplKey).getD ""
    bestError := best.error.getD ⟨.uvs .systemError, none⟩
    depth := api.consumed best.progress }

def parseEvent (api : ParserApi Progress) (event : SourceEvent) (setting : ParseOption)
    (mp : MultiParser Progress) : ProcessResult × MultiParser Progress :=
  match parseLoop api event setting 0 mp.pipelines ⟨none, api.noProgress, none⟩ with
  | (pipelines, .returned result) => (result, ⟨pipelines⟩)
  | (pipelines, .missed best) => (.miss (missInfo api pipelines best), ⟨pipelines⟩)

def optimized (mp : MultiParser Progress) : MultiParser Progress :=
  ⟨(mp.pipelines.insertionSort (fun a b => a.matchOrderLe b = true)).map
    (fun p => { p with hitCnt := 0 })⟩

end MultiParser

/-- The rule parses the event: it leaves at most a fifth of the payload. -/
def WplPipeline.parses (p : WplPipeline Progress) (event : SourceEvent) : Bool :=
  match (p.proc event).1 with
  | .ok (_, left, _) => decide ((RawData.string left).len * 5 ≤ event.payload.len)
  | .error _ => false

/-- The rule fails with something other than a `DataError`. -/
def WplPipeline.rejectsOutright (p : WplPipeline Progress) (event : SourceEvent) : Bool :=
  match (p.proc event).1 with
  | .ok _ => false
  | .error e => decide (e.reason ≠ .uvs .dataError)

/-- Some rule that takes part in matching parses the event. -/
def Parsable (rules : List (WplPipeline Progress)) (event : SourceEvent) : Prop :=
  ∃ rule ∈ rules, rule.autoMatch = true ∧ rule.parses event = true

def LoopEnd.Returned : LoopEnd Progress → Prop
  | .returned _ => True
  | .missed _ => False

theorem parsable_cons (p : WplPipeline Progress) (rest : List (WplPipeline Progress))
    (event : SourceEvent) :
    Parsable (p :: rest) event ↔
      (p.autoMatch = true ∧ p.parses event = true) ∨ Parsable rest event := by
  simp [Parsable]

/-- A loop that has tried some rule: the attribution names it and holds its error. -/
def Attribution.Settled (best : Attribution Progress) : Prop :=
  best.idx ≠ none ∧ best.error ≠ none

/-- No rule has been tried yet. -/
def Attribution.Fresh (best : Attribution Progress) : Prop :=
  best.idx = none ∧ best.error = none

section Loop
attribute [local simp] parseLoop

variable (api : ParserApi Progress) (event : SourceEvent) (setting : ParseOption) (idx : Nat)
  {p : WplPipeline Progress} (rest : List (WplPipeline Progress)) (best : Attribution Progress)

theorem parseLoop_skip (skipped : ¬ p.autoMatch = true) :
    (parseLoop api event setting idx (p :: rest) best).2 =
      (parseLoop api event setting (idx + 1) rest best).2 := by
  rw [parseLoop, if_neg skipped]

/-- A tried rule that parses the event ends the loop with its result. -/
theorem parseLoop_parses (tried : p.autoMatch = true) (parses : p.parses event = true) :
    ∃ result, (parseLoop api event setting idx (p :: rest) best).2 = .returned result ∧
      result.isParsed = true := by
  rw [parseLoop, if_pos tried]
  unfold WplPipeline.parses at parses
  cases outcome : p.proc event with
  | mk parsed progress =>
    rw [outcome] at parses
    cases parsed with
    | error e => cases parses
    | ok value =>
      obtain ⟨record, left, sides⟩ := value
      have enough : ¬ event.payload.len < (RawData.string left).len * 5 := by
        have small := of_decide_eq_true parses
        omega
      dsimp only
      split
      · exact ⟨_, rfl, rfl⟩
      · exact ⟨_, rfl, rfl⟩

/-- Before any other attempt, an error that is no `DataError` breaks the loop. -/
theorem parseLoop_breaks (tried : p.autoMatch = true) (rejects : p.rejectsOutright event = true)
    (fresh : best.Fresh) :
    ∃ last, (parseLoop api event setting idx (p :: rest) best).2 = .missed last := by
  rw [parseLoop, if_pos tried]
  unfold WplPipeline.rejectsOutright at rejects
  cases outcome : p.proc event with
  | mk parsed progress =>
    rw [outcome] at rejects
    cases parsed with
    | ok value => cases rejects
    | error e =>
      dsimp only
      rw [if_neg (of_decide_eq_true rejects), if_pos (by simp [fresh.2])]
      exact ⟨_, rfl⟩

/-- In every other case the loop goes on, and from then on an error is on record. -/
theorem parseLoop_continues (tried : p.autoMatch = true) (fails : ¬ p.parses event = true)
    (goes_on : best.Settled ∨ best.Fresh ∧ ¬ p.rejectsOutright event = true) :
    ∃ next : Attribution Progress, next.Settled ∧
      (parseLoop api event setting idx (p :: rest) best).2 =
        (parseLoop api event setting (idx + 1) rest next).2 := by
  rw [parseLoop, if_pos tried]
  unfold WplPipeline.parses at fails
  unfold WplPipeline.rejectsOutright at goes_on
  cases outcome : p.proc event with
  | mk parsed progress =>
    rw [outcome] at fails goes_on
    -- a candidate replaces the attribution; without one the loop has already settled
    have settle : ∀ e : WparseError, (if (best.idx.isNone ||
        api.isDeeperThan progress best.progress) = true then
          (⟨some idx, progress, some e⟩ : Attribution Progress) else best).Settled := by
      intro e
      split
      · exact ⟨by simp, by simp⟩
      · rename_i passed_over
        rcases goes_on with settled | ⟨fresh, -⟩
        · exact settled
        · simp [fresh.1] at passed_over
    cases parsed with
    | ok value =>
      obtain ⟨record, left, sides⟩ := value
      have short : event.payload.len < (RawData.string left).len * 5 := by
        have large : ¬ (RawData.string left).len * 5 ≤ event.payload.len := by simpa using fails
        omega
      have some_left : ¬ (RawData.string left).isEmpty = true := by
        intro empty
        have zero : (RawData.string left).len = 0 := by simpa [RawData.isEmpty] using empty
        omega
      dsimp only
      rw [if_neg some_left, if_pos short]
      exact ⟨_, settle dataError, rfl⟩
    | error e =>
      dsimp only
      by_cases data : e.reason = .uvs .dataError
      · rw [if_pos data]
        exact ⟨_, settle e, rfl⟩
      · have settled : best.Settled := by
          rcases goes_on with settled | ⟨-, tolerated⟩
          · exact settled
          · exact absurd (decide_eq_true data) tolerated
        rw [if_neg data, if_neg (by simpa using settled.2)]
        exact ⟨best, settled, rfl⟩

end Loop

/-- Once an error is on record the order of the remaining rules does not matter. -/
theorem parseLoop_settled (api : ParserApi Progress) (event : SourceEvent) (setting : ParseOption)
    (idx : Nat) (rules : List (WplPipeline Progress)) (best : Attribution Progress)
    (settled : best.Settled) :
    (parseLoop api event setting idx rules best).2.Returned ↔ Parsable rules event := by
  induction rules generalizing idx best with
  | nil => simp [parseLoop, Parsable, LoopEnd.Returned]
  | cons p rest ih =>
    rw [parsable_cons]
    by_cases tried : p.autoMatch = true
    · by_cases parses : p.parses event = true
      · obtain ⟨result, returned, -⟩ := parseLoop_parses api event setting idx rest best tried parses
        rw [returned]
        exact ⟨fun _ => Or.inl ⟨tried, parses⟩, fun _ => trivial⟩
      · obtain ⟨next, still, continued⟩ :=
          parseLoop_continues api event setting idx rest best tried parses (Or.inl settled)
        rw [continued, ih (idx + 1) next still]
        simp [parses]
    · rw [parseLoop_skip api event setting idx rest best tried, ih (idx + 1) best settled]
      simp [tried]

/-- The rule that is tried first fails with something other than a `DataError`. -/
def FirstRejects (rules : List (WplPipeline Progress)) (event : SourceEvent) : Prop :=
  ∃ first, rules.find? (fun rule => rule.autoMatch) = some first ∧
    first.rejectsOutright event = true

theorem parses_not_rejects {p : WplPipeline Progress} {event : SourceEvent}
    (parses : p.parses event = true) : ¬ p.rejectsOutright event = true := by
  unfold WplPipeline.parses at parses
  unfold WplPipeline.rejectsOutright
  cases outcome : (p.proc event).1 with
  | ok value => simp
  | error e =>
    rw [outcome] at parses
    cases parses

theorem parseLoop_fresh (api : ParserApi Progress) (event : SourceEvent) (setting : ParseOption)
    (idx : Nat) (rules : List (WplPipeline Progress)) (best : Attribution Progress)
    (fresh : best.Fresh) :
    (parseLoop api event setting idx rules best).2.Returned ↔
      Parsable rules event ∧ ¬ FirstRejects rules event := by
  induction rules generalizing idx with
  | nil => simp [parseLoop, Parsable, LoopEnd.Returned]
  | cons p rest ih =>
    by_cases tried : p.autoMatch = true
    · have first : FirstRejects (p :: rest) event ↔ p.rejectsOutright event = true := by
        simp [FirstRejects, tried]
      rw [parsable_cons, first]
      by_cases parses : p.parses event = true
      · obtain ⟨result, returned, -⟩ := parseLoop_parses api event setting idx rest best tried parses
        rw [returned]
        exact ⟨fun _ => ⟨Or.inl ⟨tried, parses⟩, parses_not_rejects parses⟩, fun _ => trivial⟩
      · by_cases rejects : p.rejectsOutright event = true
        · obtain ⟨last, missed⟩ := parseLoop_breaks api event setting idx rest best tried rejects fresh
          rw [missed]
          simp [rejects, LoopEnd.Returned]
        · obtain ⟨next, settled, continued⟩ := parseLoop_continues api event setting idx rest best
            tried parses (Or.inr ⟨fresh, rejects⟩)
          rw [continued, parseLoop_settled api event setting (idx + 1) rest next settled]
          simp [parses, rejects]
    · have first : FirstRejects (p :: rest) event ↔ FirstRejects rest event := by
        simp [FirstRejects, tried]
      rw [parseLoop_skip api event setting idx rest best tried, ih (idx + 1), parsable_cons, first]
      simp [tried]

theorem parseLoop_returned_parsed (api : ParserApi Progress) (event : SourceEvent)
    (setting : ParseOption) (idx : Nat) (rules : List (WplPipeline Progress))
    (best : Attribution Progress) {result : ProcessResult}
    (returned : (parseLoop api event setting idx rules best).2 = .returned result) :
    result.isParsed = true := by
  induction rules generalizing idx best with
  | nil => cases returned
  | cons p rest ih =>
    rw [parseLoop] at returned
    split at returned
    · dsimp only at returned
      split at returned
      · split at returned
        · cases returned
          rfl
        · split at returned
          · exact ih _ _ returned
          · cases returned
            rfl
      · split at returned
        · exact ih _ _ returned
        · split at returned
          · cases returned
          · exact ih _ _ returned
    · exact ih _ _ returned

/-- Exactly when an event is parsed, in the order the rules stand in now. -/
theorem parseEvent_isParsed (api : ParserApi Progress) (event : SourceEvent)
    (setting : ParseOption) (mp : MultiParser Progress) :
    (mp.parseEvent api event setting).1.isParsed = true ↔
      Parsable mp.pipelines event ∧ ¬ FirstRejects mp.pipelines event := by
  have loop := parseLoop_fresh api event setting 0 mp.pipelines ⟨none, api.noProgress, none⟩
    ⟨rfl, rfl⟩
  have parsed := @parseLoop_returned_parsed _ api event setting 0 mp.pipelines
    ⟨none, api.noProgress, none⟩
  rw [← loop]
  unfold MultiParser.parseEvent
  split
  · rename_i pipelines result outcome
    rw [outcome] at parsed ⊢
    exact ⟨fun _ => trivial, fun _ => parsed rfl⟩
  · rename_i pipelines best outcome
    rw [outcome]
    simp [ProcessResult.isParsed, LoopEnd.Returned]

/-- A rule without its hit count: all that the outcome of a parse depends on. -/
def WplPipeline.rule (p : WplPipeline Progress) : WplPipeline Progress := { p with hitCnt := 0 }

def rulesOf (pipelines : List (WplPipeline Progress)) : List (WplPipeline Progress) :=
  pipelines.map WplPipeline.rule

theorem parsable_rulesOf (pipelines : List (WplPipeline Progress)) (event : SourceEvent) :
    Parsable (rulesOf pipelines) event ↔ Parsable pipelines event := by
  constructor
  · rintro ⟨rule, member, parses⟩
    obtain ⟨p, listed, same⟩ := List.mem_map.mp member
    subst same
    exact ⟨p, listed, parses⟩
  · rintro ⟨p, listed, parses⟩
    exact ⟨p.rule, List.mem_map_of_mem listed, parses⟩

theorem parseLoop_rules (api : ParserApi Progress) (event : SourceEvent) (setting : ParseOption)
    (idx : Nat) (rules : List (WplPipeline Progress)) (best : Attribution Progress) :
    rulesOf (parseLoop api event setting idx rules best).1 = rulesOf rules := by
  have counted : ∀ p : WplPipeline Progress, { p with hitCnt := p.hitCnt + 1 }.rule = p.rule :=
    fun _ => rfl
  have cons : ∀ (p : WplPipeline Progress) (ps : List (WplPipeline Progress)),
      rulesOf (p :: ps) = p.rule :: rulesOf ps := fun _ _ => rfl
  induction rules generalizing idx best with
  | nil => rfl
  | cons p rest ih =>
    rw [parseLoop]
    split
    · dsimp only
      split
      · split
        · simp only [cons, counted]
        · split <;> simp only [cons, counted, ih]
      · split
        · simp only [cons, ih]
        · split <;> simp only [cons, ih]
    · simp only [cons, ih]

/-- What the engine does to a parser over time. -/
inductive ParserOp where
  | parse (event : SourceEvent) (setting : ParseOption)
  | optimize

def MultiParser.step (api : ParserApi Progress) (mp : MultiParser Progress) :
    ParserOp → MultiParser Progress
  | .parse event setting => (mp.parseEvent api event setting).2
  | .optimize => mp.optimized

/-- No operation adds, drops or changes a rule; only order and hit counts move. -/
theorem step_rules (api : ParserApi Progress) (mp : MultiParser Progress) (op : ParserOp) :
    (rulesOf (mp.step api op).pipelines).Perm (rulesOf mp.pipelines) := by
  cases op with
  | parse event setting =>
    have same := parseLoop_rules api event setting 0 mp.pipelines ⟨none, api.noProgress, none⟩
    dsimp only [MultiParser.step, MultiParser.parseEvent]
    split
    all_goals
      rename_i pipelines result outcome
      rw [outcome] at same
      rw [← same]
  | optimize =>
    have sorted := List.perm_insertionSort
      (fun a b : WplPipeline Progress => a.matchOrderLe b = true) mp.pipelines
    have reset : rulesOf mp.optimized.pipelines =
        rulesOf (mp.pipelines.insertionSort (fun a b => a.matchOrderLe b = true)) := by
      simp [rulesOf, MultiParser.optimized, WplPipeline.rule]
    dsimp only [MultiParser.step]
    rw [reset]
    exact sorted.map _

theorem run_rules (api : ParserApi Progress) (rules : List (WplPipeline Progress))
    (history : List ParserOp) :
    (rulesOf (Runs.run (MultiParser.step api) (MultiParser.new rules) history).pipelines).Perm
      (rulesOf rules) := by
  have initial : (rulesOf (MultiParser.new rules).pipelines).Perm (rulesOf rules) :=
    (List.perm_insertionSort _ rules).map _
  refine Runs.run_invariant (fun mp => (rulesOf mp.pipelines).Perm (rulesOf rules)) history ?_
    (MultiParser.new rules) initial
  intro mp op _ same
  exact (step_rules api mp op).trans same

/-- After any history of events and re-orderings, an event is reported as parsed just when some
    matching rule parses it, exactly if no rule parses it or the rule that comes first does not
    fail with something other than a `DataError`. -/
theorem parsed_iff_parsable_iff (api : ParserApi Progress) (rules : List (WplPipeline Progress))
    (history : List ParserOp) (event : SourceEvent) (setting : ParseOption) :
    let mp := Runs.run (MultiParser.step api) (MultiParser.new rules) history
    ((mp.parseEvent api event setting).1.isParsed = true ↔ Parsable rules event) ↔
      ¬ (Parsable rules event ∧ FirstRejects mp.pipelines event) := by
  intro mp
  have same : Parsable mp.pipelines event ↔ Parsable rules event := by
    rw [← parsable_rulesOf mp.pipelines, ← parsable_rulesOf rules]
    have moved := run_rules api rules history
    unfold Parsable
    constructor
    · rintro ⟨rule, member, parses⟩
      exact ⟨rule, moved.mem_iff.mp member, parses⟩
    · rintro ⟨rule, member, parses⟩
      exact ⟨rule, moved.mem_iff.mpr member, parses⟩
  rw [parseEvent_isParsed, same]
  tauto

/-- A rule that answers `NotMatch` hides the rule behind it that parses the whole event. -/
theorem first_rejection_hides_a_parse :
    let api : ParserApi Nat := ⟨0, fun a b => decide (b < a), id, fun _ => ""⟩
    let base : WplPipeline Nat :=
      { parser := fun _ _ => (.error ⟨.notMatch, none⟩, 0), funVec := [], hitCnt := 0, index := 0
        wplKey := "strict", autoMatch := true, late := false }
    let rules := [base, { base with
      parser := fun _ _ => (.ok (⟨0, []⟩, ""), 3), index := 1, wplKey := "chars" }]
    let event : SourceEvent :=
      { eventId := 1, srcKey := "file", payload := .bytes [97, 98, 99], tags := [], upsIp := none }
    Parsable rules event ∧
      ((MultiParser.new rules).parseEvent api event ⟨false, false, none⟩).1 =
        .miss ⟨"strict", ⟨.notMatch, none⟩, 0⟩ := by
  refine ⟨⟨_, List.mem_cons_of_mem _ (List.mem_cons_self ..), rfl, by decide⟩, ?_⟩
  decide

end
end WarpMotor
