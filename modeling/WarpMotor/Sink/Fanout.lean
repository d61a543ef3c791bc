import Mathlib.Data.List.Induction
import WarpMotor.Sink.Dispatcher
import WarpMotor.Sink.Rescue
import WarpMotor.Tags

/-!
What each sink of a routed group is given. The loop over the matching sinks
clones the record for all but the last of them, which it gives the record
itself; a counter tells which one that is. It is modelled here with its two
`expect`s and shown to give every matching sink its own record. From that, a
group gives each sink the units whose record meets its condition, in order,
and the path for groups without models and conditions does the same.
-/
namespace WarpMotor
open DataRecord

/-- `acquire_record_for_target`; an `expect` that fails is its message. -/
def acquireRecordForTarget (baseSlot : Option DataRecord) (remainingTargets : Nat) :
    Except String (DataRecord × Option DataRecord) :=
  if remainingTargets = 1 then
    match baseSlot with
    | some base => .ok (base, none)
    | none => .error "base record already moved"
  else
    match baseSlot with
    | some base => .ok (base, some base)
    | none => .error "base record missing"

def SinkSlot.meets {M : Type} (slot : SinkSlot M) (record : DataRecord) : Bool :=
  match slot.cond with
  | some cond => cond record == slot.filterExpect
  | none => true

namespace SinkDispatcher
variable {M : Type} (d : SinkDispatcher M)

def tagged (slot : SinkSlot M) (record : DataRecord) : DataRecord :=
  d.resolveTagConflicts (appendPreTags record slot.preTags) slot.preTags

/-- The loop of `push_transformed_record` over the sinks, their flags and their lists. -/
def pushMatched (entry : SinkRecUnit) :
    List (SinkSlot M) → List Bool → List SinkPackage → Option DataRecord → Nat →
      Except String (List SinkPackage)
  | slot :: sinks, matched :: flags, units :: perSink, baseSlot, remaining =>
    if matched then
      match acquireRecordForTarget baseSlot remaining with
      | .error failure => .error failure
      | .ok (record, baseSlot) =>
        match pushMatched entry sinks flags perSink baseSlot (remaining - 1) with
        | .error failure => .error failure
        | .ok rest => .ok ((units ++ [{ entry with data := d.tagged slot record }]) :: rest)
    else
      match pushMatched entry sinks flags perSink baseSlot remaining with
      | .error failure => .error failure
      | .ok rest => .ok (units :: rest)
  | _, _, perSink, _, _ => .ok perSink

/-- `push_transformed_record` with its counter and its slot for the base record. -/
def pushMovingLast (perSink : List SinkPackage) (entry : SinkRecUnit) :
    Except String (List SinkPackage) :=
  if perSink.isEmpty then .ok perSink
  else
    let base := d.stampGlobal entry.data
    let flags := d.evaluateSinkMatches base
    let remaining := flags.count true
    if remaining = 0 then .ok perSink
    else d.pushMatched entry d.sinks flags perSink (some base) remaining

/-- What is pushed to the list of one sink. -/
def pushOne (base : DataRecord) (entry : SinkRecUnit) (target : SinkSlot M × Bool)
    (units : SinkPackage) : SinkPackage :=
  if target.2 then units ++ [{ entry with data := d.tagged target.1 base }] else units

theorem pushMatched_none (entry : SinkRecUnit) (base : Option DataRecord) (remaining : Nat)
    (sinks : List (SinkSlot M)) (flags : List Bool) (perSink : List SinkPackage)
    (none_left : flags.count true = 0) :
    d.pushMatched entry sinks flags perSink base remaining = .ok perSink := by
  induction sinks generalizing flags perSink with
  | nil => simp [pushMatched]
  | cons slot sinks ih =>
    cases flags with
    | nil => simp [pushMatched]
    | cons matched flags =>
      cases perSink with
      | nil => simp [pushMatched]
      | cons units perSink =>
        cases matched with
        | true => simp at none_left
        | false =>
          have rest := ih flags perSink (by simpa using none_left)
          simp [pushMatched, rest]

/-- With the counter in step the loop never meets an empty slot, and every matching sink gets the
    base record. -/
theorem pushMatched_eq (entry : SinkRecUnit) (base : DataRecord) (sinks : List (SinkSlot M))
    (flags : List Bool) (perSink : List SinkPackage) (flagged : flags.length = sinks.length)
    (listed : perSink.length = sinks.length) :
    d.pushMatched entry sinks flags perSink (some base) (flags.count true) =
      .ok (List.zipWith (d.pushOne base entry) (sinks.zip flags) perSink) := by
  induction sinks generalizing flags perSink with
  | nil =>
    rw [List.length_eq_zero_iff.mp listed]
    simp [pushMatched]
  | cons slot sinks ih =>
    obtain ⟨matched, flags, rfl⟩ := List.exists_cons_of_length_eq_add_one flagged
    obtain ⟨units, perSink, rfl⟩ := List.exists_cons_of_length_eq_add_one listed
    rw [List.length_cons, List.length_cons, Nat.add_right_cancel_iff] at flagged listed
    have rest := ih flags perSink flagged listed
    cases matched with
    | false => simp [pushMatched, rest, pushOne]
    | true =>
      rw [List.count_cons_self]
      by_cases last : flags.count true = 0
      · have untouched := pushMatched_none d entry none 0 sinks flags perSink last
        have same := pushMatched_none d entry (some base) (flags.count true) sinks flags perSink last
        rw [rest] at same
        simp only [last, pushMatched, if_true, acquireRecordForTarget, Nat.zero_add, Nat.sub_self,
          untouched, List.zip_cons_cons, List.zipWith_cons_cons, pushOne]
        rw [Except.ok.inj same]
      · simp [pushMatched, acquireRecordForTarget, last, rest, pushOne]

/-- The loop with the moved record is the push of one record to every matching sink. -/
theorem pushMovingLast_eq (entry : SinkRecUnit) (perSink : List SinkPackage)
    (listed : perSink.length = d.sinks.length) :
    d.pushMovingLast perSink entry = .ok (d.pushTransformedRecord perSink entry) := by
  have flagged : (d.evaluateSinkMatches (d.stampGlobal entry.data)).length = d.sinks.length := by
    simp [evaluateSinkMatches]
  have pushed := pushMatched_eq d entry (d.stampGlobal entry.data) d.sinks
    (d.evaluateSinkMatches (d.stampGlobal entry.data)) perSink flagged listed
  have same : d.pushTransformedRecord perSink entry =
      List.zipWith (d.pushOne (d.stampGlobal entry.data) entry)
        (d.sinks.zip (d.evaluateSinkMatches (d.stampGlobal entry.data))) perSink := rfl
  rw [pushMovingLast, same]
  split
  · rename_i empty
    rw [List.isEmpty_iff.mp empty]
    simp
  · dsimp only
    split
    · rename_i none_left
      rw [← pushed]
      exact (pushMatched_none d entry _ _ _ _ _ none_left).symm
    · exact pushed

/-- `fanout_transformed_batch` with its own loop. -/
def fanoutMovingLast (entries : SinkPackage) : Except String (List SinkPackage) :=
  entries.foldlM d.pushMovingLast (d.sinks.map (fun _ => []))

theorem pushTransformedRecord_length (perSink : List SinkPackage) (entry : SinkRecUnit)
    (listed : perSink.length = d.sinks.length) :
    (d.pushTransformedRecord perSink entry).length = d.sinks.length := by
  simp [pushTransformedRecord, evaluateSinkMatches, listed]

/-- The optimised loop never panics and fans out as the plain one. -/
theorem fanoutMovingLast_eq (entries : SinkPackage) :
    d.fanoutMovingLast entries = .ok (d.fanoutTransformedBatch entries) := by
  unfold fanoutMovingLast fanoutTransformedBatch
  generalize start : d.sinks.map (fun _ => ([] : SinkPackage)) = perSink
  have listed : perSink.length = d.sinks.length := by
    rw [← start, List.length_map]
  clear start
  induction entries generalizing perSink with
  | nil => rfl
  | cons entry entries ih =>
    rw [List.foldlM_cons, pushMovingLast_eq d entry perSink listed, List.foldl_cons]
    exact ih _ (pushTransformedRecord_length d perSink entry listed)

theorem zipWith_sinks {A B : Type} (flag : SinkSlot M → Bool) (list : SinkSlot M → A)
    (push : SinkSlot M × Bool → A → B) (sinks : List (SinkSlot M)) :
    List.zipWith push (sinks.zip (sinks.map flag)) (sinks.map list) =
      sinks.map (fun slot => push (slot, flag slot) (list slot)) := by
  induction sinks with
  | nil => rfl
  | cons slot sinks ih => simp [ih]

/-- Each sink is given the records that meet its condition, in order. -/
theorem fanoutTransformedBatch_eq (entries : SinkPackage) :
    d.fanoutTransformedBatch entries = d.sinks.map (fun slot =>
      (entries.filter (fun entry => slot.meets (d.stampGlobal entry.data))).map (fun entry =>
        { entry with data := d.tagged slot (d.stampGlobal entry.data) })) := by
  induction entries using List.reverseRecOn with
  | nil => rfl
  | append_singleton entries entry ih =>
    have pushed : d.fanoutTransformedBatch (entries ++ [entry]) =
        d.pushTransformedRecord (d.fanoutTransformedBatch entries) entry := by
      simp [fanoutTransformedBatch]
    have flags : d.evaluateSinkMatches (d.stampGlobal entry.data) =
        d.sinks.map (fun slot => slot.meets (d.stampGlobal entry.data)) := rfl
    rw [pushed, ih]
    change List.zipWith (d.pushOne (d.stampGlobal entry.data) entry)
      (d.sinks.zip (d.evaluateSinkMatches (d.stampGlobal entry.data))) _ = _
    rw [flags, zipWith_sinks]
    refine List.map_congr_left ?_
    intro slot _
    cases meets : slot.meets (d.stampGlobal entry.data) <;> simp [pushOne, meets]

/-- The record is stamped already: each of the group's global tags is there once. -/
def Stamped (record : DataRecord) : Prop :=
  ∀ tags, d.globalTags = some tags → tags.CarriedBy record

theorem stampGlobal_same {record : DataRecord} (stamped : d.Stamped record) :
    SameFields (d.stampGlobal record) record := by
  unfold stampGlobal
  cases tags : d.globalTags with
  | none => exact SameFields.refl record
  | some tags' => exact applyGlobalTags_same (stamped tags' tags)

theorem appendPreTags_same {first second : DataRecord} (same : SameFields first second)
    (tags : List DataField) : SameFields (appendPreTags first tags) (appendPreTags second tags) := by
  unfold appendPreTags
  induction tags generalizing first second with
  | nil => exact same
  | cons tag tags ih => exact ih (same.append tag)

theorem tagged_same {first second : DataRecord} (same : SameFields first second)
    (slot : SinkSlot M) : SameFields (d.tagged slot first) (d.tagged slot second) := by
  have appended := appendPreTags_same same slot.preTags
  unfold tagged resolveTagConflicts
  split
  · split
    · exact applyGlobalTags_sameFields appended _
    · exact appended
  · exact appended

/-- The same unit, with the fields of its record in any order. -/
def SameUnit (first second : SinkRecUnit) : Prop :=
  first.id = second.id ∧ first.procMeta = second.procMeta ∧ SameFields first.data second.data

section Purely
variable (oml : ObjModel → DataRecord → DataRecord) (rule : ProcMeta)

/-- The record after the model of its rule, where there is one. -/
def transformed (record : DataRecord) : DataRecord :=
  match d.getMatchOml rule with
  | some om => oml om record
  | none => record

def outMeta (unit : SinkRecUnit) : ProcMeta :=
  match d.getMatchOml rule with
  | some om => .omlName om.name
  | none => unit.procMeta

/-- The model of the rule leaves nothing of the record. -/
def failsOml (unit : SinkRecUnit) : Bool :=
  (d.getMatchOml rule).isSome && decide ((d.transformed oml rule unit.data).items = [])

def reaches (slot : SinkSlot M) (unit : SinkRecUnit) : Bool :=
  !d.failsOml oml rule unit && slot.meets (d.stampGlobal (d.transformed oml rule unit.data))

def deliveredUnit (slot : SinkSlot M) (unit : SinkRecUnit) : SinkRecUnit :=
  ⟨unit.id, d.outMeta rule unit,
    d.tagged slot (d.stampGlobal (d.transformed oml rule unit.data))⟩

/-- What a batch comes to: the list of each sink, and the units filed with the error group. -/
structure FanOutExact (batch : SinkPackage) (d' : SinkDispatcher M) (perSink : List SinkPackage) :
    Prop where
  sinks : List.Forall₂ (fun slot units => List.Forall₂ SameUnit units
    ((batch.filter (d.reaches oml rule slot)).map (d.deliveredUnit oml rule slot))) d.sinks perSink
  errors : ∃ filed, d'.errors = d.errors ++ filed ∧
    filed.map (fun unit => (unit.id, unit.procMeta)) =
      (batch.filter (d.failsOml oml rule)).map (fun unit => (unit.id, rule))

/-- The error group refuses one of the failed units: those before it are filed, no sink is given
    anything. -/
structure FanOutRefused (batch : SinkPackage) (d' : SinkDispatcher M) (e : SinkError) : Prop where
  refused : ∃ filed sent unit rest tick,
    batch.filter (d.failsOml oml rule) = sent ++ unit :: rest ∧ d.env.sendError tick = .error e ∧
      d'.errors = d.errors ++ filed ∧
      filed.map (fun unit => (unit.id, unit.procMeta)) = sent.map (fun unit => (unit.id, rule))
  undelivered : d'.sinks = d.sinks

theorem zip_outputs (transform : DataRecord → DataRecord) (batch : SinkPackage) :
    batch.zip ((batch.map SinkRecUnit.data).map transform) =
      batch.map (fun unit => (unit, transform unit.data)) := by
  rw [List.map_map]
  induction batch with
  | nil => rfl
  | cons unit batch ih => simp [ih]

theorem zipIdx_filter_map {A B : Type} (list : List A) (keep : A → Bool) (view : A → B) :
    (list.zipIdx.filter (fun entry => keep entry.1)).map (fun entry => view entry.1) =
      (list.filter keep).map view := by
  have firsts : (list.zipIdx.map Prod.fst).filter keep =
      (list.zipIdx.filter (keep ∘ Prod.fst)).map Prod.fst := List.filter_map
  rw [List.zipIdx_map_fst] at firsts
  rw [firsts, List.map_map]
  rfl

/-- The pipeline with a pure transform: the units the model leaves something of, the others as
    failures, and a later tick. -/
theorem runOmlPipeline_pure
    (purely : ∀ tick om records, d.env.transform tick om records = records.map (oml om))
    (batch : SinkPackage) :
    (∃ tick, (d.runOmlPipeline rule batch).1 = { d with tick := tick }) ∧
      (d.runOmlPipeline rule batch).2.1 =
        (batch.filter (fun unit => !d.failsOml oml rule unit)).map (fun unit =>
          ⟨unit.id, d.outMeta rule unit, d.transformed oml rule unit.data⟩) ∧
      (d.runOmlPipeline rule batch).2.2.map SinkRecUnit.id =
        (batch.filter (d.failsOml oml rule)).map SinkRecUnit.id := by
  unfold runOmlPipeline failsOml outMeta transformed
  cases d.getMatchOml rule with
  | none => exact ⟨⟨d.tick, rfl⟩, by simp, by simp⟩
  | some om =>
    dsimp only
    rw [purely, zip_outputs]
    refine ⟨⟨d.tick + 1, rfl⟩, ?_, ?_⟩
    · rw [List.filter_map, List.map_map]
      simp only [Function.comp_def, Option.isSome_some, Bool.true_and, decide_not]
    · rw [List.map_map]
      have ids := zipIdx_filter_map (batch.map (fun unit => (unit, oml om unit.data)))
        (fun out => decide (out.2.items = [])) (fun out => out.1.id)
      rw [List.filter_map, List.map_map] at ids
      exact ids

/-- The failed units are filed in order; the first refusal ends the loop. -/
theorem emitOmlFailures_cases (failures : SinkPackage) :
    (∃ tick, emitOmlFailures rule failures d = ({ d with
      tick := tick, errors := d.errors ++ failures.map (fun bad => ⟨bad.id, rule, bad.data⟩) },
        .ok ())) ∨
    ∃ tick e sent bad rest refusal, failures = sent ++ bad :: rest ∧
      d.env.sendError refusal = .error e ∧
      emitOmlFailures rule failures d = ({ d with
        tick := tick, errors := d.errors ++ sent.map (fun bad => ⟨bad.id, rule, bad.data⟩) },
          .error e) := by
  induction failures generalizing d with
  | nil => exact .inl ⟨d.tick, by simp [emitOmlFailures]⟩
  | cons bad failures ih =>
    rw [emitOmlFailures]
    cases answer : d.env.sendError d.tick with
    | error e => exact .inr ⟨d.tick + 1, e, [], bad, failures, d.tick, rfl, answer, by simp⟩
    | ok _ =>
      dsimp only
      obtain ⟨tick, filed⟩ | ⟨tick, e, sent, worse, rest, refusal, rfl, refused, filed⟩ :=
        ih { d with tick := d.tick + 1, errors := d.errors ++ [⟨bad.id, rule, bad.data⟩] }
      · exact .inl ⟨tick, by rw [filed]; simp⟩
      · exact .inr ⟨tick, e, bad :: sent, worse, rest, refusal, rfl, refused, by rw [filed]; simp⟩

theorem SameUnit.refl (unit : SinkRecUnit) : SameUnit unit unit :=
  ⟨rfl, rfl, SameFields.refl unit.data⟩

theorem sameUnits_map {units : SinkPackage} {first second : SinkRecUnit → SinkRecUnit}
    (same : ∀ unit ∈ units, SameUnit (first unit) (second unit)) :
    List.Forall₂ SameUnit (units.map first) (units.map second) := by
  rw [List.forall₂_map_left_iff, List.forall₂_map_right_iff, List.forall₂_same]
  exact same

theorem sameUnits_refl (units : SinkPackage) : List.Forall₂ SameUnit units units :=
  List.forall₂_same.mpr (fun unit _ => SameUnit.refl unit)

/-- A list for each sink, each as it should be. -/
theorem sinks_map {relation : SinkSlot M → SinkPackage → Prop} {list : SinkSlot M → SinkPackage}
    (each : ∀ slot ∈ d.sinks, relation slot (list slot)) :
    List.Forall₂ relation d.sinks (d.sinks.map list) := by
  rw [List.forall₂_map_right_iff, List.forall₂_same]
  exact each

theorem no_failures (plain : d.getMatchOml rule = none) (unit : SinkRecUnit) :
    d.failsOml oml rule unit = false := by
  simp [failsOml, plain]

theorem meets_of_no_conditions (free : d.hasConditions = false) {slot : SinkSlot M}
    (member : slot ∈ d.sinks) (record : DataRecord) : slot.meets record = true := by
  have none_here := List.any_eq_false.mp free slot member
  unfold SinkSlot.meets
  cases cond : slot.cond with
  | none => rfl
  | some condition => simp [cond] at none_here

/-- On the fast path a sink gets the record with its own tags, as the fan-out would give it. -/
theorem fast_unit_same (slot : SinkSlot M) {unit : SinkRecUnit} (stamped : d.Stamped unit.data) :
    SameUnit (if slot.preTags.isEmpty then unit else { unit with data := d.tagged slot unit.data })
      { unit with data := d.tagged slot (d.stampGlobal unit.data) } := by
  have same := d.tagged_same (d.stampGlobal_same stamped).symm slot
  split
  · rename_i untagged
    have unchanged : d.tagged slot unit.data = unit.data := by
      rw [tagged, List.isEmpty_iff.mp untagged]
      unfold resolveTagConflicts
      split <;> rfl
    rw [unchanged] at same
    exact ⟨rfl, rfl, same⟩
  · exact ⟨rfl, rfl, same⟩

theorem fast_path_agrees {batch : SinkPackage} (free : d.hasConditions = false)
    (stamped : ∀ unit ∈ batch, d.Stamped unit.data) :
    List.Forall₂ (List.Forall₂ SameUnit) (d.emitWithoutTransformBatch batch)
      (d.fanoutTransformedBatch batch) := by
  rw [fanoutTransformedBatch_eq, emitWithoutTransformBatch, List.forall₂_map_left_iff,
    List.forall₂_map_right_iff, List.forall₂_same]
  intro slot member
  have all : batch.filter (fun entry => slot.meets (d.stampGlobal entry.data)) = batch := by
    rw [List.filter_eq_self]
    intro unit _
    exact d.meets_of_no_conditions free member _
  rw [all]
  exact sameUnits_map (fun unit listed => d.fast_unit_same slot (stamped unit listed))

theorem fast_path_exact {batch : SinkPackage} (plain : d.getMatchOml rule = none)
    (free : d.hasConditions = false) (stamped : ∀ unit ∈ batch, d.Stamped unit.data) :
    d.FanOutExact oml rule batch d (d.emitWithoutTransformBatch batch) := by
  refine ⟨?_, [], by simp, by simp [no_failures d oml rule plain]⟩
  refine d.sinks_map ?_
  intro slot member
  have all : batch.filter (d.reaches oml rule slot) = batch := by
    rw [List.filter_eq_self]
    intro unit _
    rw [reaches, no_failures d oml rule plain, d.meets_of_no_conditions free member]
    rfl
  rw [all]
  refine sameUnits_map ?_
  intro unit listed
  have same := d.fast_unit_same slot (stamped unit listed)
  have plainly : d.deliveredUnit oml rule slot unit =
      { unit with data := d.tagged slot (d.stampGlobal unit.data) } := by
    simp [deliveredUnit, outMeta, transformed, plain]
  rw [plainly]
  exact same

theorem empty_batch_exact : d.FanOutExact oml rule [] d (d.sinks.map (fun _ => [])) := by
  refine ⟨d.sinks_map ?_, [], by simp, rfl⟩
  intro slot _
  exact List.Forall₂.nil

/-- The fan-out of what the pipeline leaves. -/
theorem pipeline_fanout (batch : SinkPackage) :
    d.fanoutTransformedBatch ((batch.filter (fun unit => !d.failsOml oml rule unit)).map
        (fun unit => ⟨unit.id, d.outMeta rule unit, d.transformed oml rule unit.data⟩)) =
      d.sinks.map (fun slot =>
        (batch.filter (d.reaches oml rule slot)).map (d.deliveredUnit oml rule slot)) := by
  rw [fanoutTransformedBatch_eq]
  refine List.map_congr_left ?_
  intro slot _
  rw [List.filter_map, List.map_map, List.filter_filter]
  congr 1
  refine List.filter_congr ?_
  intro unit _
  exact Bool.and_comm _ _

theorem filed_pairs {bad units : SinkPackage}
    (ids : bad.map SinkRecUnit.id = units.map SinkRecUnit.id) :
    (bad.map (fun unit => (⟨unit.id, rule, unit.data⟩ : SinkRecUnit))).map
        (fun unit => (unit.id, unit.procMeta)) = units.map (fun unit => (unit.id, rule)) := by
  have pairs := congrArg (List.map (fun id => (id, rule))) ids
  rw [List.map_map, List.map_map] at pairs
  rw [List.map_map]
  exact pairs

theorem pipeline_exact
    (purely : ∀ tick om records, d.env.transform tick om records = records.map (oml om))
    (batch : SinkPackage) {d₁ d₂ : SinkDispatcher M} {successes failures : SinkPackage}
    (ran : d.runOmlPipeline rule batch = (d₁, successes, failures))
    (filed : emitOmlFailures rule failures d₁ = (d₂, .ok ())) :
    d.FanOutExact oml rule batch d₂ (d₂.fanoutTransformedBatch successes) := by
  obtain ⟨⟨tick, moved⟩, kept, failed⟩ := d.runOmlPipeline_pure oml rule purely batch
  rw [ran] at moved kept failed
  dsimp only at moved kept failed
  subst moved kept
  obtain ⟨later, emitted⟩ | ⟨later, e, sent, bad, rest, refusal, -, -, emitted⟩ :=
    emitOmlFailures_cases { d with tick := tick } rule failures
  · rw [emitted] at filed
    cases filed
    refine ⟨?_, failures.map (fun bad => ⟨bad.id, rule, bad.data⟩), rfl, ?_⟩
    · change List.Forall₂ _ d.sinks (d.fanoutTransformedBatch _)
      rw [d.pipeline_fanout oml rule batch]
      exact d.sinks_map (fun slot _ => sameUnits_refl _)
    · exact filed_pairs rule failed
  · rw [emitted] at filed
    cases filed

theorem pipeline_refused
    (purely : ∀ tick om records, d.env.transform tick om records = records.map (oml om))
    (batch : SinkPackage) {d₁ d₂ : SinkDispatcher M} {successes failures : SinkPackage}
    {e : SinkError} (ran : d.runOmlPipeline rule batch = (d₁, successes, failures))
    (refused : emitOmlFailures rule failures d₁ = (d₂, .error e)) :
    d.FanOutRefused oml rule batch d₂ e := by
  obtain ⟨⟨tick, moved⟩, -, failed⟩ := d.runOmlPipeline_pure oml rule purely batch
  rw [ran] at moved failed
  dsimp only at moved failed
  subst moved
  obtain ⟨later, emitted⟩ | ⟨later, e₁, sent, bad, rest, refusal, split, answer, emitted⟩ :=
    emitOmlFailures_cases { d with tick := tick } rule failures
  · rw [emitted] at refused
    cases refused
  · rw [emitted] at refused
    cases refused
    rw [split, List.map_append] at failed
    obtain ⟨before, after, cut, ids, more⟩ := List.map_eq_append_iff.mp failed.symm
    obtain ⟨unit, others, rfl, -, -⟩ := List.map_eq_cons_iff.mp more
    refine ⟨⟨sent.map (fun bad => ⟨bad.id, rule, bad.data⟩), before, unit, others, refusal, cut,
      answer, rfl, ?_⟩, rfl⟩
    exact filed_pairs rule ids.symm

/-- A batch is fanned out exactly, or the error group refuses a failed unit and the call ends
    there; and the two optimised paths give what the plain fan-out gives. -/
theorem fan_out_exact
    (purely : ∀ tick om records, d.env.transform tick om records = records.map (oml om))
    (batch : SinkPackage) (stamped : ∀ unit ∈ batch, d.Stamped unit.data) :
    ((∃ d' perSink, d.omlProcBatch batch rule = (d', .ok perSink) ∧
        d.FanOutExact oml rule batch d' perSink) ∨
      ∃ d' e, d.omlProcBatch batch rule = (d', .error e) ∧
        d.FanOutRefused oml rule batch d' e) ∧
    (∀ entries, d.fanoutMovingLast entries = .ok (d.fanoutTransformedBatch entries)) ∧
    (d.getMatchOml rule = none → d.hasConditions = false →
      List.Forall₂ (List.Forall₂ SameUnit) (d.emitWithoutTransformBatch batch)
        (d.fanoutTransformedBatch batch)) := by
  refine ⟨?_, d.fanoutMovingLast_eq, fun _ free => d.fast_path_agrees free stamped⟩
  unfold omlProcBatch
  split
  · rename_i empty
    rw [List.isEmpty_iff.mp empty]
    exact .inl ⟨d, _, rfl, d.empty_batch_exact oml rule⟩
  · split
    · rename_i plain
      simp only [Bool.and_eq_true, Option.isNone_iff_eq_none, Bool.not_eq_true'] at plain
      exact .inl ⟨d, _, rfl, d.fast_path_exact oml rule plain.1 plain.2 stamped⟩
    · cases ran : d.runOmlPipeline rule batch with
      | mk d₁ rest =>
        obtain ⟨successes, failures⟩ := rest
        dsimp only
        cases filed : emitOmlFailures rule failures d₁ with
        | mk d₂ result =>
          cases result with
          | error e => exact .inr ⟨d₂, e, rfl, d.pipeline_refused oml rule purely batch ran filed⟩
          | ok _ => exact .inl ⟨d₂, _, rfl, d.pipeline_exact oml rule purely batch ran filed⟩

end Purely

end SinkDispatcher

section OneGroup

/-- A model for every rule that leaves nothing of the record with id 0. -/
def dropZero (_ : ObjModel) (record : DataRecord) : DataRecord :=
  if record.id = 0 then ⟨0, []⟩ else record

def plainSlot (cond : Option (DataRecord → Bool)) (preTags : List DataField) : SinkSlot PlainMeta where
  env := plainEnv (fun _ => false)
  state := SinkState.start plainMetaApi fileSinkConf (.real 0)
  ready := true
  cond := cond
  filterExpect := true
  preTags := preTags
  inputs := []

theorem keeps_order (_ : Nat) (groups : List (String × SinkPackage)) : groups.Perm groups :=
  List.Perm.refl groups

/-- Two sinks behind the model, the second for records of an even id and with a tag of its own. -/
def twoSinkGroup (sendError : Nat → Except SinkError Unit) : SinkDispatcher PlainMeta where
  env :=
    { transform := fun _ om records => records.map (dropZero om)
      takeSummary := fun _ _ => none
      sendError := sendError
      sendIngress := fun _ => .ok ()
      hashOrder := fun _ groups => groups
      hashOrder_perm := keeps_order }
  name := "group"
  sinks := [plainSlot none [], plainSlot (some (fun record => record.id % 2 == 0))
    [DataField.fromChars "env" "sink"]]
  models := [.object ⟨"model", [fun _ => true]⟩]
  globalTags := some ⟨[("env", "prod")]⟩
  ingressPending := 0
  errors := []
  tick := 0

def stampedUnit (id : Nat) : SinkRecUnit :=
  ⟨id, .wplName "rule", ⟨id, [DataField.fromChars "msg" "text", DataField.fromChars "env" "prod"]⟩⟩

/-- A full error channel: the unit without an output is not filed, and no sink gets the other. -/
theorem full_error_channel_stops_the_batch :
    let d := twoSinkGroup (fun _ => .error ⟨.stgCtrl, none⟩)
    d.failsOml dropZero (.wplName "rule") (stampedUnit 0) = true ∧
      (d.omlProcBatch [stampedUnit 0, stampedUnit 1] (.wplName "rule")).1.errors = [] ∧
      (d.omlProcBatch [stampedUnit 0, stampedUnit 1] (.wplName "rule")).2 =
        .error ⟨.stgCtrl, none⟩ := by
  refine ⟨by decide, by decide, rfl⟩

theorem fan_out_exact_two_sinks :
    let d := twoSinkGroup (fun _ => .ok ())
    ∃ d' perSink, d.omlProcBatch [stampedUnit 0, stampedUnit 1, stampedUnit 2] (.wplName "rule") =
        (d', .ok perSink) ∧
      d.FanOutExact dropZero (.wplName "rule") [stampedUnit 0, stampedUnit 1, stampedUnit 2] d'
        perSink := by
  intro d
  obtain ⟨exact_ | ⟨d', e, failed, -⟩, -, -⟩ := d.fan_out_exact dropZero (.wplName "rule")
    (fun _ _ _ => rfl) [stampedUnit 0, stampedUnit 1, stampedUnit 2] (by
      intro unit member tags present
      cases present
      simp only [List.mem_cons, List.not_mem_nil, or_false] at member
      obtain rfl | rfl | rfl := member <;> (intro tag listed; simp at listed; subst listed; rfl))
  · exact exact_
  · exfalso
    have ended : (d.omlProcBatch [stampedUnit 0, stampedUnit 1, stampedUnit 2]
        (.wplName "rule")).2.isOk = true := by decide
    rw [failed] at ended
    cases ended

end OneGroup
end WarpMotor
