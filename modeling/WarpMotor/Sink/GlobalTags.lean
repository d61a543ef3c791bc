import WarpMotor.Lib.Runs
import WarpMotor.Parse.GlobalTags
import WarpMotor.Sink.Fanout

/-!
Global tags on the way through a sink group. The model of a rule builds its
records anew and a sink may have a tag of the same name; the group stamps again
after both, so that what a sink is given and what is filed as a failure carries
each global tag once, as the parser left it.
-/
namespace WarpMotor
open DataRecord

namespace SinkDispatcher
variable {M : Type} (d : SinkDispatcher M)

section Group
variable {tags : GlobalTags} (admitted : tags.Admitted) (set : d.globalTags = some tags)
include admitted set

theorem stampGlobal_carried (record : DataRecord) : tags.CarriedBy (d.stampGlobal record) := by
  rw [stampGlobal, set]
  exact applyGlobalTags_carried admitted.distinct record

theorem stampGlobal_systemFields (record : DataRecord) :
    (d.stampGlobal record).systemFields = record.systemFields := by
  rw [stampGlobal, set]
  exact applyGlobalTags_systemFields admitted record

/-- Tags of the sink in front of the global ones: where a name clashes the record is stamped
    again. -/
theorem tagged_wellTagged (slot : SinkSlot M) {record : DataRecord}
    (carried : tags.CarriedBy record) :
    tags.CarriedBy (d.tagged slot record) ∧
      record.systemFields <+: (d.tagged slot record).systemFields := by
  have kept := systemFields_appendAll record slot.preTags
  unfold tagged resolveTagConflicts
  rw [set]
  dsimp only
  split
  · refine ⟨applyGlobalTags_carried admitted.distinct _, ?_⟩
    rw [applyGlobalTags_systemFields admitted]
    exact kept
  · rename_i free
    refine ⟨?_, kept⟩
    intro tag member
    rw [← carried tag member]
    refine named_appendAll tag.1 record slot.preTags ?_
    intro field listed same
    refine free (List.any_eq_true.mpr ⟨field, listed, ?_⟩)
    exact List.any_eq_true.mpr ⟨tag, member, by simp [same]⟩

theorem fast_path_wellTagged {batch : SinkPackage}
    (carried : ∀ unit ∈ batch, tags.CarriedBy unit.data) :
    ∀ units ∈ d.emitWithoutTransformBatch batch, ∀ unit ∈ units,
      WellTagged tags (fun raw => ∃ entry ∈ batch, raw = entry.data) unit.data := by
  intro units member unit listed
  obtain ⟨slot, -, rfl⟩ := List.mem_map.mp member
  obtain ⟨entry, present, rfl⟩ := List.mem_map.mp listed
  obtain ⟨stamped, kept⟩ := d.tagged_wellTagged admitted set slot (carried entry present)
  split
  · exact ⟨carried entry present, entry.data, ⟨entry, present, rfl⟩, List.prefix_rfl⟩
  · exact ⟨stamped, entry.data, ⟨entry, present, rfl⟩, kept⟩

theorem fanout_wellTagged (entries : SinkPackage) :
    ∀ units ∈ d.fanoutTransformedBatch entries, ∀ unit ∈ units,
      WellTagged tags (fun raw => ∃ entry ∈ entries, raw = entry.data) unit.data := by
  rw [fanoutTransformedBatch_eq]
  intro units member unit listed
  obtain ⟨slot, -, rfl⟩ := List.mem_map.mp member
  obtain ⟨entry, present, rfl⟩ := List.mem_map.mp listed
  obtain ⟨stamped, kept⟩ :=
    d.tagged_wellTagged admitted set slot (d.stampGlobal_carried admitted set entry.data)
  rw [d.stampGlobal_systemFields admitted set] at kept
  exact ⟨stamped, entry.data, ⟨entry, List.mem_of_mem_filter present, rfl⟩, kept⟩

theorem pipeline_failures_carried (rule : ProcMeta) (batch : SinkPackage) :
    ∀ unit ∈ (d.runOmlPipeline rule batch).2.2, tags.CarriedBy unit.data := by
  unfold runOmlPipeline
  cases d.getMatchOml rule with
  | none => simp
  | some om =>
    intro unit member
    obtain ⟨⟨out, index⟩, -, rfl⟩ := List.mem_map.mp member
    exact stampGlobal_carried { d with tick := d.tick + 1 } admitted set _

end Group

theorem runOmlPipeline_moves (rule : ProcMeta) (batch : SinkPackage) :
    ∃ tick, (d.runOmlPipeline rule batch).1 = { d with tick := tick } := by
  unfold runOmlPipeline
  cases d.getMatchOml rule with
  | none => exact ⟨d.tick, rfl⟩
  | some om => exact ⟨d.tick + 1, rfl⟩

/-- What one batch leaves behind: the lists of the sinks and the units filed with the error
    group. -/
structure BatchTagged (tags : GlobalTags) (rule : ProcMeta) (batch : SinkPackage)
    (r : DispatchResult M (List SinkPackage)) : Prop where
  delivered : ∀ perSink, r.2 = .ok perSink → ∀ units ∈ perSink, ∀ unit ∈ units,
    WellTagged tags (fun raw => ∃ entry ∈ (d.runOmlPipeline rule batch).2.1, raw = entry.data)
      unit.data
  filed : ∃ tick failed, r.1 = { d with tick := tick, errors := d.errors ++ failed } ∧
    ∀ unit ∈ failed, tags.CarriedBy unit.data

theorem omlProcBatch_tagged {tags : GlobalTags} (admitted : tags.Admitted)
    (set : d.globalTags = some tags) (rule : ProcMeta) {batch : SinkPackage}
    (carried : ∀ unit ∈ batch, tags.CarriedBy unit.data) :
    d.BatchTagged tags rule batch (d.omlProcBatch batch rule) := by
  have nothing : ∃ tick failed, d = { d with tick := tick, errors := d.errors ++ failed } ∧
      ∀ unit ∈ failed, tags.CarriedBy unit.data :=
    ⟨d.tick, [], by rw [List.append_nil], by simp⟩
  unfold omlProcBatch
  split
  · refine ⟨?_, nothing⟩
    rintro perSink rfl_ units member unit listed
    cases rfl_
    obtain ⟨slot, -, rfl⟩ := List.mem_map.mp member
    cases listed
  · split
    · rename_i plain
      refine ⟨?_, nothing⟩
      rintro perSink same units member unit listed
      cases same
      simp only [Bool.and_eq_true, Option.isNone_iff_eq_none] at plain
      have passed : (d.runOmlPipeline rule batch).2.1 = batch := by
        rw [runOmlPipeline, plain.1]
      rw [passed]
      exact d.fast_path_wellTagged admitted set carried units member unit listed
    · have failed := d.pipeline_failures_carried admitted set rule batch
      obtain ⟨tick, moved⟩ := d.runOmlPipeline_moves rule batch
      cases ran : d.runOmlPipeline rule batch with
      | mk d₁ rest =>
        obtain ⟨successes, failures⟩ := rest
        rw [ran] at failed moved
        dsimp only at failed moved ⊢
        subst moved
        obtain ⟨later, emitted⟩ | ⟨later, e, sent, bad, rest, refusal, split, -, emitted⟩ :=
          emitOmlFailures_cases { d with tick := tick } rule failures
        · rw [emitted]
          refine ⟨?_, later, _, rfl, ?_⟩
          · rintro perSink same units member unit listed
            cases same
            rw [ran]
            exact fanout_wellTagged _ admitted set successes units member unit listed
          · intro unit member
            obtain ⟨bad, listed, rfl⟩ := List.mem_map.mp member
            exact failed bad listed
        · rw [emitted]
          refine ⟨?_, later, _, rfl, ?_⟩
          · rintro perSink ⟨⟩
          · intro unit member
            obtain ⟨worse, listed, rfl⟩ := List.mem_map.mp member
            exact failed worse (by rw [split]; exact List.mem_append_left _ listed)

/-- All that the sinks were ever given and all that was filed carries the tags. -/
structure GroupTagged (d : SinkDispatcher M) (tags : GlobalTags) : Prop where
  set : d.globalTags = some tags
  given : ∀ slot ∈ d.sinks, ∀ package, SinkInput.package package ∈ slot.inputs →
    ∀ unit ∈ package, tags.CarriedBy unit.data
  filed : ∀ unit ∈ d.errors, tags.CarriedBy unit.data

section Delivery
variable [DecidableEq M] {tags : GlobalTags}

/-- A sink is given nothing but the units of its own list. -/
theorem deliverPerSink_given {sinks : List (SinkSlot M)} {perSink : List SinkPackage}
    (given : ∀ slot ∈ sinks, ∀ package, SinkInput.package package ∈ slot.inputs →
      ∀ unit ∈ package, tags.CarriedBy unit.data)
    (carried : ∀ units ∈ perSink, ∀ unit ∈ units, tags.CarriedBy unit.data) :
    ∀ slot ∈ (deliverPerSink sinks perSink).1, ∀ package,
      SinkInput.package package ∈ slot.inputs → ∀ unit ∈ package, tags.CarriedBy unit.data := by
  induction sinks generalizing perSink with
  | nil => exact given
  | cons slot sinks ih =>
    cases perSink with
    | nil => exact given
    | cons units perSink =>
      have rest := ih (fun other member => given other (List.mem_cons_of_mem _ member))
        (fun more member => carried more (List.mem_cons_of_mem _ member))
      have others : ∀ other ∈ sinks, ∀ package, SinkInput.package package ∈ other.inputs →
          ∀ unit ∈ package, tags.CarriedBy unit.data :=
        fun other member => given other (List.mem_cons_of_mem _ member)
      have first := given slot List.mem_cons_self
      have own := carried units List.mem_cons_self
      -- the sink's own package is the last of its inputs
      have sent : ∀ package, SinkInput.package package ∈ slot.inputs ++ [.package units] →
          ∀ unit ∈ package, tags.CarriedBy unit.data := by
        intro package member
        rw [List.mem_append, List.mem_singleton] at member
        obtain old | new := member
        · exact first package old
        · cases new
          exact own
      have inputs : (slot.sendPackage workCtx units).1.inputs = slot.inputs ++ [.package units] := rfl
      rw [deliverPerSink]
      split
      · cases outcome : slot.sendPackage workCtx units with
        | mk slot₁ result =>
          rw [outcome] at inputs
          rw [← inputs] at sent
          cases result with
          | error e =>
            intro other member
            rw [List.mem_cons] at member
            obtain rfl | member := member
            · exact sent
            · exact others other member
          | ok _ =>
            intro other member
            rw [List.mem_cons] at member
            obtain rfl | member := member
            · exact sent
            · exact rest other member
      · intro other member
        rw [List.mem_cons] at member
        obtain rfl | member := member
        · exact first
        · exact rest other member

theorem sinkRuleUnits_tagged (admitted : tags.Admitted) {d : SinkDispatcher M}
    (tagged : d.GroupTagged tags) {units : SinkPackage}
    (carried : ∀ unit ∈ units, tags.CarriedBy unit.data) :
    (d.sinkRuleUnits units).1.GroupTagged tags := by
  unfold sinkRuleUnits
  cases units.head? with
  | none => exact tagged
  | some first =>
    have batch := d.omlProcBatch_tagged admitted tagged.set first.procMeta carried
    dsimp only
    cases outcome : d.omlProcBatch units first.procMeta with
    | mk d₁ result =>
      rw [outcome] at batch
      obtain ⟨delivered, tick, failed, moved, filed⟩ := batch
      dsimp only at moved
      have errors : ∀ unit ∈ d.errors ++ failed, tags.CarriedBy unit.data := by
        intro unit member
        exact (List.mem_append.mp member).elim (tagged.filed unit) (filed unit)
      subst moved
      cases result with
      | error e => exact ⟨tagged.set, tagged.given, errors⟩
      | ok perSink =>
        have given := deliverPerSink_given tagged.given
          (fun list member unit listed => (delivered perSink rfl list member unit listed).1)
        exact ⟨tagged.set, given, errors⟩

theorem sinkRuleGroups_tagged (admitted : tags.Admitted) (groups : List (String × SinkPackage))
    (carried : UnitsAll (fun unit => tags.CarriedBy unit.data) groups) {d : SinkDispatcher M}
    (tagged : d.GroupTagged tags) : (sinkRuleGroups groups d).1.GroupTagged tags := by
  induction groups generalizing d with
  | nil => exact tagged
  | cons group groups ih =>
    have sent := sinkRuleUnits_tagged admitted tagged (carried group List.mem_cons_self)
    rw [sinkRuleGroups]
    cases outcome : d.sinkRuleUnits group.2 with
    | mk d₁ result =>
      rw [outcome] at sent
      cases result with
      | error e => exact sent
      | ok _ => exact ih (fun other member => carried other (List.mem_cons_of_mem _ member)) sent

theorem groupSinkPackage_tagged (admitted : tags.Admitted) {d : SinkDispatcher M}
    (tagged : d.GroupTagged tags) {package : SinkPackage}
    (carried : ∀ unit ∈ package, tags.CarriedBy unit.data) :
    (d.groupSinkPackage package).1.GroupTagged tags := by
  have grouped : ∀ groups, UnitsAll (fun unit => tags.CarriedBy unit.data) groups →
      UnitsAll (fun unit => tags.CarriedBy unit.data)
        (package.foldl (fun groups unit => pushEntry unit.procMeta.abstractInfo unit groups)
          groups) := by
    induction package with
    | nil => exact fun _ before => before
    | cons unit package ih =>
      intro groups before
      exact ih (fun other member => carried other (List.mem_cons_of_mem _ member)) _
        (pushEntry_unitsAll _ (carried unit List.mem_cons_self) before)
  have started : UnitsAll (fun unit => tags.CarriedBy unit.data) [] := by simp [UnitsAll]
  have ordered : UnitsAll (fun unit => tags.CarriedBy unit.data) (d.env.hashOrder d.tick
      (package.foldl (fun groups unit => pushEntry unit.procMeta.abstractInfo unit groups) [])) := by
    intro group member
    exact grouped [] started group ((d.env.hashOrder_perm d.tick _).mem_iff.mp member)
  have moved : GroupTagged { d with tick := d.tick + 1 } tags :=
    ⟨tagged.set, tagged.given, tagged.filed⟩
  have sent := sinkRuleGroups_tagged admitted _ ordered moved
  unfold groupSinkPackage
  dsimp only
  split
  · rename_i outcome
    rw [outcome] at sent
    exact sent
  · rename_i outcome
    rw [outcome] at sent
    exact sent

end Delivery

end SinkDispatcher

section Paths
variable {M Progress : Type} [DecidableEq M]

/-- A record that a rule made of some event of the batch. -/
def ProducedIn (rules : List (WplPipeline Progress)) (batch : SourceBatch) (raw : DataRecord) :
    Prop := ∃ event ∈ batch, Produced rules event raw

/-- The unit comes out of a batch that was parsed with the tags; its meta may have been set. -/
def ParsedUnit (api : ParserApi Progress) (tags : GlobalTags) (unit : SinkRecUnit) : Prop :=
  ∃ setting batch mp group parsed, setting.globalTags = some tags ∧
    group ∈ (batchParsePackage api setting batch mp ⟨[], [], []⟩).1.sinkGroups ∧
    parsed ∈ group.2 ∧ unit.data = parsed.data

theorem batch_wellTagged (api : ParserApi Progress) {tags : GlobalTags} (admitted : tags.Admitted)
    {setting : ParseOption} (set : setting.globalTags = some tags) (batch : SourceBatch)
    (mp : MultiParser Progress) :
    UnitsAll (fun unit => WellTagged tags (ProducedIn mp.pipelines batch) unit.data)
      (batchParsePackage api setting batch mp ⟨[], [], []⟩).1.sinkGroups := by
  refine batchParsePackage_wellTagged api admitted set batch mp _ ?_ (by simp [UnitsAll])
  exact fun event member raw made => ⟨event, member, made⟩

theorem ParsedUnit.carried {api : ParserApi Progress} {tags : GlobalTags}
    (admitted : tags.Admitted) {unit : SinkRecUnit} (parsed : ParsedUnit api tags unit) :
    tags.CarriedBy unit.data := by
  obtain ⟨setting, batch, mp, group, origin, set, listed, member, same⟩ := parsed
  rw [same]
  exact (batch_wellTagged api admitted set batch mp group listed origin member).1

/-- With tags from the environment: every parsed unit carries them, every batch keeps them for
    all sinks and failures, and so does every run of a group over parsed packages; whichever
    field of a name the record library removes first. -/
theorem global_tags_win (api : ParserApi Progress)
    (json : List Char → Except String (List (String × String))) (var : GlobalTags.EnvVar)
    {tags : GlobalTags} (loaded : GlobalTags.fromEnv json var = .ok tags) :
    (∀ (setting : ParseOption) batch (mp : MultiParser Progress), setting.globalTags = some tags →
      UnitsAll (fun unit => WellTagged tags (ProducedIn mp.pipelines batch) unit.data)
        (batchParsePackage api setting batch mp ⟨[], [], []⟩).1.sinkGroups) ∧
    (∀ (d : SinkDispatcher M) rule batch, d.globalTags = some tags →
      (∀ unit ∈ batch, tags.CarriedBy unit.data) →
        d.BatchTagged tags rule batch (d.omlProcBatch batch rule)) ∧
    (∀ (d : SinkDispatcher M) packages, d.GroupTagged tags →
      (∀ package ∈ packages, ∀ unit ∈ package, ParsedUnit api tags unit) →
        (Runs.run (fun d package => (d.groupSinkPackage package).1) d packages).GroupTagged tags) ∧
    (∀ removeField, RemovesOne removeField → ∀ record,
      applyGlobalTagsBy removeField record tags = applyGlobalTags record tags) := by
  have admitted := GlobalTags.fromEnv_admitted loaded
  refine ⟨?_, ?_, ?_, ?_⟩
  · exact fun setting batch mp set => batch_wellTagged api admitted set batch mp
  · exact fun d rule batch set carried => d.omlProcBatch_tagged admitted set rule carried
  · intro d packages tagged parsed
    refine Runs.run_invariant (fun d => d.GroupTagged tags) packages ?_ d tagged
    intro d package member before
    exact SinkDispatcher.groupSinkPackage_tagged admitted before
      (fun unit listed => (parsed package member unit listed).carried admitted)
  · exact fun removeField removes record => applyGlobalTagsBy_eq removes record tags

end Paths

/-- A tag from the environment, behind a model and a sink tag of its name. -/
theorem global_tags_win_env :
    let d := twoSinkGroup (fun _ => .ok ())
    d.BatchTagged ⟨[("env", "prod")]⟩ (.wplName "rule") [stampedUnit 0, stampedUnit 2]
      (d.omlProcBatch [stampedUnit 0, stampedUnit 2] (.wplName "rule")) := by
  intro d
  have loaded : GlobalTags.fromEnv (fun _ => .error "") (.present "env=prod".toList) =
      .ok ⟨[("env", "prod")]⟩ := by decide
  refine (@global_tags_win PlainMeta Nat _ ⟨0, fun a b => decide (b < a), id, fun _ => ""⟩
    (fun _ => .error "") (.present "env=prod".toList) _ loaded).2.1 d (.wplName "rule") _ rfl ?_
  intro unit member tag listed
  simp only [List.mem_cons, List.not_mem_nil, or_false] at member listed
  subst listed
  obtain rfl | rfl := member <;> rfl

end WarpMotor
