import Mathlib.Data.Set.Insert
import WarpMotor.Resources.RuleRouting

/-!
Which sink group a model is bound to. A pattern at least as long as the recorded
one moves the model to its group, but what is recorded stays the first match of
the model. So a second move takes the model from the wrong group, and a shorter
pattern than the last may win.
-/
namespace WarpMotor.Resources
open FirstMax

/-- The oml patterns of the groups that match a model, in order. -/
def bindingsOf (wild : Wild) (routes : List SinkRouteConf) (mdlName : ModelName) :
    List (SinkID × String) :=
  routes.flatMap (fun conf => (conf.oml.filter (fun matcher => wild matcher mdlName.name)).map
    (fun matcher => (conf.sinkName, matcher.text)))

/-- The record and the groups of one model. -/
abbrev Binding := Option (SinkID × String) × Set SinkID

def ResManager.bindingOf (rm : ResManager) (mdlName : ModelName) : Binding :=
  (rm.mdlSinkMap mdlName, {sink | rm.sinkMdlRelation.Has sink mdlName})

/-- One matching pattern. -/
def bindStep (binding : Binding) (entry : SinkID × String) : Binding :=
  match binding.1 with
  | none => (some entry, binding.2 ∪ {entry.1})
  | some held =>
    if entryLen entry < entryLen held then binding
    else (some held, (binding.2 \ {held.1}) ∪ {entry.1})

/-- The group has an oml pattern for the model that is as long as any other group's. -/
def HasLongest (wild : Wild) (routes : List SinkRouteConf) (mdlName : ModelName) (sink : SinkID) :
    Prop :=
  ∃ longest, (sink, longest) ∈ bindingsOf wild routes mdlName ∧
    ∀ entry ∈ bindingsOf wild routes mdlName, entryLen entry ≤ textLen longest

/-- The pattern that won the rule is an oml pattern of the group for the model. -/
def RoutesThrough (wild : Wild) (routes : List SinkRouteConf) (rm : ResManager) (rule : RuleKey)
    (sink : SinkID) (entry : ModelName × DataModel) : Prop :=
  ∃ matcher : WildMatch, rm.ruleSinkDb.ruleSinkIdx rule = some (sink, matcher.text) ∧
    (∃ conf ∈ routes, conf.sinkName = sink ∧ matcher ∈ conf.oml) ∧
    wild matcher entry.1.name = true ∧ entry.2.isMatch wild rule = true

/-- Every model is bound to one group, the recorded one, which has the longest pattern for it; and a
    rule that is routed through a model reaches a group that has the model. -/
structure ModelsBound (wild : Wild) (routes : List SinkRouteConf) (rm : ResManager) : Prop where
  single : ∀ entry ∈ rm.nameMdlRes.entries, ∀ sink other,
    rm.sinkMdlRelation.Has sink entry.1 → rm.sinkMdlRelation.Has other entry.1 → sink = other
  recorded : ∀ entry ∈ rm.nameMdlRes.entries, ∀ sink, rm.sinkMdlRelation.Has sink entry.1 →
    ∃ matcher, rm.mdlSinkMap entry.1 = some (sink, matcher)
  longest : ∀ entry ∈ rm.nameMdlRes.entries, ∀ sink, rm.sinkMdlRelation.Has sink entry.1 →
    HasLongest wild routes entry.1 sink
  reached : ∀ entry ∈ rm.nameMdlRes.entries, ∀ rule sink,
    RoutesThrough wild routes rm rule sink entry → entry.2 ∈ rm.allocSinkRes sink

/-- The patterns of other groups than the first that matches the model are shorter than the first
    pattern of that group. -/
def FirstOutlasts (wild : Wild) (routes : List SinkRouteConf) (mdlName : ModelName) : Prop :=
  ∀ first rest, bindingsOf wild routes mdlName = first :: rest →
    ∀ entry ∈ rest, entry.1 ≠ first.1 → entryLen entry < entryLen first

section Steps
variable {sinkName : SinkID} {matcher : String} {mdlName other : ModelName}

theorem bindStep_twice (binding : Binding) (entry : SinkID × String) :
    bindStep (bindStep binding entry) entry = bindStep binding entry := by
  obtain ⟨record, sinks⟩ := binding
  cases record with
  | none =>
    simp only [bindStep, lt_self_iff_false, if_false, Prod.mk.injEq, true_and]
    ext sink
    simp only [Set.mem_union, Set.mem_sdiff, Set.mem_singleton_iff]
    tauto
  | some held =>
    by_cases shorter : entryLen entry < entryLen held
    · simp [bindStep, shorter]
    · simp only [bindStep, shorter, if_false, Prod.mk.injEq, true_and]
      ext sink
      simp only [Set.mem_union, Set.mem_sdiff, Set.mem_singleton_iff]
      tauto

theorem bindModel_same (rm : ResManager) (sinkName : SinkID) (matcher : String)
    (mdlName : ModelName) :
    (rm.bindModel sinkName matcher mdlName).bindingOf mdlName =
      bindStep (rm.bindingOf mdlName) (sinkName, matcher) := by
  unfold ResManager.bindModel ResManager.bindingOf bindStep
  cases held : rm.mdlSinkMap mdlName with
  | none =>
    dsimp only
    rw [Function.update_self]
    congr 1
    ext sink
    simp [SinkModelIndex.associateModel, has_insert]
  | some record =>
    dsimp only
    by_cases shorter : textLen matcher < textLen record.2
    · rw [if_pos shorter, if_pos (show entryLen (sinkName, matcher) < entryLen record from shorter)]
      rw [held]
    · rw [if_neg shorter, if_neg (show ¬ entryLen (sinkName, matcher) < entryLen record from shorter)]
      dsimp only
      rw [held]
      congr 1
      ext sink
      simp only [SinkModelIndex.associateModel, SinkModelIndex.disassociateMdl, has_insert,
        has_remove, Set.mem_ofPred_eq, Set.mem_union, Set.mem_sdiff, Set.mem_singleton_iff]
      tauto

theorem bindModel_other (rm : ResManager) (sinkName : SinkID) (matcher : String)
    (differs : other ≠ mdlName) :
    (rm.bindModel sinkName matcher mdlName).bindingOf other = rm.bindingOf other := by
  unfold ResManager.bindModel ResManager.bindingOf
  cases held : rm.mdlSinkMap mdlName with
  | none =>
    dsimp only
    rw [Function.update_of_ne differs]
    congr 1
    ext sink
    simp [SinkModelIndex.associateModel, has_insert, differs]
  | some record =>
    dsimp only
    split
    · rfl
    · congr 1
      ext sink
      simp [SinkModelIndex.associateModel, SinkModelIndex.disassociateMdl, has_insert, has_remove,
        differs]

/-- The loop of a pattern over the names touches a model once. -/
theorem names_bindingOf (wild : Wild) (sinkName : SinkID) (matcher : WildMatch)
    (names : List ModelName) (rm : ResManager) (mdlName : ModelName) :
    (names.foldl (fun rm mdlName => if wild matcher mdlName.name then
        rm.bindModel sinkName matcher.text mdlName else rm) rm).bindingOf mdlName =
      if mdlName ∈ names ∧ wild matcher mdlName.name = true then
        bindStep (rm.bindingOf mdlName) (sinkName, matcher.text)
      else rm.bindingOf mdlName := by
  induction names generalizing rm with
  | nil => simp
  | cons name rest ih =>
    rw [List.foldl_cons, ih]
    by_cases same : mdlName = name
    · subst same
      cases matched : wild matcher mdlName.name with
      | true => simp [bindModel_same, bindStep_twice]
      | false => simp
    · cases matched : wild matcher name.name with
      | true => simp [bindModel_other rm sinkName matcher.text same, same]
      | false => simp [same]

end Steps

section Loads
variable {wild : Wild} {index : List RuleKey} {mdlName : ModelName}

/-- The patterns of one group. -/
theorem updateSinkMdlIndex_bindingOf (wild : Wild) (load : RouteLoad) (rm : ResManager)
    (known : mdlName ∈ rm.nameMdlRes.keys) :
    (rm.updateSinkMdlIndex wild load).bindingOf mdlName =
      ((load.conf.oml.filter (fun matcher => wild matcher mdlName.name)).map
        (fun matcher => (load.conf.sinkName, matcher.text))).foldl bindStep
          (rm.bindingOf mdlName) := by
  unfold ResManager.updateSinkMdlIndex
  induction load.conf.oml generalizing rm with
  | nil => rfl
  | cons matcher rest ih =>
    have same : SameRules rm ((load.nameOrder rm.nameMdlRes.keys).foldl (fun rm mdlName =>
        if wild matcher mdlName.name then rm.bindModel load.conf.sinkName matcher.text mdlName
        else rm) rm) := by
      apply foldl_sameRules
      intro rm mdlName
      split
      · exact bindModel_sameRules _ _ _ _
      · exact SameRules.refl rm
    have member := (load.name_perm rm.nameMdlRes.keys).mem_iff.mpr known
    rw [List.foldl_cons, ih _ (by rw [same.nameMdlRes]; exact known), names_bindingOf,
      List.filter_cons]
    cases matched : wild matcher mdlName.name <;> simp [member]

theorem loads_bindingOf (loads : List RouteLoad) (rm : ResManager)
    (known : mdlName ∈ rm.nameMdlRes.keys) :
    (loads.foldl (ResManager.loadRoute wild index) rm).bindingOf mdlName =
      (bindingsOf wild (loads.map RouteLoad.conf) mdlName).foldl bindStep
        (rm.bindingOf mdlName) := by
  induction loads generalizing rm with
  | nil => rfl
  | cons load rest ih =>
    have same := loadRoute_rules wild index load rm
    have binding := updateSinkMdlIndex_bindingOf wild load
      (rm.updateSinkRuleIndex wild index load) known
    rw [List.foldl_cons, ih _ (by rw [same.nameMdlRes]; exact known)]
    unfold ResManager.loadRoute
    rw [binding]
    unfold bindingsOf
    rw [List.map_cons, List.flatMap_cons, List.foldl_append]
    rfl

end Loads

section Runs
variable {first : SinkID × String} {sinks : Set SinkID}

/-- The record never changes again. -/
theorem run_recorded (first : SinkID × String) (sinks : Set SinkID)
    (rest : List (SinkID × String)) : (rest.foldl bindStep (some first, sinks)).1 = some first := by
  induction rest generalizing sinks with
  | nil => rfl
  | cons entry rest ih =>
    rw [List.foldl_cons, bindStep]
    dsimp only
    split <;> exact ih _

/-- Only the recorded group ever loses the model. -/
theorem run_keeps {sink : SinkID} (differs : sink ≠ first.1) (rest : List (SinkID × String))
    (bound : sink ∈ sinks) : sink ∈ (rest.foldl bindStep (some first, sinks)).2 := by
  induction rest generalizing sinks with
  | nil => exact bound
  | cons entry rest ih =>
    rw [List.foldl_cons, bindStep]
    dsimp only
    split
    · exact ih bound
    · exact ih (Or.inl ⟨bound, differs⟩)

/-- A group with a pattern that is long enough gets the model and keeps it. -/
theorem run_gains {rest : List (SinkID × String)} {entry : SinkID × String} (member : entry ∈ rest)
    (differs : entry.1 ≠ first.1) (long : entryLen first ≤ entryLen entry) :
    entry.1 ∈ (rest.foldl bindStep (some first, sinks)).2 := by
  induction rest generalizing sinks with
  | nil => cases member
  | cons head rest ih =>
    rw [List.foldl_cons, bindStep]
    dsimp only
    rcases List.mem_cons.mp member with here | there
    · subst here
      rw [if_neg (Nat.not_lt.mpr long)]
      exact run_keeps differs rest (Or.inr rfl)
    · split <;> exact ih there

/-- As long as the others are shorter only the recorded group has the model. -/
theorem run_single {rest : List (SinkID × String)}
    (shorter : ∀ entry ∈ rest, entry.1 ≠ first.1 → entryLen entry < entryLen first) :
    (rest.foldl bindStep (some first, {first.1})).2 = {first.1} := by
  induction rest with
  | nil => rfl
  | cons entry rest ih =>
    have later := ih (fun other inside => shorter other (List.mem_cons_of_mem entry inside))
    rw [List.foldl_cons, bindStep]
    dsimp only
    split
    · exact later
    · rename_i long
      have same : entry.1 = first.1 := by
        by_contra differs
        exact long (shorter entry (List.mem_cons_self ..) differs)
      have back : ({first.1} \ {first.1}) ∪ {first.1} = ({first.1} : Set SinkID) := by
        ext sink
        simp
      rw [same, back]
      exact later

end Runs

section Bound
variable {wild : Wild} {infraAgent : SinkGroupAgent} {index : List RuleKey} {models : ModelTable}
  {entry : ModelName × DataModel} {first : SinkID × String} {rest : List (SinkID × String)}

theorem ModelTable.get_of_mem (table : ModelTable) (member : entry ∈ table.entries) :
    table.get entry.1 = some entry.2 := by
  obtain ⟨entries, distinct⟩ := table
  unfold ModelTable.get
  dsimp only at member ⊢
  induction entries with
  | nil => cases member
  | cons head others ih =>
    rw [List.map_cons, List.nodup_cons] at distinct
    rw [List.find?_cons]
    rcases List.mem_cons.mp member with here | there
    · subst here
      simp
    · have differs : head.1 ≠ entry.1 := by
        intro same
        exact distinct.1 (same ▸ List.mem_map_of_mem there)
      simp only [differs, decide_false]
      exact ih distinct.2 there

theorem allocSinkRes_of_has {rm : ResManager} {sink : SinkID}
    (member : entry ∈ rm.nameMdlRes.entries) (has : rm.sinkMdlRelation.Has sink entry.1) :
    entry.2 ∈ rm.allocSinkRes sink := by
  unfold ResManager.allocSinkRes
  unfold SetsByKey.Has at has
  cases sets : rm.sinkMdlRelation sink with
  | none =>
    rw [sets] at has
    cases has
  | some names =>
    rw [sets] at has
    exact List.mem_filterMap.mpr ⟨entry.1, has, rm.nameMdlRes.get_of_mem member⟩

theorem loads_nameMdlRes (wild : Wild) (index : List RuleKey) (loads : List RouteLoad)
    (rm : ResManager) :
    (loads.foldl (ResManager.loadRoute wild index) rm).nameMdlRes = rm.nameMdlRes := by
  induction loads generalizing rm with
  | nil => rfl
  | cons load rest ih =>
    rw [List.foldl_cons, ih, (loadRoute_rules wild index load rm).nameMdlRes]
    rfl

theorem loaded_nameMdlRes (wild : Wild) (infraAgent : SinkGroupAgent) (index : List RuleKey)
    (models : ModelTable) (loads : List RouteLoad) :
    (loads.foldl (ResManager.loadRoute wild index)
      (.loaded infraAgent index models)).nameMdlRes = models :=
  loads_nameMdlRes wild index loads _

theorem loaded_bindingOf (wild : Wild) (infraAgent : SinkGroupAgent) (index : List RuleKey)
    (loads : List RouteLoad) (member : entry ∈ models.entries) :
    (loads.foldl (ResManager.loadRoute wild index)
        (.loaded infraAgent index models)).bindingOf entry.1 =
      (bindingsOf wild (loads.map RouteLoad.conf) entry.1).foldl bindStep (none, ∅) := by
  have known : entry.1 ∈ (ResManager.loaded infraAgent index models).nameMdlRes.keys :=
    List.mem_map_of_mem member
  have unbound : (ResManager.loaded infraAgent index models).bindingOf entry.1 = (none, ∅) := by
    unfold ResManager.bindingOf
    congr 1
    ext sink
    simp [ResManager.loaded, SetsByKey.Has]
  rw [loads_bindingOf loads _ known, unbound]

/-- The first match of a model is recorded for good. -/
theorem foldl_bindStep_cons (first : SinkID × String) (rest : List (SinkID × String)) :
    (first :: rest).foldl bindStep (none, ∅) = rest.foldl bindStep (some first, {first.1}) := by
  rw [List.foldl_cons, bindStep]
  dsimp only
  rw [Set.empty_union]

theorem mem_bindingsOf {routes : List SinkRouteConf} {conf : SinkRouteConf} {matcher : WildMatch}
    {mdlName : ModelName} (there : conf ∈ routes) (offered : matcher ∈ conf.oml)
    (matched : wild matcher mdlName.name = true) :
    (conf.sinkName, matcher.text) ∈ bindingsOf wild routes mdlName := by
  refine List.mem_flatMap.mpr ⟨conf, there, List.mem_map_of_mem ?_⟩
  exact List.mem_filter.mpr ⟨offered, matched⟩

/-- Each pattern that matches a model is offered to the rules that the model matches. -/
theorem mem_offersFor_of_binding {routes : List SinkRouteConf} {rule : RuleKey}
    (member : entry ∈ models.entries) (matched : entry.2.isMatch wild rule = true)
    (bound : first ∈ bindingsOf wild routes entry.1) : first ∈ offersFor wild models rule routes := by
  obtain ⟨conf, there, offered⟩ := List.mem_flatMap.mp bound
  obtain ⟨matcher, inside, same⟩ := List.mem_map.mp offered
  subst same
  refine List.mem_flatMap.mpr ⟨conf, there, List.mem_map_of_mem ?_⟩
  obtain ⟨inOml, matches_⟩ := List.mem_filter.mp inside
  refine List.mem_append_right _ (List.mem_filter.mpr ⟨inOml, ?_⟩)
  rw [List.any_eq_true]
  exact ⟨entry, member, by rw [matches_, matched]; rfl⟩

/-- The longest pattern of a model whose first group outlasts the others is one of that group. -/
theorem hasLongest_of_outlasts {routes : List SinkRouteConf} {mdlName : ModelName}
    (bindings : bindingsOf wild routes mdlName = first :: rest)
    (outlasts : FirstOutlasts wild routes mdlName) : HasLongest wild routes mdlName first.1 := by
  have shorter := outlasts first rest bindings
  cases found : (bindingsOf wild routes mdlName).argmax entryLen with
  | none =>
    have empty := List.argmax_eq_none.mp found
    rw [bindings] at empty
    cases empty
  | some longest =>
    have winner := (argmax_eq_some_iff _ _).mp found
    have ofFirst : longest.1 = first.1 := by
      by_contra differs
      have inside := winner.mem
      rw [bindings] at inside
      rcases List.mem_cons.mp inside with here | there
      · exact differs (by rw [here])
      · have most := winner.le first (by rw [bindings]; exact List.mem_cons_self ..)
        have less := shorter longest there differs
        omega
    refine ⟨longest.2, ?_, winner.le⟩
    rw [← ofFirst]
    exact winner.mem

variable {loads : List RouteLoad}

/-- The sinks that have a model of the table, and what is recorded for it. -/
theorem loaded_has_iff (infraAgent : SinkGroupAgent) (index : List RuleKey)
    (member : entry ∈ models.entries) (sink : SinkID) :
    (loads.foldl (ResManager.loadRoute wild index)
        (.loaded infraAgent index models)).sinkMdlRelation.Has sink entry.1 ↔
      sink ∈ ((bindingsOf wild (loads.map RouteLoad.conf) entry.1).foldl bindStep (none, ∅)).2 := by
  have binding := loaded_bindingOf wild infraAgent index loads member
  exact Set.ext_iff.mp (congrArg Prod.snd binding) sink

theorem loaded_record (member : entry ∈ models.entries) :
    (loads.foldl (ResManager.loadRoute wild index)
        (.loaded infraAgent index models)).mdlSinkMap entry.1 =
      ((bindingsOf wild (loads.map RouteLoad.conf) entry.1).foldl bindStep (none, ∅)).1 :=
  congrArg Prod.fst (loaded_bindingOf wild infraAgent index loads member)

/-- A model whose first group outlasts the others is bound to that group only. -/
theorem loaded_has_first (member : entry ∈ models.entries)
    (bindings : bindingsOf wild (loads.map RouteLoad.conf) entry.1 = first :: rest)
    (outlasts : FirstOutlasts wild (loads.map RouteLoad.conf) entry.1) (sink : SinkID) :
    (loads.foldl (ResManager.loadRoute wild index)
        (.loaded infraAgent index models)).sinkMdlRelation.Has sink entry.1 ↔ sink = first.1 := by
  rw [loaded_has_iff infraAgent index member, bindings, foldl_bindStep_cons,
    run_single (outlasts first rest bindings)]
  rfl

/-- A rule that is routed through the model is routed to the first group of the model. -/
theorem routesThrough_first {rule : RuleKey} {sink : SinkID} (member : entry ∈ models.entries)
    (bindings : bindingsOf wild (loads.map RouteLoad.conf) entry.1 = first :: rest)
    (outlasts : FirstOutlasts wild (loads.map RouteLoad.conf) entry.1)
    (through : RoutesThrough wild (loads.map RouteLoad.conf)
      (loads.foldl (ResManager.loadRoute wild index) (.loaded infraAgent index models)) rule sink
        entry) : sink = first.1 := by
  obtain ⟨matcher, routed, ⟨conf, there, name, offered⟩, matched, matchesRule⟩ := through
  by_contra differs
  have bound := mem_bindingsOf there offered matched
  rw [name, bindings] at bound
  rcases List.mem_cons.mp bound with here | later
  · exact differs (by rw [← here])
  · have less := outlasts first rest bindings _ later differs
    have known : rule ∈ index := by
      by_contra unknown
      rw [loads_spare loads _ unknown] at routed
      cases routed
    rw [loaded_idx wild infraAgent index models loads known] at routed
    have winner := (argmax_eq_some_iff _ _).mp routed
    have offers : first ∈ offersFor wild models rule (loads.map RouteLoad.conf) :=
      mem_offersFor_of_binding member matchesRule (by rw [bindings]; exact List.mem_cons_self ..)
    have most := winner.le first offers
    omega

theorem modelsBound_of_outlasts
    (outlasts : ∀ entry ∈ models.entries, FirstOutlasts wild (loads.map RouteLoad.conf) entry.1) :
    ModelsBound wild (loads.map RouteLoad.conf)
      (loads.foldl (ResManager.loadRoute wild index) (.loaded infraAgent index models)) := by
  have table := loaded_nameMdlRes wild infraAgent index models loads
  have bound : ∀ entry ∈ models.entries, ∀ sink,
      (loads.foldl (ResManager.loadRoute wild index)
        (.loaded infraAgent index models)).sinkMdlRelation.Has sink entry.1 →
      ∃ first rest, bindingsOf wild (loads.map RouteLoad.conf) entry.1 = first :: rest ∧
        sink = first.1 := by
    intro entry member sink has
    cases bindings : bindingsOf wild (loads.map RouteLoad.conf) entry.1 with
    | nil =>
      rw [loaded_has_iff infraAgent index member, bindings] at has
      exact has.elim
    | cons first rest =>
      exact ⟨first, rest, rfl, (loaded_has_first member bindings (outlasts entry member) sink).mp has⟩
  constructor
  · intro entry member sink other one two
    rw [table] at member
    obtain ⟨first, rest, bindings, isFirst⟩ := bound entry member sink one
    rw [isFirst]
    exact ((loaded_has_first member bindings (outlasts entry member) other).mp two).symm
  · intro entry member sink has
    rw [table] at member
    obtain ⟨first, rest, bindings, isFirst⟩ := bound entry member sink has
    refine ⟨first.2, ?_⟩
    rw [loaded_record member, bindings, foldl_bindStep_cons, run_recorded, isFirst]
  · intro entry member sink has
    rw [table] at member
    obtain ⟨first, rest, bindings, isFirst⟩ := bound entry member sink has
    rw [isFirst]
    exact hasLongest_of_outlasts bindings (outlasts entry member)
  · intro entry member rule sink through
    apply allocSinkRes_of_has member
    rw [table] at member
    cases bindings : bindingsOf wild (loads.map RouteLoad.conf) entry.1 with
    | nil =>
      obtain ⟨matcher, _, ⟨conf, there, _, offered⟩, matched, _⟩ := through
      have impossible := mem_bindingsOf there offered matched
      rw [bindings] at impossible
      cases impossible
    | cons first rest =>
      rw [loaded_has_first member bindings (outlasts entry member)]
      exact routesThrough_first member bindings (outlasts entry member) through

/-- A group with a pattern that is long enough has the model although another is recorded. -/
theorem outlasts_of_modelsBound (bound : ModelsBound wild (loads.map RouteLoad.conf)
      (loads.foldl (ResManager.loadRoute wild index) (.loaded infraAgent index models)))
    (member : entry ∈ models.entries) : FirstOutlasts wild (loads.map RouteLoad.conf) entry.1 := by
  intro first rest bindings other later differs
  by_contra long
  have has := (loaded_has_iff infraAgent index member other.1).mpr (by
    rw [bindings, foldl_bindStep_cons]
    exact run_gains later differs (Nat.not_lt.mp long))
  have table := loaded_nameMdlRes wild infraAgent index models loads
  obtain ⟨matcher, recorded⟩ := bound.recorded entry (by rw [table]; exact member) other.1 has
  rw [loaded_record member, bindings, foldl_bindStep_cons, run_recorded] at recorded
  cases recorded
  exact differs rfl

end Bound

/-- The groups processed so far. -/
theorem FirstOutlasts.of_append {wild : Wild} {seen rest : List SinkRouteConf} {mdlName : ModelName}
    (outlasts : FirstOutlasts wild (seen ++ rest) mdlName) : FirstOutlasts wild seen mdlName := by
  intro first others bindings entry member
  have longer : bindingsOf wild (seen ++ rest) mdlName =
      first :: (others ++ bindingsOf wild rest mdlName) := by
    unfold bindingsOf at bindings ⊢
    rw [List.flatMap_append, bindings, List.cons_append]
  exact outlasts first _ longer entry (List.mem_append_left _ member)

/-- After each group the models are bound as they should be exactly when no other group than the
    first that matches a model ever has a pattern that is long enough to take it over. -/
theorem models_are_bound_iff (wild : Wild) (infraAgent : SinkGroupAgent) (index : List RuleKey)
    (models : ModelTable) (loads : List RouteLoad) :
    (∀ seen rest, loads = seen ++ rest →
        ∃ rm, (ResManager.loaded infraAgent index models).loadAllSink wild seen = some rm ∧
          ModelsBound wild (seen.map RouteLoad.conf) rm) ↔
      ∀ entry ∈ models.entries, FirstOutlasts wild (loads.map RouteLoad.conf) entry.1 := by
  constructor
  · intro each entry member
    obtain ⟨rm, loaded, bound⟩ := each loads [] (List.append_nil loads).symm
    cases loaded
    exact outlasts_of_modelsBound bound member
  · intro outlasts seen rest split
    refine ⟨_, rfl, modelsBound_of_outlasts ?_⟩
    intro entry member
    have whole := outlasts entry member
    rw [split, List.map_append] at whole
    exact whole.of_append

section ThreeGroups

/-- Patterns that end with a star, as all those below do. -/
def starWild : Wild := fun matcher name => matcher.text.toList.dropLast.isPrefixOf name.toList

def oneModel : ModelTable :=
  { entries := [(⟨"fw/flow"⟩, { name := "fw/flow", rules := [⟨"fw*"⟩] })], distinct := by decide }

def omlGroup (name matcher : String) : RouteLoad :=
  .inOrder { name, rule := [], oml := [⟨matcher⟩] }

/-- Each group has a longer pattern for the model than the one before. The third takes the model
    from the first, which has lost it to the second. -/
theorem third_group_shares_the_model :
    ∃ rm, (ResManager.loaded ⟨"default", 0⟩ [⟨"fw/rule"⟩] oneModel).loadAllSink starWild
        [omlGroup "a" "*", omlGroup "b" "fw*", omlGroup "c" "fw/*"] = some rm ∧
      ¬ ModelsBound starWild
        ([omlGroup "a" "*", omlGroup "b" "fw*", omlGroup "c" "fw/*"].map RouteLoad.conf) rm := by
  refine ⟨_, rfl, ?_⟩
  intro bound
  have same := bound.single (⟨"fw/flow"⟩, { name := "fw/flow", rules := [⟨"fw*"⟩] }) (by decide)
    ⟨"b"⟩ ⟨"c"⟩ (by decide) (by decide)
  exact absurd same (by decide)

end ThreeGroups
end WarpMotor.Resources
