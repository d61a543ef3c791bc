import Mathlib.Data.List.Nodup
import Mathlib.Logic.Function.Basic

/-!
The routing indexes of `ResManager`. The sink groups are processed in order;
each offers its rule patterns and its oml patterns to the index of rules, and
its oml patterns to the index of models. A hash map is a function, and each
group brings the order in which the hash containers are iterated for it. How a
wildcard pattern matches a name is a parameter.
-/
namespace WarpMotor.Resources

structure SinkID where
  name : String
  deriving DecidableEq, Repr

structure RuleKey where
  key : String
  deriving DecidableEq, Repr

structure ModelName where
  name : String
  deriving DecidableEq, Repr

/-- A wildcard pattern by the text that it displays. -/
structure WildMatch where
  text : String
  deriving DecidableEq, Repr

/-- `String::len` counts bytes. -/
def textLen (text : String) : Nat := text.utf8ByteSize

/-- How patterns match names. -/
abbrev Wild := WildMatch → String → Bool

structure DataModel where
  name : String
  rules : List WildMatch
  deriving DecidableEq, Repr

def DataModel.isMatch (wild : Wild) (mdl : DataModel) (ruleKey : RuleKey) : Bool :=
  mdl.rules.any (fun rule => wild rule ruleKey.key)

/-- `HashMap<ModelName, DataModel>`. -/
structure ModelTable where
  entries : List (ModelName × DataModel)
  distinct : (entries.map Prod.fst).Nodup

namespace ModelTable

def keys (table : ModelTable) : List ModelName := table.entries.map Prod.fst

def get (table : ModelTable) (name : ModelName) : Option DataModel :=
  (table.entries.find? (fun entry => entry.1 = name)).map Prod.snd

end ModelTable

/-- What the routing reads of a `SinkRouteConf`. -/
structure SinkRouteConf where
  name : String
  rule : List WildMatch
  oml : List WildMatch
  deriving DecidableEq, Repr

def SinkRouteConf.sinkName (conf : SinkRouteConf) : SinkID := ⟨conf.name⟩

/-- Sets of values by key; a set that was emptied stays. -/
abbrev SetsByKey (K V : Type) := K → Option (List V)

namespace SetsByKey
variable {K V : Type} [DecidableEq K] [DecidableEq V]

def insert (sets : SetsByKey K V) (key : K) (value : V) : SetsByKey K V :=
  Function.update sets key (some (((sets key).getD []).insert value))

def remove (sets : SetsByKey K V) (key : K) (value : V) : SetsByKey K V :=
  Function.update sets key ((sets key).map (fun values => values.filter (fun v => v ≠ value)))

def Has (sets : SetsByKey K V) (key : K) (value : V) : Prop := value ∈ (sets key).getD []

instance (sets : SetsByKey K V) (key : K) (value : V) : Decidable (sets.Has key value) :=
  inferInstanceAs (Decidable (value ∈ (sets key).getD []))

end SetsByKey

structure SinkRuleRegistry where
  ruleSinkIdx : RuleKey → Option (SinkID × String)
  sinkRuleRelation : SetsByKey SinkID RuleKey

def SinkRuleRegistry.update (reg : SinkRuleRegistry) (sinkName : SinkID) (ruleKey : RuleKey)
    (matcher : String) : SinkRuleRegistry :=
  match reg.ruleSinkIdx ruleKey with
  | some (oriSinkName, oriMatcher) =>
    if textLen oriMatcher < textLen matcher then
      { ruleSinkIdx := Function.update reg.ruleSinkIdx ruleKey (some (sinkName, matcher))
        sinkRuleRelation :=
          (reg.sinkRuleRelation.remove oriSinkName ruleKey).insert sinkName ruleKey }
    else reg
  | none =>
    { ruleSinkIdx := Function.update reg.ruleSinkIdx ruleKey (some (sinkName, matcher))
      sinkRuleRelation := reg.sinkRuleRelation.insert sinkName ruleKey }

/-- `SinkModelIndex`. -/
abbrev SinkModelIndex := SetsByKey SinkID ModelName

namespace SinkModelIndex

def associateModel (index : SinkModelIndex) (sinkName : SinkID) (mdlName : ModelName) :
    SinkModelIndex := index.insert sinkName mdlName

def disassociateMdl (index : SinkModelIndex) (sinkName : SinkID) (mdlName : ModelName) :
    SinkModelIndex := index.remove sinkName mdlName

end SinkModelIndex

/-- `conf` is the group's; `id` tells agents of groups with one name apart. -/
structure SinkGroupAgent where
  conf : String
  id : Nat
  deriving DecidableEq, Repr

structure ResManager where
  nameMdlRes : ModelTable
  mdlSinkMap : ModelName → Option (SinkID × String)
  ruleSinkDb : SinkRuleRegistry
  sinkMdlRelation : SinkModelIndex
  wplIndex : Option (List RuleKey)
  routeAgent : Option (List SinkGroupAgent)
  infraAgent : Option SinkGroupAgent

/-- A sink group and the orders in which the hash containers are iterated while it is processed: the
    rule keys, the copied models and the names of the models. -/
structure RouteLoad where
  conf : SinkRouteConf
  ruleOrder : List RuleKey → List RuleKey
  modelOrder : List (ModelName × DataModel) → List (ModelName × DataModel)
  nameOrder : List ModelName → List ModelName
  rule_perm : ∀ keys, (ruleOrder keys).Perm keys
  model_perm : ∀ models, (modelOrder models).Perm models
  name_perm : ∀ names, (nameOrder names).Perm names

/-- The containers are iterated in the order in which they are listed. -/
def RouteLoad.inOrder (conf : SinkRouteConf) : RouteLoad :=
  { conf, ruleOrder := id, modelOrder := id, nameOrder := id
    rule_perm := fun _ => .refl _, model_perm := fun _ => .refl _, name_perm := fun _ => .refl _ }

namespace ResManager

/-- The body of the loop over names for one that the pattern matches. -/
def bindModel (sinkName : SinkID) (matcher : String) (mdlName : ModelName) (rm : ResManager) :
    ResManager :=
  match rm.mdlSinkMap mdlName with
  | some (oldSinkName, recorded) =>
    if textLen matcher < textLen recorded then rm
    else
      -- the recorded group and pattern stay as they are
      { rm with
        sinkMdlRelation := (rm.sinkMdlRelation.disassociateMdl oldSinkName mdlName).associateModel
          sinkName mdlName }
  | none =>
    { rm with
      mdlSinkMap := Function.update rm.mdlSinkMap mdlName (some (sinkName, matcher))
      sinkMdlRelation := rm.sinkMdlRelation.associateModel sinkName mdlName }

def updateSinkMdlIndex (wild : Wild) (load : RouteLoad) (rm : ResManager) : ResManager :=
  load.conf.oml.foldl (fun rm matcher =>
    (load.nameOrder rm.nameMdlRes.keys).foldl (fun rm mdlName =>
      if wild matcher mdlName.name then rm.bindModel load.conf.sinkName matcher.text mdlName
      else rm) rm) rm

/-- The loop of a rule pattern over the rule keys. -/
def offerRule (wild : Wild) (sinkName : SinkID) (keys : List RuleKey) (matcher : WildMatch)
    (reg : SinkRuleRegistry) : SinkRuleRegistry :=
  keys.foldl (fun reg ruleKey =>
    if wild matcher ruleKey.key then reg.update sinkName ruleKey matcher.text else reg) reg

/-- The loops of an oml pattern over the rule keys and the models. -/
def offerOml (wild : Wild) (sinkName : SinkID) (keys : List RuleKey)
    (models : List (ModelName × DataModel)) (matcher : WildMatch) (reg : SinkRuleRegistry) :
    SinkRuleRegistry :=
  keys.foldl (fun reg ruleKey =>
    models.foldl (fun reg entry =>
      if wild matcher entry.1.name && entry.2.isMatch wild ruleKey then
        reg.update sinkName ruleKey matcher.text
      else reg) reg) reg

def updateSinkRuleIndex (wild : Wild) (wplIndex : List RuleKey) (load : RouteLoad)
    (rm : ResManager) : ResManager :=
  let keys := load.ruleOrder wplIndex
  let models := load.modelOrder rm.nameMdlRes.entries
  let sinkName := load.conf.sinkName
  let byRule := load.conf.rule.foldl
    (fun reg matcher => offerRule wild sinkName keys matcher reg) rm.ruleSinkDb
  { rm with
    ruleSinkDb := load.conf.oml.foldl
      (fun reg matcher => offerOml wild sinkName keys models matcher reg) byRule }

def loadRoute (wild : Wild) (wplIndex : List RuleKey) (rm : ResManager) (load : RouteLoad) :
    ResManager :=
  (rm.updateSinkRuleIndex wild wplIndex load).updateSinkMdlIndex wild load

/-- `none`: the rules have not been loaded. -/
def loadAllSink (wild : Wild) (rm : ResManager) (loads : List RouteLoad) : Option ResManager :=
  match rm.wplIndex with
  | none => none
  | some wplIndex => some (loads.foldl (loadRoute wild wplIndex) rm)

/-- What `build` has set when it comes to the sinks. -/
def loaded (infraAgent : SinkGroupAgent) (wplIndex : List RuleKey) (models : ModelTable) :
    ResManager :=
  { nameMdlRes := models, mdlSinkMap := fun _ => none
    ruleSinkDb := { ruleSinkIdx := fun _ => none, sinkRuleRelation := fun _ => none }
    sinkMdlRelation := fun _ => none, wplIndex := some wplIndex, routeAgent := none
    infraAgent := some infraAgent }

/-- The route agents are set before any parse unit asks for its agents. -/
def insEngineRes (rm : ResManager) (agent : List SinkGroupAgent) : ResManager :=
  { rm with routeAgent := some agent }

/-- `none`: the route agents, or the infra agents where they are needed, are not set. -/
def allocParseRes (rm : ResManager) (ruleKey : RuleKey) : Option (List SinkGroupAgent) :=
  match rm.routeAgent with
  | none => none
  | some routeAgent =>
    let res := match rm.ruleSinkDb.ruleSinkIdx ruleKey with
      | some (idx, _) => routeAgent.filter (fun item => idx = ⟨item.conf⟩)
      | none => []
    if res.isEmpty then rm.infraAgent.map (fun default => [default]) else some res

/-- The models that are pushed into the `SinkResUnit`. -/
def allocSinkRes (rm : ResManager) (sinkName : SinkID) : List DataModel :=
  match rm.sinkMdlRelation sinkName with
  | some sinkMdls => sinkMdls.filterMap rm.nameMdlRes.get
  | none => []

end ResManager
end WarpMotor.Resources
