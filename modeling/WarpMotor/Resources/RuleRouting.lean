import WarpMotor.Lib.FirstMax
import WarpMotor.Resources.Indexing

/-!
Which sink group a rule is routed to. All loops over rules, patterns and models
come down to offers: a group offers itself with the text of a pattern to some
rules, and a rule changes its group only for a longer text. What a rule ends
with is the first longest offer, whatever the order of the hash containers.
-/
namespace WarpMotor.Resources
open FirstMax

/-- The patterns by which a group can get a rule, in the order in which they are offered. -/
def SinkRouteConf.patternsFor (wild : Wild) (models : ModelTable) (rule : RuleKey)
    (conf : SinkRouteConf) : List WildMatch :=
  conf.rule.filter (fun matcher => wild matcher rule.key) ++
    conf.oml.filter (fun matcher => models.entries.any (fun entry =>
      wild matcher entry.1.name && entry.2.isMatch wild rule))

/-- The group is the first that has a longest pattern for the rule. -/
def IsFirstLongest (wild : Wild) (models : ModelTable) (routes : List SinkRouteConf)
    (rule : RuleKey) (sink : SinkID) : Prop :=
  ∃ before conf after, routes = before ++ conf :: after ∧ conf.sinkName = sink ∧
    ∃ longest ∈ conf.patternsFor wild models rule,
      (∀ other ∈ before, ∀ matcher ∈ other.patternsFor wild models rule,
        textLen matcher.text < textLen longest.text) ∧
      ∀ other ∈ conf :: after, ∀ matcher ∈ other.patternsFor wild models rule,
        textLen matcher.text ≤ textLen longest.text

/-- How long the pattern of an entry is. -/
def entryLen (entry : SinkID × String) : Nat := textLen entry.2

/-- The relation is the inverse of the index. -/
def SinkRuleRegistry.Inverse (reg : SinkRuleRegistry) : Prop :=
  ∀ rule sink, reg.sinkRuleRelation.Has sink rule ↔
    ∃ matcher, reg.ruleSinkIdx rule = some (sink, matcher)

section Sets
variable {K V : Type} [DecidableEq K] [DecidableEq V] {sets : SetsByKey K V} {key other : K}
  {value v : V}

theorem has_insert : (sets.insert key value).Has other v ↔
    (other = key ∧ v = value) ∨ sets.Has other v := by
  unfold SetsByKey.Has SetsByKey.insert
  by_cases same : other = key
  · subst same
    simp
  · simp [same]

theorem has_remove : (sets.remove key value).Has other v ↔
    sets.Has other v ∧ ¬ (other = key ∧ v = value) := by
  unfold SetsByKey.Has SetsByKey.remove
  by_cases same : other = key
  · subst same
    cases there : sets other with
    | none => simp
    | some values => simp
  · simp [same]

end Sets

/-- The step offers `entry` to the rules, leaves the others alone and keeps the inverse. -/
structure Offers (entry : SinkID × String) (rules : RuleKey → Prop)
    (step : SinkRuleRegistry → SinkRuleRegistry) : Prop where
  offered : ∀ reg rule, rules rule →
    (step reg).ruleSinkIdx rule = challenge entryLen (reg.ruleSinkIdx rule) entry
  others : ∀ reg rule, ¬ rules rule → (step reg).ruleSinkIdx rule = reg.ruleSinkIdx rule
  inverse : ∀ reg : SinkRuleRegistry, reg.Inverse → (step reg).Inverse

section Updates
variable {sinkName : SinkID} {ruleKey : RuleKey} {matcher : String}

theorem update_idx (reg : SinkRuleRegistry) (sinkName : SinkID) (ruleKey rule : RuleKey)
    (matcher : String) :
    (reg.update sinkName ruleKey matcher).ruleSinkIdx rule =
      if rule = ruleKey then challenge entryLen (reg.ruleSinkIdx rule) (sinkName, matcher)
      else reg.ruleSinkIdx rule := by
  unfold SinkRuleRegistry.update
  by_cases same : rule = ruleKey
  · subst same
    cases held : reg.ruleSinkIdx rule with
    | none => simp [challenge]
    | some entry =>
      obtain ⟨oriSinkName, oriMatcher⟩ := entry
      by_cases longer : textLen oriMatcher < textLen matcher
      · simp [challenge, entryLen, longer]
      · simp [challenge, entryLen, longer, held]
  · rw [if_neg same]
    split
    · split
      · exact Function.update_of_ne same _ _
      · rfl
    · exact Function.update_of_ne same _ _

theorem update_inverse {reg : SinkRuleRegistry} (inverse : reg.Inverse) :
    (reg.update sinkName ruleKey matcher).Inverse := by
  intro rule sink
  have before := inverse rule sink
  unfold SinkRuleRegistry.update
  cases held : reg.ruleSinkIdx ruleKey with
  | none =>
    dsimp only
    rw [has_insert, before]
    by_cases same : rule = ruleKey
    · subst same
      simp [held, eq_comm]
    · simp [same]
  | some entry =>
    obtain ⟨oriSinkName, oriMatcher⟩ := entry
    dsimp only
    split
    · dsimp only
      rw [has_insert, has_remove, before]
      by_cases same : rule = ruleKey
      · subst same
        rw [held, Function.update_self]
        constructor
        · intro either
          rcases either with ⟨new, _⟩ | ⟨⟨_, old⟩, kept⟩
          · exact ⟨matcher, by rw [new]⟩
          · cases old
            exact absurd ⟨rfl, rfl⟩ kept
        · intro new
          obtain ⟨text, entry⟩ := new
          cases entry
          exact Or.inl ⟨rfl, rfl⟩
      · simp [same]
    · exact before

theorem update_offers (sinkName : SinkID) (ruleKey : RuleKey) (matcher : String) :
    Offers (sinkName, matcher) (fun rule => rule = ruleKey)
      (fun reg => reg.update sinkName ruleKey matcher) := by
  constructor
  · intro reg rule same
    rw [update_idx, if_pos same]
  · intro reg rule differs
    rw [update_idx, if_neg differs]
  · intro reg inverse
    exact update_inverse inverse

end Updates

section Loops
variable {entry : SinkID × String} {rules more : RuleKey → Prop}
  {step next : SinkRuleRegistry → SinkRuleRegistry}

theorem Offers.congr (offers : Offers entry rules step) (same : ∀ rule, rules rule ↔ more rule) :
    Offers entry more step := by
  constructor
  · intro reg rule offered
    exact offers.offered reg rule ((same rule).mpr offered)
  · intro reg rule spared
    exact offers.others reg rule (fun offered => spared ((same rule).mp offered))
  · exact offers.inverse

theorem offers_nothing (entry : SinkID × String) : Offers entry (fun _ => False) id :=
  ⟨fun _ _ impossible => impossible.elim, fun _ _ _ => rfl, fun _ inverse => inverse⟩

/-- The same entry offered twice to a rule is offered once. -/
theorem Offers.then (first : Offers entry rules step) (second : Offers entry more next) :
    Offers entry (fun rule => rules rule ∨ more rule) (fun reg => next (step reg)) := by
  constructor
  · intro reg rule either
    by_cases again : more rule
    · rw [second.offered (step reg) rule again]
      by_cases before : rules rule
      · rw [first.offered reg rule before, challenge_twice]
      · rw [first.others reg rule before]
    · rw [second.others (step reg) rule again]
      exact first.offered reg rule (either.resolve_right again)
  · intro reg rule neither
    rw [second.others (step reg) rule (fun again => neither (Or.inr again))]
    exact first.others reg rule (fun before => neither (Or.inl before))
  · intro reg inverse
    exact second.inverse (step reg) (first.inverse reg inverse)

theorem foldl_offers {α : Type} {offer : α → SinkRuleRegistry → SinkRuleRegistry}
    {rulesOf : α → RuleKey → Prop} (each : ∀ item, Offers entry (rulesOf item) (offer item))
    (items : List α) :
    Offers entry (fun rule => ∃ item ∈ items, rulesOf item rule)
      (fun reg => items.foldl (fun reg item => offer item reg) reg) := by
  induction items with
  | nil =>
    apply (offers_nothing entry).congr
    simp
  | cons item rest ih =>
    apply ((each item).then ih).congr
    simp

/-- An offer that is made only where the condition holds. -/
theorem Offers.when (offers : Offers entry rules step) (condition : Bool) :
    Offers entry (fun rule => condition = true ∧ rules rule)
      (fun reg => if condition then step reg else reg) := by
  cases condition with
  | true =>
    apply offers.congr
    simp
  | false =>
    apply (offers_nothing entry).congr
    simp

theorem offerRule_offers (wild : Wild) (sinkName : SinkID) (keys : List RuleKey)
    (matcher : WildMatch) :
    Offers (sinkName, matcher.text) (fun rule => rule ∈ keys ∧ wild matcher rule.key = true)
      (ResManager.offerRule wild sinkName keys matcher) := by
  have loop := foldl_offers (fun ruleKey : RuleKey =>
    (update_offers sinkName ruleKey matcher.text).when (wild matcher ruleKey.key)) keys
  apply loop.congr
  intro rule
  constructor
  · intro found
    obtain ⟨ruleKey, member, matched, same⟩ := found
    subst same
    exact ⟨member, matched⟩
  · intro found
    exact ⟨rule, found.1, found.2, rfl⟩

theorem offerOml_offers (wild : Wild) (sinkName : SinkID) (keys : List RuleKey)
    (models : List (ModelName × DataModel)) (matcher : WildMatch) :
    Offers (sinkName, matcher.text)
      (fun rule => rule ∈ keys ∧ models.any (fun entry =>
        wild matcher entry.1.name && entry.2.isMatch wild rule) = true)
      (ResManager.offerOml wild sinkName keys models matcher) := by
  have loop := foldl_offers (fun ruleKey : RuleKey =>
    foldl_offers (fun entry : ModelName × DataModel =>
      (update_offers sinkName ruleKey matcher.text).when
        (wild matcher entry.1.name && entry.2.isMatch wild ruleKey)) models) keys
  apply loop.congr
  intro rule
  rw [List.any_eq_true]
  constructor
  · intro found
    obtain ⟨ruleKey, member, entry, inside, matched, same⟩ := found
    subst same
    exact ⟨member, entry, inside, matched⟩
  · intro found
    obtain ⟨member, entry, inside, matched⟩ := found
    exact ⟨rule, member, entry, inside, matched, rfl⟩

end Loops

section Patterns
variable {sinkName : SinkID} {rule : RuleKey}
  {offer : WildMatch → SinkRuleRegistry → SinkRuleRegistry} {covers : WildMatch → RuleKey → Prop}

/-- The patterns of one loop, each with its own text. -/
theorem patterns_idx (each : ∀ matcher, Offers (sinkName, matcher.text) (covers matcher)
      (offer matcher)) (takes : WildMatch → Bool)
    (known : ∀ matcher, covers matcher rule ↔ takes matcher = true) (patterns : List WildMatch)
    (reg : SinkRuleRegistry) :
    (patterns.foldl (fun reg matcher => offer matcher reg) reg).ruleSinkIdx rule =
      ((patterns.filter takes).map (fun matcher => (sinkName, matcher.text))).foldl
        (challenge entryLen) (reg.ruleSinkIdx rule) := by
  induction patterns generalizing reg with
  | nil => rfl
  | cons matcher rest ih =>
    rw [List.foldl_cons, ih, List.filter_cons]
    cases taken : takes matcher with
    | true =>
      rw [(each matcher).offered reg rule ((known matcher).mpr taken)]
      rfl
    | false =>
      have spared : ¬ covers matcher rule := by
        rw [known, taken]
        exact Bool.false_ne_true
      rw [(each matcher).others reg rule spared]
      rfl

theorem patterns_spared (each : ∀ matcher, Offers (sinkName, matcher.text) (covers matcher)
      (offer matcher)) (spared : ∀ matcher, ¬ covers matcher rule) (patterns : List WildMatch)
    (reg : SinkRuleRegistry) :
    (patterns.foldl (fun reg matcher => offer matcher reg) reg).ruleSinkIdx rule =
      reg.ruleSinkIdx rule := by
  induction patterns generalizing reg with
  | nil => rfl
  | cons matcher rest ih =>
    rw [List.foldl_cons, ih]
    exact (each matcher).others reg rule (spared matcher)

theorem patterns_inverse (each : ∀ matcher, Offers (sinkName, matcher.text) (covers matcher)
      (offer matcher)) (patterns : List WildMatch) {reg : SinkRuleRegistry}
    (inverse : reg.Inverse) :
    (patterns.foldl (fun reg matcher => offer matcher reg) reg).Inverse := by
  induction patterns generalizing reg with
  | nil => exact inverse
  | cons matcher rest ih => exact ih ((each matcher).inverse reg inverse)

end Patterns

section Routes
variable {wild : Wild} {models : ModelTable} {index : List RuleKey} {rule : RuleKey}

/-- What the index of models leaves alone. -/
structure SameRules (rm after : ResManager) : Prop where
  nameMdlRes : after.nameMdlRes = rm.nameMdlRes
  ruleSinkDb : after.ruleSinkDb = rm.ruleSinkDb
  infraAgent : after.infraAgent = rm.infraAgent

theorem SameRules.refl (rm : ResManager) : SameRules rm rm := ⟨rfl, rfl, rfl⟩

theorem SameRules.trans {first second third : ResManager} (before : SameRules first second)
    (after : SameRules second third) : SameRules first third :=
  ⟨after.nameMdlRes.trans before.nameMdlRes, after.ruleSinkDb.trans before.ruleSinkDb,
    after.infraAgent.trans before.infraAgent⟩

theorem foldl_sameRules {α : Type} {step : ResManager → α → ResManager}
    (each : ∀ rm item, SameRules rm (step rm item)) (items : List α) (rm : ResManager) :
    SameRules rm (items.foldl step rm) := by
  induction items generalizing rm with
  | nil => exact SameRules.refl rm
  | cons item rest ih => exact (each rm item).trans (ih (step rm item))

theorem bindModel_sameRules (sinkName : SinkID) (matcher : String) (mdlName : ModelName)
    (rm : ResManager) : SameRules rm (rm.bindModel sinkName matcher mdlName) := by
  unfold ResManager.bindModel
  split
  · split
    · exact SameRules.refl rm
    · exact ⟨rfl, rfl, rfl⟩
  · exact ⟨rfl, rfl, rfl⟩

theorem updateSinkMdlIndex_sameRules (wild : Wild) (load : RouteLoad) (rm : ResManager) :
    SameRules rm (rm.updateSinkMdlIndex wild load) := by
  apply foldl_sameRules
  intro rm matcher
  apply foldl_sameRules
  intro rm mdlName
  split
  · exact bindModel_sameRules _ _ _ _
  · exact SameRules.refl rm

/-- The entries that the groups offer to a rule, in order. -/
def offersFor (wild : Wild) (models : ModelTable) (rule : RuleKey) (routes : List SinkRouteConf) :
    List (SinkID × String) :=
  routes.flatMap (fun conf =>
    (conf.patternsFor wild models rule).map (fun matcher => (conf.sinkName, matcher.text)))

theorem updateSinkRuleIndex_idx (load : RouteLoad) (rm : ResManager) (known : rule ∈ index) :
    (rm.updateSinkRuleIndex wild index load).ruleSinkDb.ruleSinkIdx rule =
      ((load.conf.patternsFor wild rm.nameMdlRes rule).map
        (fun matcher => (load.conf.sinkName, matcher.text))).foldl (challenge entryLen)
          (rm.ruleSinkDb.ruleSinkIdx rule) := by
  have member : rule ∈ load.ruleOrder index := (load.rule_perm index).mem_iff.mpr known
  have perm := load.model_perm rm.nameMdlRes.entries
  unfold ResManager.updateSinkRuleIndex SinkRouteConf.patternsFor
  dsimp only
  rw [List.map_append, List.foldl_append]
  rw [patterns_idx (offerOml_offers wild _ _ _) (fun matcher => rm.nameMdlRes.entries.any
    (fun entry => wild matcher entry.1.name && entry.2.isMatch wild rule))]
  · rw [patterns_idx (offerRule_offers wild _ _) (fun matcher => wild matcher rule.key)]
    intro matcher
    exact ⟨fun found => found.2, fun matched => ⟨member, matched⟩⟩
  · intro matcher
    rw [perm.any_eq]
    exact ⟨fun found => found.2, fun matched => ⟨member, matched⟩⟩

theorem updateSinkRuleIndex_spares (load : RouteLoad) (rm : ResManager) (unknown : rule ∉ index) :
    (rm.updateSinkRuleIndex wild index load).ruleSinkDb.ruleSinkIdx rule =
      rm.ruleSinkDb.ruleSinkIdx rule := by
  have foreign : rule ∉ load.ruleOrder index :=
    fun member => unknown ((load.rule_perm index).mem_iff.mp member)
  unfold ResManager.updateSinkRuleIndex
  dsimp only
  rw [patterns_spared (offerOml_offers wild _ _ _) (fun matcher found => foreign found.1)]
  exact patterns_spared (offerRule_offers wild _ _) (fun matcher found => foreign found.1) _ _

theorem updateSinkRuleIndex_inverse (load : RouteLoad) (rm : ResManager)
    (inverse : rm.ruleSinkDb.Inverse) :
    (rm.updateSinkRuleIndex wild index load).ruleSinkDb.Inverse :=
  patterns_inverse (offerOml_offers wild _ _ _) _
    (patterns_inverse (offerRule_offers wild _ _) _ inverse)

theorem loadRoute_rules (wild : Wild) (index : List RuleKey) (load : RouteLoad) (rm : ResManager) :
    SameRules (rm.updateSinkRuleIndex wild index load) (rm.loadRoute wild index load) :=
  updateSinkMdlIndex_sameRules wild load _

/-- The index holds the first longest offer of the groups to a rule. -/
theorem loads_idx (loads : List RouteLoad) (rm : ResManager) (known : rule ∈ index) :
    (loads.foldl (ResManager.loadRoute wild index) rm).ruleSinkDb.ruleSinkIdx rule =
      (offersFor wild rm.nameMdlRes rule (loads.map RouteLoad.conf)).foldl (challenge entryLen)
        (rm.ruleSinkDb.ruleSinkIdx rule) := by
  induction loads generalizing rm with
  | nil => rfl
  | cons load rest ih =>
    have step := loadRoute_rules wild index load rm
    rw [List.foldl_cons, ih, step.ruleSinkDb, updateSinkRuleIndex_idx load rm known,
      step.nameMdlRes, ← List.foldl_append]
    rfl

theorem loads_spare (loads : List RouteLoad) (rm : ResManager) (unknown : rule ∉ index) :
    (loads.foldl (ResManager.loadRoute wild index) rm).ruleSinkDb.ruleSinkIdx rule =
      rm.ruleSinkDb.ruleSinkIdx rule := by
  induction loads generalizing rm with
  | nil => rfl
  | cons load rest ih =>
    rw [List.foldl_cons, ih, (loadRoute_rules wild index load rm).ruleSinkDb]
    exact updateSinkRuleIndex_spares load rm unknown

theorem loads_inverse (loads : List RouteLoad) {rm : ResManager}
    (inverse : rm.ruleSinkDb.Inverse) :
    (loads.foldl (ResManager.loadRoute wild index) rm).ruleSinkDb.Inverse := by
  induction loads generalizing rm with
  | nil => exact inverse
  | cons load rest ih =>
    apply ih
    rw [(loadRoute_rules wild index load rm).ruleSinkDb]
    exact updateSinkRuleIndex_inverse load rm inverse

end Routes
section Winner
variable {wild : Wild} {models : ModelTable} {rule : RuleKey} {sink : SinkID}

theorem isFirstLongest_of_first {routes : List SinkRouteConf} {text : String}
    (first : IsFirstMax entryLen (offersFor wild models rule routes) (sink, text)) :
    IsFirstLongest wild models routes rule sink := by
  obtain ⟨before, conf, after, split, inside, early, late⟩ :=
    (isFirstMax_flatMap routes _ _).mp first
  obtain ⟨longest, member, same⟩ := List.mem_map.mp inside.mem
  cases same
  refine ⟨before, conf, after, split, rfl, longest, member, ?_, ?_⟩
  · intro other there matcher offered
    exact early other there _ (List.mem_map_of_mem offered)
  · intro other there matcher offered
    rcases List.mem_cons.mp there with here | behind
    · subst here
      exact inside.le _ (List.mem_map_of_mem offered)
    · exact late other behind _ (List.mem_map_of_mem offered)

theorem IsFirstLongest.entry {routes : List SinkRouteConf}
    (first : IsFirstLongest wild models routes rule sink) :
    ∃ text, IsFirstMax entryLen (offersFor wild models rule routes) (sink, text) := by
  obtain ⟨before, conf, after, split, name, longest, member, early, late⟩ := first
  cases found : ((conf.patternsFor wild models rule).map
      (fun matcher => (conf.sinkName, matcher.text))).argmax entryLen with
  | none =>
    have empty := List.argmax_eq_none.mp found
    rw [List.map_eq_nil_iff] at empty
    rw [empty] at member
    cases member
  | some entry =>
    have inside := (argmax_eq_some_iff _ _).mp found
    obtain ⟨chosen, offered, same⟩ := List.mem_map.mp inside.mem
    subst same
    have level : textLen longest.text ≤ textLen chosen.text :=
      inside.le _ (List.mem_map_of_mem member)
    rw [name] at inside
    refine ⟨chosen.text, ?_⟩
    unfold offersFor
    rw [isFirstMax_flatMap]
    refine ⟨before, conf, after, split, by rw [name]; exact inside, ?_, ?_⟩
    · intro other there offer offers
      obtain ⟨matcher, weaker, same⟩ := List.mem_map.mp offers
      subst same
      exact (early other there matcher weaker).trans_le level
    · intro other there offer offers
      obtain ⟨matcher, weaker, same⟩ := List.mem_map.mp offers
      subst same
      exact (late other (List.mem_cons_of_mem conf there) matcher weaker).trans level

end Winner

def agentsOf (agents : List SinkGroupAgent) (sink : SinkID) : List SinkGroupAgent :=
  agents.filter (fun item => sink = ⟨item.conf⟩)

/-- Rules are routed to the first group with a longest matching pattern, and the parse units of a
    rule get the agents of that group, or the default one where there are none. -/
structure RoutesByLongestMatch (wild : Wild) (infraAgent : SinkGroupAgent) (index : List RuleKey)
    (models : ModelTable) (routes : List SinkRouteConf) (rm : ResManager) : Prop where
  routed : ∀ rule sink, (∃ matcher, rm.ruleSinkDb.ruleSinkIdx rule = some (sink, matcher)) ↔
    rule ∈ index ∧ IsFirstLongest wild models routes rule sink
  inverse : rm.ruleSinkDb.Inverse
  allocated : ∀ agents, ∀ rule ∈ index,
    ((∀ conf ∈ routes, conf.patternsFor wild models rule = []) ∧
      (rm.insEngineRes agents).allocParseRes rule = some [infraAgent]) ∨
    ∃ sink, IsFirstLongest wild models routes rule sink ∧
      (rm.insEngineRes agents).allocParseRes rule =
        some (if agentsOf agents sink = [] then [infraAgent] else agentsOf agents sink)

section Loaded
variable (wild : Wild) (infraAgent : SinkGroupAgent) (index : List RuleKey) (models : ModelTable)

theorem loaded_idx (loads : List RouteLoad) {rule : RuleKey} (known : rule ∈ index) :
    (loads.foldl (ResManager.loadRoute wild index)
        (.loaded infraAgent index models)).ruleSinkDb.ruleSinkIdx rule =
      (offersFor wild models rule (loads.map RouteLoad.conf)).argmax entryLen := by
  rw [loads_idx loads _ known, ← foldl_challenge]
  rfl

theorem loaded_infraAgent (loads : List RouteLoad) :
    (loads.foldl (ResManager.loadRoute wild index)
      (.loaded infraAgent index models)).infraAgent = some infraAgent := by
  have kept : ∀ rm : ResManager,
      (loads.foldl (ResManager.loadRoute wild index) rm).infraAgent = rm.infraAgent := by
    induction loads with
    | nil => exact fun _ => rfl
    | cons load rest ih =>
      intro rm
      rw [List.foldl_cons, ih, (loadRoute_rules wild index load rm).infraAgent]
      rfl
  exact kept _

theorem loaded_routesByLongestMatch (loads : List RouteLoad) :
    RoutesByLongestMatch wild infraAgent index models (loads.map RouteLoad.conf)
      (loads.foldl (ResManager.loadRoute wild index) (.loaded infraAgent index models)) := by
  constructor
  · intro rule sink
    by_cases known : rule ∈ index
    · rw [loaded_idx wild infraAgent index models loads known]
      constructor
      · intro held
        obtain ⟨text, first⟩ := held
        exact ⟨known, isFirstLongest_of_first ((argmax_eq_some_iff _ _).mp first)⟩
      · intro winner
        obtain ⟨text, first⟩ := winner.2.entry
        exact ⟨text, (argmax_eq_some_iff _ _).mpr first⟩
    · rw [loads_spare loads _ known]
      constructor
      · intro held
        obtain ⟨text, impossible⟩ := held
        cases impossible
      · intro winner
        exact absurd winner.1 known
  · apply loads_inverse
    intro rule sink
    simp [ResManager.loaded, SetsByKey.Has]
  · intro agents rule known
    have held := loaded_idx wild infraAgent index models loads known
    have infra := loaded_infraAgent wild infraAgent index models loads
    cases winner : (offersFor wild models rule (loads.map RouteLoad.conf)).argmax entryLen with
    | none =>
      left
      have empty := List.argmax_eq_none.mp winner
      constructor
      · intro conf member
        have nothing := List.flatMap_eq_nil_iff.mp empty conf member
        exact List.map_eq_nil_iff.mp nothing
      · simp [ResManager.allocParseRes, ResManager.insEngineRes, held, winner, infra]
    | some entry =>
      obtain ⟨sink, text⟩ := entry
      right
      refine ⟨sink, isFirstLongest_of_first ((argmax_eq_some_iff _ _).mp winner), ?_⟩
      simp only [ResManager.allocParseRes, ResManager.insEngineRes, held, winner, infra,
        Option.map_some, ← agentsOf.eq_def]
      by_cases none : agentsOf agents sink = []
      · simp [none]
      · simp [none]

end Loaded

/-- Loading the sink groups routes every rule by its longest match, whatever the order in which the
    hash containers are iterated. -/
theorem rules_are_routed_by_longest_match (wild : Wild) (infraAgent : SinkGroupAgent)
    (index : List RuleKey) (models : ModelTable) (loads : List RouteLoad) :
    ∃ rm, (ResManager.loaded infraAgent index models).loadAllSink wild loads = some rm ∧
      RoutesByLongestMatch wild infraAgent index models (loads.map RouteLoad.conf) rm ∧
      ∀ others, others.map RouteLoad.conf = loads.map RouteLoad.conf →
        ∃ rm', (ResManager.loaded infraAgent index models).loadAllSink wild others = some rm' ∧
          rm'.ruleSinkDb.ruleSinkIdx = rm.ruleSinkDb.ruleSinkIdx := by
  refine ⟨_, rfl, loaded_routesByLongestMatch wild infraAgent index models loads, ?_⟩
  intro others same
  refine ⟨_, rfl, ?_⟩
  funext rule
  by_cases known : rule ∈ index
  · rw [loaded_idx wild infraAgent index models others known,
      loaded_idx wild infraAgent index models loads known, same]
  · rw [loads_spare others _ known, loads_spare loads _ known]

end WarpMotor.Resources
