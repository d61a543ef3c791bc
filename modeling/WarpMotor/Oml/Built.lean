import WarpMotor.Oml.Produced

/-!
What the parsers with nesting build: a match whose arms and conditions are for
its source, and the members, items, sources and arguments that their positions
allow. The parsers call each other with one unit of fuel less, so one induction
on the fuel serves them all.
-/
namespace WarpMotor.Oml

open Parsing

variable {PipeFun : Type} {atoms : Atoms PipeFun} {I : Text → Prop} {bad : Fail → Prop}

theorem CasesClosed.of_forall {symbols : Bool} {source : MatchSource}
    {items : List (MatchCase PipeFun)} (each : ∀ item ∈ items, item.cond.Closed symbols ∧
      source.Fits item.cond ∧ item.result.Closed symbols) : CasesClosed symbols source items := by
  induction items with
  | nil => rw [CasesClosed]; trivial
  | cons item rest ih =>
    obtain ⟨cond, result⟩ := item
    obtain ⟨first, others⟩ := List.forall_mem_cons.mp each
    rw [CasesClosed]
    exact ⟨first, ih others⟩

theorem members_append {given : Bool} (subs others : List (NestedBinding PipeFun))
    (first : MembersParsed given subs ∧ MembersClosed given subs)
    (second : MembersParsed given others ∧ MembersClosed given others) :
    MembersParsed given (subs ++ others) ∧ MembersClosed given (subs ++ others) := by
  induction subs with
  | nil => exact second
  | cons sub rest ih =>
    obtain ⟨target, acquirer⟩ := sub
    rw [MembersParsed, MembersClosed] at first
    rw [List.cons_append, MembersParsed, MembersClosed]
    have tail := ih ⟨first.1.2, first.2.2⟩
    exact ⟨⟨first.1.1, tail.1⟩, first.2.1, tail.2⟩

theorem members_flatten {given : Bool} (groups : List (List (NestedBinding PipeFun)))
    (each : ∀ subs ∈ groups, MembersParsed given subs ∧ MembersClosed given subs) :
    MembersParsed given groups.flatten ∧ MembersClosed given groups.flatten := by
  induction groups with
  | nil =>
    rw [List.flatten_nil, MembersParsed, MembersClosed]
    exact ⟨trivial, trivial⟩
  | cons subs rest ih =>
    obtain ⟨first, others⟩ := List.forall_mem_cons.mp each
    rw [List.flatten_cons]
    exact members_append subs rest.flatten first (ih others)

/-- Several targets with one value. -/
theorem members_same {given : Bool} (targets : List EvaluationTarget)
    (acquirer : NestedAccessor PipeFun) (parsed : acquirer.IsMember given)
    (closed : acquirer.Closed given) :
    MembersParsed given (targets.map (fun target => NestedBinding.mk target acquirer)) ∧
      MembersClosed given (targets.map (fun target => NestedBinding.mk target acquirer)) := by
  induction targets with
  | nil =>
    rw [List.map_nil, MembersParsed, MembersClosed]
    exact ⟨trivial, trivial⟩
  | cons target rest ih =>
    rw [List.map_cons, MembersParsed, MembersClosed]
    exact ⟨⟨parsed, ih.1⟩, closed, ih.2⟩

def MatchCondition.IsSingle (given : Bool) (cond : MatchCondition) : Prop :=
  ∃ one, cond = .single one ∧ one.Closed given

def MatchCondition.IsMulti (given : Bool) (cond : MatchCondition) : Prop :=
  ∃ conds, cond = .multi conds ∧ CondsClosed given conds

/-- A match from its parts. -/
theorem matchOn_built {given : Bool} {source : MatchSource} {items : List (MatchCase PipeFun)}
    {default : Option (MatchCase PipeFun)} (closed : source.Closed given)
    (arms : ∀ item ∈ items, item.cond.Closed given ∧ source.Fits item.cond ∧
      item.result.IsArm given ∧ item.result.Closed given)
    (last : ∀ item ∈ default, item.cond = .wildcard ∧ item.result.IsArm given ∧
      item.result.Closed given) :
    (PreciseEvaluator.matchOn source items default).Parsed given ∧
      (PreciseEvaluator.matchOn source items default).Closed given := by
  have wildcard : source.Fits .wildcard := by cases source <;> trivial
  refine ⟨⟨?_, ?_⟩, closed, ?_, ?_⟩
  · rintro ⟨cond, result⟩ member
    obtain ⟨_, fits, kind, _⟩ := arms _ member
    exact ⟨fits, kind⟩
  · rintro ⟨cond, result⟩ member
    obtain ⟨rfl, kind, _⟩ := last _ member
    exact ⟨wildcard, kind⟩
  · refine .of_forall (fun item member => ?_)
    obtain ⟨cond, fits, _, arm⟩ := arms item member
    exact ⟨cond, fits, arm⟩
  · cases default with
    | none => trivial
    | some item =>
      obtain ⟨cond, result⟩ := item
      obtain ⟨rfl, _, arm⟩ := last _ rfl
      exact ⟨trivial, wildcard, arm⟩

section Match

variable (regular : atoms.Regular I bad) {symbols : List String} {given : Bool}
  (known : symbols ≠ [] → given = true)

include regular known

theorem trySymbol_spec : Spec I (trySymbol atoms symbols)
    (fun found => found ≠ none → given = true) bad := by
  refine (tryNext_spec (parseStaticValue_spec regular known)).bind (fun found met => ?_)
  split
  · next symbol =>
    obtain ⟨other, _, gives⟩ := met (.staticSymbol symbol) rfl
    exact .pure (fun _ => gives)
  · exact .pure (fun absent => absurd rfl absent)

theorem condNeq_spec : Spec I (condNeq atoms symbols) (MatchCond.Closed given) bad := by
  refine (regular.symbol "!").bind (fun _ _ => (trySymbol_spec regular known).bind ?_)
  intro found met
  split
  · exact .pure (met (Option.some_ne_none _))
  · exact (omlValue_spec regular).bind (fun _ _ => .pure trivial)

theorem condEq_spec : Spec I (condEq atoms symbols) (MatchCond.Closed given) bad := by
  refine regular.space.bind (fun _ _ => (trySymbol_spec regular known).bind ?_)
  intro found met
  split
  · exact .pure (met (Option.some_ne_none _))
  · exact (omlValue_spec regular).bind (fun _ _ => .pure trivial)

theorem symbolBounds_spec : Spec I (symbolBounds atoms symbols)
    (fun found => ∀ bounds ∈ found, given = true) bad := by
  refine tryNext_spec ((trySymbol_spec regular known).bind (fun first met => ?_))
  split
  · exact .failWith regular.backtrack
  · refine (regular.symbol ",").bind (fun _ _ => (trySymbol_spec regular known).bind ?_)
    intro last _
    split
    · exact .failWith regular.backtrack
    · exact .pure (met (Option.some_ne_none _))

theorem condIn_spec : Spec I (condIn atoms symbols) (MatchCond.Closed given) bad := by
  refine regular.space.bind (fun _ _ => (regular.keyword "in").bind (fun _ _ => ?_))
  refine (regular.getScope '(' ')').bind (fun code kept => Spec.within kept ?_)
  refine (symbolBounds_spec regular known).bind (fun found met => ?_)
  split
  · exact .pure (met _ rfl)
  · refine (omlValue_spec regular).bind (fun _ _ => (regular.symbol ",").bind (fun _ _ => ?_))
    exact (omlValue_spec regular).bind (fun _ _ => .pure trivial)

omit known in
theorem matchFunArgs_spec (rounds : Nat) : Keeps I bad (matchFunArgs atoms rounds) := by
  have arg : Keeps I bad (matchFunArg atoms) := by
    refine regular.space.bind (fun _ _ => regular.quotStr.tried.bind (fun found _ => ?_))
    split
    · exact .pure trivial
    · exact (regular.takeWhile1 _).bind (fun _ _ => .pure trivial)
  induction rounds with
  | zero => exact .failWith regular.exhausted
  | succ rounds ih =>
    refine arg.bind (fun _ _ => regular.space.bind (fun _ _ => ?_))
    refine (regular.symbol ",").tried.bind (fun found _ => ?_)
    split
    · exact ih.bind (fun _ _ => .pure trivial)
    · exact .pure trivial

omit known in
theorem condFun_spec (given : Bool) : Spec I (condFun atoms) (MatchCond.Closed given) bad := by
  have called (call : MatchFun) : (MatchCond.function call).Closed given := trivial
  have fails : Spec I (failWith .backtrack : Parse MatchCond) (MatchCond.Closed given) bad :=
    .failWith regular.backtrack
  refine regular.space.bind (fun _ _ => peekOne_spec.bind (fun next _ => ?_))
  split
  · exact fails
  split
  · exact fails
  refine (regular.takeWhile1 _).bind (fun name _ => ?_)
  split
  · exact fails
  refine regular.space.bind (fun _ _ => peekOne_spec.bind (fun next _ => ?_))
  split
  · exact fails
  refine (regular.getScope '(' ')').bind (fun code kept => ?_)
  dsimp only
  split
  · exact .pure (called _)
  · refine (Spec.onText (regular.part (trimText_part code) kept)
      (matchFunArgs_spec regular _)).bind (fun _ _ => .pure (called _))

theorem matchCond1Atom_spec : Spec I (matchCond1Atom atoms symbols) (MatchCond.Closed given) bad :=
  regular.space.bind (fun _ _ => (condNeq_spec regular known).orElse
    ((condFun_spec regular given).orElse
      ((condIn_spec regular known).orElse (condEq_spec regular known))))

theorem moreAlternatives_spec (rounds : Nat) :
    Spec I (moreAlternatives atoms symbols rounds) (CondsClosed given) bad := by
  induction rounds with
  | zero => exact .failWith regular.exhausted
  | succ rounds ih =>
    refine (matchCond1Atom_spec regular known).bind (fun cond closed => ?_)
    refine regular.space.bind (fun _ _ => (tryNext_spec (regular.symbol "|")).bind ?_)
    intro found _
    split
    · exact ih.bind (fun rest others => .pure ⟨closed, others⟩)
    · exact .pure ⟨closed, trivial⟩

theorem matchCond1_spec : Spec I (matchCond1 atoms symbols) (MatchCond.Closed given) bad := by
  refine (matchCond1Atom_spec regular known).bind (fun first closed => ?_)
  refine regular.space.bind (fun _ _ => (tryNext_spec (regular.symbol "|")).bind ?_)
  intro found _
  split
  · refine Spec.getText.bind (fun here _ => (moreAlternatives_spec regular known _).bind ?_)
    exact fun rest others => .pure ⟨closed, others⟩
  · exact .pure closed

theorem moreConds_spec (rounds : Nat) :
    Spec I (moreConds atoms symbols rounds) (CondsClosed given) bad := by
  induction rounds with
  | zero => exact .failWith regular.exhausted
  | succ rounds ih =>
    refine (regular.symbol ",").tried.bind (fun found _ => ?_)
    split
    · refine (matchCond1_spec regular known).bind (fun cond closed => ih.bind ?_)
      exact fun rest others => .pure ⟨closed, others⟩
    · exact .pure trivial

theorem matchCondMulti_spec :
    Spec I (matchCondMulti atoms symbols) (MatchCondition.IsMulti given) bad := by
  refine regular.space.bind (fun _ _ => (regular.getScope '(' ')').bind (fun code kept => ?_))
  have tuple : Spec I (do
      let first ← matchCond1 atoms symbols
      return first :: (← moreConds atoms symbols (code.length + 1)) : Parse (List MatchCond))
      (CondsClosed given) bad :=
    (matchCond1_spec regular known).bind (fun first closed =>
      (moreConds_spec regular known _).bind (fun rest others =>
        .pure ⟨closed, others⟩))
  exact (Spec.onText kept tuple).bind (fun found met => .pure ⟨found.1, rfl, met.1⟩)

end Match

section Arms

variable (regular : atoms.Regular I bad) {symbols : List String} {given : Bool}
  (known : symbols ≠ [] → given = true) (plain : DefaultsPlain atoms symbols I bad)

include regular known plain

theorem omlAgaTdc_spec (fuel : Nat) : Spec I (omlAgaTdc atoms symbols fuel)
    (fun eval => ∃ op, eval = .tdc op ∧ op.Closed given) bad :=
  (omlTdoGet_spec regular known plain fuel).bind (fun op closed => .pure ⟨op, rfl, closed⟩)

/-- The four kinds of an arm. -/
theorem matchCalcTarget_spec (fuel : Nat) : Spec I (matchCalcTarget atoms symbols fuel)
    (fun arm => arm.IsArm given ∧ arm.Closed given) bad := by
  let Becomes (eval : PreciseEvaluator PipeFun) : Prop :=
    Spec I (intoArm eval) (fun arm => arm.IsArm given ∧ arm.Closed given) bad
  have direct : Spec I (omlAgaTdc atoms symbols fuel) Becomes bad :=
    (omlAgaTdc_spec regular known plain fuel).imp (by
      rintro _ ⟨op, rfl, closed⟩
      exact .pure ⟨trivial, closed⟩)
  have value : Spec I (omlAgaValue atoms) Becomes bad :=
    (omlAgaValue_spec regular).imp (by
      rintro _ ⟨field, rfl⟩
      exact .pure ⟨trivial, trivial⟩)
  have collect : Spec I (omlAgaCollect atoms) Becomes bad :=
    (omlAgaCollect_spec regular given).imp (by
      rintro _ ⟨datCrate, rfl, closed⟩
      exact .pure ⟨trivial, closed⟩)
  have reference : Spec I (parseStaticValue atoms symbols) Becomes bad :=
    (parseStaticValue_spec regular known).imp (by
      rintro _ ⟨symbol, rfl, gives⟩
      exact .pure ⟨gives, gives⟩)
  refine (regular.symbol "=>").bind (fun _ _ => ?_)
  refine (direct.orElse (value.orElse (collect.orElse reference))).bind (fun gw becomes => ?_)
  exact (regular.symbol ",").opt.bind (fun _ _ => (regular.symbol ";").opt.bind
    (fun _ _ => becomes))

theorem matchItem_spec (good : MatchCondition → Prop) {cond : Parse MatchCondition}
    (holds : Spec I cond good bad) (fuel : Nat) : Spec I (matchItem atoms symbols cond fuel)
    (fun item => good item.cond ∧ item.result.IsArm given ∧ item.result.Closed given) bad :=
  regular.space.bind (fun _ _ => holds.bind (fun _ met =>
    (matchCalcTarget_spec regular known plain fuel).bind (fun _ built => .pure ⟨met, built⟩)))

/-- Arms whose conditions are `good`, and a last one under `_`. -/
theorem omlMatchBody_spec (good : MatchCondition → Prop) {item : Parse (MatchCase PipeFun)}
    {fuel : Nat} (holds : Spec I item (fun item => good item.cond ∧ item.result.IsArm given ∧
      item.result.Closed given) bad) : Spec I (omlMatchBody atoms symbols item fuel)
    (fun body => (∀ item ∈ body.1, good item.cond ∧ item.result.IsArm given ∧
        item.result.Closed given) ∧
      ∀ item ∈ body.2, item.cond = .wildcard ∧ item.result.IsArm given ∧
        item.result.Closed given) bad := by
  have wildcard : Spec I (do
      space
      atoms.symbol "_"
      return .wildcard : Parse MatchCondition) (fun cond => cond = .wildcard) bad :=
    regular.space.bind (fun _ _ => (regular.symbol "_").bind (fun _ _ => .pure rfl))
  refine regular.space.bind (fun _ _ => (regular.symbol "\x7b").bind (fun _ _ => ?_))
  refine (holds.many1 regular.exhausted regular.cut).bind (fun items built => ?_)
  refine (matchItem_spec regular known plain (fun cond => cond = .wildcard) wildcard fuel).opt.bind (fun default last => ?_)
  exact (regular.symbol "\x7d").bind (fun _ _ => .pure ⟨built.2, last⟩)

omit known plain in
theorem omlCrateTuple_spec (given : Bool) : Spec I (omlCrateTuple atoms)
    (fun source => ∃ accessors, source = .multi accessors ∧
      ∀ accessor ∈ accessors, accessor.Closed given) bad := by
  have more (rounds : Nat) : Spec I (moreSources atoms rounds)
      (fun sources => ∀ accessor ∈ sources, accessor.Closed given) bad := by
    induction rounds with
    | zero => exact .failWith regular.exhausted
    | succ rounds ih =>
      refine (regular.symbol ",").tried.bind (fun found _ => ?_)
      split
      · refine (omlVarGet_spec regular).bind (fun source direct => ih.bind (fun rest others => ?_))
        exact .pure (List.forall_mem_cons.mpr ⟨.of_default direct given, others⟩)
      · exact .pure (List.forall_mem_nil _)
  have tuple (rounds : Nat) : Spec I (do
      let first ← omlVarGet atoms
      return first :: (← moreSources atoms rounds) : Parse (List DirectAccessor))
      (fun sources => ∀ accessor ∈ sources, accessor.Closed given) bad :=
    (omlVarGet_spec regular).bind (fun first direct => (more rounds).bind (fun rest others =>
      .pure (List.forall_mem_cons.mpr ⟨.of_default direct given, others⟩)))
  refine regular.space.bind (fun _ _ => (regular.getScope '(' ')').bind (fun code kept => ?_))
  exact (Spec.onText kept (tuple (code.length + 1))).bind (fun found met =>
    .pure ⟨found.1, rfl, met.1⟩)

omit known plain in
theorem omlCrateCalcRef_spec (given : Bool) :
    Spec I (omlCrateCalcRef atoms) (MatchSource.Closed given) bad := by
  refine regular.space.bind (fun _ _ => (regular.peekStr "(").tried.bind (fun found _ => ?_))
  split
  · refine (omlCrateTuple_spec regular given).imp ?_
    rintro _ ⟨accessors, rfl, closed⟩
    exact closed
  · exact (omlVarGet_spec regular).bind (fun accessor direct => .pure (.of_default direct given))

/-- The conditions of a match are for its source. -/
theorem omlAgaMatch_spec (fuel : Nat) : Spec I (omlAgaMatch atoms symbols fuel)
    (fun eval => ∃ source items default, eval = .matchOn source items default ∧
      eval.Parsed given ∧ eval.Closed given) bad := by
  refine regular.space.bind (fun _ _ => (regular.keyword "match").bind (fun _ _ => ?_))
  refine regular.space.bind (fun _ _ => (omlCrateCalcRef_spec regular given).bind ?_)
  intro source closed
  cases source with
  | single accessor =>
    have cond : Spec I (do return .single (← matchCond1 atoms symbols))
        (MatchCondition.IsSingle given) bad :=
      (matchCond1_spec regular known).bind (fun one met => .pure ⟨one, rfl, met⟩)
    have item := matchItem_spec regular known plain _ cond fuel
    refine (omlMatchBody_spec regular known plain _ item).bind (fun body met => .pure ?_)
    refine ⟨_, _, _, rfl, matchOn_built closed (fun item member => ?_) met.2⟩
    obtain ⟨⟨one, shape, met⟩, arm⟩ := met.1 item member
    rw [shape]
    exact ⟨met, trivial, arm⟩
  | multi accessors =>
    have item := matchItem_spec regular known plain _ (matchCondMulti_spec regular known) fuel
    refine (omlMatchBody_spec regular known plain _ item).bind (fun body met => .pure ?_)
    refine ⟨_, _, _, rfl, matchOn_built closed (fun item member => ?_) met.2⟩
    obtain ⟨⟨conds, shape, met⟩, arm⟩ := met.1 item member
    rw [shape]
    exact ⟨met, trivial, arm⟩

end Arms

def PreciseEvaluator.BuiltPipe (given : Bool) (eval : PreciseEvaluator PipeFun) : Prop :=
  ∃ source items, eval = .pipe source items ∧ items ≠ [] ∧ source.Parsed given ∧
    source.Closed given

def PreciseEvaluator.BuiltMap (given : Bool) (eval : PreciseEvaluator PipeFun) : Prop :=
  ∃ subs, eval = .map subs ∧ MembersParsed given subs ∧ MembersClosed given subs

def PreciseEvaluator.BuiltArray (given : Bool) (eval : PreciseEvaluator PipeFun) : Prop :=
  ∃ items, eval = .objArray items ∧ ItemsParsed given items ∧ ItemsClosed given items

def PreciseEvaluator.BuiltLookup (given : Bool) (eval : PreciseEvaluator PipeFun) : Prop :=
  ∃ dictSymbol key default, eval = .lookup dictSymbol key default none ∧
    (key.IsLookupArg given ∧ key.Closed given) ∧ default.IsLookupArg given ∧ default.Closed given

section Pipes

variable (regular : atoms.Regular I bad)

include regular

theorem parsePipeItems_spec : Spec I (parsePipeItems atoms) (fun items => items ≠ []) bad := by
  have item : Keeps I bad (omlPipe atoms) :=
    (regular.symbol "|").bind (fun _ _ => regular.space.bind (fun _ _ => regular.pipeFun))
  exact (item.many1 regular.exhausted regular.cut).imp (fun _ met => met.1)

theorem ensureRemoveTerminal_spec (items : List PipeFun) :
    Keeps I bad (ensureRemoveTerminal atoms items) := by
  unfold ensureRemoveTerminal
  split
  · exact .failWith regular.cut
  · exact .pure trivial

theorem accessorPipe_spec (given : Bool) : Spec I (accessorPipe atoms)
    (fun found => ∀ eval ∈ found, eval.BuiltPipe given) bad := by
  have both : Spec I (do
      let accessor ← omlVarGet atoms
      return (accessor, ← parsePipeItems atoms) : Parse (DirectAccessor × List PipeFun))
      (fun found => found.1.Closed given ∧ found.2 ≠ []) bad :=
    (omlVarGet_spec regular).bind (fun accessor direct => (parsePipeItems_spec regular).bind
      (fun items met => .pure ⟨.of_default direct given, met⟩))
  refine (tryNext_spec both).bind (fun found met => ?_)
  split
  · next accessor items =>
    have built := met (accessor, items) rfl
    refine (ensureRemoveTerminal_spec regular items).bind (fun _ _ => .pure ?_)
    rintro eval ⟨⟩
    exact ⟨.accessor accessor, items, rfl, built.2, trivial, built.1⟩
  · refine .pure ?_
    rintro eval ⟨⟩

theorem targetMeta_spec : Keeps I bad (targetMeta atoms) := by
  refine (regular.peekStr ":").tried.bind (fun found _ => ?_)
  split
  · exact (regular.symbol ":").bind (fun _ _ => regular.takeDatatype)
  · exact .pure trivial

theorem separated1_spec {A : Type} {p : Parse A} (holds : Keeps I bad p) :
    Spec I (separated1 p) (fun found => found ≠ []) bad := by
  have next : Keeps I bad (do space; lit ","; p : Parse A) :=
    regular.space.bind (fun _ _ => (regular.lit ",").bind (fun _ _ => holds))
  exact holds.bind (fun first _ => (next.many regular.exhausted regular.cut).bind
    (fun rest _ => .pure (List.cons_ne_nil first rest)))

theorem omlTargetVecSameMeta_spec : Keeps I bad (omlTargetVecSameMeta atoms) :=
  regular.space.bind (fun _ _ => (separated1_spec regular regular.takeVarName).bind
    (fun _ _ => regular.space.bind (fun _ _ => (targetMeta_spec regular).bind
      (fun _ _ => .pure trivial))))

theorem omlTargetVec_spec : Spec I (omlTargetVec atoms) (fun targets => targets ≠ []) bad := by
  have target : Keeps I bad (omlTarget atoms) :=
    regular.space.bind (fun _ _ => regular.takeWildKey.bind (fun _ _ =>
      regular.space.bind (fun _ _ => (targetMeta_spec regular).bind (fun _ _ => .pure trivial))))
  exact regular.space.bind (fun _ _ => separated1_spec regular target)

end Pipes

/-- The parsers that call each other, with so much fuel. -/
structure Built (atoms : Atoms PipeFun) (symbols : List String) (strict given : Bool)
    (I : Text → Prop) (bad : Fail → Prop) (fuel : Nat) : Prop where
  subAcq : Spec I (omlSubAcq atoms symbols strict fuel)
    (fun arm => arm.IsMember given ∧ arm.Closed given) bad
  aggregateSub : Spec I (omlAggregateSub atoms symbols strict fuel)
    (fun subs => MembersParsed given subs ∧ MembersClosed given subs) bad
  map : Spec I (omlAgaMap atoms symbols strict fuel) (PreciseEvaluator.BuiltMap given) bad
  objArray : Spec I (omlAgaObjArray atoms symbols strict fuel)
    (PreciseEvaluator.BuiltArray given) bad
  arrayItems : Spec I (arrayItems atoms symbols strict fuel)
    (fun items => ItemsParsed given items ∧ ItemsClosed given items) bad
  arrayItem : Spec I (omlArrayItem atoms symbols strict fuel)
    (fun eval => eval.IsItem given ∧ eval.Closed given) bad
  evalAtom : Spec I (omlEvalAtom atoms symbols strict fuel)
    (fun eval => eval.IsPipeSource given ∧ eval.Closed given) bad
  pipe : Spec I (omlAgaPipe atoms symbols strict fuel) (PreciseEvaluator.BuiltPipe given) bad
  pipeUnprefixed : Spec I (omlAgaPipeUnprefixed atoms symbols strict fuel)
    (PreciseEvaluator.BuiltPipe given) bad
  lookupArg : Spec I (lookupArg atoms symbols strict fuel)
    (fun eval => eval.IsLookupArg given ∧ eval.Closed given) bad
  lookup : Spec I (omlAgaLookupNocase atoms symbols strict fuel)
    (PreciseEvaluator.BuiltLookup given) bad

section Nesting

variable (regular : atoms.Regular I bad) {symbols : List String} {strict given : Bool}
  (known : symbols ≠ [] → given = true) (plain : DefaultsPlain atoms symbols I bad)
  (query : ∀ fuel, Spec I (omlSql atoms symbols strict fuel) (SqlQuery.Closed given) bad)

include regular known plain query

theorem built (fuel : Nat) : Built atoms symbols strict given I bad fuel := by
  induction fuel with
  | zero =>
    have stops {A : Type} {good : A → Prop} : Spec I (failWith .exhausted : Parse A) good bad :=
      .failWith regular.exhausted
    exact ⟨stops, stops, stops, stops, stops, stops, stops, stops, stops, stops, stops⟩
  | succ fuel ih =>
    have semicolon := (regular.symbol ";").opt
    have tdc := omlAgaTdc_spec regular known plain fuel
    have function := @omlGwFun_spec PipeFun atoms I bad regular
    have value := @omlAgaValue_spec PipeFun atoms I bad regular
    have reference := parseStaticValue_spec regular known
    refine ⟨?subAcq, ?aggregateSub, ?map, ?objArray, ?arrayItems, ?arrayItem, ?evalAtom, ?pipe,
      ?pipeUnprefixed, ?lookupArg, ?lookup⟩
    case subAcq =>
      let Becomes (eval : PreciseEvaluator PipeFun) : Prop :=
        Spec I (intoNested eval) (fun arm => arm.IsMember given ∧ arm.Closed given) bad
      have mapped : Spec I (omlAgaMap atoms symbols strict fuel) Becomes bad :=
        ih.map.imp (by rintro _ ⟨subs, rfl, built⟩; exact .pure built)
      have listed : Spec I (omlAgaObjArray atoms symbols strict fuel) Becomes bad :=
        ih.objArray.imp (by rintro _ ⟨items, rfl, built⟩; exact .pure built)
      have piped (eval : PreciseEvaluator PipeFun) (built : eval.BuiltPipe given) :
          Becomes eval := by
        obtain ⟨source, items, rfl, some, parsed, closed⟩ := built
        exact .pure ⟨⟨some, parsed⟩, closed⟩
      have direct : Spec I (omlAgaTdc atoms symbols fuel) Becomes bad :=
        tdc.imp (by rintro _ ⟨op, rfl, closed⟩; exact .pure ⟨trivial, closed⟩)
      have called : Spec I (omlGwFun atoms) Becomes bad :=
        function.imp (by rintro _ ⟨function, rfl⟩; exact .pure ⟨trivial, trivial⟩)
      have field : Spec I (omlAgaValue atoms) Becomes bad :=
        value.imp (by rintro _ ⟨field, rfl⟩; exact .pure ⟨trivial, trivial⟩)
      have symbol : Spec I (parseStaticValue atoms symbols) Becomes bad :=
        reference.imp (by rintro _ ⟨symbol, rfl, gives⟩; exact .pure ⟨gives, gives⟩)
      rw [omlSubAcq]
      refine (mapped.orElse (listed.orElse ((ih.pipe.imp piped).orElse
        ((ih.pipeUnprefixed.imp piped).orElse (direct.orElse (called.orElse
          (field.orElse symbol))))))).bind (fun gw becomes => ?_)
      exact semicolon.bind (fun _ _ => becomes)
    case aggregateSub =>
      rw [omlAggregateSub]
      refine (omlTargetVecSameMeta_spec regular).bind (fun targets _ => ?_)
      refine (regular.symbol "=").bind (fun _ _ => ih.subAcq.bind (fun sub built => .pure ?_))
      exact members_same targets sub built.1 built.2
    case map =>
      rw [omlAgaMap]
      refine (regular.keyword "object").bind (fun _ _ => regular.space.bind (fun _ _ => ?_))
      refine (regular.getScope '{' '}').bind (fun code kept => ?_)
      have subs := ih.aggregateSub.many1 regular.exhausted regular.cut
      refine (regular.whole kept subs regular.cut).bind (fun subs built => .pure ?_)
      exact ⟨subs.flatten, rfl, members_flatten subs built.2⟩
    case objArray =>
      rw [omlAgaObjArray]
      refine (regular.keyword "array").bind (fun _ _ => regular.space.bind (fun _ _ => ?_))
      refine (regular.getScope '{' '}').bind (fun code kept => ?_)
      exact (Spec.onText kept ih.arrayItems).bind (fun found built => .pure
        ⟨found.1, rfl, built.1⟩)
    case arrayItems =>
      rw [arrayItems]
      have empty : Keeps I bad isEmptyText := fun _ kept => ⟨kept, trivial⟩
      refine regular.space.bind (fun _ _ => empty.bind (fun ended _ => ?_))
      split
      · exact .pure ⟨trivial, trivial⟩
      · refine ih.arrayItem.bind (fun item first => ih.arrayItems.bind (fun rest others => ?_))
        exact .pure ⟨⟨first.1, others.1⟩, first.2, others.2⟩
    case arrayItem =>
      let Item (eval : PreciseEvaluator PipeFun) : Prop := eval.IsItem given ∧ eval.Closed given
      have mapped : Spec I (omlAgaMap atoms symbols strict fuel) Item bad :=
        ih.map.imp (by rintro _ ⟨subs, rfl, built⟩; exact built)
      have listed : Spec I (omlAgaObjArray atoms symbols strict fuel) Item bad :=
        ih.objArray.imp (by rintro _ ⟨items, rfl, built⟩; exact built)
      have direct : Spec I (omlAgaTdc atoms symbols fuel) Item bad :=
        tdc.imp (by rintro _ ⟨op, rfl, closed⟩; exact ⟨trivial, closed⟩)
      have called : Spec I (omlGwFun atoms) Item bad :=
        function.imp (by rintro _ ⟨function, rfl⟩; exact ⟨trivial, trivial⟩)
      have field : Spec I (omlAgaValue atoms) Item bad :=
        value.imp (by rintro _ ⟨field, rfl⟩; exact ⟨trivial, trivial⟩)
      have symbol : Spec I (parseStaticValue atoms symbols) Item bad :=
        reference.imp (by rintro _ ⟨symbol, rfl, gives⟩; exact ⟨gives, gives⟩)
      rw [omlArrayItem]
      refine (mapped.orElse (listed.orElse (direct.orElse (called.orElse
        (field.orElse symbol))))).bind (fun gw item => ?_)
      exact semicolon.bind (fun _ _ => .pure item)
    case evalAtom =>
      let Source (eval : PreciseEvaluator PipeFun) : Prop :=
        eval.IsPipeSource given ∧ eval.Closed given
      have mapped : Spec I (omlAgaMap atoms symbols strict fuel) Source bad :=
        ih.map.imp (by rintro _ ⟨subs, rfl, built⟩; exact built)
      have listed : Spec I (omlAgaObjArray atoms symbols strict fuel) Source bad :=
        ih.objArray.imp (by rintro _ ⟨items, rfl, built⟩; exact built)
      have matched : Spec I (omlAgaMatch atoms symbols fuel) Source bad :=
        (omlAgaMatch_spec regular known plain fuel).imp (by
          rintro _ ⟨source, items, default, rfl, built⟩
          exact built)
      have asked : Spec I (omlAgaSql atoms symbols strict fuel) Source bad :=
        (query fuel).bind (fun query _ => .pure ⟨trivial, trivial⟩)
      have formatted : Spec I (omlAgaFmt atoms) Source bad :=
        (omlAgaFmt_spec regular given).imp (by rintro _ ⟨op, rfl, closed⟩; exact ⟨trivial, closed⟩)
      have collected : Spec I (omlAgaCollect atoms) Source bad :=
        (omlAgaCollect_spec regular given).imp (by
          rintro _ ⟨datCrate, rfl, closed⟩
          exact ⟨trivial, closed⟩)
      have calculated : Spec I (omlAgaCalc atoms fuel) Source bad :=
        (omlAgaCalc_spec regular given fuel).imp (by
          rintro _ ⟨expr, rfl, closed⟩
          exact ⟨trivial, closed⟩)
      have accessed : Spec I (omlAgaAccessDirect atoms) Source bad :=
        (omlAgaAccessDirect_spec regular).imp (by
          rintro _ ⟨op, rfl, closed⟩
          exact ⟨trivial, closed⟩)
      have looked : Spec I (omlAgaLookupNocase atoms symbols strict fuel) Source bad :=
        ih.lookup.imp (by
          rintro _ ⟨dictSymbol, key, default, rfl, keyed, last⟩
          exact ⟨⟨keyed.1, last.1⟩, keyed.2, last.2⟩)
      have direct : Spec I (omlAgaTdc atoms symbols fuel) Source bad :=
        tdc.imp (by rintro _ ⟨op, rfl, closed⟩; exact ⟨trivial, closed⟩)
      have called : Spec I (omlGwFun atoms) Source bad :=
        function.imp (by rintro _ ⟨function, rfl⟩; exact ⟨trivial, trivial⟩)
      have field : Spec I (omlAgaValue atoms) Source bad :=
        value.imp (by rintro _ ⟨field, rfl⟩; exact ⟨trivial, trivial⟩)
      have symbol : Spec I (parseStaticValue atoms symbols) Source bad :=
        reference.imp (by rintro _ ⟨symbol, rfl, gives⟩; exact ⟨gives, gives⟩)
      rw [omlEvalAtom]
      have first := mapped.orElse (listed.orElse (matched.orElse (asked.orElse
        (formatted.orElse (collected.orElse calculated)))))
      exact first.orElse (accessed.orElse (looked.orElse (direct.orElse (called.orElse
        (field.orElse symbol)))))
    case pipe =>
      rw [omlAgaPipe]
      refine (regular.keyword "pipe").bind (fun _ _ => ?_)
      refine (accessorPipe_spec regular given).bind (fun found met => ?_)
      cases found with
      | some pipe => exact .pure (met pipe rfl)
      | none =>
        let Source (source : PipeSource PipeFun) : Prop :=
          source.Parsed given ∧ source.Closed given
        have accessed : Spec I (do return PipeSource.accessDirect (← omlAccessDirect atoms))
            Source bad :=
          (omlAccessDirect_spec regular).bind (fun op closed => .pure ⟨trivial, closed⟩)
        have precise : Spec I (do return .precise (← omlEvalAtom atoms symbols strict fuel))
            Source bad := ih.evalAtom.bind (fun eval built => .pure built)
        refine (accessed.orElse precise).bind (fun source built => ?_)
        refine (parsePipeItems_spec regular).bind (fun items some => ?_)
        exact (ensureRemoveTerminal_spec regular items).bind (fun _ _ => .pure
          ⟨source, items, rfl, some, built⟩)
    case pipeUnprefixed =>
      rw [omlAgaPipeUnprefixed]
      refine (accessorPipe_spec regular given).bind (fun found met => ?_)
      cases found with
      | some pipe => exact .pure (met pipe rfl)
      | none =>
        have both : Spec I (do
            let eval ← omlEvalAtom atoms symbols strict fuel
            return (eval, ← parsePipeItems atoms) :
              Parse (PreciseEvaluator PipeFun × List PipeFun))
            (fun found => (found.1.IsPipeSource given ∧ found.1.Closed given) ∧ found.2 ≠ [])
            bad :=
          ih.evalAtom.bind (fun eval built => (parsePipeItems_spec regular).bind
            (fun items some => .pure ⟨built, some⟩))
        refine (tryNext_spec both).bind (fun found met => ?_)
        cases found with
        | none => exact .failWith regular.backtrack
        | some pipe =>
          obtain ⟨eval, items⟩ := pipe
          have built := met (eval, items) rfl
          exact (ensureRemoveTerminal_spec regular items).bind (fun _ _ => .pure
            ⟨.precise eval, items, rfl, built.2, built.1⟩)
    case lookupArg =>
      let Arg (eval : PreciseEvaluator PipeFun) : Prop :=
        eval.IsLookupArg given ∧ eval.Closed given
      have looked : Spec I (omlAgaLookupNocase atoms symbols strict fuel) Arg bad :=
        ih.lookup.imp (by
          rintro _ ⟨dictSymbol, key, default, rfl, keyed, last⟩
          exact ⟨⟨keyed.1, last.1⟩, keyed.2, last.2⟩)
      have piped : Spec I (omlAgaPipeUnprefixed atoms symbols strict fuel) Arg bad :=
        ih.pipeUnprefixed.imp (by
          rintro _ ⟨source, items, rfl, some, parsed, closed⟩
          exact ⟨⟨some, parsed⟩, closed⟩)
      have direct : Spec I (omlAgaTdc atoms symbols fuel) Arg bad :=
        tdc.imp (by rintro _ ⟨op, rfl, closed⟩; exact ⟨trivial, closed⟩)
      have raw : Spec I (omlSqlRaw atoms) Arg bad :=
        (omlSqlRaw_spec regular).imp (by rintro _ ⟨value, rfl⟩; exact ⟨trivial, trivial⟩)
      have field : Spec I (omlAgaValue atoms) Arg bad :=
        value.imp (by rintro _ ⟨field, rfl⟩; exact ⟨trivial, trivial⟩)
      have called : Spec I (omlGwFun atoms) Arg bad :=
        function.imp (by rintro _ ⟨function, rfl⟩; exact ⟨trivial, trivial⟩)
      have symbol : Spec I (parseStaticValue atoms symbols) Arg bad :=
        reference.imp (by rintro _ ⟨symbol, rfl, gives⟩; exact ⟨gives, gives⟩)
      rw [lookupArg]
      exact looked.orElse (piped.orElse (direct.orElse (raw.orElse (field.orElse
        (called.orElse symbol)))))
    case lookup =>
      rw [omlAgaLookupNocase]
      have args : Spec I (do
          space
          let dictSymbol ← atoms.takeVarName
          space
          atoms.symbol ","
          let key ← lookupArg atoms symbols strict fuel
          space
          atoms.symbol ","
          let default ← lookupArg atoms symbols strict fuel
          space
          let _ ← attempt (atoms.symbol ";")
          return .lookup dictSymbol key default none : Parse (PreciseEvaluator PipeFun))
          (PreciseEvaluator.BuiltLookup given) bad := by
        refine regular.space.bind (fun _ _ => regular.takeVarName.bind (fun dictSymbol _ => ?_))
        refine regular.space.bind (fun _ _ => (regular.symbol ",").bind (fun _ _ => ?_))
        refine ih.lookupArg.bind (fun key keyed => regular.space.bind (fun _ _ => ?_))
        refine (regular.symbol ",").bind (fun _ _ => ih.lookupArg.bind (fun default last => ?_))
        exact regular.space.bind (fun _ _ => (regular.symbol ";").tried.bind (fun _ _ => .pure
          ⟨dictSymbol, key, default, rfl, keyed, last⟩))
      refine regular.space.bind (fun _ _ => (regular.lit _).bind (fun _ _ => ?_))
      exact (regular.getScope '(' ')').bind (fun code kept =>
        regular.whole kept args regular.backtrack)

end Nesting

end WarpMotor.Oml
