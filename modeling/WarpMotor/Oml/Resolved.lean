import WarpMotor.Oml.Queries
import WarpMotor.Oml.ZeroCopy

/-!
An object model after the references to its static block are replaced. Every
position is visited except the parameters of a query that is an item: there a
reference is left, and the record that reaches it panics.
-/
namespace WarpMotor.Oml

open Parsing

variable {PipeFun : Type}

/-- An item as the parser leaves it. -/
structure EvalExp.Made (given : Bool) (item : EvalExp PipeFun) : Prop where
  parsed : ∀ targets evalWay sync, item = .single targets evalWay sync → evalWay.Parsed given
  closed : item.Closed given
  query : item.QueryClosed given

section Items

variable {atoms : Atoms PipeFun} {I : Text → Prop} {bad : Fail → Prop}
  (regular : atoms.Regular I bad) {symbols : List String} {strict given : Bool}
  (known : symbols ≠ [] → given = true) (plain : DefaultsPlain atoms symbols I bad)
  (query : ∀ fuel, Spec I (omlSql atoms symbols strict fuel) (SqlQuery.Closed given) bad)
  (fuel : Nat)

include regular known plain query

theorem evalWayOf_spec (key : String) : Spec I (evalWayOf atoms symbols strict fuel key)
    (fun eval => EvalExp.Made given (.single [] eval false)) bad := by
  let Way (eval : PreciseEvaluator PipeFun) : Prop := EvalExp.Made given (.single [] eval false)
  have made (eval : PreciseEvaluator PipeFun) (parsed : eval.Parsed given)
      (closed : eval.Closed given) (asks : ∀ query, eval = .sql query → query.Closed given) :
      Way eval := by
    refine ⟨?_, closed, ?_⟩
    · rintro targets evalWay sync ⟨⟩
      exact parsed
    · cases eval with
      | sql query => exact asks query rfl
      | _ => trivial
  have all := built regular known plain query fuel
  have piped (eval : PreciseEvaluator PipeFun) (pipe : eval.BuiltPipe given) : Way eval := by
    obtain ⟨source, items, rfl, some, parsed, closed⟩ := pipe
    exact made _ ⟨some, parsed⟩ closed (by rintro query ⟨⟩)
  have unprefixed : Spec I (omlAgaPipeUnprefixed atoms symbols strict fuel) Way bad :=
    all.pipeUnprefixed.imp piped
  have accessed : Spec I (omlAgaAccessDirect atoms) Way bad :=
    (omlAgaAccessDirect_spec regular).imp (by
      rintro _ ⟨op, rfl, closed⟩
      exact made _ trivial closed (by rintro query ⟨⟩))
  have accessedPipe : Spec I (omlAgaAccessDirectPipe atoms) Way bad := by
    refine (omlAccessDirect_spec regular).bind (fun op closed => ?_)
    refine (parsePipeItems_spec regular).tried.bind (fun found met => ?_)
    split
    · next items =>
      exact .pure (piped _ ⟨.accessDirect op, items, rfl, met items rfl, trivial, closed⟩)
    · exact .failWith regular.backtrack
  have direct : Spec I (omlAgaTdc atoms symbols fuel) Way bad :=
    (omlAgaTdc_spec regular known plain fuel).imp (by
      rintro _ ⟨op, rfl, closed⟩
      exact made _ trivial closed (by rintro query ⟨⟩))
  have calculated : Spec I (omlAgaCalc atoms fuel) Way bad :=
    (omlAgaCalc_spec regular given fuel).imp (by
      rintro _ ⟨expr, rfl, closed⟩
      exact made _ trivial closed (by rintro query ⟨⟩))
  have matched : Spec I (omlAgaMatch atoms symbols fuel) Way bad :=
    (omlAgaMatch_spec regular known plain fuel).imp (by
      rintro _ ⟨source, items, default, rfl, parsed, closed⟩
      exact made _ parsed closed (by rintro query ⟨⟩))
  have looked : Spec I (omlAgaLookupNocase atoms symbols strict fuel) Way bad :=
    all.lookup.imp (by
      rintro _ ⟨dictSymbol, key, default, rfl, keyed, last⟩
      exact made _ ⟨keyed.1, last.1⟩ ⟨keyed.2, last.2⟩ (by rintro query ⟨⟩))
  have mapped : Spec I (omlAgaMap atoms symbols strict fuel) Way bad :=
    all.map.imp (by
      rintro _ ⟨subs, rfl, parsed, closed⟩
      exact made _ parsed closed (by rintro query ⟨⟩))
  have listed : Spec I (omlAgaObjArray atoms symbols strict fuel) Way bad :=
    all.objArray.imp (by
      rintro _ ⟨items, rfl, parsed, closed⟩
      exact made _ parsed closed (by rintro query ⟨⟩))
  have collected : Spec I (omlAgaCollect atoms) Way bad :=
    (omlAgaCollect_spec regular given).imp (by
      rintro _ ⟨datCrate, rfl, closed⟩
      exact made _ trivial closed (by rintro query ⟨⟩))
  have asked : Spec I (omlAgaSql atoms symbols strict fuel) Way bad :=
    (query fuel).bind (fun query closed => .pure
      (made _ trivial trivial (by rintro other ⟨⟩; exact closed)))
  have formatted : Spec I (omlAgaFmt atoms) Way bad :=
    (omlAgaFmt_spec regular given).imp (by
      rintro _ ⟨op, rfl, closed⟩
      exact made _ trivial closed (by rintro query ⟨⟩))
  have field : Spec I (omlAgaValue atoms) Way bad := (omlAgaValue_spec regular).imp (by
    rintro _ ⟨field, rfl⟩
    exact made _ trivial trivial (by rintro query ⟨⟩))
  have called : Spec I (omlGwFun atoms) Way bad := (omlGwFun_spec regular).imp (by
    rintro _ ⟨function, rfl⟩
    exact made _ trivial trivial (by rintro query ⟨⟩))
  have symbol : Spec I (parseStaticValue atoms symbols) Way bad :=
    (parseStaticValue_spec regular known).imp (by
      rintro _ ⟨symbol, rfl, gives⟩
      exact made _ gives gives (by rintro query ⟨⟩))
  unfold evalWayOf
  refine .ite (unprefixed.orElse calculated) (.ite (accessedPipe.orElse accessed) ?_)
  refine .ite (unprefixed.orElse matched) (.ite (unprefixed.orElse looked) ?_)
  refine .ite (unprefixed.orElse mapped) (.ite (unprefixed.orElse listed) ?_)
  refine .ite (all.pipe.imp piped) (.ite (unprefixed.orElse collected) ?_)
  refine .ite (unprefixed.orElse asked) (.ite (unprefixed.orElse formatted) ?_)
  refine .ite (unprefixed.orElse direct) (.ite (unprefixed.orElse direct) ?_)
  exact unprefixed.orElse (field.orElse (called.orElse symbol))

theorem omlAggregate_spec : Spec I (omlAggregate atoms symbols strict fuel)
    (EvalExp.Made given) bad := by
  have piped : Keeps I bad (omlBatchPipe atoms symbols fuel) := by
    refine (omlTdoGet_spec regular known plain fuel).bind (fun op _ => ?_)
    refine (parsePipeItems_spec regular).tried.bind (fun found _ => ?_)
    split
    · exact (ensureRemoveTerminal_spec regular _).bind (fun _ _ => .pure trivial)
    · exact .failWith regular.backtrack
  have got : Keeps I bad (omlBatchGwGet atoms symbols fuel) :=
    (omlTdoGet_spec regular known plain fuel).bind (fun _ _ => .pure trivial)
  have ended (item : EvalExp PipeFun) (made : item.Made given) :
      Spec I (do atoms.symbol ";"; return item : Parse (EvalExp PipeFun)) (EvalExp.Made given)
        bad := (regular.symbol ";").bind (fun _ _ => .pure made)
  refine (omlTargetVec_spec regular).bind (fun targets some => ?_)
  refine (regular.symbol "=").bind (fun _ _ => regular.space.bind (fun _ _ => ?_))
  refine regular.takeKey.peek.bind (fun key _ => ?_)
  cases targets with
  | nil => exact absurd rfl some
  | cons first others =>
    have batch (evalWay : BatchEvaluation PipeFun) : EvalExp.Made given (.batch first evalWay) :=
      ⟨by rintro targets eval sync ⟨⟩, trivial, trivial⟩
    have single (eval : PreciseEvaluator PipeFun)
        (made : EvalExp.Made given (.single [] eval false)) :
        EvalExp.Made given (.single (first :: others) eval false) := by
      refine ⟨?_, made.closed, ?_⟩
      · rintro targets other sync ⟨⟩
        exact made.parsed [] _ false rfl
      · cases eval with
        | sql query => exact made.query
        | _ => trivial
    have unit : Spec I (evalExpOf atoms symbols strict fuel (first :: others) first key)
        (EvalExp.Made given) bad := by
      refine .ite (.ite ?_ (.failWith regular.backtrack)) ?_
      · exact (piped.orElse got).bind (fun evalWay _ => .pure (batch evalWay))
      · exact (evalWayOf_spec regular known plain query fuel key).bind
          (fun eval made => .pure (single eval made))
    exact unit.bind ended

end Items

section Model

variable {atoms : Atoms PipeFun} {I : Text → Prop} {bad : Fail → Prop}
  (regular : atoms.Regular I bad) {strict : Bool}
  (plain : ∀ symbols, DefaultsPlain atoms symbols I bad)
  (queries : ∀ symbols, QueriesPlain atoms symbols I bad) (fuel : Nat)

include regular plain queries

theorem item_spec {symbols : List String} {given : Bool} (known : symbols ≠ [] → given = true) :
    Spec I (omlAggregate atoms symbols strict fuel) (EvalExp.Made given) bad :=
  omlAggregate_spec regular known (plain symbols)
    (fun fuel => omlSql_spec regular known (plain symbols) (queries symbols) fuel) fuel

/-- The items of the static block are of the kinds that it allows, and each has a name. -/
structure StaticMade (items : List (EvalExp PipeFun)) (symbols : List String) : Prop where
  named : ∀ item ∈ items, (staticTarget item).isSome = true
  names : symbols ≠ [] → items ≠ []

theorem staticBlock_spec (rounds : Nat) (items : List (EvalExp PipeFun)) (symbols : List String)
    (made : StaticMade items symbols) :
    Spec I (staticBlock atoms strict fuel rounds items symbols)
      (fun found => StaticMade found.1 found.2) bad := by
  induction rounds generalizing items symbols with
  | zero => exact .failWith regular.exhausted
  | succ rounds ih =>
    have empty : Keeps I bad isEmptyText := fun _ kept => ⟨kept, trivial⟩
    rw [staticBlock]
    refine regular.space.bind (fun _ _ => empty.bind (fun ended _ => ?_))
    split
    · exact .pure made
    refine (item_spec regular plain queries fuel (fun _ => rfl)).bind (fun item _ => ?_)
    split
    · exact .failWith regular.cut
    next name target =>
    split
    · exact .failWith regular.cut
    refine ih _ _ ⟨?_, fun _ => by simp⟩
    intro other member
    rcases List.mem_append.mp member with old | last
    · exact made.named other old
    · cases List.mem_singleton.mp last
      rw [target]
      rfl

theorem parseStaticBlocks_spec (rounds : Nat) (items : List (EvalExp PipeFun))
    (symbols : List String) (made : StaticMade items symbols) :
    Spec I (parseStaticBlocks atoms strict fuel rounds items symbols)
      (fun found => StaticMade found.1 found.2) bad := by
  induction rounds generalizing items symbols with
  | zero => exact .failWith regular.exhausted
  | succ rounds ih =>
    rw [parseStaticBlocks]
    refine regular.space.bind (fun _ _ => (regular.peekStr "static").tried.bind (fun found _ => ?_))
    split
    · exact .pure made
    refine (regular.keyword "static").bind (fun _ _ => regular.space.bind (fun _ _ => ?_))
    refine (regular.getScope '{' '}').bind (fun code kept => ?_)
    refine (Spec.onText kept (staticBlock_spec regular plain queries fuel _ items symbols made)).bind
      (fun found met => ?_)
    exact ih _ _ met.1

omit plain queries in
theorem confOptions_spec (rounds : Nat) (enable : Bool) (rules : List String) :
    Keeps I bad (confOptions atoms rounds enable rules) := by
  have enabled : Keeps I bad (omlConfEnable atoms) := by
    refine regular.space.bind (fun _ _ => (regular.keyword "enable").bind (fun _ _ => ?_))
    refine (regular.symbol ":").bind (fun _ _ => regular.takeVarName.bind (fun value _ => ?_))
    exact .ite (.pure trivial) (.ite (.pure trivial) (.failWith regular.cut))
  have path : Keeps I bad omlRulePath := by
    refine regular.space.bind (fun _ _ => Spec.getText.bind (fun here _ => ?_))
    refine .ite (.failWith regular.backtrack) ?_
    have blanks : Keeps I bad multispace1 :=
      (regular.takeWhile1 _).bind (fun _ _ => .pure trivial)
    exact (regular.takeWhile1 _).bind (fun _ _ => blanks.bind (fun _ _ => .pure trivial))
  have ruled : Keeps I bad (omlConfRules atoms) :=
    regular.space.bind (fun _ _ => (regular.keyword "rule").bind (fun _ _ =>
      (regular.symbol ":").bind (fun _ _ => (path.many regular.exhausted regular.cut).forget)))
  induction rounds generalizing enable rules with
  | zero => exact .failWith regular.exhausted
  | succ rounds ih =>
    rw [confOptions]
    refine regular.space.bind (fun _ _ => (tryNext_spec enabled).bind (fun found _ => ?_))
    split
    · exact ih _ _
    refine (tryNext_spec ruled).bind (fun found _ => ?_)
    split
    · exact ih _ _
    · exact .pure trivial

/-- A model as the parser leaves it: references are there only with a static block. -/
structure ObjModel.Made (model : ObjModel PipeFun) : Prop where
  items : ∀ item ∈ model.items, item.Made (!model.staticItems.isEmpty)
  static : ∀ item ∈ model.staticItems, (staticTarget item).isSome = true

theorem omlConfCode_spec : Spec I (omlConfCode atoms strict fuel) ObjModel.Made bad := by
  have head : Keeps I bad (omlConfHead atoms) :=
    regular.space.bind (fun _ _ => (regular.keyword "name").bind (fun _ _ =>
      (regular.symbol ":").bind (fun _ _ => regular.takeObjPath)))
  have empty : Keeps I bad isEmptyText := fun _ kept => ⟨kept, trivial⟩
  refine head.bind (fun name _ => Spec.getText.bind (fun here _ => ?_))
  refine (confOptions_spec regular _ true []).bind (fun options _ => ?_)
  refine (regular.keyword "---").bind (fun _ _ => Spec.getText.bind (fun here _ => ?_))
  have none : StaticMade ([] : List (EvalExp PipeFun)) [] :=
    ⟨List.forall_mem_nil _, fun absent => absurd rfl absent⟩
  refine (parseStaticBlocks_spec regular plain queries fuel _ [] [] none).bind (fun static made => ?_)
  obtain ⟨staticItems, symbols⟩ := static
  have item : Spec I (omlAggregate atoms symbols strict fuel)
      (EvalExp.Made (!staticItems.isEmpty)) bad :=
    item_spec regular plain queries fuel (fun some => by simpa using made.names some)
  refine (item.many1 regular.exhausted regular.cut).bind (fun items met => ?_)
  refine regular.space.bind (fun _ _ => empty.bind (fun ended _ => ?_))
  have model : (⟨name, options.2, options.1, items, staticItems, checkTempFields items, []⟩ :
      ObjModel PipeFun).Made := ⟨met.2, made.named⟩
  refine .ite ?_ (.pure model)
  refine (regular.peekStr "---").tried.bind (fun found _ => ?_)
  split
  · exact (regular.keyword "---").bind (fun _ _ => .pure model)
  · exact item.bind (fun _ _ => .pure model)

end Model

section Rewrite

variable (normalize : String → String) (constFields : List (String × DataField))

theorem rewriteGenericAccessor_closed {accessor new : GenericAccessor}
    (rewritten : rewriteGenericAccessor constFields accessor = some new) : new.Closed false := by
  cases accessor with
  | staticSymbol symbol =>
    obtain ⟨field, _, rfl⟩ := Option.map_eq_some_iff.mp rewritten
    trivial
  | field content => cases rewritten; trivial
  | fieldArc content => cases rewritten; trivial
  | builtin function => cases rewritten; trivial

theorem rewriteDefaultAcq_closed {default new : Option GenericAccessor}
    (rewritten : rewriteDefaultAcq constFields default = some new) :
    ∀ accessor ∈ new, accessor.Closed false := by
  cases default with
  | none =>
    cases rewritten
    rintro accessor ⟨⟩
  | some default =>
    obtain ⟨accessor, replaced, rfl⟩ := Option.map_eq_some_iff.mp rewritten
    rintro other ⟨⟩
    exact rewriteGenericAccessor_closed constFields replaced

theorem rewriteDirectAccessor_closed {accessor new : DirectAccessor}
    (rewritten : rewriteDirectAccessor constFields accessor = some new) : new.Closed false := by
  cases accessor with
  | take accessor =>
    obtain ⟨default, replaced, result⟩ := Option.bind_eq_some_iff.mp rewritten
    cases result
    exact rewriteDefaultAcq_closed constFields replaced
  | read accessor =>
    obtain ⟨default, replaced, result⟩ := Option.bind_eq_some_iff.mp rewritten
    cases result
    exact rewriteDefaultAcq_closed constFields replaced

theorem rewriteRecordOperation_closed {op new : RecordOperation}
    (rewritten : rewriteRecordOperation constFields op = some new) : new.Closed false := by
  obtain ⟨datGet, direct, rest⟩ := Option.bind_eq_some_iff.mp rewritten
  obtain ⟨default, replaced, result⟩ := Option.bind_eq_some_iff.mp rest
  cases result
  exact ⟨rewriteDirectAccessor_closed constFields direct,
    rewriteDefaultAcq_closed constFields replaced⟩

theorem mapM_each {A : Type} {change : A → Option A} {good : A → Prop}
    (each : ∀ a new, change a = some new → good new) (items : List A) {news : List A}
    (rewritten : items.mapM change = some news) : ∀ new ∈ news, good new := by
  induction items generalizing news with
  | nil =>
    cases rewritten
    exact List.forall_mem_nil _
  | cons item rest ih =>
    rw [List.mapM_cons] at rewritten
    obtain ⟨first, changed, others⟩ := Option.bind_eq_some_iff.mp rewritten
    obtain ⟨tail, more, result⟩ := Option.bind_eq_some_iff.mp others
    cases result
    exact List.forall_mem_cons.mpr ⟨each item first changed, ih more⟩

theorem rewriteCalcExpr_closed {expr new : CalcExpr}
    (rewritten : rewriteCalcExpr constFields expr = some new) : new.Closed false := by
  induction expr generalizing new with
  | const number =>
    cases rewritten
    trivial
  | accessor direct =>
    obtain ⟨accessor, replaced, rfl⟩ := Option.map_eq_some_iff.mp rewritten
    exact rewriteDirectAccessor_closed constFields replaced
  | unaryNeg inner ih =>
    obtain ⟨one, replaced, rfl⟩ := Option.map_eq_some_iff.mp rewritten
    have closed : one.Closed false := ih replaced
    exact closed
  | binary op lhs rhs left right =>
    obtain ⟨first, replaced, rest⟩ := Option.bind_eq_some_iff.mp rewritten
    obtain ⟨second, changed, result⟩ := Option.bind_eq_some_iff.mp rest
    cases result
    exact ⟨left replaced, right changed⟩
  | func function arg ih =>
    obtain ⟨one, replaced, rfl⟩ := Option.map_eq_some_iff.mp rewritten
    have closed : one.Closed false := ih replaced
    exact closed

mutual
theorem rewriteSingleMatchCond_closed : (cond : MatchCond) → (new : MatchCond) →
    rewriteSingleMatchCond constFields cond = some new → new.Closed false
  | .eqSym symbol, new, rewritten => by
    obtain ⟨field, _, rfl⟩ := Option.map_eq_some_iff.mp rewritten
    trivial
  | .neqSym symbol, new, rewritten => by
    obtain ⟨field, _, rfl⟩ := Option.map_eq_some_iff.mp rewritten
    trivial
  | .withinSym first last, new, rewritten => by
    obtain ⟨begins, _, rest⟩ := Option.bind_eq_some_iff.mp rewritten
    obtain ⟨ends, _, result⟩ := Option.bind_eq_some_iff.mp rest
    cases result
    trivial
  | .alternatives conds, new, rewritten => by
    obtain ⟨news, replaced, rfl⟩ := Option.map_eq_some_iff.mp rewritten
    exact rewriteConds_closed conds news replaced
  | .eq field, new, rewritten => by cases rewritten; trivial
  | .neq field, new, rewritten => by cases rewritten; trivial
  | .within first last, new, rewritten => by cases rewritten; trivial
  | .function call, new, rewritten => by cases rewritten; trivial
  | .eqArc field, new, rewritten => by cases rewritten; trivial
  | .neqArc field, new, rewritten => by cases rewritten; trivial
  | .withinArc first last, new, rewritten => by cases rewritten; trivial
  | .wildcard, new, rewritten => by cases rewritten; trivial

theorem rewriteConds_closed : (conds news : List MatchCond) →
    rewriteConds constFields conds = some news → CondsClosed false news
  | [], news, rewritten => by
    cases rewritten
    trivial
  | cond :: rest, news, rewritten => by
    obtain ⟨first, replaced, others⟩ := Option.bind_eq_some_iff.mp rewritten
    obtain ⟨tail, changed, result⟩ := Option.bind_eq_some_iff.mp others
    cases result
    exact ⟨rewriteSingleMatchCond_closed cond first replaced, rewriteConds_closed rest tail changed⟩
end

/-- A condition stays one for its source. -/
theorem rewriteMatchCondition_closed {cond new : MatchCondition}
    (rewritten : rewriteMatchCondition constFields cond = some new) :
    new.Closed false ∧ ∀ source : MatchSource, source.Fits cond → source.Fits new := by
  cases cond with
  | single cond =>
    obtain ⟨one, replaced, rfl⟩ := Option.map_eq_some_iff.mp rewritten
    refine ⟨rewriteSingleMatchCond_closed constFields cond one replaced, fun source fits => ?_⟩
    cases source <;> exact fits
  | multi conds =>
    obtain ⟨news, replaced, rfl⟩ := Option.map_eq_some_iff.mp rewritten
    refine ⟨rewriteConds_closed constFields conds news replaced, fun source fits => ?_⟩
    cases source <;> exact fits
  | wildcard =>
    cases rewritten
    exact ⟨trivial, fun source fits => fits⟩

theorem rewriteMatchSource_closed {source new : MatchSource}
    (rewritten : rewriteMatchSource constFields source = some new) :
    new.Closed false ∧ ∀ cond, source.Fits cond → new.Fits cond := by
  cases source with
  | single accessor =>
    obtain ⟨one, replaced, rfl⟩ := Option.map_eq_some_iff.mp rewritten
    refine ⟨rewriteDirectAccessor_closed constFields replaced, fun cond fits => ?_⟩
    cases cond <;> exact fits
  | multi accessors =>
    obtain ⟨news, replaced, rfl⟩ := Option.map_eq_some_iff.mp rewritten
    refine ⟨mapM_each (fun _ _ => rewriteDirectAccessor_closed constFields) accessors replaced,
      fun cond fits => ?_⟩
    cases cond <;> exact fits

variable (given : Bool)

mutual
theorem rewritePreciseEvaluator_closed : (eval new : PreciseEvaluator PipeFun) →
    rewritePreciseEvaluator normalize constFields eval = some new → eval.Closed given →
      new.Closed false
  | .staticSymbol symbol, new, rewritten, _ => by
    obtain ⟨field, _, rfl⟩ := Option.map_eq_some_iff.mp rewritten
    trivial
  | .calculate expr, new, rewritten, _ => by
    obtain ⟨one, replaced, rfl⟩ := Option.map_eq_some_iff.mp rewritten
    exact rewriteCalcExpr_closed constFields replaced
  | .matchOn source items default, new, rewritten, closed => by
    rw [rewritePreciseEvaluator] at rewritten
    obtain ⟨newSource, sourced, rest⟩ := Option.bind_eq_some_iff.mp rewritten
    obtain ⟨newItems, arms, rest⟩ := Option.bind_eq_some_iff.mp rest
    obtain ⟨newDefault, last, result⟩ := Option.bind_eq_some_iff.mp rest
    cases result
    obtain ⟨accessors, fits⟩ := rewriteMatchSource_closed constFields sourced
    exact ⟨accessors, rewriteCases_closed source newSource fits items newItems arms closed.2.1,
      rewriteDefaultCase_closed source newSource fits default newDefault last closed.2.2⟩
  | .lookup dictSymbol key default _, new, rewritten, closed => by
    rw [rewritePreciseEvaluator] at rewritten
    obtain ⟨newKey, keyed, rest⟩ := Option.bind_eq_some_iff.mp rewritten
    obtain ⟨newDefault, last, rest⟩ := Option.bind_eq_some_iff.mp rest
    obtain ⟨compiled, _, result⟩ := Option.bind_eq_some_iff.mp rest
    cases result
    exact ⟨rewritePreciseEvaluator_closed key newKey keyed closed.1,
      rewritePreciseEvaluator_closed default newDefault last closed.2⟩
  | .pipe source items, new, rewritten, closed => by
    obtain ⟨one, replaced, rfl⟩ := Option.map_eq_some_iff.mp rewritten
    exact rewritePipeSource_closed source one replaced closed
  | .builtin function, new, rewritten, _ => by cases rewritten; trivial
  | .map subs, new, rewritten, closed => by
    obtain ⟨news, replaced, rfl⟩ := Option.map_eq_some_iff.mp rewritten
    exact rewriteMembers_closed subs news replaced closed
  | .objArray items, new, rewritten, closed => by
    obtain ⟨news, replaced, rfl⟩ := Option.map_eq_some_iff.mp rewritten
    exact rewriteItems_closed items news replaced closed
  | .fmt op, new, rewritten, _ => by
    obtain ⟨subs, replaced, rfl⟩ := Option.map_eq_some_iff.mp rewritten
    exact mapM_each (fun _ _ => rewriteRecordOperation_closed constFields) op.subs replaced
  | .tdc op, new, rewritten, _ => by
    obtain ⟨one, replaced, rfl⟩ := Option.map_eq_some_iff.mp rewritten
    exact rewriteRecordOperation_closed constFields replaced
  | .collect datCrate, new, rewritten, _ => by
    obtain ⟨one, replaced, rfl⟩ := Option.map_eq_some_iff.mp rewritten
    exact rewriteDirectAccessor_closed constFields replaced
  | .sql query, new, rewritten, _ => by cases rewritten; trivial
  | .accessDirect op, new, rewritten, closed => by cases rewritten; exact closed
  | .obj field, new, rewritten, _ => by cases rewritten; trivial
  | .objArc field, new, rewritten, _ => by cases rewritten; trivial
  | .val value, new, rewritten, _ => by cases rewritten; trivial

theorem rewriteNestedAccessor_closed : (arm new : NestedAccessor PipeFun) →
    rewriteNestedAccessor normalize constFields arm = some new → arm.Closed given →
      new.Closed false
  | .staticSymbol symbol, new, rewritten, _ => by
    obtain ⟨field, _, rfl⟩ := Option.map_eq_some_iff.mp rewritten
    trivial
  | .direct op, new, rewritten, _ => by
    obtain ⟨one, replaced, rfl⟩ := Option.map_eq_some_iff.mp rewritten
    exact rewriteRecordOperation_closed constFields replaced
  | .collect datCrate, new, rewritten, _ => by
    obtain ⟨one, replaced, rfl⟩ := Option.map_eq_some_iff.mp rewritten
    exact rewriteDirectAccessor_closed constFields replaced
  | .map subs, new, rewritten, closed => by
    obtain ⟨news, replaced, rfl⟩ := Option.map_eq_some_iff.mp rewritten
    exact rewriteMembers_closed subs news replaced closed
  | .objArray items, new, rewritten, closed => by
    obtain ⟨news, replaced, rfl⟩ := Option.map_eq_some_iff.mp rewritten
    exact rewriteItems_closed items news replaced closed
  | .pipe source items, new, rewritten, closed => by
    obtain ⟨one, replaced, rfl⟩ := Option.map_eq_some_iff.mp rewritten
    exact rewritePipeSource_closed source one replaced closed
  | .field field, new, rewritten, _ => by cases rewritten; trivial
  | .fieldArc field, new, rewritten, _ => by cases rewritten; trivial
  | .builtin function, new, rewritten, _ => by cases rewritten; trivial

theorem rewriteMembers_closed : (subs news : List (NestedBinding PipeFun)) →
    rewriteMembers normalize constFields subs = some news → MembersClosed given subs →
      MembersClosed false news
  | [], news, rewritten, _ => by
    cases rewritten
    trivial
  | ⟨target, acquirer⟩ :: rest, news, rewritten, closed => by
    rw [rewriteMembers] at rewritten
    obtain ⟨first, replaced, others⟩ := Option.bind_eq_some_iff.mp rewritten
    obtain ⟨tail, changed, result⟩ := Option.bind_eq_some_iff.mp others
    cases result
    exact ⟨rewriteNestedAccessor_closed acquirer first replaced closed.1,
      rewriteMembers_closed rest tail changed closed.2⟩

theorem rewriteItems_closed : (items news : List (PreciseEvaluator PipeFun)) →
    rewriteItems normalize constFields items = some news → ItemsClosed given items →
      ItemsClosed false news
  | [], news, rewritten, _ => by
    cases rewritten
    trivial
  | item :: rest, news, rewritten, closed => by
    rw [rewriteItems] at rewritten
    obtain ⟨first, replaced, others⟩ := Option.bind_eq_some_iff.mp rewritten
    obtain ⟨tail, changed, result⟩ := Option.bind_eq_some_iff.mp others
    cases result
    exact ⟨rewritePreciseEvaluator_closed item first replaced closed.1,
      rewriteItems_closed rest tail changed closed.2⟩

theorem rewritePipeSource_closed : (source new : PipeSource PipeFun) →
    rewritePipeSource normalize constFields source = some new → source.Closed given →
      new.Closed false
  | .accessor accessor, new, rewritten, _ => by
    obtain ⟨one, replaced, rfl⟩ := Option.map_eq_some_iff.mp rewritten
    exact rewriteDirectAccessor_closed constFields replaced
  | .accessDirect op, new, rewritten, closed => by cases rewritten; exact closed
  | .precise eval, new, rewritten, closed => by
    obtain ⟨one, replaced, rfl⟩ := Option.map_eq_some_iff.mp rewritten
    exact rewritePreciseEvaluator_closed eval one replaced closed

theorem rewriteCases_closed (source newSource : MatchSource)
    (fits : ∀ cond, source.Fits cond → newSource.Fits cond) :
    (items news : List (MatchCase PipeFun)) →
      rewriteCases normalize constFields items = some news → CasesClosed given source items →
        CasesClosed false newSource news
  | [], news, rewritten, _ => by
    cases rewritten
    trivial
  | ⟨cond, result⟩ :: rest, news, rewritten, closed => by
    rw [rewriteCases] at rewritten
    obtain ⟨arm, replaced, others⟩ := Option.bind_eq_some_iff.mp rewritten
    obtain ⟨tail, changed, others⟩ := Option.bind_eq_some_iff.mp others
    obtain ⟨asked, renewed, last⟩ := Option.bind_eq_some_iff.mp others
    cases last
    obtain ⟨condClosed, keeps⟩ := rewriteMatchCondition_closed constFields renewed
    exact ⟨⟨condClosed, keeps newSource (fits cond closed.1.2.1),
      rewriteNestedAccessor_closed result arm replaced closed.1.2.2⟩,
      rewriteCases_closed source newSource fits rest tail changed closed.2⟩

theorem rewriteDefaultCase_closed (source newSource : MatchSource)
    (fits : ∀ cond, source.Fits cond → newSource.Fits cond) :
    (default new : Option (MatchCase PipeFun)) →
      rewriteDefaultCase normalize constFields default = some new →
        DefaultClosed given source default → DefaultClosed false newSource new
  | none, new, rewritten, _ => by
    cases rewritten
    trivial
  | some ⟨cond, result⟩, new, rewritten, closed => by
    obtain ⟨arm, replaced, rfl⟩ := Option.map_eq_some_iff.mp rewritten
    exact ⟨closed.1, fits cond closed.2.1,
      rewriteNestedAccessor_closed result arm replaced closed.2.2⟩
end

/-- A query is passed over, and nothing else becomes one. -/
theorem rewritePreciseEvaluator_query {eval new : PreciseEvaluator PipeFun}
    (rewritten : rewritePreciseEvaluator normalize constFields eval = some new)
    (query : SqlQuery) : new = .sql query ↔ eval = .sql query := by
  cases eval with
  | sql other =>
    cases rewritten
    rfl
  | matchOn source items default =>
    rw [rewritePreciseEvaluator] at rewritten
    obtain ⟨_, _, rest⟩ := Option.bind_eq_some_iff.mp rewritten
    obtain ⟨_, _, rest⟩ := Option.bind_eq_some_iff.mp rest
    obtain ⟨_, _, result⟩ := Option.bind_eq_some_iff.mp rest
    cases result
    constructor <;> rintro ⟨⟩
  | lookup dictSymbol key default compiled =>
    rw [rewritePreciseEvaluator] at rewritten
    obtain ⟨_, _, rest⟩ := Option.bind_eq_some_iff.mp rewritten
    obtain ⟨_, _, rest⟩ := Option.bind_eq_some_iff.mp rest
    obtain ⟨_, _, result⟩ := Option.bind_eq_some_iff.mp rest
    cases result
    constructor <;> rintro ⟨⟩
  | accessDirect op => cases rewritten; constructor <;> rintro ⟨⟩
  | obj field => cases rewritten; constructor <;> rintro ⟨⟩
  | objArc field => cases rewritten; constructor <;> rintro ⟨⟩
  | builtin function => cases rewritten; constructor <;> rintro ⟨⟩
  | val value => cases rewritten; constructor <;> rintro ⟨⟩
  | _ =>
    obtain ⟨one, replaced, rfl⟩ := Option.map_eq_some_iff.mp rewritten
    constructor <;> rintro ⟨⟩

theorem EvalExp.queryClosed_iff (given : Bool) (targets : List EvaluationTarget)
    (eval : PreciseEvaluator PipeFun) (sync : Bool) :
    (EvalExp.single targets eval sync).QueryClosed given ↔
      ∀ query, eval = .sql query → query.Closed given := by
  cases eval with
  | sql query =>
    constructor
    · rintro closed other ⟨⟩
      exact closed
    · exact fun closed => closed query rfl
  | _ => exact ⟨fun _ => by rintro query ⟨⟩, fun _ => trivial⟩

/-- Everything is replaced but the parameters of a query, which stay as they are. -/
theorem rewriteItem_closed {item new : EvalExp PipeFun}
    (rewritten : rewriteItem normalize constFields item = some new) (closed : item.Closed given) :
    new.Closed false ∧ (new.QueryClosed false ↔ item.QueryClosed false) := by
  cases item with
  | single targets eval sync =>
    obtain ⟨one, replaced, rfl⟩ := Option.map_eq_some_iff.mp rewritten
    refine ⟨rewritePreciseEvaluator_closed normalize constFields given eval one replaced closed, ?_⟩
    rw [EvalExp.queryClosed_iff, EvalExp.queryClosed_iff]
    simp only [rewritePreciseEvaluator_query normalize constFields replaced]
  | batch target evalWay =>
    cases rewritten
    exact ⟨trivial, Iff.rfl⟩

theorem rewriteStaticReferences_closed {items news : List (EvalExp PipeFun)}
    (rewritten : rewriteStaticReferences normalize constFields items = some news)
    (closed : ∀ item ∈ items, item.Closed given) :
    (∀ new ∈ news, new.Closed false) ∧
      ((∀ new ∈ news, new.QueryClosed false) ↔ ∀ item ∈ items, item.QueryClosed false) := by
  induction items generalizing news with
  | nil =>
    cases rewritten
    exact ⟨List.forall_mem_nil _, Iff.rfl⟩
  | cons item rest ih =>
    rw [rewriteStaticReferences, List.mapM_cons] at rewritten
    obtain ⟨first, changed, others⟩ := Option.bind_eq_some_iff.mp rewritten
    obtain ⟨tail, more, result⟩ := Option.bind_eq_some_iff.mp others
    cases result
    obtain ⟨itemClosed, restClosed⟩ := List.forall_mem_cons.mp closed
    obtain ⟨new, query⟩ := rewriteItem_closed normalize constFields given changed itemClosed
    obtain ⟨news, queries⟩ := ih more restClosed
    refine ⟨List.forall_mem_cons.mpr ⟨new, news⟩, ?_⟩
    rw [List.forall_mem_cons, List.forall_mem_cons, query, queries]

end Rewrite

section Main

variable (env : Externals PipeFun) (atoms : Atoms PipeFun) (strict : Bool) (runQuery : RunQuery)
  (fuel : Nat)

theorem computeSyncFlag_closed (item : EvalExp PipeFun) :
    ((computeSyncFlag item).Closed false ↔ item.Closed false) ∧
      ((computeSyncFlag item).QueryClosed false ↔ item.QueryClosed false) := by
  cases item with
  | single targets eval sync =>
    refine ⟨Iff.rfl, ?_⟩
    rw [computeSyncFlag, EvalExp.queryClosed_iff, EvalExp.queryClosed_iff]
  | batch target evalWay => exact ⟨Iff.rfl, Iff.rfl⟩

theorem finalizeStaticBlocks_closed {before after : ObjModel PipeFun} (made : before.Made)
    (finalized : finalizeStaticBlocks env runQuery before = .ok after) :
    (∀ item ∈ after.items, item.Closed false) ∧
      ((∀ item ∈ after.items, item.QueryClosed false) ↔
        ∀ item ∈ before.items, item.QueryClosed false) := by
  unfold finalizeStaticBlocks at finalized
  split at finalized
  · next empty =>
    cases finalized
    have items := made.items
    rw [empty] at items
    exact ⟨fun item member => (items item member).closed, Iff.rfl⟩
  · split at finalized
    · cases finalized
    · split at finalized
      · cases finalized
      · next items rewritten =>
        cases finalized
        exact rewriteStaticReferences_closed env.normalizeLookupKey _ _ rewritten
          (fun item member => (made.items item member).closed)

/-- The items before references are replaced have only queries with resolved parameters. -/
def QueriesResolved (text : Text) : Prop :=
  ∀ model rest, omlConfCode atoms strict fuel text = (.ok model, rest) →
    ∀ item ∈ model.items, item.QueryClosed false

/-- Nothing is asked of a text or a failure. -/
theorem queriesPlain_all (symbols : List String) :
    QueriesPlain atoms symbols (fun _ => True) (fun _ => True) :=
  ⟨fun _ _ _ _ => trivial, fun _ _ _ _ => trivial, fun _ _ _ => trivial,
    fun _ _ _ _ _ _ _ => trivial, fun _ _ _ _ => trivial⟩

theorem omlConfCode_made {text rest : Text} {model : ObjModel PipeFun}
    (parsed : omlConfCode atoms strict fuel text = (.ok model, rest)) : model.Made := by
  have spec : Spec (fun _ => True) (omlConfCode atoms strict fuel) ObjModel.Made (fun _ => True) :=
    omlConfCode_spec atoms.regular_all (fun _ _ _ _ _ _ _ => trivial)
      (queriesPlain_all atoms) fuel
  have met := (spec text trivial).2
  rw [parsed] at met
  exact met

/-- A text that is accepted gives a model without references, with every match in shape, and no
    record makes it panic, exactly when no query that is an item has a parameter that falls back
    on the static block. -/
theorem parsed_model_resolved {text rest : Text} {model : ObjModel PipeFun}
    (parsed : omlParseRaw env atoms strict runQuery fuel text = (.ok model, rest)) :
    (model.Resolved ∧ ∀ runQuery state, (evalItems env runQuery model.items state).isSome = true) ↔
      QueriesResolved atoms strict fuel text := by
  obtain ⟨before, between, read, finished⟩ := bind_ok_run parsed
  obtain ⟨after, last, finalized, result⟩ := bind_ok_run finished
  have same : finalizeStaticBlocks env runQuery before = .ok after := by
    cases outcome : finalizeStaticBlocks env runQuery before with
    | ok found =>
      rw [outcome] at finalized
      cases finalized
      rfl
    | error e =>
      rw [outcome] at finalized
      cases finalized
  cases result
  obtain ⟨closed, queries⟩ := finalizeStaticBlocks_closed env runQuery
    (omlConfCode_made atoms strict fuel read) same
  constructor
  · rintro ⟨resolved, _⟩ model rest again
    rw [read] at again
    cases again
    refine queries.mp (fun item member => ?_)
    have flagged := resolved _ (List.mem_map.mpr ⟨item, member, rfl⟩)
    exact (computeSyncFlag_closed item).2.mp flagged.2
  · intro resolved
    have every := queries.mpr (resolved before between read)
    have final : ObjModel.Resolved { after with items := after.items.map computeSyncFlag } := by
      intro item member
      obtain ⟨old, inside, rfl⟩ := List.mem_map.mp member
      exact ⟨(computeSyncFlag_closed old).1.mpr (closed old inside),
        (computeSyncFlag_closed old).2.mpr (every old inside)⟩
    refine ⟨final, fun runQuery state => ?_⟩
    obtain ⟨ended, ran⟩ := final.returns env runQuery state
    exact Option.isSome_iff_exists.mpr ⟨ended, ran⟩

end Main

/-- The text up to the bracket that closes the one before it. -/
def scopeEnd (left right : Char) : Nat → Text → Text → Option (Text × Text)
  | _, _, [] => none
  | depth, before, c :: rest =>
    if c = left ∧ left ≠ right then scopeEnd left right (depth + 1) (c :: before) rest
    else if c = right then
      match depth with
      | 0 => some (before.reverse, rest)
      | depth + 1 => scopeEnd left right depth (c :: before) rest
    else scopeEnd left right depth (c :: before) rest

def sampleScope (left right : Char) : Parse Text := fun text =>
  match multispace0 text with
  | c :: rest =>
    if c = left then
      match scopeEnd left right 0 [] rest with
      | some (code, after) => (.ok code, after)
      | none => (.error .backtrack, text)
    else (.error .backtrack, text)
  | [] => (.error .backtrack, text)

def sampleName : Parse String := do
  space
  return String.ofList (← takeWhile1 isIdentChar)

/-- Names of letters, digits and `_`, values of type `chars`, no pipe functions. -/
def sampleAtoms : Atoms Unit where
  symbol := keyword
  takeVarName := sampleName
  takeWildKey := sampleName
  takeObjPath := sampleName
  takeKey := sampleName
  takeKeyPair := failWith .backtrack
  takeJsonPath := sampleName
  takeParenthesesVal := do return String.ofList (← sampleScope '(' ')')
  takeDatatype := do
    keyword "chars"
    return .chars
  fieldIns info val := pure ⟨info, "", .chars val⟩
  takeSqlTval := failWith .backtrack
  quotStr := failWith .backtrack
  peekStr what := peek (keyword what)
  getScope := sampleScope
  parseFloat _ := none
  pipeFun := failWith .backtrack
  isRemove _ := false
  otherLiteral _ := ""

def noRows : RunQuery := fun _ _ => []

/-- A parameter of the query falls back on the static field. -/
def symbolInQuery : Text :=
  "name : t --- static \x7b S = chars(x) ; \x7d r = select a from t where a <= f(read(x) \x7b _ : S \x7d) ;".toList

theorem symbolInQuery_model : ∃ model rest,
    omlParseRaw skipEmptyOnly sampleAtoms true noRows 12 symbolInQuery = (.ok model, rest) ∧
      evalItems skipEmptyOnly noRows model.items ⟨[], []⟩ = none := by
  have panics : (match omlParseRaw skipEmptyOnly sampleAtoms true noRows 12 symbolInQuery with
      | (.ok model, _) => (evalItems skipEmptyOnly noRows model.items ⟨[], []⟩).isNone
      | (.error _, _) => false) = true := by decide +kernel
  split at panics
  · next model rest parsed => exact ⟨model, rest, parsed, Option.isNone_iff_eq_none.mp panics⟩
  · cases panics

/-- The model is built, and a record without `x` makes it panic. -/
theorem symbol_in_query_panics : ∃ model rest,
    omlParseRaw skipEmptyOnly sampleAtoms true noRows 12 symbolInQuery = (.ok model, rest) ∧
      ¬ model.Resolved ∧ evalItems skipEmptyOnly noRows model.items ⟨[], []⟩ = none := by
  obtain ⟨model, rest, parsed, stuck⟩ := symbolInQuery_model
  refine ⟨model, rest, parsed, fun resolved => ?_, stuck⟩
  obtain ⟨ended, ran⟩ := resolved.returns skipEmptyOnly noRows ⟨[], []⟩
  rw [stuck] at ran
  cases ran

theorem symbol_in_query_resolved_iff : ∃ model rest,
    omlParseRaw skipEmptyOnly sampleAtoms true noRows 12 symbolInQuery = (.ok model, rest) ∧
      ((model.Resolved ∧ ∀ runQuery state,
          (evalItems skipEmptyOnly runQuery model.items state).isSome = true) ↔
        QueriesResolved sampleAtoms true 12 symbolInQuery) := by
  obtain ⟨model, rest, parsed, _⟩ := symbolInQuery_model
  exact ⟨model, rest, parsed, parsed_model_resolved skipEmptyOnly sampleAtoms true noRows 12 parsed⟩

end WarpMotor.Oml
