import WarpMotor.Oml.Built

/-!
The parameters of a query. Whatever form its condition has, each parameter is
an accessor that the condition was read with, so a reference occurs in one only
when the static block has names.
-/
namespace WarpMotor.Oml

open Parsing

variable {PipeFun : Type} {given : Bool}

def VarsClosed (given : Bool) (vars : Vars) : Prop := ∀ var ∈ vars, var.2.Closed given

theorem VarsClosed.insert {vars : Vars} (closed : VarsClosed given vars) (name : String)
    {accessor : CondAccessor} (new : accessor.Closed given) :
    VarsClosed given (insertVar vars name accessor) := by
  intro var member
  rcases List.mem_append.mp member with old | last
  · exact closed var (List.mem_of_mem_filter old)
  · cases List.mem_singleton.mp last
    exact new

theorem VarsClosed.extend {vars others : Vars} (closed : VarsClosed given vars)
    (more : VarsClosed given others) : VarsClosed given (extendVars vars others) := by
  induction others generalizing vars with
  | nil => exact closed
  | cons var rest ih =>
    obtain ⟨first, after⟩ := List.forall_mem_cons.mp more
    exact ih (closed.insert var.1 first) after

theorem VarsClosed.none : VarsClosed given [] := List.forall_mem_nil _

theorem fromRead_closed (name : String) : (fromRead name).Closed given :=
  ⟨by rintro default ⟨⟩, by rintro default ⟨⟩⟩

theorem fromTake_closed (name : String) : (fromTake name).Closed given :=
  ⟨by rintro default ⟨⟩, by rintro default ⟨⟩⟩

theorem bind_error {A B : Type} {first : Except Fail A} {next : A → Except Fail B} {e : Fail}
    (result : first >>= next = .error e) :
    first = .error e ∨ ∃ a, first = .ok a ∧ next a = .error e := by
  cases first with
  | ok a => exact .inr ⟨a, rfl, result⟩
  | error other =>
    cases result
    exact .inl rfl

theorem bind_ok {A B : Type} {first : Except Fail A} {next : A → Except Fail B} {b : B}
    (result : first >>= next = .ok b) : ∃ a, first = .ok a ∧ next a = .ok b := by
  cases first with
  | ok a => exact ⟨a, rfl, result⟩
  | error other => cases result

section FastPaths

theorem toSqlPiece_closed (s : Text) {params : Vars} (closed : VarsClosed given params) :
    VarsClosed given (toSqlPiece s params).2 := by
  unfold toSqlPiece
  dsimp only
  split
  · exact closed.insert _ (fromRead_closed _)
  split
  · exact closed.insert _ (fromRead_closed _)
  split
  · exact closed.insert _ (fromRead_closed _)
  split
  · exact closed.insert _ (fromTake_closed _)
  · exact closed

theorem inListItems_closed (parts : List Text) {params : Vars} (closed : VarsClosed given params)
    {found : List Text × Vars} (result : inListItems parts params = some found) :
    VarsClosed given found.2 := by
  induction parts generalizing params found with
  | nil =>
    cases result
    exact closed
  | cons part rest ih =>
    simp only [inListItems] at result
    split at result
    · obtain ⟨others, tail, rfl⟩ := Option.map_eq_some_iff.mp result
      have last : VarsClosed given others.2 := ih (toSqlPiece_closed part closed) tail
      exact last
    · cases result

theorem fastPathInList_closed {cond sql : Text} {vars : Vars}
    (result : fastPathInList cond = some (sql, vars)) : VarsClosed given vars := by
  simp only [fastPathInList, Option.bind_eq_bind, Option.bind_eq_some_iff] at result
  obtain ⟨⟨before, rest⟩, _, result⟩ := result
  dsimp only at result
  split at result
  · cases result
  · simp only [Option.bind_eq_some_iff] at result
    obtain ⟨inside, _, parts, _, found, items, result⟩ := result
    cases result
    exact inListItems_closed parts .none items

theorem likeLoop_closed (fuel : Nat) (text : Text) (found : LikeParts)
    (closed : VarsClosed given found.params) :
    VarsClosed given (likeLoop fuel text found).params := by
  induction fuel generalizing text found with
  | zero => exact closed
  | succ fuel ih =>
    cases text with
    | nil => exact closed
    | cons c rest =>
      rw [likeLoop]
      split
      · exact ih _ _ (closed.insert _ (fromRead_closed _))
      · split
        · exact ih _ _ (toSqlPiece_closed _ closed)
        · exact ih _ _ closed

theorem LikeParts.flush_params (found : LikeParts) : found.flush.params = found.params := by
  unfold LikeParts.flush
  split <;> rfl

/-- A pattern with parameters holds those of its loop; the slice inside a single quote panics. -/
theorem renderLike_cases (rhs : Text) (params : Vars) :
    renderLikeInterpolatedLiteral rhs params = .ok none ∨
      renderLikeInterpolatedLiteral rhs params = .error .panic ∨
      ∃ sql content, renderLikeInterpolatedLiteral rhs params =
        .ok (some (sql, (likeLoop (content.length + 1) content ⟨[], [], false, params⟩).params)) := by
  unfold renderLikeInterpolatedLiteral
  dsimp only
  split
  · exact .inl rfl
  · next quote rest _ =>
    split
    · exact .inl rfl
    split
    · exact .inr (.inl rfl)
    split
    · rw [LikeParts.flush_params]
      exact .inr (.inr ⟨_, rest.dropLast, rfl⟩)
    · exact .inl rfl

theorem fastPathLike_cases (cond : Text) :
    fastPathLike cond = .ok none ∨ fastPathLike cond = .error .panic ∨
      ∃ sql vars, fastPathLike cond = .ok (some (sql, vars)) ∧
        ((∃ content, vars =
            (likeLoop (content.length + 1) content ⟨[], [], false, []⟩).params) ∨
          ∃ rhs, vars = (toSqlPiece rhs []).2) := by
  unfold fastPathLike
  split
  · exact .inl rfl
  · next before rest found =>
    dsimp only
    split
    · exact .inl rfl
    · rcases renderLike_cases (trimText (rest.drop 4)) [] with plain | stuck | ⟨sql, content, read⟩
      · rw [plain]
        dsimp only [bind, Except.bind]
        split
        · exact .inr (.inr ⟨_, _, rfl, .inr ⟨_, rfl⟩⟩)
        · exact .inl rfl
      · rw [stuck]
        exact .inr (.inl rfl)
      · rw [read]
        exact .inr (.inr ⟨_, _, rfl, .inl ⟨content, rfl⟩⟩)

theorem fastPathLike_closed {cond sql : Text} {vars : Vars}
    (result : fastPathLike cond = .ok (some (sql, vars))) : VarsClosed given vars := by
  rcases fastPathLike_cases cond with plain | stuck | ⟨_, _, read, bound⟩
  · rw [plain] at result
    cases result
  · rw [stuck] at result
    cases result
  · rw [read] at result
    cases result
    rcases bound with ⟨content, rfl⟩ | ⟨rhs, rfl⟩
    · exact likeLoop_closed _ _ _ .none
    · exact toSqlPiece_closed _ .none

theorem fastPathIp4BetweenEqOne_closed {cond sql : Text} {vars : Vars}
    (result : fastPathIp4BetweenEqOne cond = some (sql, vars)) : VarsClosed given vars := by
  simp only [fastPathIp4BetweenEqOne, Option.bind_eq_bind, Option.bind_eq_some_iff] at result
  obtain ⟨call, _, inside, _, result⟩ := result
  split at result
  · cases result
    exact toSqlPiece_closed _ (toSqlPiece_closed _ (toSqlPiece_closed _ .none))
  · cases result

end FastPaths

def SqlFnArg.Closed (given : Bool) : SqlFnArg → Prop
  | .param accessor => accessor.Closed given
  | _ => True

/-- What becomes parameters when the accessor is printed. -/
def CondAccessor.ParamsClosed (given : Bool) : CondAccessor → Prop
  | .sqlFn _ args => ∀ arg ∈ args, arg.Closed given
  | accessor => accessor.Closed given

/-- Every comparison of the condition has the property. -/
def Each {C : Type} (holds : C → Prop) : Expression C → Prop
  | .compare cmp => holds cmp
  | .logic _ (some left) right => Each holds left ∧ Each holds right
  | .logic _ none right => Each holds right

section Printed

variable (atoms : Atoms PipeFun)

theorem toSqlAndParams_closed (name : String) {args : List SqlFnArg}
    (closed : ∀ arg ∈ args, arg.Closed given) :
    VarsClosed given (toSqlAndParams atoms name args).2 := by
  refine VarsClosed.none.extend (fun var member => ?_)
  obtain ⟨arg, inside, part⟩ := List.mem_flatMap.mp member
  cases arg with
  | column name => cases part
  | literal value => cases part
  | param accessor =>
    cases List.mem_singleton.mp part
    exact closed _ inside

theorem CompareExpress.argsTake_closed {cmp : CompareExpress} {sql : Text} {vars : Vars}
    (closed : cmp.right.ParamsClosed given) (printed : cmp.argsTake atoms = some (sql, vars)) :
    VarsClosed given vars := by
  obtain ⟨varName, op, right⟩ := cmp
  simp only [CompareExpress.argsTake, Option.bind_eq_bind, Option.bind_eq_some_iff] at printed
  obtain ⟨opSql, _, printed⟩ := printed
  cases right with
  | sqlFn name args =>
    cases printed
    exact toSqlAndParams_closed atoms name closed
  | tdc op =>
    cases printed
    exact VarsClosed.none.insert _ closed
  | builtin function =>
    cases printed
    exact VarsClosed.none.insert _ trivial
  | val value =>
    cases printed
    exact VarsClosed.none.insert _ trivial

theorem argsTake_closed {expr : Expression CompareExpress} {sql : Text} {vars : Vars}
    (closed : Each (fun cmp => cmp.right.ParamsClosed given) expr)
    (printed : argsTake atoms expr = some (sql, vars)) : VarsClosed given vars := by
  induction expr using argsTake.induct generalizing sql vars with
  | case1 cmp => exact cmp.argsTake_closed atoms closed printed
  | case2 left right ihLeft ihRight =>
    simp only [argsTake, Option.bind_eq_bind, Option.bind_eq_some_iff] at printed
    obtain ⟨⟨leftSql, leftVars⟩, first, ⟨rightSql, rightVars⟩, second, printed⟩ := printed
    cases printed
    exact (VarsClosed.none.extend (ihLeft closed.1 first)).extend (ihRight closed.2 second)
  | case3 left right ihLeft ihRight =>
    simp only [argsTake, Option.bind_eq_bind, Option.bind_eq_some_iff] at printed
    obtain ⟨⟨leftSql, leftVars⟩, first, ⟨rightSql, rightVars⟩, second, printed⟩ := printed
    cases printed
    exact (VarsClosed.none.extend (ihLeft closed.1 first)).extend (ihRight closed.2 second)
  | case4 left right ih =>
    simp only [argsTake, Option.bind_eq_bind, Option.bind_eq_some_iff] at printed
    obtain ⟨⟨rightSql, rightVars⟩, first, printed⟩ := printed
    cases printed
    cases left with
    | none => exact ih closed first
    | some left => exact ih closed.2 first
  | case5 op right other =>
    rw [argsTake] at printed
    · cases printed
    · exact other

end Printed

variable {atoms : Atoms PipeFun} {I : Text → Prop} {bad : Fail → Prop}

section Levels

variable (regular : atoms.Regular I bad) {C : Type} {S : LogicSymbols} {cmp : Parse C}
  {holds : C → Prop}

include regular

theorem word_spec (what : Text) : Keeps I bad (word what) := by
  intro text kept
  unfold word literal
  split
  · next rest found =>
    split at found
    · cases found
      exact ⟨regular.part (List.drop_suffix _ text).isInfix kept, trivial⟩
    · cases found
  · exact ⟨kept, regular.backtrack⟩

omit regular in
theorem stands_spec (what : Text) : Keeps I bad (stands what) := fun _ kept => ⟨kept, trivial⟩

omit regular in
theorem standsStop_spec (stop : Option Text) : Keeps I bad (standsStop stop) := by
  cases stop with
  | none => exact .pure trivial
  | some stop => exact stands_spec stop

theorem wordStop_spec (stop : Option Text) : Keeps I bad (wordStop stop) := by
  cases stop with
  | none => exact .pure trivial
  | some stop => exact word_spec regular stop

theorem endOf_spec {left : Option (Expression C)} (each : ∀ expr ∈ left, Each holds expr) :
    Spec I (endOf left) (Each holds) bad := by
  cases left with
  | none => exact .failWith regular.backtrack
  | some expr => exact .pure (each expr rfl)

omit regular in
theorem logic_each (op : LogicOperator) {left : Option (Expression C)} {right : Expression C}
    (first : ∀ expr ∈ left, Each holds expr) (second : Each holds right) :
    ∀ expr ∈ some (Expression.logic op left right), Each holds expr := by
  rintro expr ⟨⟩
  cases left with
  | none => exact second
  | some left => exact ⟨first left rfl, second⟩

/-- The four parsers of a condition, with so much fuel. -/
structure LevelsRead (S : LogicSymbols) (cmp : Parse C) (holds : C → Prop) (I : Text → Prop)
    (bad : Fail → Prop) (fuel : Nat) : Prop where
  lev2 : ∀ stop left, (∀ expr ∈ left, Each holds expr) →
    Spec I (sqlLev2Exp S cmp fuel stop left) (Each holds) bad
  lev0 : ∀ stop, Spec I (sqlLev0Exp S cmp fuel stop) (Each holds) bad
  lev1 : ∀ stop left, (∀ expr ∈ left, Each holds expr) →
    Spec I (sqlLev1Exp S cmp fuel stop left) (Each holds) bad
  group : Spec I (sqlGroupExp S cmp fuel) (Each holds) bad

theorem levels_spec (comparison : Spec I cmp holds bad) (fuel : Nat) :
    LevelsRead S cmp holds I bad fuel := by
  induction fuel with
  | zero =>
    have stops : Spec I (failWith .exhausted : Parse (Expression C)) (Each holds) bad :=
      .failWith regular.exhausted
    exact ⟨fun _ _ _ => stops, fun _ => stops, fun _ _ _ => stops, stops⟩
  | succ fuel ih =>
    have empty : Keeps I bad isEmptyText := fun _ kept => ⟨kept, trivial⟩
    have nothing : ∀ expr ∈ (none : Option (Expression C)), Each holds expr := by
      rintro expr ⟨⟩
    refine ⟨?lev2, ?lev0, ?lev1, ?group⟩
    case lev2 =>
      intro stop left each
      rw [sqlLev2Exp]
      refine regular.space.bind (fun _ _ => empty.bind (fun ended _ => ?_))
      split
      · exact endOf_spec regular each
      refine (standsStop_spec stop).bind (fun stopped _ => ?_)
      split
      · exact (wordStop_spec regular stop).bind (fun _ _ => endOf_spec regular each)
      refine (stands_spec _).bind (fun grouped _ => ?_)
      split
      · exact ih.group.bind (fun group met => ih.lev2 _ _ (by rintro expr ⟨⟩; exact met))
      refine (stands_spec _).bind (fun negated _ => ?_)
      split
      · exact (word_spec regular _).bind (fun _ _ => (ih.lev0 stop).bind (fun right met =>
          ih.lev2 _ _ (logic_each .not nothing met)))
      refine (stands_spec _).bind (fun joined _ => ?_)
      split
      · exact (word_spec regular _).bind (fun _ _ => (ih.lev1 stop none nothing).bind
          (fun right met => ih.lev2 _ _ (logic_each .and each met)))
      refine (stands_spec _).bind (fun split _ => ?_)
      split
      · exact (word_spec regular _).bind (fun _ _ => (ih.lev2 stop none nothing).bind
          (fun right met => ih.lev2 _ _ (logic_each .or each met)))
      · exact comparison.bind (fun found met => ih.lev2 _ _ (by rintro expr ⟨⟩; exact met))
    case lev0 =>
      intro stop
      rw [sqlLev0Exp]
      refine regular.space.bind (fun _ _ => empty.bind (fun ended _ => ?_))
      split
      · exact .failWith regular.backtrack
      refine (standsStop_spec stop).bind (fun stopped _ => ?_)
      split
      · exact (wordStop_spec regular stop).bind (fun _ _ => .failWith regular.backtrack)
      refine (stands_spec _).bind (fun grouped _ => ?_)
      split
      · exact ih.group
      · exact comparison.bind (fun found met => .pure met)
    case lev1 =>
      intro stop left each
      rw [sqlLev1Exp]
      refine regular.space.bind (fun _ _ => empty.bind (fun ended _ => ?_))
      split
      · exact endOf_spec regular each
      refine (standsStop_spec stop).bind (fun stopped _ => ?_)
      split
      · exact (wordStop_spec regular stop).bind (fun _ _ => endOf_spec regular each)
      refine (stands_spec _).bind (fun grouped _ => ?_)
      split
      · exact ih.group.bind (fun group met => ih.lev1 _ _ (by rintro expr ⟨⟩; exact met))
      refine (stands_spec _).bind (fun negated _ => ?_)
      split
      · exact (word_spec regular _).bind (fun _ _ => (ih.lev0 stop).bind (fun right met =>
          ih.lev1 _ _ (logic_each .not nothing met)))
      refine (stands_spec _).bind (fun joined _ => ?_)
      split
      · exact (word_spec regular _).bind (fun _ _ => (ih.lev1 stop none nothing).bind
          (fun right met => ih.lev1 _ _ (logic_each .and each met)))
      refine (stands_spec _).bind (fun split _ => ?_)
      split
      · exact endOf_spec regular each
      · exact comparison.bind (fun found met => ih.lev1 _ _ (by rintro expr ⟨⟩; exact met))
    case group =>
      rw [sqlGroupExp]
      exact regular.space.bind (fun _ _ => (word_spec regular _).bind (fun _ _ =>
        ih.lev2 _ none nothing))

end Levels

section Comparisons

variable (regular : atoms.Regular I bad) {symbols : List String}
  (known : symbols ≠ [] → given = true) (plain : DefaultsPlain atoms symbols I bad) (fuel : Nat)

include regular

theorem tempName_spec : Keeps I bad (tempName atoms) := by
  refine regular.takeVarName.bind (fun name _ => ?_)
  split
  · exact .pure trivial
  · exact .failWith regular.backtrack

theorem sqlTval_spec : Keeps I bad (do space; atoms.takeSqlTval : Parse Value) :=
  regular.space.bind (fun _ _ => regular.takeSqlTval)

theorem symbolSqlCmp_spec : Keeps I bad symbolSqlCmp := by
  have sign (what : String) (op : SqlCmpOperator) :
      Keeps I bad (do keyword what; return op : Parse SqlCmpOperator) :=
    (regular.keyword what).bind (fun _ _ => .pure trivial)
  exact (sign _ _).orElse ((sign _ _).orElse ((sign _ _).orElse ((sign _ _).orElse
    ((sign _ _).orElse (sign _ _)))))

include known plain

theorem sqlFnArg_spec : Spec I (sqlFnArg atoms symbols fuel)
    (fun found => ∀ arg ∈ found, arg.Closed given) bad := by
  refine (tryNext_spec (omlTdoGet_spec regular known plain fuel)).bind (fun found met => ?_)
  split
  · refine .pure ?_
    rintro arg ⟨⟩
    exact met _ rfl
  refine (tryNext_spec (tempName_spec regular)).bind (fun found _ => ?_)
  split
  · refine .pure ?_
    rintro arg ⟨⟩
    exact fromRead_closed _
  refine (tryNext_spec (sqlTval_spec regular)).bind (fun found _ => ?_)
  split
  · refine .pure ?_
    rintro arg ⟨⟩
    trivial
  refine regular.takeVarName.tried.bind (fun found _ => .pure ?_)
  intro arg member
  obtain ⟨name, _, rfl⟩ := Option.map_eq_some_iff.mp member
  trivial

theorem sqlFnArgs_spec (rounds : Nat) : Spec I (sqlFnArgs atoms symbols fuel rounds)
    (fun args => ∀ arg ∈ args, arg.Closed given) bad := by
  induction rounds with
  | zero => exact .failWith regular.exhausted
  | succ rounds ih =>
    refine regular.space.bind (fun _ _ => ?_)
    refine (sqlFnArg_spec regular known plain fuel).bind (fun arg met => ?_)
    have one : ∀ other ∈ arg.toList, other.Closed given := fun other member =>
      met other (Option.mem_toList.mp member)
    refine regular.space.bind (fun _ _ => (tryNext_spec (regular.symbol ")")).bind ?_)
    intro closing _
    split
    · exact .pure one
    refine (tryNext_spec (regular.symbol ",")).bind (fun comma _ => ?_)
    split
    · refine ih.bind (fun rest others => .pure (fun other member => ?_))
      rcases List.mem_append.mp member with first | later
      · exact one other first
      · exact others other later
    · exact (regular.symbol ")").bind (fun _ _ => .pure one)

theorem omlSqlFn_spec : Spec I (omlSqlFn atoms symbols fuel)
    (CondAccessor.ParamsClosed given) bad := by
  refine Spec.getText.bind (fun start kept => regular.takeVarName.bind (fun name _ => ?_))
  refine regular.space.bind (fun _ _ => (regular.symbol "(").tried.bind (fun found _ => ?_))
  split
  · exact (Spec.setText kept).bind (fun _ _ => .failWith regular.backtrack)
  · exact Spec.getText.bind (fun here _ => (sqlFnArgs_spec regular known plain fuel _).bind
      (fun args closed => .pure closed))

theorem omlCondAcq_spec : Spec I (omlCondAcq atoms symbols fuel)
    (CondAccessor.ParamsClosed given) bad := by
  refine (tryNext_spec (omlSqlFn_spec regular known plain fuel)).bind (fun found met => ?_)
  split
  · exact .pure (met _ rfl)
  refine (tryNext_spec (tempName_spec regular)).bind (fun found _ => ?_)
  split
  · exact .pure (fromRead_closed _)
  refine (tryNext_spec (omlTdoGet_spec regular known plain fuel)).bind (fun found met => ?_)
  split
  · exact .pure (met _ rfl)
  refine (tryNext_spec (omlFunItem_spec regular)).bind (fun found _ => ?_)
  split
  · exact .pure trivial
  refine (tryNext_spec (sqlTval_spec regular)).bind (fun found _ => ?_)
  split
  · exact .pure trivial
  · exact omlSqlFn_spec regular known plain fuel

omit known plain in
theorem flippedSide_spec {left : CondAccessor} (closed : left.ParamsClosed given) (op : SqlCmpOperator)
    (value : Option Value) : Spec I (match value with
      | some value => return ⟨renderSqlLiteral atoms value, op.flip, left⟩
      | none => do
        let name ← atoms.takeVarName
        let rest ← getText
        if peekStr ['('] (trimStart rest) then failWith .backtrack
        else return ⟨name.toList, op.flip, left⟩ : Parse CompareExpress)
      (fun cmp => cmp.right.ParamsClosed given) bad := by
  split
  · exact .pure closed
  · refine regular.takeVarName.bind (fun name _ => Spec.getText.bind (fun rest _ => ?_))
    split
    · exact .failWith regular.backtrack
    · exact .pure closed

theorem sqlCmpExp_spec : Spec I (sqlCmpExp atoms symbols fuel)
    (fun cmp => cmp.right.ParamsClosed given) bad := by
  have flipped : Spec I (cmpFlipped atoms symbols fuel)
      (fun cmp => cmp.right.ParamsClosed given) bad := by
    refine (omlCondAcq_spec regular known plain fuel).bind (fun left closed => ?_)
    refine (symbolSqlCmp_spec regular).bind (fun op _ => ?_)
    dsimp only
    split
    · exact (tryNext_spec (sqlTval_spec regular)).bind (fun value _ =>
        flippedSide_spec regular closed op value)
    · have absent : Keeps I bad (pure none : Parse (Option Value)) := .pure trivial
      exact absent.bind (fun value _ => flippedSide_spec regular closed op value)
  have canonical : Spec I (cmpCanonical atoms symbols fuel)
      (fun cmp => cmp.right.ParamsClosed given) bad :=
    regular.takeVarName.bind (fun name _ => (symbolSqlCmp_spec regular).bind (fun op _ =>
      (omlCondAcq_spec regular known plain fuel).bind (fun target closed => .pure closed)))
  refine (tryNext_spec flipped).bind (fun found met => ?_)
  split
  · exact .pure (met _ rfl)
  refine (tryNext_spec canonical).bind (fun found met => ?_)
  split
  · exact .pure (met _ rfl)
  · exact canonical

end Comparisons

theorem takeUntil_go (what text : Text) : (before rest : Text) → before.reverse ++ rest = text →
    (∃ piece after, takeUntil.go what text before rest = (.ok piece, after) ∧
      piece ++ after = text) ∨ takeUntil.go what text before rest = (.error .backtrack, text)
  | before, [], whole => by
    rw [takeUntil.go]
    split
    · exact .inl ⟨_, _, rfl, whole⟩
    · exact .inr rfl
  | before, c :: rest, whole => by
    rw [takeUntil.go]
    split
    · exact .inl ⟨_, _, rfl, whole⟩
    · exact takeUntil_go what text (c :: before) rest (by
        rw [List.reverse_cons, List.append_assoc]
        exact whole)

/-- The texts that a query is taken apart into. A condition is read after it is rewritten; a quote
    on its own, a name cut apart and an operator without a left side are what would panic. -/
structure QueriesPlain (atoms : Atoms PipeFun) (symbols : List String) (I : Text → Prop)
    (bad : Fail → Prop) : Prop where
  rewritten : ∀ cond other, I cond → rewriteLhsFnEqLiteral cond = some other → I other
  tail : ∀ raw tail, I raw → splitTailClauses raw = some tail → I tail.cond
  like : ∀ cond, I cond → fastPathLike cond = .error .panic → bad .panic
  printed : ∀ cond fuel expr rest, I cond →
    sqlLev2Exp sqlSymbol (sqlCmpExp atoms symbols fuel) (2 * cond.length + 2) (some [';']) none
      cond = (.ok expr, rest) → argsTake atoms expr = none → bad .panic
  body : ∀ fuel body, I body → sanitizeSqlBody fuel body = .error .panic → bad .panic

theorem fastPathLike_errors (cond : Text) (e : Fail) (result : fastPathLike cond = .error e) :
    e = .panic := by
  rcases fastPathLike_cases cond with plain | stuck | ⟨_, _, read, _⟩
  · rw [plain] at result
    cases result
  · rw [stuck] at result
    cases result
    rfl
  · rw [read] at result
    cases result

theorem sourceAlias_errors (remainder : Text) (e : Fail)
    (result : sourceAlias remainder = .error e) : e = .panic := by
  unfold sourceAlias at result
  dsimp only at result
  split at result
  · cases result
  split at result
  · split at result
    · cases result
      rfl
    · split at result
      · split at result <;> cases result
      · split at result <;> cases result
  · split at result <;> cases result

/-- The three checks of a query, with so much fuel: each of their failures is one of two. -/
structure SanitizeErrors (fuel : Nat) : Prop where
  body : ∀ body e, sanitizeSqlBody fuel body = .error e → e = .panic ∨ e = .exhausted
  source : ∀ source e, sanitizeFromSource fuel source = .error e → e = .panic ∨ e = .exhausted
  stmt : ∀ stmt e, sanitizeSelectStmt fuel stmt = .error e → e = .panic ∨ e = .exhausted

theorem sanitize_errors (fuel : Nat) : SanitizeErrors fuel := by
  induction fuel with
  | zero =>
    exact ⟨fun _ _ result => by cases result; exact .inr rfl,
      fun _ _ result => by cases result; exact .inr rfl,
      fun _ _ result => by cases result; exact .inr rfl⟩
  | succ fuel ih =>
    refine ⟨?body, ?source, ?stmt⟩
    case body =>
      intro body e result
      rw [sanitizeSqlBody] at result
      split at result
      · cases result
      rcases bind_error result with inside | ⟨found, _, result⟩
      · exact ih.source _ e inside
      cases found with
      | none => cases result
      | some tableName =>
        dsimp only at result
        split at result
        · cases result
        · split at result <;> cases result
    case source =>
      intro source e result
      rw [sanitizeFromSource] at result
      split at result
      · cases result
      split at result
      · cases result
      split at result
      · cases result
      split at result
      · cases result
      rcases bind_error result with named | ⟨name, _, result⟩
      · exact .inl (sourceAlias_errors _ e named)
      cases name with
      | none => cases result
      | some name =>
        rcases bind_error result with inside | ⟨found, _, result⟩
        · exact ih.stmt _ e inside
        cases found with
        | none => cases result
        | some inner => cases name <;> cases result
    case stmt =>
      intro stmt e result
      rw [sanitizeSelectStmt] at result
      split at result
      · rcases bind_error result with inside | ⟨found, _, result⟩
        · exact ih.body _ e inside
        cases found <;> cases result
      · cases result

section Query

variable (regular : atoms.Regular I bad) {symbols : List String} {strict : Bool}
  (known : symbols ≠ [] → given = true) (plain : DefaultsPlain atoms symbols I bad)
  (queries : QueriesPlain atoms symbols I bad) (fuel : Nat)

include regular

theorem takeUntil_spec (what : Text) : Spec I (takeUntil what) I bad := by
  intro text kept
  unfold takeUntil
  rcases takeUntil_go what text [] text rfl with ⟨piece, after, result, whole⟩ | result
  · rw [result]
    subst whole
    exact ⟨regular.part (List.suffix_append piece after).isInfix kept,
      regular.part (List.prefix_append piece after).isInfix kept⟩
  · rw [result]
    exact ⟨kept, regular.backtrack⟩

theorem keywordNoCase_spec (what : String) : Keeps I bad (keywordNoCase what) := by
  have word : Keeps I bad (fun text => if startsWithNoCase what.toList text then
      (.ok (), text.drop what.length) else (.error .backtrack, text) : Parse Unit) := by
    intro text kept
    beta_reduce
    split
    · exact ⟨regular.part (List.drop_suffix _ text).isInfix kept, trivial⟩
    · exact ⟨kept, regular.backtrack⟩
  exact regular.space.bind (fun _ _ => word)

include known plain queries

theorem genericWhere_spec {cond : Text} (kept : I cond) : Spec I (genericWhere atoms symbols fuel cond)
    (fun found => VarsClosed given found.2) bad := by
  have levels := (levels_spec regular (S := sqlSymbol) (sqlCmpExp_spec regular known plain fuel)
    (2 * cond.length + 2)).lev2 (some [';']) none (by rintro expr ⟨⟩)
  have met := levels cond kept
  intro text left
  unfold genericWhere
  rw [bind_run, onText]
  cases result : sqlLev2Exp sqlSymbol (sqlCmpExp atoms symbols fuel) (2 * cond.length + 2)
    (some [';']) none cond with
  | mk found rest =>
    rw [result] at met
    cases found with
    | error e => exact ⟨left, met.2⟩
    | ok expr =>
      dsimp only
      cases printed : argsTake atoms expr with
      | none => exact ⟨left, queries.printed cond fuel expr rest kept result printed⟩
      | some found => exact ⟨left, argsTake_closed atoms met.2 printed⟩

omit regular known plain queries in
theorem liftExcept_spec {A : Type} {result : Except Fail A} {good : A → Prop}
    (ok : ∀ a, result = .ok a → good a) (fails : ∀ e, result = .error e → bad e) :
    Spec I (liftExcept result) good bad := by
  cases result with
  | ok a => exact .pure (ok a rfl)
  | error e => exact .failWith (fails e rfl)

omit known plain in
theorem safeBody_spec {body : Text} (kept : I body) : Keeps I bad (safeBody strict body) := by
  refine (liftExcept_spec (fun _ _ => trivial) (fun e result => ?_)).bind (fun found _ => ?_)
  · rcases (sanitize_errors _).body body e result with rfl | rfl
    · exact queries.body _ body kept result
    · exact regular.exhausted
  · split
    · exact .pure trivial
    · split
      · exact .failWith regular.backtrack
      · exact .pure trivial

/-- The parameters of a query, by whichever of the four ways its condition is read. -/
theorem omlSql_spec : Spec I (omlSql atoms symbols strict fuel) (SqlQuery.Closed given) bad := by
  refine (keywordNoCase_spec regular _).bind (fun _ _ => ?_)
  refine (takeUntil_spec regular _).bind (fun body inBody => ?_)
  refine (keywordNoCase_spec regular _).bind (fun _ _ => ?_)
  refine (takeUntil_spec regular _).bind (fun raw inRaw => ?_)
  split
  · exact .failWith regular.backtrack
  next tail cut =>
  have kept : I ((rewriteLhsFnEqLiteral tail.cond).getD tail.cond) := by
    cases other : rewriteLhsFnEqLiteral tail.cond with
    | none => exact queries.tail raw tail inRaw cut
    | some cond => exact queries.rewritten _ cond (queries.tail raw tail inRaw cut) other
  dsimp only
  split
  · next sql vars found => exact .pure (fastPathIp4BetweenEqOne_closed found)
  split
  · next sql vars found => exact .pure (fastPathInList_closed found)
  refine (liftExcept_spec (fun found result => result) (fun e result => ?_)).bind
    (fun found result => ?_)
  · cases fastPathLike_errors _ e result
    exact queries.like _ kept result
  split
  · exact .pure (fastPathLike_closed result)
  · refine (genericWhere_spec regular known plain queries fuel kept).bind (fun found closed => ?_)
    exact (safeBody_spec regular queries inBody).bind (fun _ _ => .pure closed)

end Query

end WarpMotor.Oml
