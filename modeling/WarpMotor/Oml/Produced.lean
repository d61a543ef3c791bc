import WarpMotor.Oml.Closed

/-!
What the parsers of an object model produce. The expressions are of the kinds
that their position allows, every match is in shape, and references occur only
when the static block has names. `I` is kept on every text that is left or
parsed on its own, so that what a text does not contain is never met; `bad`
holds of every failure.
-/
namespace WarpMotor.Oml

open Parsing

variable {PipeFun : Type}

/-- A parser of which only the text and the failures matter. -/
abbrev Keeps {A : Type} (I : Text → Prop) (bad : Fail → Prop) (p : Parse A) : Prop :=
  Spec I p (fun _ => True) bad

/-- The parsers from elsewhere keep `I`, which goes over to every part of a text. -/
structure Atoms.Regular (atoms : Atoms PipeFun) (I : Text → Prop) (bad : Fail → Prop) : Prop where
  part : ∀ {part text : Text}, part <:+: text → I text → I part
  backtrack : bad .backtrack
  cut : bad .cut
  exhausted : bad .exhausted
  symbol : ∀ what, Keeps I bad (atoms.symbol what)
  takeVarName : Keeps I bad atoms.takeVarName
  takeWildKey : Keeps I bad atoms.takeWildKey
  takeObjPath : Keeps I bad atoms.takeObjPath
  takeKey : Keeps I bad atoms.takeKey
  takeKeyPair : Keeps I bad atoms.takeKeyPair
  takeJsonPath : Keeps I bad atoms.takeJsonPath
  takeParenthesesVal : Keeps I bad atoms.takeParenthesesVal
  takeDatatype : Keeps I bad atoms.takeDatatype
  fieldIns : ∀ info val, Keeps I bad (atoms.fieldIns info val)
  takeSqlTval : Keeps I bad atoms.takeSqlTval
  quotStr : Keeps I bad atoms.quotStr
  peekStr : ∀ what, Keeps I bad (atoms.peekStr what)
  getScope : ∀ left right, Spec I (atoms.getScope left right) I bad
  pipeFun : Keeps I bad atoms.pipeFun

/-- Nothing is asked of a text or a failure. -/
theorem Atoms.regular_all (atoms : Atoms PipeFun) :
    atoms.Regular (fun _ => True) (fun _ => True) := by
  have any {A : Type} {good : A → Prop} (always : ∀ a, good a) (p : Parse A) :
      Spec (fun _ => True) p good (fun _ => True) := by
    intro text _
    refine ⟨trivial, ?_⟩
    cases result : (p text).1 with
    | ok a => exact always a
    | error e => exact trivial
  exact ⟨fun _ _ => trivial, trivial, trivial, trivial, fun _ => any (fun _ => trivial) _,
    any (fun _ => trivial) _, any (fun _ => trivial) _, any (fun _ => trivial) _,
    any (fun _ => trivial) _, any (fun _ => trivial) _, any (fun _ => trivial) _,
    any (fun _ => trivial) _, any (fun _ => trivial) _, fun _ _ => any (fun _ => trivial) _,
    any (fun _ => trivial) _, any (fun _ => trivial) _, fun _ => any (fun _ => trivial) _,
    fun _ _ => any (fun _ => trivial) _, any (fun _ => trivial) _⟩

theorem dropWhile_part (keep : Char → Bool) (text : Text) : text.dropWhile keep <:+: text :=
  (List.dropWhile_suffix keep).isInfix

theorem trimText_part (text : Text) : trimText text <:+: text := by
  have tail : trimText text <+: trimStart text := by
    rw [trimText, ← List.reverse_suffix, List.reverse_reverse]
    exact List.dropWhile_suffix _
  exact tail.isInfix.trans (dropWhile_part isWhite text)

variable {atoms : Atoms PipeFun} {I : Text → Prop} {bad : Fail → Prop}

namespace Atoms.Regular

variable (regular : atoms.Regular I bad)

include regular

theorem space : Keeps I bad space :=
  fun text kept => ⟨regular.part (dropWhile_part isSpace text) kept, trivial⟩

theorem lit (what : String) : Keeps I bad (lit what) := by
  intro text kept
  unfold Oml.lit literal
  split
  · next rest found =>
    split at found
    · cases found
      exact ⟨regular.part (List.drop_suffix _ text).isInfix kept, trivial⟩
    · cases found
  · exact ⟨kept, regular.backtrack⟩

theorem keyword (what : String) : Keeps I bad (keyword what) :=
  regular.space.bind (fun _ _ => regular.lit what)

theorem takeWhile1 (keep : Char → Bool) : Keeps I bad (takeWhile1 keep) := by
  intro text kept
  unfold Oml.takeWhile1
  split
  · exact ⟨kept, regular.backtrack⟩
  · exact ⟨regular.part (dropWhile_part keep text) kept, trivial⟩

theorem whole {A : Type} {good : A → Prop} {code : Text} {p : Parse A} {left : Fail}
    (kept : I code) (holds : Spec I p good bad) (fails : bad left) :
    Spec I (whole code p left) good bad := by
  have read : Spec I (do let a ← p; Oml.space; return a : Parse A) good bad :=
    holds.bind (fun a met => regular.space.bind (fun _ _ => .pure met))
  refine (read.onText kept).bind (fun result met => ?_)
  dsimp only
  split
  · exact .pure met.1
  · exact .failWith fails

end Atoms.Regular

theorem tryNext_spec {A : Type} {good : A → Prop} {p : Parse A} (holds : Spec I p good bad) :
    Spec I (tryNext p) (fun found => ∀ a ∈ found, good a) bad := by
  refine Spec.getText.bind (fun here kept => ?_)
  refine holds.tried.bind (fun found met => ?_)
  cases found with
  | some a => exact .pure met
  | none => exact (Spec.setText kept).bind (fun _ _ => .pure (by rintro a ⟨⟩))

section Reading

variable (regular : atoms.Regular I bad)

include regular

theorem omlValue_spec : Keeps I bad (omlValue atoms) :=
  regular.takeDatatype.bind (fun info _ =>
    regular.takeParenthesesVal.bind (fun val _ => regular.fieldIns info val))

theorem omlAgaValue_spec :
    Spec I (omlAgaValue atoms) (fun eval => ∃ field, eval = .obj field) bad :=
  (omlValue_spec regular).bind (fun field _ => .pure ⟨field, rfl⟩)

theorem omlSqlRaw_spec :
    Spec I (omlSqlRaw atoms) (fun eval => ∃ value, eval = .val value) bad :=
  regular.space.bind (fun _ _ => regular.takeSqlTval.bind (fun value _ => .pure ⟨value, rfl⟩))

theorem omlFunItem_spec : Keeps I bad (omlFunItem atoms) := by
  have word (what : String) (function : BuiltinFunction) :
      Keeps I bad (do lit what; return function : Parse BuiltinFunction) :=
    (regular.lit what).bind (fun _ _ => .pure trivial)
  refine regular.space.bind (fun _ _ => ?_)
  refine ((word _ _).orElse ((word _ _).orElse (word _ _))).bind (fun function _ => ?_)
  exact (regular.getScope '(' ')').tried.bind (fun _ _ => .pure trivial)

theorem omlGwFun_spec :
    Spec I (omlGwFun atoms) (fun eval => ∃ function, eval = .builtin function) bad :=
  (omlFunItem_spec regular).bind (fun function _ => .pure ⟨function, rfl⟩)

theorem omlArgs_spec : Keeps I bad (omlArgs atoms) := by
  have option : Keeps I bad (do
      return ("option", String.ofList (← omlArgsOption atoms)) : Parse (String × String)) :=
    ((regular.keyword _).bind (fun _ _ => (regular.symbol ":").bind (fun _ _ =>
      regular.getScope '[' ']'))).bind (fun _ _ => .pure trivial)
  have keys : Keeps I bad (do
      return ("in", String.ofList (← omlArgsIn atoms)) : Parse (String × String)) :=
    (((regular.keyword _).orElse (regular.keyword _)).bind (fun _ _ =>
      (regular.symbol ":").bind (fun _ _ => regular.getScope '[' ']'))).bind
        (fun _ _ => .pure trivial)
  have get : Keeps I bad (do
      return ("get", ← atoms.takeJsonPath) : Parse (String × String)) :=
    regular.takeJsonPath.bind (fun _ _ => .pure trivial)
  refine (option.orElse (keys.orElse (regular.takeKeyPair.orElse get))).bind (fun arg _ => ?_)
  exact (regular.symbol ",").opt.bind (fun _ _ => .pure trivial)

theorem readArgs_spec : Keeps I bad (readArgs atoms) := by
  refine (regular.getScope '(' ')').bind (fun code kept => ?_)
  have args := (omlArgs_spec regular).many regular.exhausted regular.cut
  refine (regular.whole kept args regular.cut).bind (fun args _ => ?_)
  split
  · exact .pure trivial
  · exact .failWith regular.backtrack

/-- An accessor as it is read has no default of its own. -/
theorem omlVarGet_spec : Spec I (omlVarGet atoms) (fun accessor => accessor.default = none) bad := by
  have reference : Spec I (omlVarGetRef atoms) (fun accessor => accessor.default = none) bad :=
    (regular.keyword "@").bind (fun _ _ => regular.space.bind (fun _ _ =>
      regular.takeVarName.bind (fun _ _ => .pure rfl)))
  have take : Spec I (omlTake atoms) (fun accessor => accessor.default = none) bad :=
    (regular.keyword "take").bind (fun _ _ => (readArgs_spec regular).bind (fun _ _ => .pure rfl))
  have read : Spec I (omlRead atoms) (fun accessor => accessor.default = none) bad :=
    (regular.keyword "read").bind (fun _ _ => (readArgs_spec regular).bind (fun _ _ => .pure rfl))
  exact reference.orElse (take.orElse read)

end Reading

theorem DirectAccessor.Closed.of_default {accessor : DirectAccessor}
    (none : accessor.default = none) (given : Bool) : accessor.Closed given := by
  intro default member
  rw [none] at member
  cases member

section Given

variable (regular : atoms.Regular I bad) {symbols : List String} {given : Bool}
  (known : symbols ≠ [] → given = true)

include regular

theorem parseStaticValue_spec (known : symbols ≠ [] → given = true) :
    Spec I (parseStaticValue atoms symbols)
      (fun eval => ∃ symbol, eval = .staticSymbol symbol ∧ given = true) bad := by
  have name : Keeps I bad (do space; atoms.takeVarName : Parse String) :=
    regular.space.bind (fun _ _ => regular.takeVarName)
  intro text kept
  have met := name text kept
  unfold parseStaticValue
  split
  · next name rest result =>
    rw [result] at met
    split
    · next member =>
      refine ⟨met.1, name, rfl, known ?_⟩
      rintro rfl
      cases member
    · exact ⟨kept, regular.backtrack⟩
  · next e rest result =>
    rw [result] at met
    split
    · exact ⟨kept, regular.backtrack⟩
    · exact met

end Given

/-- No default is an accessor, unless a panic is among what may happen. -/
def DefaultsPlain (atoms : Atoms PipeFun) (symbols : List String) (I : Text → Prop)
    (bad : Fail → Prop) : Prop :=
  ∀ fuel text op rest, I text →
    (do
      atoms.symbol "_"
      atoms.symbol ":"
      omlTdoGet atoms symbols fuel : Parse RecordOperation) text = (.ok op, rest) → bad .panic

/-- What a default can be, besides an accessor. -/
def PreciseEvaluator.IsGeneric (given : Bool) : PreciseEvaluator PipeFun → Prop
  | .builtin _ | .obj _ => True
  | .staticSymbol _ => given = true
  | _ => False

section Defaults

variable (regular : atoms.Regular I bad) {symbols : List String} {given : Bool}
  (known : symbols ≠ [] → given = true)

include regular known

theorem genericKinds_spec : Spec I
    (alt [omlGwFun atoms, omlAgaValue atoms, parseStaticValue atoms symbols])
    (PreciseEvaluator.IsGeneric given) bad := by
  have function : Spec I (omlGwFun atoms : Parse (PreciseEvaluator PipeFun)) (·.IsGeneric given)
      bad := (omlGwFun_spec regular).imp (by rintro _ ⟨function, rfl⟩; exact trivial)
  have value : Spec I (omlAgaValue atoms : Parse (PreciseEvaluator PipeFun)) (·.IsGeneric given)
      bad := (omlAgaValue_spec regular).imp (by rintro _ ⟨field, rfl⟩; exact trivial)
  have reference : Spec I (parseStaticValue atoms symbols) (PreciseEvaluator.IsGeneric given) bad :=
    (parseStaticValue_spec regular known).imp (by rintro _ ⟨symbol, rfl, met⟩; exact met)
  exact function.orElse (value.orElse reference)

omit regular known in
theorem intoGeneric_spec {eval : PreciseEvaluator PipeFun} (kind : eval.IsGeneric given) :
    Spec I (intoGeneric eval) (fun default => default.Closed given) bad := by
  cases eval with
  | builtin function => exact .pure trivial
  | obj field => exact .pure trivial
  | staticSymbol symbol => exact .pure kind
  | _ => exact kind.elim

/-- Behind the colon of a default. -/
theorem omlGensAcq_spec {fuel : Nat} {text : Text} (kept : I text)
    (tdo : Spec I (omlTdoGet atoms symbols fuel) (fun op => op.Closed given) bad)
    (plain : ∀ op rest, omlTdoGet atoms symbols fuel text = (.ok op, rest) → bad .panic) :
    I (omlGensAcq atoms symbols (fuel + 1) text).2 ∧
      Meets (fun default => default.Closed given) bad
        (omlGensAcq atoms symbols (fuel + 1) text).1 := by
  have other : Spec I (do
      let gw ← alt [omlGwFun atoms, omlAgaValue atoms, parseStaticValue atoms symbols]
      let _ ← opt (atoms.symbol ";")
      intoGeneric gw) (fun default => default.Closed given) bad :=
    (genericKinds_spec regular known).bind (fun gw kind =>
      (regular.symbol ";").opt.bind (fun _ _ => intoGeneric_spec kind))
  have met := tdo text kept
  rw [omlGensAcq]
  cases result : omlTdoGet atoms symbols fuel text with
  | mk found rest =>
    rw [result] at met
    cases found with
    | ok op =>
      -- an accessor is read, and no default is made of it
      have stops : Spec I (do
          let _ ← opt (atoms.symbol ";")
          intoGeneric (.tdc op : PreciseEvaluator PipeFun)) (fun default => default.Closed given)
          bad := (regular.symbol ";").opt.bind (fun _ _ => .failWith (plain op rest result))
      have first : (alt [(do return .tdc (← omlTdoGet atoms symbols fuel)), omlGwFun atoms,
          omlAgaValue atoms, parseStaticValue atoms symbols]) text =
            (.ok (.tdc op : PreciseEvaluator PipeFun), rest) := by
        simp only [alt, orElse, bind_run, result]
        rfl
      rw [bind_run, first]
      exact stops rest met.1
    | error e =>
      by_cases next : e = .backtrack
      · have first : (alt [(do return .tdc (← omlTdoGet atoms symbols fuel)), omlGwFun atoms,
            omlAgaValue atoms, parseStaticValue atoms symbols] :
              Parse (PreciseEvaluator PipeFun)) text =
            alt [omlGwFun atoms, omlAgaValue atoms, parseStaticValue atoms symbols] text := by
          subst next
          simp only [alt, orElse, bind_run, result]
        rw [bind_run, first]
        exact other text kept
      · have first : (alt [(do return .tdc (← omlTdoGet atoms symbols fuel)), omlGwFun atoms,
            omlAgaValue atoms, parseStaticValue atoms symbols] :
              Parse (PreciseEvaluator PipeFun)) text = (.error e, rest) := by
          cases e with
          | backtrack => exact absurd rfl next
          | cut => simp only [alt, orElse, bind_run, result]
          | panic => simp only [alt, orElse, bind_run, result]
          | exhausted => simp only [alt, orElse, bind_run, result]
        rw [bind_run, first]
        exact met

theorem omlDefault_spec (plain : DefaultsPlain atoms symbols I bad) {fuel : Nat}
    (tdo : Spec I (omlTdoGet atoms symbols fuel) (fun op => op.Closed given) bad) :
    Spec I (omlDefault atoms symbols (fuel + 2)) (fun default => default.Closed given) bad := by
  intro text kept
  have underscore := regular.symbol "_" text kept
  rw [omlDefault, bind_run]
  split
  · next a rest first =>
    rw [first] at underscore
    have colon := regular.symbol ":" rest underscore.1
    rw [bind_run]
    split
    · next b last second =>
      rw [second] at colon
      refine omlGensAcq_spec regular known colon.1 tdo (fun op after result => ?_)
      refine plain fuel text op after kept ?_
      rw [bind_run, first]
      dsimp only
      rw [bind_run, second]
      exact result
    · next e last second =>
      rw [second] at colon
      exact colon
  · next e rest first =>
    rw [first] at underscore
    exact underscore

omit regular known in
theorem peekOne_spec : Keeps I bad peekOne := fun _ kept => ⟨kept, trivial⟩

/-- An accessor and, in braces, what stands for its value when there is none. -/
theorem omlTdoGet_spec (plain : DefaultsPlain atoms symbols I bad) (fuel : Nat) :
    Spec I (omlTdoGet atoms symbols fuel) (fun op => op.Closed given) bad := by
  -- a default is read by the parser of its position with three units of fuel less
  have exhausted {A : Type} {good : A → Prop} : Spec I (failWith .exhausted : Parse A) good bad :=
    .failWith regular.exhausted
  induction fuel using Nat.strongRecOn with
  | ind fuel ih =>
    cases fuel with
    | zero => exact exhausted
    | succ fuel =>
      have body : Spec I (omlDefaultBody atoms symbols fuel) (fun default => default.Closed given)
          bad := by
        match fuel with
        | 0 => exact exhausted
        | fuel + 1 =>
          have default : Spec I (omlDefault atoms symbols fuel)
              (fun default => default.Closed given) bad := by
            match fuel with
            | 0 => exact exhausted
            | 1 =>
              rw [omlDefault]
              exact (regular.symbol "_").bind (fun _ _ => (regular.symbol ":").bind
                (fun _ _ => exhausted))
            | fuel + 2 => exact omlDefault_spec regular known plain (ih fuel (by omega))
          rw [omlDefaultBody]
          exact (regular.symbol "\x7b").bind (fun _ _ => default.bind (fun _ closed =>
            (regular.symbol "\x7d").bind (fun _ _ => .pure closed)))
      rw [omlTdoGet]
      refine (omlVarGet_spec regular).bind (fun datGet direct => ?_)
      have closed := DirectAccessor.Closed.of_default direct given
      refine regular.space.bind (fun _ _ => peekOne_spec.bind (fun next _ => ?_))
      split
      · refine body.bind (fun default met => .pure ⟨closed, ?_⟩)
        rintro other ⟨⟩
        exact met
      · refine .pure ⟨closed, ?_⟩
        rintro other ⟨⟩

end Defaults

section Operations

variable (regular : atoms.Regular I bad)

include regular

theorem omlAgaCollect_spec (given : Bool) : Spec I (omlAgaCollect atoms)
    (fun eval => ∃ datCrate, eval = .collect datCrate ∧ datCrate.Closed given) bad := by
  refine ((regular.keyword "collect").bind (fun _ _ => omlVarGet_spec regular)).bind ?_
  exact fun datCrate direct => .pure ⟨datCrate, rfl, .of_default direct given⟩

theorem omlAccessDirect_spec :
    Spec I (omlAccessDirect atoms) AccessDirectOperation.Closed bad := by
  have sources : Spec I (do
      let src ← omlVarGet atoms
      atoms.symbol ","
      let dst ← omlVarGet atoms
      return ⟨src, dst⟩ : Parse AccessDirectOperation) AccessDirectOperation.Closed bad := by
    refine (omlVarGet_spec regular).bind (fun src first => ?_)
    refine (regular.symbol ",").bind (fun _ _ => ?_)
    refine (omlVarGet_spec regular).bind (fun dst second => ?_)
    exact .pure ⟨.of_default first false, .of_default second false⟩
  refine regular.space.bind (fun _ _ => (regular.lit _).bind (fun _ _ => ?_))
  exact (regular.getScope '(' ')').bind (fun _ kept =>
    regular.whole kept sources regular.backtrack)

theorem omlAgaAccessDirect_spec : Spec I (omlAgaAccessDirect atoms)
    (fun eval : PreciseEvaluator PipeFun => ∃ op, eval = .accessDirect op ∧ op.Closed) bad :=
  (omlAccessDirect_spec regular).bind (fun op closed => .pure ⟨op, rfl, closed⟩)

theorem omlAgaFmt_spec (given : Bool) : Spec I (omlAgaFmt atoms)
    (fun eval => ∃ op, eval = .fmt op ∧ op.Closed given) bad := by
  have item : Spec I (omlArgItem atoms) (fun sub => sub.Closed given) bad := by
    refine (regular.symbol ",").bind (fun _ _ => (omlVarGet_spec regular).bind ?_)
    refine fun datGet direct => .pure ⟨.of_default direct given, ?_⟩
    rintro default ⟨⟩
  have fmt : Spec I (omlFmtItem atoms) (fun op => op.Closed given) bad := by
    refine regular.space.bind (fun _ _ => (regular.keyword "fmt").bind (fun _ _ => ?_))
    refine regular.space.bind (fun _ _ => (regular.lit "(").bind (fun _ _ => ?_))
    refine regular.space.bind (fun _ _ => (regular.getScope '"' '"').bind (fun _ _ => ?_))
    refine (item.many1 regular.exhausted regular.cut).bind (fun args closed => ?_)
    refine regular.space.bind (fun _ _ => (regular.lit ")").bind (fun _ _ => ?_))
    refine regular.space.bind (fun _ _ => (regular.getScope '(' ')').tried.bind ?_)
    exact fun _ _ => .pure closed.2
  exact fmt.bind (fun op closed => .pure ⟨op, rfl, closed⟩)

theorem consumeSymbol_spec (symbol : Char) : Keeps I bad (consumeSymbol symbol) := by
  intro text kept
  unfold consumeSymbol
  split
  · next c rest behind =>
    split
    · have tail : rest <:+: text :=
        (List.suffix_cons c rest).isInfix.trans (behind ▸ dropWhile_part isWhite text)
      exact ⟨regular.part tail kept, trivial⟩
    · exact ⟨kept, trivial⟩
  · exact ⟨kept, trivial⟩

theorem consumeOp_spec (ops : List (Char × CalcOp)) : Keeps I bad (consumeOp ops) := by
  induction ops with
  | nil => exact .pure trivial
  | cons op rest ih =>
    obtain ⟨symbol, op⟩ := op
    refine (consumeSymbol_spec regular symbol).bind (fun found _ => ?_)
    split
    · exact .pure trivial
    · exact ih

omit regular in
theorem parseI64_unsigned {digits : Text} {number : Int} (read : parseI64 digits = some number) :
    (CalcNumber.digit number).Unsigned := by
  unfold parseI64 at read
  split at read
  · obtain rfl := Option.some.inj read
    exact ⟨Int.natCast_nonneg _, by omega⟩
  · cases read

theorem numberText_spec : Spec I (do
    let digits ← digit1
    match ← peekOne with
    | some '.' =>
      lit "."
      let frac ← digit1
      match atoms.parseFloat (String.ofList (digits ++ '.' :: frac)) with
      | some bits => return .float bits
      | none => failWith .backtrack
    | _ =>
      match parseI64 digits with
      | some number => return .digit number
      | none => failWith .backtrack : Parse CalcNumber) CalcNumber.Unsigned bad := by
  refine (regular.takeWhile1 _).bind (fun digits _ => peekOne_spec.bind (fun next _ => ?_))
  split
  · refine (regular.lit ".").bind (fun _ _ => (regular.takeWhile1 _).bind (fun frac _ => ?_))
    split
    · exact .pure trivial
    · exact .failWith regular.backtrack
  · split
    · next number read => exact .pure (parseI64_unsigned read)
    · exact .failWith regular.backtrack

theorem parseNumber_spec : Spec I (parseNumber atoms) CalcNumber.Unsigned bad :=
  fun text kept => numberText_spec regular _ (regular.part (dropWhile_part isWhite text) kept)

/-- A property of expressions that passes from the parts to the whole, of whatever the
parsers of a number and of an accessor give. -/
structure CalcBuilt (atoms : Atoms PipeFun) (I : Text → Prop) (bad : Fail → Prop)
    (good : CalcExpr → Prop) : Prop where
  number : Spec I (parseNumber atoms) (fun number => good (.const number)) bad
  accessor : Spec I (omlVarGet atoms) (fun accessor => good (.accessor accessor)) bad
  unaryNeg : ∀ inner, good inner → good (.unaryNeg inner)
  binary : ∀ op lhs rhs, good lhs → good rhs → good (.binary op lhs rhs)
  func : ∀ function arg, good arg → good (.func function arg)

/-- The seven parsers of an arithmetic expression, with so much fuel. -/
structure CalcRead (atoms : Atoms PipeFun) (good : CalcExpr → Prop) (I : Text → Prop)
    (bad : Fail → Prop) (fuel : Nat) : Prop where
  expr : Spec I (parseExpr atoms fuel) good bad
  addLoop : ∀ first, good first → Spec I (addLoop atoms fuel first) good bad
  mul : Spec I (parseMul atoms fuel) good bad
  mulLoop : ∀ first, good first → Spec I (mulLoop atoms fuel first) good bad
  unary : Spec I (parseUnary atoms fuel) good bad
  primary : Spec I (parsePrimary atoms fuel) good bad
  function : Spec I (parseCalcFun atoms fuel) good bad

theorem calc_built {good : CalcExpr → Prop} (built : CalcBuilt atoms I bad good) (fuel : Nat) :
    CalcRead atoms good I bad fuel := by
  induction fuel with
  | zero =>
    have stops : Spec I (failWith .exhausted : Parse CalcExpr) good bad :=
      .failWith regular.exhausted
    exact ⟨stops, fun _ _ => stops, stops, fun _ _ => stops, stops, stops, stops⟩
  | succ fuel ih =>
    refine ⟨?expr, ?addLoop, ?mul, ?mulLoop, ?unary, ?primary, ?function⟩
    case expr =>
      rw [parseExpr]
      exact ih.mul.bind ih.addLoop
    case addLoop =>
      intro first held
      rw [addLoop]
      refine (consumeOp_spec regular _).bind (fun op _ => ?_)
      cases op with
      | none => exact .pure held
      | some op =>
        exact ih.mul.bind (fun next met => ih.addLoop _ (built.binary op first next held met))
    case mul =>
      rw [parseMul]
      exact ih.unary.bind ih.mulLoop
    case mulLoop =>
      intro first held
      rw [mulLoop]
      refine (consumeOp_spec regular _).bind (fun op _ => ?_)
      cases op with
      | none => exact .pure held
      | some op =>
        exact ih.unary.bind (fun next met => ih.mulLoop _ (built.binary op first next held met))
    case unary =>
      rw [parseUnary]
      refine (consumeSymbol_spec regular '-').bind (fun negated _ => ?_)
      split
      · exact ih.unary.bind (fun inner met => .pure (built.unaryNeg inner met))
      · exact ih.primary
    case primary =>
      rw [parsePrimary]
      refine regular.space.bind (fun _ _ => peekOne_spec.bind (fun next _ => ?_))
      split
      · exact (regular.getScope '(' ')').bind (fun _ kept =>
          regular.whole kept ih.expr regular.backtrack)
      · refine Spec.getText.bind (fun here kept => ih.function.tried.bind (fun found met => ?_))
        cases found with
        | some expr => exact .pure (met expr rfl)
        | none =>
          refine (Spec.setText kept).bind (fun _ _ => built.accessor.tried.bind ?_)
          intro found met
          cases found with
          | some accessor => exact .pure (met accessor rfl)
          | none =>
            exact (Spec.setText kept).bind (fun _ _ => built.number.bind (fun _ met => .pure met))
    case function =>
      rw [parseCalcFun]
      refine regular.space.bind (fun _ _ => regular.takeVarName.bind (fun name _ => ?_))
      split
      · exact .failWith regular.backtrack
      · exact (regular.getScope '(' ')').bind (fun _ kept =>
          (regular.whole kept ih.expr regular.backtrack).bind
            (fun arg met => .pure (built.func _ arg met)))

theorem omlCalc_spec {good : CalcExpr → Prop} (built : CalcBuilt atoms I bad good) (fuel : Nat) :
    Spec I (omlCalc atoms fuel) good bad :=
  regular.space.bind (fun _ _ => (regular.lit "calc").bind (fun _ _ =>
    (regular.getScope '(' ')').bind (fun _ kept =>
      regular.whole kept (calc_built regular built fuel).expr regular.backtrack)))

theorem calc_closed (given : Bool) : CalcBuilt atoms I bad (CalcExpr.Closed given) where
  number := (parseNumber_spec regular).imp (fun _ _ => trivial)
  accessor := (omlVarGet_spec regular).imp
    (fun _ direct => DirectAccessor.Closed.of_default direct given)
  unaryNeg _ closed := closed
  binary _ _ _ first second := ⟨first, second⟩
  func _ _ closed := closed

theorem omlAgaCalc_spec (given : Bool) (fuel : Nat) : Spec I (omlAgaCalc atoms fuel)
    (fun eval => ∃ expr, eval = .calculate expr ∧ expr.Closed given) bad :=
  (omlCalc_spec regular (calc_closed regular given) fuel).bind
    (fun expr closed => .pure ⟨expr, rfl, closed⟩)

end Operations

end WarpMotor.Oml
