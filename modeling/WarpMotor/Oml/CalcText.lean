import WarpMotor.Oml.Resolved
import WarpMotor.Oml.SqlText

/-!
The text of an arithmetic expression, and its reading. The text has brackets
around every operation on two operands, so that each operand is read by the
parser of the highest level, a sign or an atom.
-/
namespace WarpMotor.Oml

open Parsing

section Display

variable (showDefault : GenericAccessor → Text) (showFloat : UInt64 → Text)

def displayKeys (key : String) : List String → Text
  | [] => []
  | keys => key.toList ++ ": [ ".toList ++ joinTexts ", ".toList (keys.map String.toList) ++
      " ]".toList

def displayArgs (keyword : String) (get : Option String) (option collect : List String)
    (default : Option GenericAccessor) : Text :=
  keyword.toList ++ "( ".toList ++ (get.getD "").toList ++ displayKeys "option" option ++
    displayKeys "in" collect ++ " )".toList ++
      match default with
      | none => []
      | some accessor => "\x7b\n_ :  ".toList ++ showDefault accessor ++ "\n\x7d\n".toList

def DirectAccessor.display : DirectAccessor → Text
  | take accessor =>
    displayArgs showDefault "take" accessor.get accessor.option accessor.collect accessor.defaultAcq
  | read accessor =>
    displayArgs showDefault "read" accessor.get accessor.option accessor.collect accessor.defaultAcq

def CalcNumber.display : CalcNumber → Text
  | digit number => (toString number).toList
  | float bits => showFloat bits

def CalcOp.display : CalcOp → Char
  | add => '+'
  | sub => '-'
  | mul => '*'
  | div => '/'
  | mod => '%'

def CalcFun.display : CalcFun → Text
  | abs => "abs".toList
  | round => "round".toList
  | floor => "floor".toList
  | ceil => "ceil".toList

def CalcExpr.display : CalcExpr → Text
  | const number => number.display showFloat
  | accessor direct => direct.display showDefault
  | unaryNeg inner => '-' :: inner.display
  | binary op lhs rhs =>
    '(' :: (lhs.display ++ ' ' :: op.display :: ' ' :: rhs.display ++ [')'])
  | func function arg => function.display ++ '(' :: (arg.display ++ [')'])

/-- `Display` of a `CalcOperation`. -/
def CalcExpr.displayCalc (expr : CalcExpr) : Text :=
  "calc(".toList ++ expr.display showDefault showFloat ++ [')']

end Display

/-- Every bracket has its partner. -/
inductive Balanced : Text → Prop where
  | nil : Balanced []
  | plain {c : Char} {rest : Text} (opens : c ≠ '(') (closes : c ≠ ')') (others : Balanced rest) :
      Balanced (c :: rest)
  | nested {inner rest : Text} (inside : Balanced inner) (others : Balanced rest) :
      Balanced ('(' :: (inner ++ ')' :: rest))

namespace Balanced

theorem append {first second : Text} (left : Balanced first) (right : Balanced second) :
    Balanced (first ++ second) := by
  induction left with
  | nil => exact right
  | plain opens closes _ ih => exact .plain opens closes ih
  | @nested inner rest inside _ _ ih =>
    have grouped : '(' :: (inner ++ ')' :: rest) ++ second =
        '(' :: (inner ++ ')' :: (rest ++ second)) := by simp
    rw [grouped]
    exact .nested inside ih

theorem of_plain {text : Text} (plain : ∀ c ∈ text, c ≠ '(' ∧ c ≠ ')') : Balanced text := by
  induction text with
  | nil => exact .nil
  | cons c rest ih =>
    obtain ⟨first, others⟩ := List.forall_mem_cons.mp plain
    exact .plain first.1 first.2 (ih others)

theorem of_check {text : Text} (plain : text.all (fun c => c != '(' && c != ')') = true) :
    Balanced text := by
  refine of_plain (fun c member => ?_)
  simpa using List.all_eq_true.mp plain c member

theorem digits {text : Text} (decimal : ∀ c ∈ text, c.isDigit = true) : Balanced text := by
  refine of_plain (fun c member => ⟨?_, ?_⟩) <;>
  · rintro rfl
    exact absurd (decimal _ member) (by decide)

end Balanced

section

variable {PipeFun : Type}

/-- What the parsers from elsewhere do: a scope ends at the bracket that closes it, and a name
takes all letters up to a bracket and always takes the first character. -/
structure Atoms.Reads (atoms : Atoms PipeFun) : Prop where
  scope : ∀ inner rest, Balanced inner →
    atoms.getScope '(' ')' ('(' :: (inner ++ ')' :: rest)) = (.ok inner, rest)
  word : ∀ word rest, word ≠ [] → (∀ c ∈ word, c.isLower = true) →
    atoms.takeVarName (word ++ '(' :: rest) = (.ok (String.ofList word), '(' :: rest)
  digit : ∀ c rest name, c.isDigit = true → (atoms.takeVarName (c :: rest)).1 = .ok name →
    name.toList.head? = some c
  fails : ∀ text e, (atoms.takeVarName text).1 = .error e → e.isError = true

variable (atoms : Atoms PipeFun) (showDefault : GenericAccessor → Text) (showFloat : UInt64 → Text)

/-- The text of each accessor and of each float in the expression is read back. -/
def CalcExpr.AtomsReadBack : CalcExpr → Prop
  | .const (.digit _) => True
  | .const (.float bits) => ∃ digits frac, digits ≠ [] ∧ frac ≠ [] ∧
      (∀ c ∈ digits ++ frac, c.isDigit = true) ∧ showFloat bits = digits ++ '.' :: frac ∧
        atoms.parseFloat (String.ofList (digits ++ '.' :: frac)) = some bits
  | .accessor direct => Balanced (direct.display showDefault) ∧ ∀ rest,
      omlVarGet atoms (direct.display showDefault ++ rest) = (.ok direct, rest)
  | .unaryNeg inner => inner.AtomsReadBack
  | .binary _ lhs rhs => lhs.AtomsReadBack ∧ rhs.AtomsReadBack
  | .func _ arg => arg.AtomsReadBack

/-- Every integer in the expression is one that a parser gives. -/
def CalcExpr.Unsigned : CalcExpr → Prop
  | .const number => number.Unsigned
  | .accessor _ => True
  | .unaryNeg inner => inner.Unsigned
  | .binary _ lhs rhs => lhs.Unsigned ∧ rhs.Unsigned
  | .func _ arg => arg.Unsigned

theorem omlCalc_unsigned {fuel : Nat} {text : Text} {expr : CalcExpr}
    (parsed : (omlCalc atoms fuel text).1 = .ok expr) : expr.Unsigned := by
  have built : CalcBuilt atoms (fun _ => True) (fun _ => True) CalcExpr.Unsigned :=
    ⟨parseNumber_spec atoms.regular_all, (omlVarGet_spec atoms.regular_all).imp
      (fun _ _ => trivial), fun _ held => held, fun _ _ _ first second => ⟨first, second⟩,
      fun _ _ held => held⟩
  have met := (omlCalc_spec atoms.regular_all built fuel text trivial).2
  rw [parsed] at met
  exact met

/-- A text behind which an operand ends. -/
def Stops (rest : Text) : Prop := rest = [] ∨ ∃ more, rest = ' ' :: more

/-- What may stand before an operand. -/
def Gap (lead : Text) : Prop := lead = [] ∨ lead = [' ']

theorem isSpace_isWhite {c : Char} (space : isSpace c = true) : isWhite c = true := by
  simp only [isSpace, Bool.or_eq_true, decide_eq_true_eq] at space
  rcases space with ((rfl | rfl) | rfl) | rfl <;> decide

theorem isSpace_of_not_white {c : Char} (visible : isWhite c = false) : isSpace c = false := by
  cases space : isSpace c with
  | false => rfl
  | true => rw [isSpace_isWhite space] at visible; contradiction

theorem trimStart_gap {lead : Text} (gap : Gap lead) {c : Char} (rest : Text)
    (visible : isWhite c = false) : trimStart (lead ++ c :: rest) = c :: rest := by
  have blank : isWhite ' ' = true := by decide
  rcases gap with rfl | rfl <;> simp [trimStart, visible, blank]

theorem space_gap {lead : Text} (gap : Gap lead) {c : Char} (rest : Text)
    (visible : isWhite c = false) : multispace0 (lead ++ c :: rest) = c :: rest := by
  have blank : isSpace ' ' = true := by decide
  rcases gap with rfl | rfl <;> simp [multispace0, isSpace_of_not_white visible, blank]

theorem consumeSymbol_gap {lead : Text} (gap : Gap lead) (symbol : Char) {c : Char} (rest : Text)
    (visible : isWhite c = false) : consumeSymbol symbol (lead ++ c :: rest) =
      if c = symbol then (.ok true, rest) else (.ok false, lead ++ c :: rest) := by
  rw [consumeSymbol, trimStart_gap gap rest visible]

theorem consumeSymbol_nil (symbol : Char) : consumeSymbol symbol [] = (.ok false, []) := rfl

/-- The operator that stands next. -/
theorem consumeOp_spaced (ops : List (Char × CalcOp)) (c : Char) (rest : Text)
    (visible : isWhite c = false) : consumeOp ops (' ' :: c :: rest) =
      match ops.find? (fun entry => c == entry.1) with
      | some entry => (.ok (some entry.2), rest)
      | none => (.ok none, ' ' :: c :: rest) := by
  induction ops with
  | nil => rfl
  | cons entry others ih =>
    obtain ⟨symbol, op⟩ := entry
    have next := @consumeSymbol_gap [' '] (.inr rfl) symbol c rest visible
    rw [List.cons_append, List.nil_append] at next
    rw [consumeOp, bind_run, next, List.find?_cons]
    by_cases same : c = symbol
    · simp [same, pure_run]
    · simp only [if_neg same, beq_false_of_ne same, Bool.false_eq_true, if_false, ih]

theorem consumeOp_nil (ops : List (Char × CalcOp)) : consumeOp ops [] = (.ok none, []) := by
  induction ops with
  | nil => rfl
  | cons entry others ih =>
    obtain ⟨symbol, op⟩ := entry
    rw [consumeOp, bind_run, consumeSymbol_nil]
    simpa using ih

/-- The parser of an operand reads the text as the expression, with enough fuel. -/
def ReadsAs (text : Text) (expr : CalcExpr) : Prop :=
  ∃ enough, ∀ fuel, enough ≤ fuel → ∀ lead rest, Gap lead → Stops rest →
    parseUnary atoms fuel (lead ++ (text ++ rest)) = (.ok expr, rest)

/-- A whole text of its own, read to its end. -/
def ReadsWhole (text : Text) (expr : CalcExpr) : Prop :=
  ∃ enough, ∀ fuel, enough ≤ fuel → parseExpr atoms fuel text = (.ok expr, [])

theorem whole_run {A : Type} {code : Text} {p : Parse A} {left : Fail} {a : A} (rest : Text)
    (read : p code = (.ok a, [])) : whole code p left rest = (.ok a, rest) := by
  have inner : (do let a ← p; space; return a : Parse A) code = (.ok a, []) := by
    rw [bind_run, read]
    rfl
  rw [whole, bind_run, onText, inner]
  rfl

variable {atoms}

theorem mulLoop_nil {fuel : Nat} (expr : CalcExpr) :
    mulLoop atoms (fuel + 1) expr [] = (.ok expr, []) := by
  rw [mulLoop, bind_run, consumeOp_nil]
  rfl

theorem addLoop_nil {fuel : Nat} (expr : CalcExpr) :
    addLoop atoms (fuel + 1) expr [] = (.ok expr, []) := by
  rw [addLoop, bind_run, consumeOp_nil]
  rfl

theorem ReadsAs.whole {text : Text} {expr : CalcExpr} (reads : ReadsAs atoms text expr) :
    ReadsWhole atoms text expr := by
  obtain ⟨enough, read⟩ := reads
  refine ⟨enough + 3, ?_⟩
  intro fuel bound
  obtain ⟨more, rfl⟩ := Nat.exists_eq_add_of_le' (show 3 ≤ fuel by omega)
  have operand := read (more + 1) (by omega) [] [] (.inl rfl) (.inl rfl)
  rw [List.nil_append, List.append_nil] at operand
  rw [parseExpr, bind_run, parseMul, bind_run, operand]
  simp only [mulLoop_nil, addLoop_nil]

/-- An operand and what follows it. -/
theorem ReadsAs.operands {left right : Text} {lhs rhs : CalcExpr}
    (first : ReadsAs atoms left lhs) (second : ReadsAs atoms right rhs) :
    ∃ enough, ∀ fuel, enough ≤ fuel →
      (∀ more, parseUnary atoms fuel (left ++ ' ' :: more) = (.ok lhs, ' ' :: more)) ∧
        parseUnary atoms fuel (' ' :: right) = (.ok rhs, []) := by
  obtain ⟨enough, read⟩ := first
  obtain ⟨enough', read'⟩ := second
  refine ⟨max enough enough', ?_⟩
  intro fuel bound
  constructor
  · intro more
    exact read fuel (by omega) [] (' ' :: more) (.inl rfl) (.inr ⟨more, rfl⟩)
  · have next := read' fuel (by omega) [' '] [] (.inr rfl) (.inl rfl)
    rwa [List.append_nil, List.cons_append, List.nil_append] at next

theorem CalcOp.display_visible (op : CalcOp) : isWhite op.display = false := by
  cases op <;> decide

/-- The loops of the two levels take an operation apart, whatever its operator. -/
theorem ReadsAs.binary {left right : Text} {lhs rhs : CalcExpr} (op : CalcOp)
    (first : ReadsAs atoms left lhs) (second : ReadsAs atoms right rhs) :
    ReadsWhole atoms (left ++ ' ' :: op.display :: ' ' :: right) (.binary op lhs rhs) := by
  obtain ⟨enough, read⟩ := first.operands second
  refine ⟨enough + 5, ?_⟩
  intro fuel bound
  obtain ⟨more, rfl⟩ := Nat.exists_eq_add_of_le' (show 5 ≤ fuel by omega)
  have operand (k : Nat) := (read (more + k) (by omega)).1 (op.display :: ' ' :: right)
  have next (k : Nat) := (read (more + k) (by omega)).2
  have symbol (ops : List (Char × CalcOp)) :=
    consumeOp_spaced ops op.display (' ' :: right) op.display_visible
  rw [parseExpr, bind_run, parseMul, bind_run, operand 3]
  dsimp only
  cases op with
  | add =>
    rw [mulLoop, bind_run, symbol]
    simp only [CalcOp.display, List.find?_cons, List.find?_nil, Char.reduceBEq, pure_run]
    rw [addLoop, bind_run, consumeOp_spaced _ '+' _ (by decide)]
    simp only [List.find?_cons, Char.reduceBEq]
    rw [bind_run, parseMul, bind_run, next 2]
    simp only [mulLoop_nil, addLoop_nil]
  | sub =>
    rw [mulLoop, bind_run, symbol]
    simp only [CalcOp.display, List.find?_cons, List.find?_nil, Char.reduceBEq, pure_run]
    rw [addLoop, bind_run, consumeOp_spaced _ '-' _ (by decide)]
    simp only [List.find?_cons, Char.reduceBEq]
    rw [bind_run, parseMul, bind_run, next 2]
    simp only [mulLoop_nil, addLoop_nil]
  | mul | div | mod =>
    rw [mulLoop, bind_run, symbol]
    simp only [CalcOp.display, List.find?_cons, Char.reduceBEq]
    rw [bind_run, next 2]
    simp only [mulLoop_nil, addLoop_nil]

theorem ReadsAs.unaryNeg {text : Text} {expr : CalcExpr} (reads : ReadsAs atoms text expr) :
    ReadsAs atoms ('-' :: text) (.unaryNeg expr) := by
  obtain ⟨enough, read⟩ := reads
  refine ⟨enough + 1, ?_⟩
  intro fuel bound lead rest gap stops
  obtain ⟨more, rfl⟩ := Nat.exists_eq_add_of_le' (show 1 ≤ fuel by omega)
  have inner := read more (by omega) [] rest (.inl rfl) stops
  rw [List.nil_append] at inner
  rw [parseUnary, bind_run, List.cons_append, consumeSymbol_gap gap '-' _ (by decide)]
  simp only [if_true, bind_run, inner]
  rfl

/-- An operand without a sign is read by the parser of atoms. -/
theorem readsAs_of_primary {c : Char} {text : Text} {expr : CalcExpr}
    (visible : isWhite c = false) (unsigned : c ≠ '-')
    (reads : ∃ enough, ∀ fuel, enough ≤ fuel → ∀ lead rest, Gap lead → Stops rest →
      parsePrimary atoms fuel (lead ++ c :: (text ++ rest)) = (.ok expr, rest)) :
    ReadsAs atoms (c :: text) expr := by
  obtain ⟨enough, read⟩ := reads
  refine ⟨enough + 1, ?_⟩
  intro fuel bound lead rest gap stops
  obtain ⟨more, rfl⟩ := Nat.exists_eq_add_of_le' (show 1 ≤ fuel by omega)
  rw [parseUnary, bind_run, List.cons_append, consumeSymbol_gap gap '-' _ visible,
    if_neg unsigned]
  exact read more (by omega) lead rest gap stops

theorem readsAs_scope (external : atoms.Reads) {inner : Text} {expr : CalcExpr}
    (balanced : Balanced inner) (reads : ReadsWhole atoms inner expr) :
    ReadsAs atoms ('(' :: (inner ++ [')'])) expr := by
  obtain ⟨enough, read⟩ := reads
  refine readsAs_of_primary (by decide) (by decide) ⟨enough + 1, ?_⟩
  intro fuel bound lead rest gap stops
  obtain ⟨more, rfl⟩ := Nat.exists_eq_add_of_le' (show 1 ≤ fuel by omega)
  have blank : space (lead ++ '(' :: (inner ++ [')'] ++ rest)) =
      (.ok (), '(' :: (inner ++ ')' :: rest)) := by
    rw [space, space_gap gap _ (by decide), List.append_assoc]
    rfl
  rw [parsePrimary, bind_run, blank]
  simp only [peekOne, bind_run, List.head?_cons, external.scope inner rest balanced]
  exact whole_run rest (read more (by omega))

theorem CalcFun.display_word (function : CalcFun) : function.display ≠ [] ∧
    (∀ c ∈ function.display, c.isLower = true) ∧
      calcFun (String.ofList function.display) = some function := by
  refine ⟨?_, List.all_eq_true.mp ?_, ?_⟩ <;> cases function <;> decide

theorem lower_visible {c : Char} (lower : c.isLower = true) :
    isWhite c = false ∧ c ≠ '-' ∧ c ≠ '(' := by
  have range : 97 ≤ c.toNat ∧ c.toNat ≤ 122 := by
    have bounds : (decide ('a'.val ≤ c.val) && decide (c.val ≤ 'z'.val)) = true := lower
    simpa [UInt32.le_iff_toNat_le] using bounds
  refine ⟨?_, ?_, ?_⟩
  · simp only [isWhite, Bool.or_eq_false_iff, Bool.and_eq_false_iff, decide_eq_false_iff_not]
    omega
  · rintro rfl
    exact absurd range (by decide)
  · rintro rfl
    exact absurd range (by decide)

/-- A parser that gives up in a way that its caller can put up with. -/
def Refuses {A : Type} (p : Parse A) (text : Text) : Prop :=
  ∃ e rest, p text = (.error e, rest) ∧ e.isError = true

theorem Refuses.attempt_run {A : Type} {p : Parse A} {text : Text} (refused : Refuses p text) :
    ∃ rest, attempt p text = (.ok none, rest) := by
  obtain ⟨e, rest, result, error⟩ := refused
  exact ⟨rest, by simp [attempt, result, error]⟩

section Primary

variable {c : Char} {lead text rest : Text} {fuel : Nat} (gap : Gap lead)
  (visible : isWhite c = false) (closed : c ≠ '(')

include gap visible closed

/-- The parser of atoms on what is no bracket. -/
theorem parsePrimary_run : parsePrimary atoms (fuel + 1) (lead ++ c :: text) = (do
    match ← attempt (parseCalcFun atoms fuel) with
    | some expr => return expr
    | none =>
      setText (c :: text)
      match ← attempt (omlVarGet atoms) with
      | some accessor => return .accessor accessor
      | none =>
        setText (c :: text)
        return .const (← parseNumber atoms) : Parse CalcExpr) (c :: text) := by
  rw [parsePrimary, bind_run, space, space_gap gap _ visible]
  dsimp only
  rw [bind_run]
  simp only [peekOne, List.head?_cons, Option.some.injEq, closed, imp_self]
  rfl

theorem parsePrimary_called {expr : CalcExpr}
    (called : parseCalcFun atoms fuel (c :: text) = (.ok expr, rest)) :
    parsePrimary atoms (fuel + 1) (lead ++ c :: text) = (.ok expr, rest) := by
  rw [parsePrimary_run gap visible closed, bind_run, attempt, called]
  rfl

theorem parsePrimary_accessor {accessor : DirectAccessor}
    (refused : Refuses (parseCalcFun atoms fuel) (c :: text))
    (read : omlVarGet atoms (c :: text) = (.ok accessor, rest)) :
    parsePrimary atoms (fuel + 1) (lead ++ c :: text) = (.ok (.accessor accessor), rest) := by
  obtain ⟨left, none_called⟩ := refused.attempt_run
  have got : attempt (omlVarGet atoms) (c :: text) = (.ok (some accessor), rest) := by
    rw [attempt, read]
  rw [parsePrimary_run gap visible closed, bind_run, none_called]
  dsimp only
  rw [bind_run]
  simp only [setText, bind_run, got]
  rfl

theorem parsePrimary_number {number : CalcNumber}
    (refused : Refuses (parseCalcFun atoms fuel) (c :: text))
    (no_accessor : Refuses (omlVarGet atoms) (c :: text))
    (read : parseNumber atoms (c :: text) = (.ok number, rest)) :
    parsePrimary atoms (fuel + 1) (lead ++ c :: text) = (.ok (.const number), rest) := by
  obtain ⟨left, none_called⟩ := refused.attempt_run
  obtain ⟨left', none_read⟩ := no_accessor.attempt_run
  rw [parsePrimary_run gap visible closed, bind_run, none_called]
  dsimp only
  rw [bind_run]
  simp only [setText, bind_run, none_read, read]
  rfl

end Primary

theorem space_visible {c : Char} (text : Text) (visible : isWhite c = false) :
    space (c :: text) = (.ok (), c :: text) :=
  congrArg (Prod.mk _) (space_gap (.inl rfl) text visible)

theorem readsAs_func (external : atoms.Reads) (function : CalcFun) {arg : Text} {expr : CalcExpr}
    (balanced : Balanced arg) (reads : ReadsWhole atoms arg expr) :
    ReadsAs atoms (function.display ++ '(' :: (arg ++ [')'])) (.func function expr) := by
  obtain ⟨nonempty, lower, named⟩ := function.display_word
  obtain ⟨enough, read⟩ := reads
  obtain ⟨c, word, same⟩ := List.exists_cons_of_ne_nil nonempty
  rw [same] at lower named ⊢
  obtain ⟨visible, unsigned, closed⟩ := lower_visible (lower c List.mem_cons_self)
  rw [List.cons_append]
  refine readsAs_of_primary visible unsigned ⟨enough + 2, ?_⟩
  intro fuel bound lead rest gap stops
  obtain ⟨more, rfl⟩ := Nat.exists_eq_add_of_le' (show 2 ≤ fuel by omega)
  apply parsePrimary_called gap visible closed
  have name := external.word (c :: word) (arg ++ ')' :: rest) (List.cons_ne_nil c word) lower
  have grouped : c :: (word ++ '(' :: (arg ++ [')']) ++ rest) =
      c :: word ++ '(' :: (arg ++ ')' :: rest) := by simp
  rw [parseCalcFun, bind_run, space_visible _ visible]
  dsimp only
  rw [bind_run, grouped, name]
  simp only [named, bind_run, external.scope arg rest balanced,
    whole_run rest (read more (by omega))]
  rfl

/-- No name of a function begins with a digit. -/
theorem parseCalcFun_digit (external : atoms.Reads) {c : Char} (digit : c.isDigit = true)
    (visible : isWhite c = false) (fuel : Nat) (text : Text) :
    Refuses (parseCalcFun atoms (fuel + 1)) (c :: text) := by
  cases result : atoms.takeVarName (c :: text) with
  | mk name left =>
    cases name with
    | error e =>
      have error := external.fails (c :: text) e (by rw [result])
      refine ⟨e, left, ?_, error⟩
      rw [parseCalcFun, bind_run, space_visible _ visible]
      dsimp only
      rw [bind_run, result]
    | ok name =>
      have first := external.digit c text name digit (by rw [result])
      have unnamed : calcFun name = none := by
        unfold calcFun
        repeat' split
        all_goals first
          | rfl
          | next same =>
            subst same
            obtain rfl := Option.some.inj first
            exact absurd digit (by decide)
      refine ⟨.backtrack, left, ?_, rfl⟩
      rw [parseCalcFun, bind_run, space_visible _ visible]
      dsimp only
      rw [bind_run, result]
      simp only [unnamed]
      rfl

theorem DirectAccessor.display_word (direct : DirectAccessor) :
    ∃ word body, direct.display showDefault = word ++ '(' :: body ∧ word ≠ [] ∧
      (∀ c ∈ word, c.isLower = true) ∧ calcFun (String.ofList word) = none := by
  have named (keyword : String) (get : Option String) (option collect : List String)
      (default : Option GenericAccessor) :
      ∃ body, displayArgs showDefault keyword get option collect default =
        keyword.toList ++ '(' :: body := by
    simp only [displayArgs, List.append_assoc]
    exact ⟨_, rfl⟩
  cases direct with
  | take accessor =>
    obtain ⟨body, same⟩ := named "take" accessor.get accessor.option accessor.collect
      accessor.defaultAcq
    exact ⟨"take".toList, body, same, by decide, List.all_eq_true.mp (by decide), by decide⟩
  | read accessor =>
    obtain ⟨body, same⟩ := named "read" accessor.get accessor.option accessor.collect
      accessor.defaultAcq
    exact ⟨"read".toList, body, same, by decide, List.all_eq_true.mp (by decide), by decide⟩

theorem readsAs_accessor (external : atoms.Reads) (direct : DirectAccessor)
    (read : ∀ rest, omlVarGet atoms (direct.display showDefault ++ rest) = (.ok direct, rest)) :
    ReadsAs atoms (direct.display showDefault) (.accessor direct) := by
  obtain ⟨letters, body, shown, nonempty, lower, unnamed⟩ := direct.display_word showDefault
  obtain ⟨c, word, rfl⟩ := List.exists_cons_of_ne_nil nonempty
  obtain ⟨visible, unsigned, closed⟩ := lower_visible (lower c List.mem_cons_self)
  rw [shown] at read ⊢
  rw [List.cons_append] at read ⊢
  refine readsAs_of_primary visible unsigned ⟨2, ?_⟩
  intro fuel bound lead rest gap stops
  obtain ⟨more, rfl⟩ := Nat.exists_eq_add_of_le' bound
  refine parsePrimary_accessor gap visible closed ?_ (read rest)
  have name := external.word (c :: word) (body ++ rest) (List.cons_ne_nil c word) lower
  have grouped : c :: (word ++ '(' :: body ++ rest) = c :: word ++ '(' :: (body ++ rest) := by simp
  refine ⟨.backtrack, '(' :: (body ++ rest), ?_, rfl⟩
  rw [parseCalcFun, bind_run, space_visible _ visible]
  dsimp only
  rw [bind_run, grouped, name]
  simp only [unnamed]
  rfl

theorem digit_visible {c : Char} (digit : c.isDigit = true) :
    isWhite c = false ∧ c ≠ '-' ∧ c ≠ '(' := by
  have range : 48 ≤ c.toNat ∧ c.toNat ≤ 57 := by
    simpa [Char.isDigit, UInt32.le_iff_toNat_le] using digit
  refine ⟨?_, ?_, ?_⟩
  · simp only [isWhite, Bool.or_eq_false_iff, Bool.and_eq_false_iff, decide_eq_false_iff_not]
    omega
  · rintro rfl
    exact absurd range (by decide)
  · rintro rfl
    exact absurd range (by decide)

theorem digit1_run {digits rest : Text} (nonempty : digits ≠ [])
    (decimal : ∀ c ∈ digits, c.isDigit = true) (ends : ∀ c ∈ rest.head?, c.isDigit = false) :
    digit1 (digits ++ rest) = (.ok digits, rest) := by
  have last : rest.takeWhile Char.isDigit = [] ∧ rest.dropWhile Char.isDigit = rest := by
    cases rest with
    | nil => exact ⟨rfl, rfl⟩
    | cons c more => simp [ends c rfl]
  have taken : (digits ++ rest).takeWhile Char.isDigit = digits := by
    rw [List.takeWhile_append_of_pos decimal, last.1, List.append_nil]
  have dropped : (digits ++ rest).dropWhile Char.isDigit = rest := by
    rw [List.dropWhile_append_of_pos decimal, last.2]
  rw [digit1, takeWhile1, taken, dropped]
  cases digits with
  | nil => contradiction
  | cons c more => rfl

theorem Stops.ends {rest : Text} (stops : Stops rest) :
    (∀ c ∈ rest.head?, c.isDigit = false) ∧ rest.head? ≠ some '.' := by
  rcases stops with rfl | ⟨more, rfl⟩ <;> simp

theorem parseDigits_toDigits (n : Nat) : parseDigits (Nat.toDigits 10 n) = n :=
  Nat.ofDigitChars_ten_toDigits

theorem toDigits_decimal (n : Nat) : Nat.toDigits 10 n ≠ [] ∧
    ∀ c ∈ Nat.toDigits 10 n, c.isDigit = true :=
  ⟨Nat.toDigits_ne_nil, fun _ member => Nat.isDigit_of_mem_toDigits (by omega) (by omega) member⟩

/-- The parser of an accessor looks for a keyword, and a number begins with none. -/
theorem omlVarGet_digit {c : Char} (digit : c.isDigit = true) (text : Text) :
    Refuses (omlVarGet atoms) (c :: text) := by
  obtain ⟨visible, _⟩ := digit_visible digit
  have missed {A : Type} (first : Char) (word : String) (others : List Char) (next : Unit → Parse A)
      (spelled : word.toList = first :: others) (letter : first.isDigit = false) :
      (keyword word >>= next) (c :: text) = (.error .backtrack, c :: text) := by
    have differs : (first == c) = false := by
      rw [beq_eq_false_iff_ne]
      rintro rfl
      rw [digit] at letter
      contradiction
    rw [bind_run, keyword, bind_run, space_visible _ visible]
    simp [lit, literal, WarpMotor.peekStr, spelled, List.isPrefixOf, differs]
  refine ⟨.backtrack, c :: text, ?_, rfl⟩
  simp only [omlVarGet, omlVarGetStd, alt, orElse, omlVarGetRef, omlTake, omlRead, kwCrateSymbol,
    kwTake, kwRead, missed '@' "@" [] _ rfl rfl, missed 't' "take" ['a', 'k', 'e'] _ rfl rfl,
    missed 'r' "read" ['e', 'a', 'd'] _ rfl rfl]

theorem trimStart_visible {c : Char} (text : Text) (visible : isWhite c = false) :
    trimStart (c :: text) = c :: text := trimStart_gap (.inl rfl) text visible

/-- A number that its own parser reads, and that begins with a digit, is an operand. -/
theorem readsAs_number (external : atoms.Reads) {digits text : Text} {number : CalcNumber}
    (nonempty : digits ≠ []) (decimal : ∀ c ∈ digits, c.isDigit = true)
    (read : ∀ rest, Stops rest →
      parseNumber atoms (digits ++ text ++ rest) = (.ok number, rest)) :
    ReadsAs atoms (digits ++ text) (.const number) := by
  obtain ⟨c, others, rfl⟩ := List.exists_cons_of_ne_nil nonempty
  have digit := decimal c List.mem_cons_self
  obtain ⟨visible, unsigned, closed⟩ := digit_visible digit
  rw [List.cons_append] at read ⊢
  refine readsAs_of_primary visible unsigned ⟨2, ?_⟩
  intro fuel bound lead rest gap stops
  obtain ⟨more, rfl⟩ := Nat.exists_eq_add_of_le' bound
  exact parsePrimary_number gap visible closed (parseCalcFun_digit external digit visible more _)
    (omlVarGet_digit digit _) (read rest stops)

theorem parseNumber_digit {n : Nat} (small : n ≤ 9223372036854775807) {rest : Text}
    (stops : Stops rest) :
    parseNumber atoms (Nat.toDigits 10 n ++ rest) = (.ok (.digit n), rest) := by
  obtain ⟨nonempty, decimal⟩ := toDigits_decimal n
  obtain ⟨ends, no_dot⟩ := stops.ends
  have read : parseI64 (Nat.toDigits 10 n) = some (n : Int) := by
    rw [parseI64, parseDigits_toDigits, if_pos small]
  have trimmed : trimStart (Nat.toDigits 10 n ++ rest) = Nat.toDigits 10 n ++ rest := by
    obtain ⟨c, others, same⟩ := List.exists_cons_of_ne_nil nonempty
    rw [same] at decimal ⊢
    exact trimStart_visible _ (digit_visible (decimal c List.mem_cons_self)).1
  rw [parseNumber, trimmed, bind_run, digit1_run nonempty decimal ends]
  simp only [bind_run, peekOne, read]
  rfl

theorem parseNumber_float {digits frac rest : Text} {bits : UInt64} (nonempty : digits ≠ [])
    (fraction : frac ≠ []) (decimal : ∀ c ∈ digits ++ frac, c.isDigit = true)
    (read : atoms.parseFloat (String.ofList (digits ++ '.' :: frac)) = some bits)
    (stops : Stops rest) :
    parseNumber atoms (digits ++ '.' :: frac ++ rest) = (.ok (.float bits), rest) := by
  have whole_part := fun c member => decimal c (List.mem_append_left frac member)
  have frac_part := fun c member => decimal c (List.mem_append_right digits member)
  have trimmed : trimStart (digits ++ '.' :: frac ++ rest) = digits ++ '.' :: (frac ++ rest) := by
    obtain ⟨c, others, rfl⟩ := List.exists_cons_of_ne_nil nonempty
    rw [List.append_assoc]
    exact trimStart_visible _ (digit_visible (whole_part c List.mem_cons_self)).1
  have dot : lit "." ('.' :: (frac ++ rest)) = (.ok (), frac ++ rest) := rfl
  rw [parseNumber, trimmed, bind_run, digit1_run nonempty whole_part (by simp)]
  simp only [bind_run, peekOne, List.head?_cons, dot, digit1_run fraction frac_part stops.ends.1,
    read]
  rfl

/-- The text of an expression is balanced and is read by the parser of an operand. -/
theorem display_readsAs (external : atoms.Reads) (expr : CalcExpr) (unsigned : expr.Unsigned)
    (read_back : expr.AtomsReadBack atoms showDefault showFloat) :
    Balanced (expr.display showDefault showFloat) ∧
      ReadsAs atoms (expr.display showDefault showFloat) expr := by
  induction expr with
  | const number =>
    cases number with
    | digit number =>
      obtain ⟨n, rfl⟩ := Int.eq_ofNat_of_zero_le unsigned.1
      obtain ⟨nonempty, decimal⟩ := toDigits_decimal n
      have shown : (toString (n : Int)).toList = Nat.toDigits 10 n := by
        simp [toString, Int.repr, Nat.repr]
      rw [CalcExpr.display, CalcNumber.display, shown]
      refine ⟨.digits decimal, ?_⟩
      rw [← List.append_nil (Nat.toDigits 10 n)]
      refine readsAs_number external nonempty decimal (fun rest stops => ?_)
      rw [List.append_nil]
      exact parseNumber_digit (by have bound := unsigned.2; omega) stops
    | float bits =>
      obtain ⟨digits, frac, nonempty, fraction, decimal, shown, read⟩ := read_back
      have whole_part := fun c member => decimal c (List.mem_append_left frac member)
      have frac_part := fun c member => decimal c (List.mem_append_right digits member)
      rw [CalcExpr.display, CalcNumber.display, shown]
      refine ⟨(Balanced.digits whole_part).append (.plain (by decide) (by decide)
        (.digits frac_part)), ?_⟩
      exact readsAs_number external nonempty whole_part
        (fun rest stops => parseNumber_float nonempty fraction decimal read stops)
  | accessor direct => exact ⟨read_back.1, readsAs_accessor showDefault external direct read_back.2⟩
  | unaryNeg inner ih =>
    obtain ⟨balanced, reads⟩ := ih unsigned read_back
    exact ⟨.plain (by decide) (by decide) balanced, reads.unaryNeg⟩
  | binary op lhs rhs left right =>
    obtain ⟨balanced_left, reads_left⟩ := left unsigned.1 read_back.1
    obtain ⟨balanced_right, reads_right⟩ := right unsigned.2 read_back.2
    have symbol : op.display ≠ '(' ∧ op.display ≠ ')' := by cases op <;> decide
    have inside : Balanced (lhs.display showDefault showFloat ++
        ' ' :: op.display :: ' ' :: rhs.display showDefault showFloat) :=
      balanced_left.append (.plain (by decide) (by decide) (.plain symbol.1 symbol.2
        (.plain (by decide) (by decide) balanced_right)))
    exact ⟨.nested inside .nil, readsAs_scope external inside (reads_left.binary op reads_right)⟩
  | func function arg ih =>
    obtain ⟨balanced, reads⟩ := ih unsigned read_back
    have word : Balanced function.display := by
      refine .of_check ?_
      cases function <;> decide
    exact ⟨word.append (.nested balanced .nil), readsAs_func external function balanced reads.whole⟩

/-- All of the text of an expression is read, as the expression. -/
theorem omlCalc_display (external : atoms.Reads) {expr : CalcExpr} (unsigned : expr.Unsigned)
    (read_back : expr.AtomsReadBack atoms showDefault showFloat) :
    ∃ enough, ∀ fuel, enough ≤ fuel →
      omlCalc atoms fuel (expr.displayCalc showDefault showFloat) = (.ok expr, []) := by
  obtain ⟨balanced, reads⟩ := display_readsAs showDefault showFloat external expr unsigned read_back
  obtain ⟨enough, read⟩ := reads.whole
  refine ⟨enough, ?_⟩
  intro fuel bound
  have opened : expr.displayCalc showDefault showFloat =
      "calc".toList ++ '(' :: (expr.display showDefault showFloat ++ ')' :: []) := by
    rfl
  have keyword_read : lit "calc" ("calc".toList ++
      '(' :: (expr.display showDefault showFloat ++ ')' :: [])) =
        (.ok (), '(' :: (expr.display showDefault showFloat ++ ')' :: [])) := rfl
  have blank : space ("calc".toList ++ '(' :: (expr.display showDefault showFloat ++ ')' :: [])) =
      (.ok (), "calc".toList ++ '(' :: (expr.display showDefault showFloat ++ ')' :: [])) := rfl
  rw [omlCalc, bind_run, opened, blank]
  dsimp only
  rw [bind_run, keyword_read]
  dsimp only
  rw [bind_run, external.scope _ [] balanced]
  exact whole_run [] (read fuel bound)

/-- An expression that was parsed is parsed again from its own text, all of which is read. -/
theorem calc_text_round_trips (external : atoms.Reads) {fuel : Nat} {text : Text} {expr : CalcExpr}
    (parsed : (omlCalc atoms fuel text).1 = .ok expr)
    (read_back : expr.AtomsReadBack atoms showDefault showFloat) :
    ∃ enough, ∀ fuel, enough ≤ fuel →
      omlCalc atoms fuel (expr.displayCalc showDefault showFloat) = (.ok expr, []) :=
  omlCalc_display showDefault showFloat external (omlCalc_unsigned atoms parsed) read_back

end

theorem scopeEnd_cons (left right c : Char) (depth : Nat) (before rest : Text) :
    scopeEnd left right depth before (c :: rest) =
      if c = left ∧ left ≠ right then scopeEnd left right (depth + 1) (c :: before) rest
      else if c = right then
        Nat.casesOn depth (some (before.reverse, rest))
          (fun depth => scopeEnd left right depth (c :: before) rest)
      else scopeEnd left right depth (c :: before) rest := by
  rw [scopeEnd.eq_def]
  cases depth <;> rfl

theorem scopeEnd_balanced {inner : Text} (balanced : Balanced inner) (depth : Nat)
    (before rest : Text) : scopeEnd '(' ')' depth before (inner ++ rest) =
      scopeEnd '(' ')' depth (inner.reverse ++ before) rest := by
  induction balanced generalizing depth before rest with
  | nil => rfl
  | @plain c others opens closes _ ih =>
    rw [List.cons_append, scopeEnd_cons, if_neg (fun both => opens both.1), if_neg closes, ih]
    simp
  | @nested inner others _ _ ih ih' =>
    have grouped : '(' :: (inner ++ ')' :: others) ++ rest =
        '(' :: (inner ++ (')' :: (others ++ rest))) := by simp
    rw [grouped, scopeEnd_cons, if_pos ⟨rfl, by decide⟩, ih, scopeEnd_cons, if_neg (by decide),
      if_pos rfl]
    simp [ih']

theorem sampleScope_balanced {inner : Text} (balanced : Balanced inner) (rest : Text) :
    sampleScope '(' ')' ('(' :: (inner ++ ')' :: rest)) = (.ok inner, rest) := by
  have ended : scopeEnd '(' ')' 0 [] (inner ++ ')' :: rest) = some (inner, rest) := by
    rw [scopeEnd_balanced balanced, scopeEnd_cons, if_neg (by decide), if_pos rfl,
      List.append_nil]
    change some (inner.reverse.reverse, rest) = _
    rw [List.reverse_reverse]
  have blank : multispace0 ('(' :: (inner ++ ')' :: rest)) = '(' :: (inner ++ ')' :: rest) := rfl
  rw [sampleScope, blank]
  simp only [if_true, ended]

theorem sampleName_word {word rest : Text} (nonempty : word ≠ [])
    (lower : ∀ c ∈ word, c.isLower = true) :
    sampleName (word ++ '(' :: rest) = (.ok (String.ofList word), '(' :: rest) := by
  obtain ⟨c, others, rfl⟩ := List.exists_cons_of_ne_nil nonempty
  have ident : ∀ d ∈ c :: others, isIdentChar d = true := by
    intro d member
    have letter : (d.isUpper || d.isLower || d.isDigit || decide (d = '_')) = true := by
      simp [lower d member]
    exact letter
  have last : isIdentChar '(' = false := by decide
  have taken : (c :: others ++ '(' :: rest).takeWhile isIdentChar = c :: others := by
    rw [List.takeWhile_append_of_pos ident]
    simp [last]
  have dropped : (c :: others ++ '(' :: rest).dropWhile isIdentChar = '(' :: rest := by
    rw [List.dropWhile_append_of_pos ident]
    simp [last]
  rw [sampleName, bind_run, List.cons_append,
    space_visible _ (lower_visible (lower c List.mem_cons_self)).1]
  dsimp only
  rw [bind_run, takeWhile1, ← List.cons_append, taken, dropped]
  rfl

theorem sampleName_head {c : Char} {rest : Text} {name : String} (digit : c.isDigit = true)
    (found : (sampleName (c :: rest)).1 = .ok name) : name.toList.head? = some c := by
  have ident : isIdentChar c = true := by simp [isIdentChar, Char.isAlphanum, digit]
  rw [sampleName, bind_run, space_visible _ (digit_visible digit).1] at found
  dsimp only at found
  rw [bind_run, takeWhile1, List.takeWhile_cons_of_pos ident] at found
  obtain rfl := Except.ok.inj found
  simp

theorem sampleName_fails {text : Text} {e : Fail} (failed : (sampleName text).1 = .error e) :
    e.isError = true := by
  rw [sampleName, bind_run, space] at failed
  dsimp only at failed
  rw [bind_run, takeWhile1] at failed
  cases taken : (multispace0 text).takeWhile isIdentChar with
  | nil =>
    rw [taken] at failed
    cases failed
    rfl
  | cons c others =>
    rw [taken] at failed
    cases failed

theorem sampleAtoms_reads : sampleAtoms.Reads where
  scope _ rest balanced := sampleScope_balanced balanced rest
  word _ _ nonempty lower := sampleName_word nonempty lower
  digit _ _ _ digit found := sampleName_head digit found
  fails _ _ failed := sampleName_fails failed

theorem sample_args (rest : Text) :
    readArgs sampleAtoms ("( a )".toList ++ rest) = (.ok ⟨some "a", [], []⟩, rest) := by
  have code : sampleAtoms.getScope '(' ')' ("( a )".toList ++ rest) = (.ok " a ".toList, rest) :=
    rfl
  have args : whole " a ".toList (many (omlArgs sampleAtoms)) .cut rest =
      (.ok [("get", "a")], rest) := rfl
  rw [readArgs, bind_run, code]
  dsimp only
  rw [bind_run, args]
  rfl

theorem sample_accessor (rest : Text) :
    omlVarGet sampleAtoms ("read( a )".toList ++ rest) = (.ok (readOf "a"), rest) := by
  have no_reference : omlVarGetRef sampleAtoms ("read( a )".toList ++ rest) =
      (.error .backtrack, "read( a )".toList ++ rest) := rfl
  have no_take : omlTake sampleAtoms ("read( a )".toList ++ rest) =
      (.error .backtrack, "read( a )".toList ++ rest) := rfl
  have keyword_read : kwRead ("read( a )".toList ++ rest) = (.ok (), "( a )".toList ++ rest) := rfl
  have read : omlRead sampleAtoms ("read( a )".toList ++ rest) = (.ok (readOf "a"), rest) := by
    rw [omlRead, bind_run, keyword_read]
    dsimp only
    rw [bind_run, sample_args]
    rfl
  simp only [omlVarGet, omlVarGetStd, alt, orElse, no_reference, no_take, read]

/-- `-read(a) * 2` -/
def negatedProduct : CalcExpr :=
  .binary .mul (.unaryNeg (.accessor (readOf "a"))) (.const (.digit 2))

def negatedProductText : Text := negatedProduct.displayCalc (fun _ => []) (fun _ => [])

theorem negatedProduct_reads_back :
    negatedProduct.AtomsReadBack sampleAtoms (fun _ => []) (fun _ => []) := by
  have shown : (readOf "a").display (fun _ => []) = "read( a )".toList := rfl
  refine ⟨⟨?_, ?_⟩, trivial⟩
  · have word : Balanced "read".toList := .of_check (by decide)
    have args : Balanced " a ".toList := .of_check (by decide)
    rw [shown]
    exact word.append (.nested args .nil)
  · intro rest
    rw [shown]
    exact sample_accessor rest

theorem negated_product_round_trips : negatedProductText = "calc((-read( a ) * 2))".toList ∧
    ∃ enough, ∀ fuel, enough ≤ fuel →
      omlCalc sampleAtoms fuel negatedProductText = (.ok negatedProduct, []) := by
  have unsigned : negatedProduct.Unsigned := ⟨trivial, by decide, by decide⟩
  obtain ⟨enough, read⟩ := omlCalc_display (fun _ => []) (fun _ => []) sampleAtoms_reads unsigned
    negatedProduct_reads_back
  have parsed : (omlCalc sampleAtoms enough negatedProductText).1 = .ok negatedProduct :=
    congrArg Prod.fst (read enough (Nat.le_refl enough))
  exact ⟨rfl, calc_text_round_trips (fun _ => []) (fun _ => []) sampleAtoms_reads parsed
    negatedProduct_reads_back⟩

end WarpMotor.Oml
