import WarpMotor.Cond.Display

/-!
Printed conditions are read back. The assumption on comparisons is
`PrintsTokens`: the text of each is one token for its own parser, which reads
nothing where a symbol stands.
-/
namespace WarpMotor
open BoolFrames Fuel

/-- What the printer puts behind an operand. -/
def OperandEnd : List Char → Prop
  | [] => True
  | c :: _ => c = ' ' ∨ c = ')'

theorem OperandEnd.ended : OperandEnd [] := trivial
theorem OperandEnd.space (rest : List Char) : OperandEnd (' ' :: rest) := .inl rfl
theorem OperandEnd.rparen (rest : List Char) : OperandEnd (')' :: rest) := .inr rfl

/-- Each of the comparisons prints as one token of its own parser. -/
structure PrintsTokens {C : Type} (S : LogicSymbols) (semi : Bool) (cmpExp : CmpExp C)
    (displayCmp : C → List Char) (cmps : List C) : Prop where
  starts : ∀ c ∈ cmps, ∃ first others, displayCmp c = first :: others ∧ isSpace first = false
  plain : ∀ c ∈ cmps, ∀ rest, OperandEnd rest → startsSymbol S semi (displayCmp c ++ rest) = false
  reads : ∀ c ∈ cmps, ∀ rest, OperandEnd rest → ∃ left,
    cmpExp (displayCmp c ++ rest) = some (c, left) ∧ multispace0 left = multispace0 rest
  noCmp : ∀ (s : CondSymbol) rest, (s = .stop → semi = true) → cmpExp (s.text S ++ rest) = none

section Lexing
variable {C : Type} {S : LogicSymbols} {semi : Bool} {cmpExp : CmpExp C}
  {displayCmp : C → List Char} {cmps : List C} {rest : List Char} {toks : List (CondToken C)}

theorem Lexes.space (lexes : Lexes S semi cmpExp rest toks) :
    Lexes S semi cmpExp (' ' :: rest) toks :=
  lexes.multispace0 rfl

theorem lexes_symbol (known : SymbolSet S) (prints : PrintsTokens S semi cmpExp displayCmp cmps)
    (s : CondSymbol) (other : s ≠ .stop) (lexes : Lexes S semi cmpExp rest toks) :
    Lexes S semi cmpExp (s.text S ++ rest) (.sym s :: toks) := by
  have starts := multispace0_text known s rest
  refine .sym s (fun stop => absurd stop other) starts ?_ lexes
  rw [starts]
  exact prints.noCmp s rest (fun stop => absurd stop other)

theorem lexes_cmp (prints : PrintsTokens S semi cmpExp displayCmp cmps) {c : C} (member : c ∈ cmps)
    (follows : OperandEnd rest) (lexes : Lexes S semi cmpExp rest toks) :
    Lexes S semi cmpExp (displayCmp c ++ rest) (.cmp c :: toks) := by
  obtain ⟨first, others, text, visible⟩ := prints.starts c member
  obtain ⟨left, reads, behind⟩ := prints.reads c member rest follows
  have plain := prints.plain c member rest follows
  have unspaced : multispace0 (displayCmp c ++ rest) = displayCmp c ++ rest := by
    rw [text, List.cons_append]
    exact multispace0_cons visible _
  refine .cmp ?_ ?_ ?_ (lexes.multispace0 behind)
  · rw [unspaced, text]
    exact List.cons_ne_nil _ _
  · rw [unspaced]
    exact plain
  · rw [unspaced]
    exact reads

/-- Brackets around a text that lexes. -/
theorem lexes_bracket (known : SymbolSet S) (prints : PrintsTokens S semi cmpExp displayCmp cmps)
    {text : List Char} {inner : List (CondToken C)}
    (body : ∀ {rest toks}, OperandEnd rest → Lexes S semi cmpExp rest toks →
      Lexes S semi cmpExp (text ++ rest) (inner ++ toks))
    (lexes : Lexes S semi cmpExp rest toks) :
    Lexes S semi cmpExp ('(' :: (text ++ ')' :: rest))
      (.sym .lparen :: (inner ++ .sym .rparen :: toks)) := by
  have closed : Lexes S semi cmpExp (')' :: rest) (.sym .rparen :: toks) :=
    lexes_symbol known prints .rparen (by decide) lexes
  exact lexes_symbol known prints .lparen (by decide) (body (.rparen rest) closed)

theorem lexes_displayRight (known : SymbolSet S)
    (prints : PrintsTokens S semi cmpExp displayCmp cmps) {e : Expression C} {text : List Char}
    {inner : List (CondToken C)}
    (body : ∀ {rest toks}, OperandEnd rest → Lexes S semi cmpExp rest toks →
      Lexes S semi cmpExp (text ++ rest) (inner ++ toks))
    (follows : OperandEnd rest) (lexes : Lexes S semi cmpExp rest toks) :
    Lexes S semi cmpExp (e.displayRight text ++ rest) (e.bracketTokens inner ++ toks) := by
  have bracketed : Lexes S semi cmpExp (' ' :: '(' :: (text ++ [')']) ++ rest)
      (.sym .lparen :: (inner ++ [.sym .rparen]) ++ toks) := by
    have lexed := (lexes_bracket known prints body lexes).space
    simpa using lexed
  cases e with
  | compare cmp => exact (body follows lexes).space
  | logic op left right =>
    cases op with
    | not => exact body follows lexes
    | and => exact bracketed
    | or => exact bracketed

theorem lexes_displayLeft (known : SymbolSet S)
    (prints : PrintsTokens S semi cmpExp displayCmp cmps) {e : Expression C} {text : List Char}
    {inner : List (CondToken C)}
    (body : ∀ {rest toks}, OperandEnd rest → Lexes S semi cmpExp rest toks →
      Lexes S semi cmpExp (text ++ rest) (inner ++ toks))
    (lexes : Lexes S semi cmpExp rest toks) :
    Lexes S semi cmpExp (e.displayLeft text ++ rest) (e.bracketTokens inner ++ toks) := by
  have bracketed : Lexes S semi cmpExp ('(' :: (text ++ [')', ' ']) ++ rest)
      (.sym .lparen :: (inner ++ [.sym .rparen]) ++ toks) := by
    have lexed := lexes_bracket known prints body lexes.space
    simpa using lexed
  have spaced : Lexes S semi cmpExp (text ++ [' '] ++ rest) (inner ++ toks) := by
    have lexed := body (.space rest) lexes.space
    simpa using lexed
  cases e with
  | compare cmp => exact spaced
  | logic op left right =>
    cases op with
    | not => exact spaced
    | and => exact bracketed
    | or => exact bracketed

theorem symbolLogic_eq (S : LogicSymbols) (op : LogicOperator) :
    S.symbolLogic op = op.symbol.text S := by
  cases op <;> rfl

/-- The printed text of an expression has its printed tokens. -/
theorem Expression.Full.lexes_display (known : SymbolSet S) {e : Expression C} (full : e.Full)
    (prints : PrintsTokens S semi cmpExp displayCmp cmps) (members : e.comparisons ⊆ cmps)
    {rest : List Char} {toks : List (CondToken C)} (follows : OperandEnd rest)
    (lexes : Lexes S semi cmpExp rest toks) :
    Lexes S semi cmpExp (e.display S displayCmp ++ rest) (e.printedTokens ++ toks) := by
  induction full generalizing rest toks with
  | compare cmp => exact lexes_cmp prints (members (List.mem_singleton_self cmp)) follows lexes
  | @not right operand ih =>
    have behind := lexes_displayRight (e := right) known prints (ih members) follows lexes
    rw [display, symbolLogic_eq, List.append_assoc]
    exact lexes_symbol known prints .not (by decide) behind
  | @and left right first second ih₁ ih₂ =>
    obtain ⟨members₁, members₂⟩ := List.append_subset.mp members
    have behind := lexes_displayRight (e := right) known prints (ih₂ members₂) follows lexes
    have operator := lexes_symbol known prints .and (by decide) behind
    have whole := lexes_displayLeft (e := left) known prints (ih₁ members₁) operator
    simpa [display, printedTokens, symbolLogic_eq, LogicOperator.symbol] using whole
  | @or left right first second ih₁ ih₂ =>
    obtain ⟨members₁, members₂⟩ := List.append_subset.mp members
    have behind := lexes_displayRight (e := right) known prints (ih₂ members₂) follows lexes
    have operator := lexes_symbol known prints .or (by decide) behind
    have whole := lexes_displayLeft (e := left) known prints (ih₁ members₁) operator
    simpa [display, printedTokens, symbolLogic_eq, LogicOperator.symbol] using whole

end Lexing

section Negations
variable {C : Type}

theorem Expression.infix_bracketTokens (e : Expression C) (toks : List (CondToken C)) :
    toks <:+: e.bracketTokens toks := by
  cases e with
  | compare cmp => exact List.infix_rfl
  | logic op left right =>
    cases op with
    | not => exact List.infix_rfl
    | and => exact ⟨[.sym .lparen], [.sym .rparen], rfl⟩
    | or => exact ⟨[.sym .lparen], [.sym .rparen], rfl⟩

theorem Expression.infix_of_left (op : LogicOperator) (left right : Expression C) :
    left.printedTokens <:+: (logic op (some left) right).printedTokens :=
  (left.infix_bracketTokens _).trans (List.prefix_append _ _).isInfix

theorem Expression.infix_of_right (op : LogicOperator) (left : Option (Expression C))
    (right : Expression C) : right.printedTokens <:+: (logic op left right).printedTokens := by
  have behind := (right.infix_bracketTokens right.printedTokens).trans
    (List.suffix_cons (.sym op.symbol) _).isInfix
  cases left with
  | none => exact behind
  | some left => exact behind.trans (List.suffix_append _ _).isInfix

theorem Expression.Full.printed_not_not {e : Expression C} (full : e.Full)
    (double : e.singleNots = false) : [.sym .not, .sym .not] <:+: e.printedTokens := by
  induction full with
  | compare cmp => cases double
  | @not right operand ih =>
    cases under : right.isNot with
    | false =>
      rw [singleNots, under] at double
      exact (ih double).trans (infix_of_right .not none right)
    | true =>
      cases operand with
      | @not inner deep => exact ⟨[], inner.bracketTokens inner.printedTokens, rfl⟩
      | compare cmp => cases under
      | and first second => cases under
      | or first second => cases under
  | @and left right first second ih₁ ih₂ =>
    rcases Bool.and_eq_false_iff.mp double with inside | inside
    · exact (ih₁ inside).trans (infix_of_left .and left right)
    · exact (ih₂ inside).trans (infix_of_right .and (some left) right)
  | @or left right first second ih₁ ih₂ =>
    rcases Bool.and_eq_false_iff.mp double with inside | inside
    · exact (ih₁ inside).trans (infix_of_left .or left right)
    · exact (ih₂ inside).trans (infix_of_right .or (some left) right)

/-- `not` takes one operand: a second `not` behind it is an error wherever it stands. -/
theorem readTokens_not_not (ends : Bool) (before behind : List (CondToken C))
    (stopless : .sym .stop ∉ before) (calls : List (CondCall C)) (negated : Bool)
    (left : Option (Expression C)) :
    readTokens ends calls negated left (before ++ .sym .not :: .sym .not :: behind) = none := by
  induction before generalizing calls negated left with
  | nil => cases negated <;> simp [readTokens]
  | cons tok before ih =>
    rw [List.mem_cons, not_or] at stopless
    obtain ⟨other, stopless⟩ := stopless
    have later := ih stopless
    cases negated with
    | true =>
      cases tok with
      | cmp c => exact later ..
      | bad => rfl
      | sym s => cases s <;> first | exact later .. | rfl
    | false =>
      cases tok with
      | cmp c => exact later ..
      | bad => rfl
      | sym s =>
        cases s with
        | lparen => exact later ..
        | not => exact later ..
        | and => exact later ..
        | stop => exact absurd rfl other
        | or =>
          rw [List.cons_append, readTokens]
          cases endAndCalls ends calls left with
          | none => rfl
          | some open_ => exact later ..
        | rparen =>
          cases calls with
          | nil => rfl
          | cons call calls =>
            cases left with
            | none => rfl
            | some e =>
              rw [List.cons_append, readTokens]
              split
              · exact later ..
              · rfl

theorem Expression.Full.stop_not_printed {e : Expression C} (full : e.Full) :
    .sym .stop ∉ e.printedTokens := by
  have brackets {e : Expression C} {toks : List (CondToken C)} (stopless : .sym .stop ∉ toks) :
      .sym .stop ∉ e.bracketTokens toks := by
    cases e with
    | compare cmp => exact stopless
    | logic op left right => cases op <;> simp [bracketTokens, stopless]
  induction full with
  | compare cmp => simp [printedTokens]
  | not operand ih => simp [printedTokens, LogicOperator.symbol, brackets ih]
  | and first second ih₁ ih₂ =>
    simp [printedTokens, LogicOperator.symbol, brackets ih₁, brackets ih₂]
  | or first second ih₁ ih₂ =>
    simp [printedTokens, LogicOperator.symbol, brackets ih₁, brackets ih₂]

end Negations

section Returned
variable {C : Type}

def FullFrame : Frame (Expression C) → Prop
  | .and left => left.Full
  | .or left => left.Full
  | .group _ => True

theorem full_close (frame : Frame (Expression C)) {e : Expression C} (waits : FullFrame frame)
    (full : e.Full) : (exprOps.close frame e).Full := by
  cases frame with
  | and left => exact .and waits full
  | or left => exact .or waits full
  | group negated =>
    cases negated with
    | false => exact full
    | true => exact .not full

theorem full_unwind {frames : List (Frame (Expression C))} {e : Expression C}
    (waits : ∀ frame ∈ frames, FullFrame frame) (full : e.Full) :
    (exprOps.unwind frames e).Full := by
  induction frames generalizing e with
  | nil => exact full
  | cons frame rest ih =>
    obtain ⟨first, others⟩ := List.forall_mem_cons.mp waits
    exact ih others (full_close frame first full)

theorem full_endAnds {frames : List (Frame (Expression C))} {e : Expression C}
    (waits : ∀ frame ∈ frames, FullFrame frame) (full : e.Full) :
    (∀ frame ∈ (exprOps.endAnds frames e).1, FullFrame frame) ∧
      (exprOps.endAnds frames e).2.Full := by
  induction frames generalizing e with
  | nil => exact ⟨waits, full⟩
  | cons frame rest ih =>
    cases frame with
    | and left =>
      obtain ⟨first, others⟩ := List.forall_mem_cons.mp waits
      exact ih others (.and first full)
    | or left => exact ⟨waits, full⟩
    | group negated => exact ⟨waits, full⟩

/-- Everything read from a tree has its left sides. -/
theorem full_residual {level : CondLevel} (t : Cond C level) :
    (∀ frame ∈ (exprOps.residual t).1, FullFrame frame) ∧ (exprOps.residual t).2.Full := by
  induction t with
  | cmp negated c =>
    refine ⟨fun _ member => absurd member List.not_mem_nil, ?_⟩
    exact full_close (.group negated) trivial (.compare c)
  | lastAnd operand ih => exact ih
  | lastOr operand ih => exact ih
  | group negated body ih =>
    obtain ⟨waits, full⟩ := ih
    rw [LogicOps.residual]
    cases open_ : exprOps.residual body with
    | mk frames e =>
      rw [open_] at waits full
      cases frames with
      | nil =>
        refine ⟨fun _ member => absurd member List.not_mem_nil, ?_⟩
        exact full_close (.group negated) trivial full
      | cons frame rest =>
        obtain ⟨first, others⟩ := List.forall_mem_cons.mp waits
        refine ⟨?_, full_close frame first full⟩
        exact List.forall_mem_append.mpr ⟨others, List.forall_mem_singleton.mpr trivial⟩
  | and operand rest ih₁ ih₂ =>
    refine ⟨?_, ih₂.2⟩
    exact List.forall_mem_append.mpr ⟨ih₂.1, List.forall_mem_cons.mpr ⟨ih₁.2, ih₁.1⟩⟩
  | or operand rest ih₁ ih₂ =>
    refine ⟨?_, ih₂.2⟩
    have ended := full_endAnds ih₁.1 ih₁.2
    exact List.forall_mem_append.mpr ⟨ih₂.1, List.forall_mem_cons.mpr ⟨ended.2, ended.1⟩⟩

end Returned

section ReadBack
variable {C : Type} {S : LogicSymbols} {semi : Bool} {cmpExp : CmpExp C}
  {displayCmp : C → List Char}

/-- What the parser returns from some text of the grammar, at whose end a stop may stand. -/
def Returned (S : LogicSymbols) (semi : Bool) (cmpExp : CmpExp C) (e : Expression C) : Prop :=
  ∃ text, ∃ t : Cond C .or, ∃ stops : List (CondToken C), (stops = [] ∨ stops = [.sym .stop]) ∧
    Lexes S semi cmpExp text (t.tokens ++ stops) ∧
      ∃ rest, Yields (fun fuel => parseCondition S semi cmpExp fuel text) (e, rest)

theorem readTokens_stopped {ends : Bool} {frames : List (Frame (Expression C))}
    {e e' : Expression C} {stops : List (CondToken C)} (ending : stops = [] ∨ stops = [.sym .stop])
    (read : readTokens ends (fullCalls frames) false (some e) stops = some e') :
    e' = exprOps.unwind frames e := by
  rcases ending with rfl | rfl
  · rw [readTokens, Option.map_some, unwindCalls_full] at read
    exact (Option.some.inj read).symm
  · cases frames with
    | nil => exact (Option.some.inj read).symm
    | cons frame frames =>
      rw [fullCalls, List.map_cons, readTokens] at read
      split at read
      · cases read
      · rw [close_full, readTokens, Option.map_some] at read
        have unwound := unwindCalls_full frames (exprOps.close frame e)
        exact (Option.some.inj read).symm.trans unwound

theorem Returned.full (known : SymbolSet S) {e : Expression C}
    (returned : Returned S semi cmpExp e) : e.Full := by
  obtain ⟨text, t, stops, ending, lexes, yields⟩ := returned
  have read := (parseCondition_iff_readTokens known lexes e).mp yields
  rw [readTokens_tree (endsAnds S) t [] none (fun _ => rfl) stops] at read
  split at read
  · rw [List.append_nil] at read
    rw [readTokens_stopped ending read]
    exact full_unwind (full_residual t).1 (full_residual t).2
  · cases read

/-- Parsing the printed text of `e` gives an expression that has the value of `e` for every
    outcome of the comparisons. -/
def ReadsBack (S : LogicSymbols) (semi : Bool) (cmpExp : CmpExp C) (displayCmp : C → List Char)
    (e : Expression C) : Prop :=
  ∃ e', (∃ rest, Yields (fun fuel => parseCondition S semi cmpExp fuel (e.display S displayCmp))
    (e', rest)) ∧ ∀ truth, e'.evaluate truth = e.evaluate truth

theorem readsBack_iff_readTokens (known : SymbolSet S) {e : Expression C} (full : e.Full)
    (prints : PrintsTokens S semi cmpExp displayCmp e.comparisons) :
    ReadsBack S semi cmpExp displayCmp e ↔
      ∃ e', readTokens (endsAnds S) [] false none e.printedTokens = some e' ∧
        ∀ truth, e'.evaluate truth = e.evaluate truth := by
  have lexes : Lexes S semi cmpExp (e.display S displayCmp) e.printedTokens := by
    have nothing : Lexes S semi cmpExp [] [] := .done rfl
    simpa using full.lexes_display known prints (List.Subset.refl _) .ended nothing
  unfold ReadsBack
  simp only [parseCondition_iff_readTokens known lexes]

end ReadBack

section Digits

theorem digit_prints (cmps : List Char) :
    PrintsTokens rustSymbol false digitCmp digitText cmps := by
  refine ⟨?_, fun _ _ _ _ => rfl, fun _ _ rest _ => ⟨rest, rfl, rfl⟩, ?_⟩
  · intro c _
    exact ⟨'$', _, rfl, by decide⟩
  · intro s rest _
    cases s <;> rfl

theorem rust_known : SymbolSet rustSymbol := .inl rfl

theorem returned_of_read {text : List Char} {t : Cond Char .or} {e : Expression Char}
    (lexes : Lexes rustSymbol false digitCmp text t.tokens)
    (read : readTokens true [] false none t.tokens = some e) :
    Returned rustSymbol false digitCmp e :=
  ⟨text, t, [], .inl rfl, by rwa [List.append_nil],
    (parseCondition_iff_readTokens rust_known lexes e).mpr read⟩

theorem lexes_digit {c : Char} {rest : List Char} {toks : List (CondToken Char)}
    (follows : OperandEnd rest) (lexes : Lexes rustSymbol false digitCmp rest toks) :
    Lexes rustSymbol false digitCmp (digitText c ++ rest) (.cmp c :: toks) :=
  lexes_cmp (digit_prints [c]) (List.mem_singleton_self c) follows lexes

theorem lexes_rust (s : CondSymbol) (other : s ≠ .stop) {rest : List Char}
    {toks : List (CondToken Char)} (lexes : Lexes rustSymbol false digitCmp rest toks) :
    Lexes rustSymbol false digitCmp (s.text rustSymbol ++ rest) (.sym s :: toks) :=
  lexes_symbol rust_known (digit_prints []) s other lexes

end Digits
end WarpMotor
