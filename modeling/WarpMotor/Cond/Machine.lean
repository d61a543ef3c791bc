import WarpMotor.Cond.Tokens

/-!
The loops of the parser on a text do what `readTokens` does on its tokens.
Each loop has one lemma for each symbol; `Reads` is the parser in the middle of
a text, with the calls that wait, and `reads_tokens` is the induction.
-/
namespace WarpMotor
open BoolFrames Fuel

section Symbols
variable {S : LogicSymbols}

theorem peekStr_text (known : SymbolSet S) (s s' : CondSymbol) (rest : List Char) :
    peekStr (s.text S) (s'.text S ++ rest) = decide (s = s') := by
  rcases known with rfl | rfl <;> cases s <;> cases s' <;> rfl

theorem peekStr_bars (known : SymbolSet S) (s : CondSymbol) (rest : List Char) :
    peekStr ['|', '|'] (s.text S ++ rest) = (endsAnds S && decide (s = .or)) := by
  rcases known with rfl | rfl <;> cases s <;> rfl

theorem multispace0_text (known : SymbolSet S) (s : CondSymbol) (rest : List Char) :
    multispace0 (s.text S ++ rest) = s.text S ++ rest := by
  rcases known with rfl | rfl <;> cases s <;> exact multispace0_cons (by decide) _

theorem text_isEmpty (known : SymbolSet S) (s : CondSymbol) (rest : List Char) :
    (s.text S ++ rest).isEmpty = false := by
  rcases known with rfl | rfl <;> cases s <;> rfl

theorem literal_text (known : SymbolSet S) (s : CondSymbol) (rest : List Char) :
    literal (s.text S) (s.text S ++ rest) = some rest := by
  rw [literal, peekStr_text known, decide_eq_true rfl, if_pos rfl, List.drop_left]

theorem symbol_text (known : SymbolSet S) (s : CondSymbol) (rest : List Char) :
    symbol (s.text S) (s.text S ++ rest) = some rest := by
  rw [symbol, multispace0_text known, literal_text known]

def stopText (S : LogicSymbols) (stop : Option CondSymbol) : Option (List Char) :=
  stop.map (CondSymbol.text S)

theorem peekStop_text (known : SymbolSet S) (stop : Option CondSymbol) (s : CondSymbol)
    (rest : List Char) : peekStop (stopText S stop) (s.text S ++ rest) = decide (stop = some s) := by
  cases stop with
  | none => rfl
  | some what =>
    rw [stopText, Option.map_some, peekStop, peekStr_text known]
    simp

end Symbols

section Loops
variable {C : Type} {S : LogicSymbols} (cmpExp : CmpExp C)

/-- The loop of a call: `lev1_exp` under `and`, else `lev2_exp`. -/
def levelExp (S : LogicSymbols) (cmpExp : CmpExp C) (inAnd : Bool) (stop : Option CondSymbol)
    (left : Option (Expression C)) (data : List Char) (fuel : Nat) :
    Option (Expression C × List Char) :=
  if inAnd then lev1Exp S cmpExp fuel (stopText S stop) left data
  else lev2Exp S cmpExp fuel (stopText S stop) left data

variable (inAnd : Bool) {stop : Option CondSymbol} (left : Option (Expression C))
  {data rest : List Char}

theorem levelExp_multispace0 {data' : List Char} (same : multispace0 data = multispace0 data')
    (fuel : Nat) :
    levelExp S cmpExp inAnd stop left data fuel = levelExp S cmpExp inAnd stop left data' fuel := by
  unfold levelExp
  cases fuel with
  | zero => cases inAnd <;> simp [lev1Exp, lev2Exp]
  | succ fuel => cases inAnd <;> simp [lev1Exp, lev2Exp, same]

theorem levelExp_done (ended : multispace0 data = []) (fuel : Nat) :
    levelExp S cmpExp inAnd stop left data (fuel + 1) = left.map fun e => (e, []) := by
  cases inAnd <;> simp [levelExp, lev1Exp, lev2Exp, ended, loopEnd]

theorem levelExp_stop (known : SymbolSet S) {s : CondSymbol} (stops : stop = some s)
    (starts : multispace0 data = s.text S ++ rest) (fuel : Nat) :
    levelExp S cmpExp inAnd stop left data (fuel + 1) = left.map fun e => (e, rest) := by
  have returns : peekStop (stopText S stop) (s.text S ++ rest) = true := by
    rw [peekStop_text known, decide_eq_true stops]
  have passes : literalStop (stopText S stop) (s.text S ++ rest) = some rest := by
    rw [stops]
    exact literal_text known s rest
  cases inAnd <;>
    simp [levelExp, lev1Exp, lev2Exp, starts, text_isEmpty known, returns, passes, loopEnd]

/-- What the tests of a loop find at a symbol that does not stop it. -/
structure Passed (S : LogicSymbols) (stop : Option CondSymbol) (s : CondSymbol) (data : List Char) :
    Prop where
  goes_on : peekStop (stopText S stop) data = false
  lparen : peekStr ['('] data = decide (.lparen = s)
  not : peekStr S.not data = decide (.not = s)
  and : peekStr S.and data = decide (.and = s)
  or : peekStr S.or data = decide (.or = s)
  bars : peekStr ['|', '|'] data = (endsAnds S && decide (s = .or))
  some_text : data.isEmpty = false

theorem passed (rest : List Char) (known : SymbolSet S) {s : CondSymbol} (goes_on : stop ≠ some s) :
    Passed S stop s (s.text S ++ rest) := by
  refine ⟨?_, peekStr_text known .lparen s rest, peekStr_text known .not s rest,
    peekStr_text known .and s rest, peekStr_text known .or s rest, peekStr_bars known s rest,
    text_isEmpty known s rest⟩
  rw [peekStop_text known, decide_eq_false goes_on]

/-- `)` and `;` go to the comparison parser where they do not stop the loop. -/
theorem levelExp_stray (known : SymbolSet S) {s : CondSymbol} (goes_on : stop ≠ some s)
    (starts : multispace0 data = s.text S ++ rest) (noCmp : cmpExp (multispace0 data) = none)
    (stray : s = .rparen ∨ s = .stop) (fuel : Nat) :
    levelExp S cmpExp inAnd stop left data (fuel + 1) = none := by
  obtain ⟨stop_, lparen, not, and, or, bars, some_text⟩ := passed rest known goes_on
  rw [starts] at noCmp
  rcases stray with rfl | rfl <;>
    cases inAnd <;>
      simp [levelExp, lev1Exp, lev2Exp, starts, stop_, lparen, not, and, or, bars, some_text, noCmp]

theorem levelExp_lparen (known : SymbolSet S) (goes_on : stop ≠ some .lparen)
    (starts : multispace0 data = CondSymbol.lparen.text S ++ rest) (fuel : Nat) :
    levelExp S cmpExp inAnd stop left data (fuel + 1) =
      (groupExp S cmpExp fuel (CondSymbol.lparen.text S ++ rest)).bind fun read =>
        levelExp S cmpExp inAnd stop (some read.1) read.2 fuel := by
  obtain ⟨stop_, lparen, not, and, or, bars, some_text⟩ := passed rest known goes_on
  cases inAnd <;> simp [levelExp, lev1Exp, lev2Exp, starts, stop_, lparen, some_text, bind]

theorem levelExp_not (known : SymbolSet S) (goes_on : stop ≠ some .not)
    (starts : multispace0 data = CondSymbol.not.text S ++ rest) (fuel : Nat) :
    levelExp S cmpExp inAnd stop left data (fuel + 1) =
      (lev0Exp S cmpExp fuel (stopText S stop) rest).bind fun read =>
        levelExp S cmpExp inAnd stop (some (.logic .not none read.1)) read.2 fuel := by
  obtain ⟨stop_, lparen, not, and, or, bars, some_text⟩ := passed rest known goes_on
  have reads : symbol S.not (CondSymbol.not.text S ++ rest) = some rest := symbol_text known .not rest
  cases inAnd <;>
    simp [levelExp, lev1Exp, lev2Exp, starts, stop_, lparen, not, some_text, reads, bind]

theorem levelExp_and (known : SymbolSet S) (goes_on : stop ≠ some .and)
    (starts : multispace0 data = CondSymbol.and.text S ++ rest) (fuel : Nat) :
    levelExp S cmpExp inAnd stop left data (fuel + 1) =
      (levelExp S cmpExp true stop none rest fuel).bind fun read =>
        levelExp S cmpExp inAnd stop (some (.logic .and left read.1)) read.2 fuel := by
  obtain ⟨stop_, lparen, not, and, or, bars, some_text⟩ := passed rest known goes_on
  have reads : symbol S.and (CondSymbol.and.text S ++ rest) = some rest := symbol_text known .and rest
  cases inAnd <;>
    simp [levelExp, lev1Exp, lev2Exp, starts, stop_, lparen, not, and, some_text, reads, bind]

theorem levelExp_or (known : SymbolSet S) (goes_on : stop ≠ some .or)
    (starts : multispace0 data = CondSymbol.or.text S ++ rest) (fuel : Nat) :
    levelExp S cmpExp false stop left data (fuel + 1) =
      (levelExp S cmpExp false stop none rest fuel).bind fun read =>
        levelExp S cmpExp false stop (some (.logic .or left read.1)) read.2 fuel := by
  obtain ⟨stop_, lparen, not, and, or, bars, some_text⟩ := passed rest known goes_on
  have reads : symbol S.or (CondSymbol.or.text S ++ rest) = some rest := symbol_text known .or rest
  simp [levelExp, lev2Exp, starts, stop_, lparen, not, and, or, some_text, reads, bind]

/-- `or` ends the loop of `lev1_exp` or is unknown to it. -/
theorem levelExp_endAnd (known : SymbolSet S) (goes_on : stop ≠ some .or)
    (starts : multispace0 data = CondSymbol.or.text S ++ rest)
    (noCmp : cmpExp (multispace0 data) = none) (fuel : Nat) :
    levelExp S cmpExp true stop left data (fuel + 1) =
      if endsAnds S then left.map fun e => (e, CondSymbol.or.text S ++ rest) else none := by
  obtain ⟨stop_, lparen, not, and, or, bars, some_text⟩ := passed rest known goes_on
  rw [starts] at noCmp
  cases ends : endsAnds S <;>
    simp [levelExp, lev1Exp, starts, stop_, lparen, not, and, bars, some_text, noCmp, ends, loopEnd]

/-- What the tests of a loop find at a text that begins with no symbol. -/
theorem plain_passed (known : SymbolSet S) {semi : Bool} {text : List Char}
    (stops : stop = none ∨ stop = some .rparen ∨ (semi = true ∧ stop = some .stop))
    (plain : startsSymbol S semi text = false) :
    peekStop (stopText S stop) text = false ∧ peekStr ['('] text = false ∧
      peekStr S.not text = false ∧ peekStr S.and text = false ∧ peekStr S.or text = false ∧
        peekStr ['|', '|'] text = false := by
  simp only [startsSymbol, Bool.or_eq_false_iff, Bool.and_eq_false_iff] at plain
  obtain ⟨⟨⟨⟨⟨⟨lparen, rparen⟩, not⟩, and⟩, or⟩, bars⟩, semicolon⟩ := plain
  refine ⟨?_, lparen, not, and, or, bars⟩
  rcases stops with rfl | rfl | ⟨rfl, rfl⟩
  · rfl
  · exact rparen
  · simpa [stopText, peekStop, CondSymbol.text] using semicolon

theorem levelExp_cmp (known : SymbolSet S) {semi : Bool}
    (stops : stop = none ∨ stop = some .rparen ∨ (semi = true ∧ stop = some .stop))
    (visible : multispace0 data ≠ []) (plain : startsSymbol S semi (multispace0 data) = false)
    (fuel : Nat) :
    levelExp S cmpExp inAnd stop left data (fuel + 1) =
      (cmpExp (multispace0 data)).bind fun read =>
        levelExp S cmpExp inAnd stop (some (.compare read.1)) read.2 fuel := by
  obtain ⟨stop_, lparen, not, and, or, bars⟩ := plain_passed known stops plain
  have some_text : (multispace0 data).isEmpty = false := by simpa using visible
  cases inAnd <;>
    simp [levelExp, lev1Exp, lev2Exp, stop_, lparen, not, and, or, bars, some_text, bind]

theorem groupExp_text (known : SymbolSet S) (fuel : Nat) :
    groupExp S cmpExp (fuel + 1) (CondSymbol.lparen.text S ++ rest) =
      levelExp S cmpExp false (some .rparen) none rest fuel := by
  have reads : symbol ['('] (multispace0 (CondSymbol.lparen.text S ++ rest)) = some rest := by
    rw [multispace0_text known]
    exact symbol_text known .lparen rest
  rw [groupExp, reads]
  rfl

theorem lev0Exp_done (ended : multispace0 data = []) (fuel : Nat) :
    lev0Exp S cmpExp (fuel + 1) (stopText S stop) data = none := by
  simp [lev0Exp, ended]

theorem lev0Exp_lparen (known : SymbolSet S) (goes_on : stop ≠ some .lparen)
    (starts : multispace0 data = CondSymbol.lparen.text S ++ rest) (fuel : Nat) :
    lev0Exp S cmpExp (fuel + 1) (stopText S stop) data =
      groupExp S cmpExp fuel (CondSymbol.lparen.text S ++ rest) := by
  obtain ⟨stop_, lparen, not, and, or, bars, some_text⟩ := passed rest known goes_on
  simp [lev0Exp, starts, stop_, lparen, some_text]

/-- No other symbol begins an operand. -/
theorem lev0Exp_symbol (known : SymbolSet S) {s : CondSymbol} (other : s ≠ .lparen)
    (starts : multispace0 data = s.text S ++ rest) (noCmp : cmpExp (multispace0 data) = none)
    (fuel : Nat) : lev0Exp S cmpExp (fuel + 1) (stopText S stop) data = none := by
  rw [starts] at noCmp
  by_cases stops : stop = some s
  · have returns : peekStop (stopText S stop) (s.text S ++ rest) = true := by
      rw [peekStop_text known, decide_eq_true stops]
    simp [lev0Exp, starts, text_isEmpty known, returns]
  · obtain ⟨stop_, lparen, not, and, or, bars, some_text⟩ := passed rest known stops
    simp [lev0Exp, starts, stop_, lparen, some_text, noCmp, other.symm]

theorem lev0Exp_plain (known : SymbolSet S) {semi : Bool}
    (stops : stop = none ∨ stop = some .rparen ∨ (semi = true ∧ stop = some .stop))
    (visible : multispace0 data ≠ []) (plain : startsSymbol S semi (multispace0 data) = false)
    (fuel : Nat) :
    lev0Exp S cmpExp (fuel + 1) (stopText S stop) data =
      (cmpExp (multispace0 data)).map fun read => (.compare read.1, read.2) := by
  obtain ⟨stop_, lparen, not, and, or, bars⟩ := plain_passed known stops plain
  have some_text : (multispace0 data).isEmpty = false := by simpa using visible
  simp only [lev0Exp, stop_, lparen, some_text, Bool.false_eq_true, if_false]
  cases cmpExp (multispace0 data) <;> rfl

end Loops

section Calls
variable {C : Type} (S : LogicSymbols) (semi : Bool) (cmpExp : CmpExp C)

/-- Inside a group every call stops at `)`, outside at the stop of the whole text. -/
def stopSymbol (calls : List (CondCall C)) : Option CondSymbol :=
  if inGroup calls then some .rparen else if semi then some .stop else none

def callLoop (calls : List (CondCall C)) (left : Option (Expression C)) (data : List Char)
    (fuel : Nat) : Option (Expression C × List Char) :=
  levelExp S cmpExp (inAndCall calls) (stopSymbol semi calls) left data fuel

/-- `result` is what comes of the outcome of the innermost call: it fails with the call, or the
    calls below go on with what it returns. -/
def GoesOn (calls : Expression C → List Char → Option (Expression C) → Prop) :
    Option (Expression C × List Char) → Option (Expression C) → Prop
  | none, result => result = none
  | some (e, rest), result => calls e rest result

/-- The innermost call goes on with `left` and `data`, each call returns to the next, and the
    outermost returns `result`, an expression or a failure. -/
def Reads : List (CondCall C) → Option (Expression C) → List Char → Option (Expression C) → Prop
  | [], left, data, result =>
    ∃ outcome, Settles (callLoop S semi cmpExp [] left data) outcome ∧
      GoesOn (fun e _ result => result = some e) outcome result
  | call :: calls, left, data, result =>
    ∃ outcome, Settles (callLoop S semi cmpExp (call :: calls) left data) outcome ∧
      GoesOn (fun e rest => Reads calls (some (CondCall.close call e)) rest) outcome result

/-- As `Reads`, in the middle of the call for the operand of `not`. -/
def ReadsNot (calls : List (CondCall C)) (data : List Char) (result : Option (Expression C)) :
    Prop :=
  ∃ outcome,
    Settles (fun fuel => lev0Exp S cmpExp fuel (stopText S (stopSymbol semi calls)) data) outcome ∧
      GoesOn (fun e rest => Reads S semi cmpExp calls (some (.logic .not none e)) rest)
        outcome result

variable {S semi cmpExp} {calls : List (CondCall C)} {left : Option (Expression C)}
  {data rest : List Char} {result : Option (Expression C)}

theorem stopSymbol_known (semi : Bool) (calls : List (CondCall C)) :
    stopSymbol semi calls = none ∨ stopSymbol semi calls = some .rparen ∨
      (semi = true ∧ stopSymbol semi calls = some .stop) := by
  unfold stopSymbol
  cases inGroup calls <;> cases semi <;> simp

theorem stopSymbol_ne (semi : Bool) {s : CondSymbol} (calls : List (CondCall C)) (other : s ≠ .rparen)
    (other' : s ≠ .stop) : stopSymbol semi calls ≠ some s := by
  rcases stopSymbol_known semi calls with stop | stop | ⟨-, stop⟩ <;>
    simp [stop, other.symm, other'.symm]

/-- Only the innermost loop looks at the text. -/
theorem Reads.of_top {left' : Option (Expression C)} {data' : List Char}
    (reads : Reads S semi cmpExp calls left' data' result)
    (top : ∀ outcome, Settles (callLoop S semi cmpExp calls left' data') outcome →
      Settles (callLoop S semi cmpExp calls left data) outcome) :
    Reads S semi cmpExp calls left data result := by
  cases calls with
  | nil =>
    obtain ⟨outcome, settles, goes_on⟩ := reads
    exact ⟨outcome, top outcome settles, goes_on⟩
  | cons call rest =>
    obtain ⟨outcome, settles, goes_on⟩ := reads
    exact ⟨outcome, top outcome settles, goes_on⟩

theorem Reads.of_fails (fails : Settles (callLoop S semi cmpExp calls left data) none) :
    Reads S semi cmpExp calls left data none := by
  cases calls with
  | nil => exact ⟨none, fails, rfl⟩
  | cons call rest => exact ⟨none, fails, rfl⟩

theorem Reads.multispace0 {data' : List Char}
    (reads : Reads S semi cmpExp calls left data' result)
    (same : WarpMotor.multispace0 data = WarpMotor.multispace0 data') :
    Reads S semi cmpExp calls left data result := by
  refine reads.of_top ?_
  intro outcome settles
  have equal : callLoop S semi cmpExp calls left data = callLoop S semi cmpExp calls left data' := by
    funext fuel
    exact levelExp_multispace0 cmpExp _ left same fuel
  rw [equal]
  exact settles

/-- A loop calls `callee` and goes on with what the callee's operand closes to. -/
theorem Reads.of_callee {callee : Nat → Option (Expression C × List Char)}
    {close : Expression C → Expression C}
    (unfolds : ∀ fuel, callLoop S semi cmpExp calls left data (fuel + 1) =
      (callee fuel).bind fun read =>
        callLoop S semi cmpExp calls (some (close read.1)) read.2 fuel)
    {outcome : Option (Expression C × List Char)} (settles : Settles callee outcome)
    (goes_on : GoesOn (fun e rest => Reads S semi cmpExp calls (some (close e)) rest)
      outcome result) :
    Reads S semi cmpExp calls left data result := by
  cases outcome with
  | none =>
    have failed : result = none := goes_on
    rw [failed]
    exact .of_fails ((Settles.bind_none _ settles).step unfolds)
  | some read =>
    have reads : Reads S semi cmpExp calls (some (close read.1)) read.2 result := goes_on
    refine reads.of_top ?_
    intro later settles'
    exact (Settles.bind_some settles settles').step unfolds

/-- The calls for the right side of an operator and for a group. -/
theorem Reads.of_call (call : CondCall C) {data' : List Char}
    {callee : Nat → Option (Expression C × List Char)}
    (unfolds : ∀ fuel, callLoop S semi cmpExp calls left data (fuel + 1) =
      (callee fuel).bind fun read =>
        callLoop S semi cmpExp calls (some (CondCall.close call read.1)) read.2 fuel)
    (same : ∀ outcome, Settles (callLoop S semi cmpExp (call :: calls) none data') outcome →
      Settles callee outcome)
    (reads : Reads S semi cmpExp (call :: calls) none data' result) :
    Reads S semi cmpExp calls left data result := by
  obtain ⟨outcome, settles, goes_on⟩ := reads
  exact .of_callee unfolds (same outcome settles) goes_on

theorem stopSymbol_group (negated : Bool) (calls : List (CondCall C)) :
    stopSymbol semi (.group negated :: calls) = some .rparen := by
  cases negated <;> rfl

theorem Reads.done (calls : List (CondCall C)) (left : Option (Expression C))
    (ended : WarpMotor.multispace0 data = []) :
    Reads S semi cmpExp calls left data (left.map (unwindCalls calls)) := by
  induction calls generalizing left data with
  | nil =>
    refine ⟨left.map fun e => (e, []), Settles.const (levelExp_done cmpExp _ left ended), ?_⟩
    cases left <;> rfl
  | cons call rest ih =>
    refine ⟨left.map fun e => (e, []), Settles.const (levelExp_done cmpExp _ left ended), ?_⟩
    cases left with
    | none => rfl
    | some e => exact ih (some (CondCall.close call e)) rfl

section Symbols
variable {toks : List (CondToken C)}

/-- The text behind a symbol is read as its tokens are, whichever calls wait. -/
def TailReads (S : LogicSymbols) (semi : Bool) (cmpExp : CmpExp C) (rest : List Char)
    (toks : List (CondToken C)) : Prop :=
  ∀ calls left, Reads S semi cmpExp calls left rest (readTokens (endsAnds S) calls false left toks)

theorem settles_group (known : SymbolSet S) (negated : Bool) {outcome : Option (Expression C × List Char)}
    (settles : Settles (callLoop S semi cmpExp (.group negated :: calls) none rest) outcome) :
    Settles (fun fuel => groupExp S cmpExp fuel (CondSymbol.lparen.text S ++ rest)) outcome := by
  refine Settles.step (groupExp_text cmpExp known) ?_
  unfold callLoop at settles
  rw [stopSymbol_group] at settles
  exact settles

theorem Reads.lparen (known : SymbolSet S) (later : TailReads S semi cmpExp rest toks)
    (starts : WarpMotor.multispace0 data = CondSymbol.lparen.text S ++ rest)
    (calls : List (CondCall C)) (left : Option (Expression C)) :
    Reads S semi cmpExp calls left data
      (readTokens (endsAnds S) calls false left (.sym .lparen :: toks)) := by
  have unfolds := levelExp_lparen cmpExp (inAndCall calls) left known
    (stopSymbol_ne semi calls (by decide) (by decide)) starts
  exact .of_call (.group false) unfolds (fun _ => settles_group known false)
    (later (.group false :: calls) none)

theorem ReadsNot.lparen (known : SymbolSet S) (later : TailReads S semi cmpExp rest toks)
    (starts : WarpMotor.multispace0 data = CondSymbol.lparen.text S ++ rest)
    (calls : List (CondCall C)) (left : Option (Expression C)) :
    ReadsNot S semi cmpExp calls data
      (readTokens (endsAnds S) calls true left (.sym .lparen :: toks)) := by
  obtain ⟨outcome, settles, goes_on⟩ := later (.group true :: calls) none
  refine ⟨outcome, ?_, goes_on⟩
  exact (settles_group known true settles).step (lev0Exp_lparen cmpExp known
    (stopSymbol_ne semi calls (by decide) (by decide)) starts)

theorem Reads.and (known : SymbolSet S) (later : TailReads S semi cmpExp rest toks)
    (starts : WarpMotor.multispace0 data = CondSymbol.and.text S ++ rest)
    (calls : List (CondCall C)) (left : Option (Expression C)) :
    Reads S semi cmpExp calls left data
      (readTokens (endsAnds S) calls false left (.sym .and :: toks)) := by
  have unfolds := levelExp_and cmpExp (inAndCall calls) left known
    (stopSymbol_ne semi calls (by decide) (by decide)) starts
  exact .of_call (.and left) unfolds (fun _ settles => settles)
    (later (.and left :: calls) none)

/-- The calls for `and` on top of the others end before the call for `or` begins. -/
theorem Reads.or (known : SymbolSet S) (later : TailReads S semi cmpExp rest toks)
    (starts : WarpMotor.multispace0 data = CondSymbol.or.text S ++ rest)
    (noCmp : cmpExp (CondSymbol.or.text S ++ rest) = none)
    (calls : List (CondCall C)) (left : Option (Expression C)) :
    Reads S semi cmpExp calls left data
      (readTokens (endsAnds S) calls false left (.sym .or :: toks)) := by
  have goes_on (calls : List (CondCall C)) : stopSymbol semi calls ≠ some .or :=
    stopSymbol_ne semi calls (by decide) (by decide)
  have enters (calls : List (CondCall C)) (left : Option (Expression C)) (data : List Char)
      (starts : WarpMotor.multispace0 data = CondSymbol.or.text S ++ rest)
      (outside : inAndCall calls = false) :
      Reads S semi cmpExp calls left data
        (readTokens (endsAnds S) (.or left :: calls) false none toks) := by
    have unfolds := levelExp_or cmpExp left known (goes_on calls) starts
    refine .of_call (.or left) ?_ (fun _ settles => settles) (later (.or left :: calls) none)
    intro fuel
    unfold callLoop
    rw [outside]
    exact unfolds fuel
  induction calls generalizing left data with
  | nil => exact enters [] left data starts rfl
  | cons call calls ih =>
    cases call with
    | or side => exact enters _ left data starts rfl
    | group negated => exact enters _ left data starts rfl
    | and side =>
      have unfolds := levelExp_endAnd cmpExp left known (goes_on (.and side :: calls)) starts
        (starts ▸ noCmp)
      cases ends : endsAnds S with
      | false =>
        rw [ends] at unfolds
        exact .of_fails (Settles.const unfolds)
      | true =>
        rw [ends] at unfolds ih
        refine ⟨left.map fun e => (e, CondSymbol.or.text S ++ rest), Settles.const unfolds, ?_⟩
        cases left with
        | none => rfl
        | some e =>
          have again := ih (multispace0_text known .or rest) (some (.logic .and side e))
          exact again

/-- `)` returns from the innermost call of a group. -/
theorem Reads.rparen (known : SymbolSet S) (later : TailReads S semi cmpExp rest toks)
    (starts : WarpMotor.multispace0 data = CondSymbol.rparen.text S ++ rest)
    (noCmp : cmpExp (WarpMotor.multispace0 data) = none)
    (calls : List (CondCall C)) (left : Option (Expression C)) :
    Reads S semi cmpExp calls left data
      (readTokens (endsAnds S) calls false left (.sym .rparen :: toks)) := by
  cases inside : inGroup calls with
  | false =>
    have goes_on : stopSymbol semi calls ≠ some .rparen := by
      unfold stopSymbol
      rw [inside]
      cases semi <;> simp
    have fails := levelExp_stray cmpExp (inAndCall calls) left known goes_on starts noCmp (.inl rfl)
    cases calls with
    | nil => cases left <;> exact .of_fails (Settles.const fails)
    | cons call calls =>
      cases left with
      | none => exact .of_fails (Settles.const fails)
      | some e =>
        rw [readTokens, if_neg (by simp [inside])]
        exact .of_fails (Settles.const fails)
  | true =>
    cases calls with
    | nil => cases inside
    | cons call calls =>
      have stops : stopSymbol semi (call :: calls) = some .rparen := by
        unfold stopSymbol
        rw [inside, if_pos rfl]
      have returns := levelExp_stop cmpExp (inAndCall (call :: calls)) left known stops starts
      refine ⟨left.map fun e => (e, rest), Settles.const returns, ?_⟩
      cases left with
      | none => rfl
      | some e =>
        rw [readTokens, if_pos inside]
        exact later calls (some (CondCall.close call e))

/-- `;` returns from the innermost call outside of groups. -/
theorem Reads.stop (known : SymbolSet S) (later : TailReads S semi cmpExp rest toks)
    (known_stop : semi = true)
    (starts : WarpMotor.multispace0 data = CondSymbol.stop.text S ++ rest)
    (noCmp : cmpExp (WarpMotor.multispace0 data) = none)
    (calls : List (CondCall C)) (left : Option (Expression C)) :
    Reads S semi cmpExp calls left data
      (readTokens (endsAnds S) calls false left (.sym .stop :: toks)) := by
  cases inside : inGroup calls with
  | true =>
    have goes_on : stopSymbol semi calls ≠ some .stop := by
      unfold stopSymbol
      rw [inside]
      simp
    have fails := levelExp_stray cmpExp (inAndCall calls) left known goes_on starts noCmp (.inr rfl)
    cases calls with
    | nil => cases inside
    | cons call calls =>
      cases left with
      | none => exact .of_fails (Settles.const fails)
      | some e =>
        rw [readTokens, if_pos inside]
        exact .of_fails (Settles.const fails)
  | false =>
    have stops : stopSymbol semi calls = some .stop := by
      unfold stopSymbol
      rw [inside, known_stop]
      rfl
    have returns := levelExp_stop cmpExp (inAndCall calls) left known stops starts
    cases calls with
    | nil =>
      refine ⟨left.map fun e => (e, rest), Settles.const returns, ?_⟩
      cases left <;> rfl
    | cons call calls =>
      refine ⟨left.map fun e => (e, rest), Settles.const returns, ?_⟩
      cases left with
      | none => rfl
      | some e =>
        rw [readTokens, if_neg (by simp [inside])]
        exact later calls (some (CondCall.close call e))

end Symbols

/-- The loops do on a text what `readTokens` does on its tokens. The induction is on the tokens,
    for both kinds of places at once. -/
theorem reads_tokens (known : SymbolSet S) {toks : List (CondToken C)}
    (lexes : Lexes S semi cmpExp data toks) :
    (∀ calls left,
      Reads S semi cmpExp calls left data (readTokens (endsAnds S) calls false left toks)) ∧
      ∀ calls left,
        ReadsNot S semi cmpExp calls data (readTokens (endsAnds S) calls true left toks) := by
  induction lexes with
  | done ended =>
    refine ⟨fun calls left => .done calls left ended, ?_⟩
    intro calls left
    exact ⟨none, Settles.const (lev0Exp_done cmpExp ended), rfl⟩
  | sym s allowed starts noCmp lexes ih =>
    obtain ⟨loops, operands⟩ := ih
    have no_operand (other : s ≠ .lparen) (calls : List (CondCall C)) :
        ReadsNot S semi cmpExp calls _ none :=
      ⟨none, Settles.const (lev0Exp_symbol cmpExp known other starts noCmp), rfl⟩
    cases s with
    | lparen => exact ⟨.lparen known loops starts, .lparen known loops starts⟩
    | rparen => exact ⟨.rparen known loops starts noCmp, fun calls _ => no_operand (by decide) calls⟩
    | and => exact ⟨.and known loops starts, fun calls _ => no_operand (by decide) calls⟩
    | or =>
      refine ⟨.or known loops starts (starts ▸ noCmp), fun calls _ => no_operand (by decide) calls⟩
    | stop =>
      exact ⟨.stop known loops (allowed rfl) starts noCmp,
        fun calls _ => no_operand (by decide) calls⟩
    | not =>
      refine ⟨?_, fun calls _ => no_operand (by decide) calls⟩
      intro calls left
      have unfolds := levelExp_not cmpExp (inAndCall calls) left known
        (stopSymbol_ne semi calls (by decide) (by decide)) starts
      obtain ⟨outcome, settles, goes_on⟩ := operands calls none
      exact .of_callee unfolds settles goes_on
  | cmp visible plain reads lexes ih =>
    obtain ⟨loops, operands⟩ := ih
    constructor
    · intro calls left
      have unfolds := levelExp_cmp cmpExp (inAndCall calls) left known (stopSymbol_known semi calls)
        visible plain
      rw [reads] at unfolds
      refine (loops calls (some (.compare _))).of_top ?_
      intro outcome settles
      exact settles.step unfolds
    · intro calls left
      have operand := lev0Exp_plain cmpExp known (stopSymbol_known semi calls) visible plain
      rw [reads] at operand
      exact ⟨_, Settles.const operand, loops calls _⟩
  | bad visible plain noCmp =>
    constructor
    · intro calls left
      have unfolds := levelExp_cmp cmpExp (inAndCall calls) left known (stopSymbol_known semi calls)
        visible plain
      rw [noCmp] at unfolds
      exact .of_fails (Settles.const unfolds)
    · intro calls left
      have operand := lev0Exp_plain cmpExp known (stopSymbol_known semi calls) visible plain
      rw [noCmp] at operand
      exact ⟨none, Settles.const operand, rfl⟩

/-- `ConditionParser::exp`, or `end_exp` with `;`. -/
def parseCondition (S : LogicSymbols) (semi : Bool) (cmpExp : CmpExp C) (fuel : Nat)
    (data : List Char) : Option (Expression C × List Char) :=
  if semi then endExp S cmpExp fuel [';'] data else exp S cmpExp fuel data

theorem parseCondition_iff_readTokens (known : SymbolSet S) {toks : List (CondToken C)}
    (lexes : Lexes S semi cmpExp data toks) (e : Expression C) :
    (∃ rest, Yields (fun fuel => parseCondition S semi cmpExp fuel data) (e, rest)) ↔
      readTokens (endsAnds S) [] false none toks = some e := by
  obtain ⟨outcome, settles, goes_on⟩ := (reads_tokens known lexes).1 [] none
  have same : callLoop S semi cmpExp [] none data =
      fun fuel => parseCondition S semi cmpExp fuel data := by
    cases semi <;> rfl
  rw [same] at settles
  constructor
  · rintro ⟨rest, yields⟩
    have read : outcome = some (e, rest) := settles.unique yields
    rw [read] at goes_on
    exact goes_on
  · intro read
    cases outcome with
    | none => cases read.symm.trans goes_on
    | some returned =>
      have equal : e = returned.1 := Option.some.inj (read.symm.trans goes_on)
      exact ⟨returned.2, equal ▸ settles⟩

end Calls
end WarpMotor
