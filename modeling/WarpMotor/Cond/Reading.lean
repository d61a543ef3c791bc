import WarpMotor.Cond.Aligned
import WarpMotor.Lib.Fuel

/-!
How the parser reads the text of a tree. A text may have white space between
any two tokens. A comparison is any text that the comparison parser takes as
one token, whatever follows it. `Goes` is the parser in the middle of a text:
the calls that wait for a result, the value read so far and the text ahead.
-/
namespace WarpMotor
open BoolFrames Fuel

def Spaces (text : List Char) : Prop := ∀ c ∈ text, isSpace c = true

/-- What may follow an operand. -/
def Boundary : List Char → Prop
  | [] => True
  | c :: _ => isSpace c = true ∨ c = ')' ∨ c = '&' ∨ c = '|'

/-- What a comparison may start with. -/
def StartsCmp (c : Char) : Prop :=
  isSpace c = false ∧ c ≠ '(' ∧ c ≠ ')' ∧ c ≠ '!' ∧ c ≠ '&' ∧ c ≠ '|'

/-- `cmp_exp` reads the text as the comparison `c`, up to white space behind it. -/
structure IsCmp {C : Type} (cmpExp : CmpExp C) (text : List Char) (c : C) : Prop where
  starts : ∃ first others, text = first :: others ∧ StartsCmp first
  reads : ∀ rest, Boundary rest → ∃ left,
    cmpExp (text ++ rest) = some (c, left) ∧ multispace0 left = multispace0 rest

/-- The texts of a tree, without white space around them. -/
inductive Spells {C : Type} (cmpExp : CmpExp C) :
    {level : CondLevel} → Cond C level → List Char → Prop where
  | cmp {text : List Char} {c : C} (token : IsCmp cmpExp text c) :
      Spells cmpExp (.cmp false c) text
  | notCmp {space text : List Char} {c : C} (spaces : Spaces space)
      (token : IsCmp cmpExp text c) : Spells cmpExp (.cmp true c) ('!' :: (space ++ text))
  | group {space₁ text space₂ : List Char} {body : Cond C .or} (spaces₁ : Spaces space₁)
      (spells : Spells cmpExp body text) (spaces₂ : Spaces space₂) :
      Spells cmpExp (.group false body) ('(' :: (space₁ ++ (text ++ (space₂ ++ [')']))))
  | notGroup {space space₁ text space₂ : List Char} {body : Cond C .or} (spaces : Spaces space)
      (spaces₁ : Spaces space₁) (spells : Spells cmpExp body text) (spaces₂ : Spaces space₂) :
      Spells cmpExp (.group true body)
        ('!' :: (space ++ '(' :: (space₁ ++ (text ++ (space₂ ++ [')'])))))
  | lastAnd {text : List Char} {operand : Cond C .unary} (spells : Spells cmpExp operand text) :
      Spells cmpExp (.lastAnd operand) text
  | and {text₁ space₁ space₂ text₂ : List Char} {operand : Cond C .unary} {rest : Cond C .and}
      (spells₁ : Spells cmpExp operand text₁) (spaces₁ : Spaces space₁) (spaces₂ : Spaces space₂)
      (spells₂ : Spells cmpExp rest text₂) :
      Spells cmpExp (.and operand rest) (text₁ ++ (space₁ ++ '&' :: '&' :: (space₂ ++ text₂)))
  | lastOr {text : List Char} {operand : Cond C .and} (spells : Spells cmpExp operand text) :
      Spells cmpExp (.lastOr operand) text
  | or {text₁ space₁ space₂ text₂ : List Char} {operand : Cond C .and} {rest : Cond C .or}
      (spells₁ : Spells cmpExp operand text₁) (spaces₁ : Spaces space₁) (spaces₂ : Spaces space₂)
      (spells₂ : Spells cmpExp rest text₂) :
      Spells cmpExp (.or operand rest) (text₁ ++ (space₁ ++ '|' :: '|' :: (space₂ ++ text₂)))

theorem multispace0_spaces {space : List Char} (spaces : Spaces space) (data : List Char) :
    multispace0 (space ++ data) = multispace0 data := by
  induction space with
  | nil => rfl
  | cons c rest ih =>
    have head : isSpace c = true := spaces c (List.mem_cons_self ..)
    rw [List.cons_append, multispace0, List.dropWhile_cons_of_pos head]
    exact ih (fun c member => spaces c (List.mem_cons_of_mem _ member))

theorem multispace0_cons {c : Char} (visible : isSpace c = false) (data : List Char) :
    multispace0 (c :: data) = c :: data := by
  rw [multispace0, List.dropWhile_cons_of_neg (by simp [visible])]

section Loops
variable {C : Type} (cmpExp : CmpExp C)

attribute [local simp] lev0Exp lev1Exp lev2Exp groupExp

/-- The loop of a call: `lev1_exp` under `&&`, else `lev2_exp`. -/
def runLoop (inAnd : Bool) (stop : Option (List Char)) (left : Option (Expression C))
    (data : List Char) (fuel : Nat) : Option (Expression C × List Char) :=
  if inAnd then lev1Exp rustSymbol cmpExp fuel stop left data
  else lev2Exp rustSymbol cmpExp fuel stop left data

/-- The loops only know these two stops. -/
def BracketStop (stop : Option (List Char)) : Prop := stop = none ∨ stop = some [')']

variable (inAnd : Bool) (stop : Option (List Char)) (left : Option (Expression C))

theorem runLoop_multispace0 {data data' : List Char} (same : multispace0 data = multispace0 data')
    (fuel : Nat) : runLoop cmpExp inAnd stop left data fuel = runLoop cmpExp inAnd stop left data' fuel := by
  unfold runLoop
  cases fuel with
  | zero => cases inAnd <;> simp [lev1Exp, lev2Exp]
  | succ fuel => cases inAnd <;> simp [lev1Exp, lev2Exp, same]

theorem runLoop_end (e : Expression C) (fuel : Nat) :
    runLoop cmpExp inAnd stop (some e) [] (fuel + 1) = some (e, []) := by
  cases inAnd <;> simp [runLoop, lev1Exp, lev2Exp, multispace0, loopEnd]

theorem runLoop_stop (e : Expression C) (data : List Char) (fuel : Nat) :
    runLoop cmpExp inAnd (some [')']) (some e) (')' :: data) (fuel + 1) = some (e, data) := by
  have visible : multispace0 (')' :: data) = ')' :: data := multispace0_cons (by decide) data
  cases inAnd <;>
    simp [runLoop, lev1Exp, lev2Exp, visible, peekStop, literalStop, literal, peekStr, loopEnd]

theorem groupExp_open (data : List Char) (fuel : Nat) :
    groupExp rustSymbol cmpExp (fuel + 1) ('(' :: data) =
      runLoop cmpExp false (some [')']) none data fuel := by
  have visible : multispace0 ('(' :: data) = '(' :: data := multispace0_cons (by decide) data
  simp [groupExp, symbol, visible, literal, peekStr, runLoop]

variable {stop}

theorem peekStop_other (known : BracketStop stop) {c : Char} (other : c ≠ ')') (data : List Char) :
    peekStop stop (c :: data) = false := by
  rcases known with rfl | rfl
  · rfl
  · simp [peekStop, peekStr, List.isPrefixOf, other.symm]

theorem runLoop_group (known : BracketStop stop) (data : List Char) (fuel : Nat) :
    runLoop cmpExp inAnd stop left ('(' :: data) (fuel + 1) =
      (groupExp rustSymbol cmpExp fuel ('(' :: data)).bind
        (fun read => runLoop cmpExp inAnd stop (some read.1) read.2 fuel) := by
  have visible : multispace0 ('(' :: data) = '(' :: data := multispace0_cons (by decide) data
  have goes_on := peekStop_other known (c := '(') (by decide) data
  cases inAnd <;> simp [runLoop, lev1Exp, lev2Exp, visible, goes_on, peekStr, bind]

theorem runLoop_not (known : BracketStop stop) (data : List Char) (fuel : Nat) :
    runLoop cmpExp inAnd stop left ('!' :: data) (fuel + 1) =
      (lev0Exp rustSymbol cmpExp fuel stop data).bind
        (fun read => runLoop cmpExp inAnd stop (some (.logic .not none read.1)) read.2 fuel) := by
  have visible : multispace0 ('!' :: data) = '!' :: data := multispace0_cons (by decide) data
  have goes_on := peekStop_other known (c := '!') (by decide) data
  cases inAnd <;>
    simp [runLoop, lev1Exp, lev2Exp, visible, goes_on, peekStr, symbol, literal, rustSymbol, bind]

theorem runLoop_and (known : BracketStop stop) (data : List Char) (fuel : Nat) :
    runLoop cmpExp inAnd stop left ('&' :: '&' :: data) (fuel + 1) =
      (runLoop cmpExp true stop none data fuel).bind
        (fun read => runLoop cmpExp inAnd stop (some (.logic .and left read.1)) read.2 fuel) := by
  have visible : multispace0 ('&' :: '&' :: data) = '&' :: '&' :: data :=
    multispace0_cons (by decide) _
  have goes_on := peekStop_other known (c := '&') (by decide) ('&' :: data)
  cases inAnd <;>
    simp [runLoop, lev1Exp, lev2Exp, visible, goes_on, peekStr, symbol, literal, rustSymbol, bind]

theorem runLoop_or (known : BracketStop stop) (data : List Char) (fuel : Nat) :
    runLoop cmpExp false stop left ('|' :: '|' :: data) (fuel + 1) =
      (runLoop cmpExp false stop none data fuel).bind
        (fun read => runLoop cmpExp false stop (some (.logic .or left read.1)) read.2 fuel) := by
  have visible : multispace0 ('|' :: '|' :: data) = '|' :: '|' :: data :=
    multispace0_cons (by decide) _
  have goes_on := peekStop_other known (c := '|') (by decide) ('|' :: data)
  simp [runLoop, lev2Exp, visible, goes_on, peekStr, symbol, literal, rustSymbol, bind]

theorem runLoop_endAnd (known : BracketStop stop) (e : Expression C) (data : List Char)
    (fuel : Nat) :
    runLoop cmpExp true stop (some e) ('|' :: '|' :: data) (fuel + 1) =
      some (e, '|' :: '|' :: data) := by
  have visible : multispace0 ('|' :: '|' :: data) = '|' :: '|' :: data :=
    multispace0_cons (by decide) _
  have goes_on := peekStop_other known (c := '|') (by decide) ('|' :: data)
  simp [runLoop, lev1Exp, visible, goes_on, peekStr, rustSymbol, loopEnd]

theorem runLoop_cmp (known : BracketStop stop) {text rest : List Char} {c : C}
    (token : IsCmp cmpExp text c) (follows : Boundary rest) :
    ∃ data, multispace0 data = multispace0 rest ∧ ∀ fuel,
      runLoop cmpExp inAnd stop left (text ++ rest) (fuel + 1) =
        runLoop cmpExp inAnd stop (some (.compare c)) data fuel := by
  obtain ⟨data, reads, behind⟩ := token.reads rest follows
  refine ⟨data, behind, ?_⟩
  intro fuel
  obtain ⟨first, others, rfl, visible, bracket, stopper, bang, amp, bar⟩ := token.starts
  have unspaced : multispace0 (first :: others ++ rest) = first :: others ++ rest :=
    multispace0_cons visible _
  have goes_on := peekStop_other known stopper (others ++ rest)
  rw [List.cons_append] at unspaced reads ⊢
  cases inAnd <;>
    simp [runLoop, lev1Exp, lev2Exp, unspaced, goes_on, peekStr, rustSymbol, bracket.symm, bang.symm,
      amp.symm, bar.symm, reads]

theorem lev0Exp_group (known : BracketStop stop) {space : List Char} (spaces : Spaces space)
    (data : List Char) (fuel : Nat) :
    lev0Exp rustSymbol cmpExp (fuel + 1) stop (space ++ '(' :: data) =
      groupExp rustSymbol cmpExp fuel ('(' :: data) := by
  have visible : multispace0 (space ++ '(' :: data) = '(' :: data := by
    rw [multispace0_spaces spaces, multispace0_cons (by decide)]
  have goes_on := peekStop_other known (c := '(') (by decide) data
  simp [lev0Exp, visible, goes_on, peekStr]

theorem lev0Exp_cmp (known : BracketStop stop) {space text rest : List Char} {c : C}
    (spaces : Spaces space) (token : IsCmp cmpExp text c) (follows : Boundary rest) :
    ∃ data, multispace0 data = multispace0 rest ∧ ∀ fuel,
      lev0Exp rustSymbol cmpExp (fuel + 1) stop (space ++ (text ++ rest)) =
        some (.compare c, data) := by
  obtain ⟨data, reads, behind⟩ := token.reads rest follows
  refine ⟨data, behind, ?_⟩
  intro fuel
  obtain ⟨first, others, rfl, visible, bracket, stopper, -⟩ := token.starts
  have unspaced : multispace0 (space ++ first :: (others ++ rest)) = first :: (others ++ rest) := by
    rw [multispace0_spaces spaces, multispace0_cons visible]
  have goes_on := peekStop_other known stopper (others ++ rest)
  rw [List.cons_append] at reads ⊢
  simp [lev0Exp, unspaced, goes_on, peekStr, bracket.symm, reads]

end Loops

section Calls
variable {C : Type} (cmpExp : CmpExp C)

def inAnd : List (Frame (Expression C)) → Bool
  | .and _ :: _ => true
  | _ => false

/-- Inside a group every call stops at its closing bracket. -/
def stopOf : List (Frame (Expression C)) → Option (List Char)
  | [] => none
  | .group _ :: _ => some [')']
  | _ :: calls => stopOf calls

theorem stopOf_known (calls : List (Frame (Expression C))) : BracketStop (stopOf calls) := by
  induction calls with
  | nil => exact .inl rfl
  | cons frame rest ih =>
    cases frame with
    | and side => exact ih
    | or side => exact ih
    | group negated => exact .inr rfl

def topLoop (calls : List (Frame (Expression C))) (left : Option (Expression C))
    (data : List Char) (fuel : Nat) : Option (Expression C × List Char) :=
  runLoop cmpExp (inAnd calls) (stopOf calls) left data fuel

/-- The innermost of the open calls goes on with `left` and `data`, each call returns to the next,
    and the outermost returns `result`. -/
def Goes : List (Frame (Expression C)) → Option (Expression C) → List Char →
    Expression C × List Char → Prop
  | [], left, data, result => Yields (topLoop cmpExp [] left data) result
  | frame :: calls, left, data, result =>
    ∃ e rest, Yields (topLoop cmpExp (frame :: calls) left data) (e, rest) ∧
      Goes calls (some (exprOps.close frame e)) rest result

variable {cmpExp} {calls : List (Frame (Expression C))} {result : Expression C × List Char}

/-- Only the innermost loop looks at the text. -/
theorem Goes.of_top {left left' : Option (Expression C)} {data data' : List Char}
    (top : ∀ r, Yields (topLoop cmpExp calls left' data') r → Yields (topLoop cmpExp calls left data) r)
    (goes : Goes cmpExp calls left' data' result) : Goes cmpExp calls left data result := by
  cases calls with
  | nil => exact top result goes
  | cons frame rest =>
    obtain ⟨e, behind, returns, later⟩ := goes
    exact ⟨e, behind, top (e, behind) returns, later⟩

theorem Goes.multispace0 {left : Option (Expression C)} {data data' : List Char}
    (same : WarpMotor.multispace0 data = WarpMotor.multispace0 data')
    (goes : Goes cmpExp calls left data' result) : Goes cmpExp calls left data result := by
  refine goes.of_top ?_
  intro r returns
  have equal : topLoop cmpExp calls left data = topLoop cmpExp calls left data' := by
    funext fuel
    exact runLoop_multispace0 cmpExp _ _ left same fuel
  rw [equal]
  exact returns

theorem Goes.spaces {left : Option (Expression C)} {space data : List Char} (spaces : Spaces space)
    (goes : Goes cmpExp calls left data result) : Goes cmpExp calls left (space ++ data) result :=
  goes.multispace0 (multispace0_spaces spaces data)

theorem Goes.finish (calls : List (Frame (Expression C))) (e : Expression C) :
    Goes cmpExp calls (some e) [] (exprOps.unwind calls e, []) := by
  induction calls generalizing e with
  | nil => exact Yields.const (runLoop_end cmpExp _ _ e)
  | cons frame rest ih =>
    exact ⟨e, [], Yields.const (runLoop_end cmpExp _ _ e), ih (exprOps.close frame e)⟩

theorem Goes.cmp {left : Option (Expression C)} {text rest : List Char} {c : C}
    (token : IsCmp cmpExp text c) (follows : Boundary rest)
    (goes : Goes cmpExp calls (some (.compare c)) rest result) :
    Goes cmpExp calls left (text ++ rest) result := by
  obtain ⟨data, behind, unfolds⟩ :=
    runLoop_cmp cmpExp (inAnd calls) left (stopOf_known calls) token follows
  refine (goes.multispace0 behind).of_top ?_
  intro r returns
  exact returns.step unfolds

theorem Goes.notCmp {left : Option (Expression C)} {space text rest : List Char} {c : C}
    (spaces : Spaces space) (token : IsCmp cmpExp text c) (follows : Boundary rest)
    (goes : Goes cmpExp calls (some (.logic .not none (.compare c))) rest result) :
    Goes cmpExp calls left ('!' :: (space ++ (text ++ rest))) result := by
  obtain ⟨data, behind, reads⟩ := lev0Exp_cmp cmpExp (stopOf_known calls) spaces token follows
  refine (goes.multispace0 behind).of_top ?_
  intro r returns
  have operand : Yields (fun fuel => lev0Exp rustSymbol cmpExp fuel (stopOf calls)
      (space ++ (text ++ rest))) (.compare c, data) := Yields.const reads
  exact (operand.bind returns).step (runLoop_not cmpExp _ left (stopOf_known calls) _)

/-- The body of a group is read by a call of its own. -/
theorem groupExp_yields {data : List Char} {read : Expression C × List Char} (negated : Bool)
    (returns : Yields (topLoop cmpExp (.group negated :: calls) none data) read) :
    Yields (fun fuel => groupExp rustSymbol cmpExp fuel ('(' :: data)) read :=
  returns.step (groupExp_open cmpExp data)

theorem Goes.group {left : Option (Expression C)} {data : List Char}
    (goes : Goes cmpExp (.group false :: calls) none data result) :
    Goes cmpExp calls left ('(' :: data) result := by
  obtain ⟨e, rest, body, later⟩ := goes
  refine later.of_top ?_
  intro r returns
  exact ((groupExp_yields false body).bind returns).step
    (runLoop_group cmpExp _ left (stopOf_known calls) data)

theorem Goes.notGroup {left : Option (Expression C)} {space data : List Char}
    (spaces : Spaces space) (goes : Goes cmpExp (.group true :: calls) none data result) :
    Goes cmpExp calls left ('!' :: (space ++ '(' :: data)) result := by
  obtain ⟨e, rest, body, later⟩ := goes
  refine later.of_top ?_
  intro r returns
  have operand : Yields (fun fuel => lev0Exp rustSymbol cmpExp fuel (stopOf calls)
      (space ++ '(' :: data)) (e, rest) :=
    (groupExp_yields true body).step (lev0Exp_group cmpExp (stopOf_known calls) spaces data)
  exact (operand.bind returns).step (runLoop_not cmpExp _ left (stopOf_known calls) _)

theorem Goes.and {e : Expression C} {data : List Char}
    (goes : Goes cmpExp (.and e :: calls) none data result) :
    Goes cmpExp calls (some e) ('&' :: '&' :: data) result := by
  obtain ⟨right, rest, operand, later⟩ := goes
  refine later.of_top ?_
  intro r returns
  exact (Yields.bind operand returns).step (runLoop_and cmpExp _ (some e) (stopOf_known calls) data)

theorem Goes.or {e : Expression C} {data : List Char} (outside : inAnd calls = false)
    (goes : Goes cmpExp (.or e :: calls) none data result) :
    Goes cmpExp calls (some e) ('|' :: '|' :: data) result := by
  obtain ⟨right, rest, operand, later⟩ := goes
  refine later.of_top ?_
  intro r returns
  unfold topLoop at returns ⊢
  rw [outside] at returns ⊢
  exact (Yields.bind operand returns).step (runLoop_or cmpExp (some e) (stopOf_known calls) data)

/-- `||` ends a pending `&&` and is left for the call below. -/
theorem Goes.endAnd {side e : Expression C} {data : List Char}
    (goes : Goes cmpExp calls (some (exprOps.conj side e)) ('|' :: '|' :: data) result) :
    Goes cmpExp (.and side :: calls) (some e) ('|' :: '|' :: data) result :=
  ⟨e, _, Yields.const (runLoop_endAnd cmpExp (stopOf_known (.and side :: calls)) e data), goes⟩

theorem Goes.close {frame : Frame (Expression C)} {e : Expression C} {data : List Char}
    (inside : stopOf (frame :: calls) = some [')'])
    (goes : Goes cmpExp calls (some (exprOps.close frame e)) data result) :
    Goes cmpExp (frame :: calls) (some e) (')' :: data) result := by
  refine ⟨e, data, Yields.const ?_, goes⟩
  intro fuel
  rw [topLoop, inside]
  exact runLoop_stop cmpExp _ e data fuel

/-- `||` after an operand that left `frames` open. -/
theorem Goes.endAnds (outside : inAnd calls = false) (frames : List (Frame (Expression C)))
    (e : Expression C) {data : List Char}
    (goes : Goes cmpExp (.or (exprOps.endAnds frames e).2 :: ((exprOps.endAnds frames e).1 ++ calls))
      none data result) :
    Goes cmpExp (frames ++ calls) (some e) ('|' :: '|' :: data) result := by
  induction frames generalizing e with
  | nil => exact goes.or outside
  | cons frame rest ih =>
    cases frame with
    | and side => exact (ih (exprOps.conj side e) goes).endAnd
    | or side => exact goes.or rfl
    | group negated => exact goes.or rfl

theorem stopOf_group (frames : List (Frame (Expression C))) (negated : Bool)
    (calls : List (Frame (Expression C))) :
    stopOf (frames ++ .group negated :: calls) = some [')'] := by
  induction frames with
  | nil => rfl
  | cons frame rest ih =>
    cases frame with
    | and side => exact ih
    | or side => exact ih
    | group other => rfl

/-- `)` after a body that left `open_` open: one call returns. -/
theorem Goes.closeTop (negated : Bool) (open_ : List (Frame (Expression C)) × Expression C)
    {data : List Char}
    (goes : Goes cmpExp ((exprOps.closeTop negated open_).1 ++ calls)
      (some (exprOps.closeTop negated open_).2) data result) :
    Goes cmpExp (open_.1 ++ .group negated :: calls) (some open_.2) (')' :: data) result := by
  obtain ⟨frames, e⟩ := open_
  cases frames with
  | nil => exact goes.close rfl
  | cons frame rest =>
    have inside := stopOf_group (frame :: rest) negated calls
    have later : Goes cmpExp (rest ++ [.group negated] ++ calls)
      (some (exprOps.close frame e)) data result := goes
    rw [List.append_assoc] at later
    exact later.close inside

theorem boundary_spaces {space : List Char} (spaces : Spaces space) {data : List Char}
    (follows : Boundary data) : Boundary (space ++ data) := by
  cases space with
  | nil => exact follows
  | cons c rest => exact .inl (spaces c (List.mem_cons_self ..))

theorem boundary_token {c : Char} (token : c = ')' ∨ c = '&' ∨ c = '|') (data : List Char) :
    Boundary (c :: data) := .inr token

/-- Reading the text of a tree leaves its residual on top of the open calls. The induction is on
    the text; an `or` starts where no `&&` is pending. -/
theorem Goes.spelled {level : CondLevel} {t : Cond C level} {text : List Char}
    (spells : Spells cmpExp t text) (calls : List (Frame (Expression C)))
    (outside : level = .or → inAnd calls = false) {rest : List Char} (follows : Boundary rest)
    (goes : Goes cmpExp ((exprOps.residual t).1 ++ calls) (some (exprOps.residual t).2) rest result) :
    Goes cmpExp calls none (text ++ rest) result := by
  induction spells generalizing calls rest with
  | cmp token => exact goes.cmp token follows
  | notCmp spaces token =>
    rw [List.cons_append, List.append_assoc]
    exact goes.notCmp spaces token follows
  | group spaces₁ spells spaces₂ ih =>
    simp only [List.cons_append, List.append_assoc, List.nil_append]
    have closed := (goes.closeTop false _).spaces spaces₂
    have body := ih (.group false :: calls) (fun _ => rfl)
      (boundary_spaces spaces₂ (boundary_token (.inl rfl) _)) closed
    exact (body.spaces spaces₁).group
  | notGroup spaces spaces₁ spells spaces₂ ih =>
    simp only [List.cons_append, List.append_assoc, List.nil_append]
    have closed := (goes.closeTop true _).spaces spaces₂
    have body := ih (.group true :: calls) (fun _ => rfl)
      (boundary_spaces spaces₂ (boundary_token (.inl rfl) _)) closed
    exact (body.spaces spaces₁).notGroup spaces
  | lastAnd spells ih => exact ih calls (fun absurd_ => by cases absurd_) follows goes
  | and spells₁ spaces₁ spaces₂ spells₂ ih₁ ih₂ =>
    rename_i operand others
    simp only [List.cons_append, List.append_assoc]
    have right := ih₂ (.and (exprOps.residual operand).2 :: ((exprOps.residual operand).1 ++ calls))
      (fun absurd_ => by cases absurd_) follows (by simpa [LogicOps.residual] using goes)
    exact ih₁ calls (fun absurd_ => by cases absurd_)
      (boundary_spaces spaces₁ (boundary_token (.inr (.inl rfl)) _)) ((right.spaces spaces₂).and.spaces spaces₁)
  | lastOr spells ih => exact ih calls (fun absurd_ => by cases absurd_) follows goes
  | or spells₁ spaces₁ spaces₂ spells₂ ih₁ ih₂ =>
    rename_i operand others
    simp only [List.cons_append, List.append_assoc]
    have right := ih₂ (.or (exprOps.endAnds (exprOps.residual operand).1 (exprOps.residual operand).2).2 ::
        ((exprOps.endAnds (exprOps.residual operand).1 (exprOps.residual operand).2).1 ++ calls))
      (fun _ => rfl) follows (by simpa [LogicOps.residual] using goes)
    exact ih₁ calls (fun absurd_ => by cases absurd_)
      (boundary_spaces spaces₁ (boundary_token (.inr (.inr rfl)) _))
      (((right.spaces spaces₂).endAnds (outside rfl) _ _).spaces spaces₁)

end Calls

/-- The whole text of a condition: a tree with white space around it. -/
def SpellsText {C : Type} (cmpExp : CmpExp C) (t : Cond C .or) (text : List Char) : Prop :=
  ∃ space₁ spelled space₂, Spaces space₁ ∧ Spells cmpExp t spelled ∧ Spaces space₂ ∧
    text = space₁ ++ (spelled ++ space₂)

theorem exp_yields {C : Type} {cmpExp : CmpExp C} {t : Cond C .or} {text : List Char}
    (spells : SpellsText cmpExp t text) :
    Yields (fun fuel => exp rustSymbol cmpExp fuel text)
      (exprOps.unwind (exprOps.residual t).1 (exprOps.residual t).2, []) := by
  obtain ⟨space₁, spelled, space₂, spaces₁, body, spaces₂, rfl⟩ := spells
  have ended : Goes cmpExp ((exprOps.residual t).1 ++ []) (some (exprOps.residual t).2) space₂
      (exprOps.unwind (exprOps.residual t).1 (exprOps.residual t).2, []) := by
    have finish : Goes cmpExp (exprOps.residual t).1 (some (exprOps.residual t).2) []
        (exprOps.unwind (exprOps.residual t).1 (exprOps.residual t).2, []) := Goes.finish _ _
    simpa using finish.spaces spaces₂
  have follows : Boundary space₂ := by
    have nothing : Boundary [] := trivial
    simpa using boundary_spaces spaces₂ nothing
  have read := Goes.spelled body [] (fun _ => rfl) follows ended
  exact read.spaces spaces₁

theorem evaluate_read {C : Type} (truth : C → Bool) (t : Cond C .or) :
    (exprOps.unwind (exprOps.residual t).1 (exprOps.residual t).2).evaluate truth =
      t.readValue truth := by
  rw [evaluate_unwind, boolOps_unwind, Cond.readValue, evaluate_residual]

/-- The parser takes the whole text, and what it returns has the value of the tree for every
    outcome of the comparisons. -/
def MeansWhatItSays {C : Type} (cmpExp : CmpExp C) (t : Cond C .or) (text : List Char) : Prop :=
  ∃ e, Yields (fun fuel => exp rustSymbol cmpExp fuel text) (e, []) ∧
    ∀ truth, e.evaluate truth = t.value truth

/-- A text of the grammar means what it says when its tree is aligned, and when no comparison
    stands in it twice, only then. -/
theorem condition_means_what_it_says_iff {C : Type} {cmpExp : CmpExp C} {t : Cond C .or}
    {text : List Char} (spells : SpellsText cmpExp t text) :
    (t.aligned = true → MeansWhatItSays cmpExp t text) ∧
      (t.comparisons.Nodup → (MeansWhatItSays cmpExp t text ↔ t.aligned = true)) := by
  have enough : t.aligned = true → MeansWhatItSays cmpExp t text := by
    intro fits
    refine ⟨_, exp_yields spells, ?_⟩
    intro truth
    rw [evaluate_read, Cond.readValue_of_aligned truth t fits]
  refine ⟨enough, ?_⟩
  intro distinct
  refine ⟨?_, enough⟩
  rintro ⟨e, yields, means⟩
  have read : exprOps.unwind (exprOps.residual t).1 (exprOps.residual t).2 = e :=
    congrArg Prod.fst ((exp_yields spells).unique yields)
  by_contra apart
  obtain ⟨truth, misread⟩ := Cond.exists_misread t distinct (by simpa using apart)
  apply misread
  rw [← evaluate_read, read, means]

section Digits

/-- The comparison parser on comparisons of a one-letter variable with one. -/
def digitCmp : CmpExp Char
  | '$' :: c :: '=' :: '=' :: 'd' :: 'i' :: 'g' :: 'i' :: 't' :: '(' :: '1' :: ')' :: rest =>
    some (c, rest)
  | _ => none

def digitText (c : Char) : List Char :=
  ['$', c, '=', '=', 'd', 'i', 'g', 'i', 't', '(', '1', ')']

theorem digitText_isCmp (c : Char) : IsCmp digitCmp (digitText c) c := by
  refine ⟨⟨'$', _, rfl, by decide, by decide, by decide, by decide, by decide, by decide⟩, ?_⟩
  intro rest _
  exact ⟨rest, rfl, rfl⟩

theorem digitText_spells (c : Char) : Spells digitCmp (.cmp false c) (digitText c) :=
  .cmp (digitText_isCmp c)

theorem noSpaces : Spaces [] := by
  intro c member
  cases member

/-- Three alternatives in brackets and a fourth comparison: `(a||b||c)&&d`. -/
theorem condition_with_three_alternatives_is_misread :
    let t : Cond Char .or := .lastOr (.and (.group false (.or (.lastAnd (.cmp false 'a'))
      (.or (.lastAnd (.cmp false 'b')) (.lastOr (.lastAnd (.cmp false 'c'))))))
      (.lastAnd (.cmp false 'd')))
    let text := '(' :: (digitText 'a' ++ '|' :: '|' :: (digitText 'b' ++ '|' :: '|' ::
      (digitText 'c' ++ ')' :: '&' :: '&' :: digitText 'd')))
    SpellsText digitCmp t text ∧ ¬ MeansWhatItSays digitCmp t text := by
  intro t text
  have spells : SpellsText digitCmp t text := by
    refine ⟨[], text, [], noSpaces, ?_, noSpaces, by simp⟩
    exact .lastOr (.and (.group noSpaces (.or (.lastAnd (digitText_spells 'a')) noSpaces noSpaces
      (.or (.lastAnd (digitText_spells 'b')) noSpaces noSpaces
        (.lastOr (.lastAnd (digitText_spells 'c'))))) noSpaces) noSpaces noSpaces
      (.lastAnd (digitText_spells 'd')))
  refine ⟨spells, ?_⟩
  rintro ⟨e, yields, means⟩
  have read : exprOps.unwind (exprOps.residual t).1 (exprOps.residual t).2 = e :=
    congrArg Prod.fst ((exp_yields spells).unique yields)
  have holds := means (fun c => c = 'a')
  rw [← read] at holds
  revert holds
  decide

/-- Two alternatives in brackets are read as meant: `(a||b)&&c`. -/
theorem condition_with_two_alternatives_is_read_as_meant :
    let t : Cond Char .or := .lastOr (.and (.group false (.or (.lastAnd (.cmp false 'a'))
      (.lastOr (.lastAnd (.cmp false 'b'))))) (.lastAnd (.cmp false 'c')))
    let text := '(' :: (digitText 'a' ++ '|' :: '|' :: (digitText 'b' ++ ')' :: '&' :: '&' ::
      digitText 'c'))
    MeansWhatItSays digitCmp t text := by
  intro t text
  have spells : SpellsText digitCmp t text := by
    refine ⟨[], text, [], noSpaces, ?_, noSpaces, by simp⟩
    exact .lastOr (.and (.group noSpaces (.or (.lastAnd (digitText_spells 'a')) noSpaces noSpaces
      (.lastOr (.lastAnd (digitText_spells 'b')))) noSpaces) noSpaces noSpaces
      (.lastAnd (digitText_spells 'c')))
  exact (condition_means_what_it_says_iff spells).1 (by decide)

end Digits
end WarpMotor
