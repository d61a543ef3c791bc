import Mathlib.Data.List.Basic

/-!
Parsers by combination. A parser returns the text that is left also when it
fails. A `backtrack` lets a choice go on, a `cut` and a `panic` do not;
`exhausted` is a recursion that was not given enough fuel. `Spec` says what
holds of the results, of the failures and of every text that is left.
-/
namespace Parsing
variable {Tok : Type} {A B : Type}

inductive Fail where
  | backtrack | cut | panic | exhausted
  deriving DecidableEq, Repr

/-- A failure that the caller gets as a value. -/
def Fail.isError : Fail → Bool
  | backtrack | cut => true
  | panic | exhausted => false

def Parser (Tok A : Type) : Type := List Tok → Except Fail A × List Tok

instance : Monad (Parser Tok) where
  pure a := fun text => (.ok a, text)
  bind p f := fun text =>
    match p text with
    | (.ok a, rest) => f a rest
    | (.error e, rest) => (.error e, rest)

theorem bind_run (p : Parser Tok A) (f : A → Parser Tok B) (text : List Tok) :
    (p >>= f) text = match p text with
      | (.ok a, rest) => f a rest
      | (.error e, rest) => (.error e, rest) := rfl

theorem pure_run (a : A) (text : List Tok) : (pure a : Parser Tok A) text = (.ok a, text) := rfl

theorem bind_ok_run {p : Parser Tok A} {f : A → Parser Tok B} {text rest : List Tok} {b : B}
    (result : (p >>= f) text = (.ok b, rest)) :
    ∃ a between, p text = (.ok a, between) ∧ f a between = (.ok b, rest) := by
  rw [bind_run] at result
  split at result
  · next a between first => exact ⟨a, between, first, result⟩
  · cases result

def failWith (e : Fail) : Parser Tok A := fun text => (.error e, text)

def getText : Parser Tok (List Tok) := fun text => (.ok text, text)

def setText (rest : List Tok) : Parser Tok Unit := fun _ => (.ok (), rest)

def orElse (p q : Parser Tok A) : Parser Tok A := fun text =>
  match p text with
  | (.error .backtrack, _) => q text
  | result => result

/-- The first alternative that does not backtrack. -/
def alt : List (Parser Tok A) → Parser Tok A
  | [] => failWith .backtrack
  | [p] => p
  | p :: q :: rest => orElse p (alt (q :: rest))

def opt (p : Parser Tok A) : Parser Tok (Option A) := fun text =>
  match p text with
  | (.ok a, rest) => (.ok (some a), rest)
  | (.error .backtrack, _) => (.ok none, text)
  | (.error e, rest) => (.error e, rest)

/-- An error is a value, and what the parser read is not put back. -/
def attempt (p : Parser Tok A) : Parser Tok (Option A) := fun text =>
  match p text with
  | (.ok a, rest) => (.ok (some a), rest)
  | (.error e, rest) => if e.isError then (.ok none, rest) else (.error e, rest)

/-- The result without the reading. -/
def peek (p : Parser Tok A) : Parser Tok A := fun text => ((p text).1, text)

/-- Runs on a text of its own. -/
def onText (code : List Tok) (p : Parser Tok A) : Parser Tok (A × List Tok) := fun text =>
  match p code with
  | (.ok a, rest) => (.ok (a, rest), text)
  | (.error e, _) => (.error e, text)

def manyFrom (p : Parser Tok A) : Nat → Parser Tok (List A)
  | 0, text => (.error .exhausted, text)
  | fuel + 1, text =>
    match p text with
    | (.ok a, rest) =>
      if rest.length = text.length then (.error .cut, rest)
      else
        match manyFrom p fuel rest with
        | (.ok others, last) => (.ok (a :: others), last)
        | (.error e, last) => (.error e, last)
    | (.error .backtrack, _) => (.ok [], text)
    | (.error e, rest) => (.error e, rest)

/-- As often as it reads something. -/
def many (p : Parser Tok A) : Parser Tok (List A) := fun text =>
  manyFrom p (text.length + 1) text

def many1 (p : Parser Tok A) : Parser Tok (List A) := do
  let first ← p
  return first :: (← many p)

def Meets (good : A → Prop) (bad : Fail → Prop) : Except Fail A → Prop
  | .ok a => good a
  | .error e => bad e

/-- From a text with `I` the parser leaves a text with `I`, its result is `good` and its failure is
    `bad`. -/
def Spec (I : List Tok → Prop) (p : Parser Tok A) (good : A → Prop) (bad : Fail → Prop) : Prop :=
  ∀ text, I text → I (p text).2 ∧ Meets good bad (p text).1

variable {I : List Tok → Prop} {good : A → Prop} {bad : Fail → Prop}

namespace Spec

theorem pure {a : A} (holds : good a) : Spec I (Pure.pure a : Parser Tok A) good bad :=
  fun _ kept => ⟨kept, holds⟩

theorem failWith {e : Fail} (holds : bad e) : Spec I (failWith e : Parser Tok A) good bad :=
  fun _ kept => ⟨kept, holds⟩

theorem bind {p : Parser Tok A} {f : A → Parser Tok B} {next : B → Prop}
    (first : Spec I p good bad) (rest : ∀ a, good a → Spec I (f a) next bad) :
    Spec I (p >>= f) next bad := by
  intro text kept
  have met := first text kept
  rw [bind_run]
  split
  · next a after result =>
    rw [result] at met
    exact rest a met.2 after met.1
  · next e after result =>
    rw [result] at met
    exact met

theorem mono {p : Parser Tok A} {weaker : A → Prop} {worse : Fail → Prop}
    (holds : Spec I p good bad) (ok : ∀ a, good a → weaker a) (fails : ∀ e, bad e → worse e) :
    Spec I p weaker worse := by
  intro text kept
  obtain ⟨left, met⟩ := holds text kept
  refine ⟨left, ?_⟩
  cases result : (p text).1 with
  | ok a =>
    rw [result] at met
    exact ok a met
  | error e =>
    rw [result] at met
    exact fails e met

theorem ite {c : Prop} [Decidable c] {p q : Parser Tok A} (first : Spec I p good bad)
    (second : Spec I q good bad) : Spec I (if c then p else q) good bad := by
  split
  · exact first
  · exact second

theorem orElse {p q : Parser Tok A} (first : Spec I p good bad) (second : Spec I q good bad) :
    Spec I (orElse p q) good bad := by
  intro text kept
  have met := first text kept
  simp only [Parsing.orElse]
  split
  · exact second text kept
  · exact met

theorem alt {ps : List (Parser Tok A)} (fails : bad .backtrack)
    (each : ∀ p ∈ ps, Spec I p good bad) : Spec I (alt ps) good bad := by
  induction ps with
  | nil => exact failWith fails
  | cons p rest ih =>
    have first := each p List.mem_cons_self
    cases rest with
    | nil => exact first
    | cons q rest =>
      exact first.orElse (ih (fun r member => each r (List.mem_cons_of_mem p member)))

theorem opt {p : Parser Tok A} (holds : Spec I p good bad) :
    Spec I (opt p) (fun found => ∀ a ∈ found, good a) bad := by
  intro text kept
  have met := holds text kept
  simp only [Parsing.opt]
  split
  · next a rest result =>
    rw [result] at met
    refine ⟨met.1, ?_⟩
    rintro b ⟨⟩
    exact met.2
  · refine ⟨kept, ?_⟩
    rintro b ⟨⟩
  · next e rest _ result =>
    rw [result] at met
    exact met

theorem attempt {p : Parser Tok A} {worse : Fail → Prop} (holds : Spec I p good worse)
    (fails : ∀ e, worse e → e.isError = false → bad e) :
    Spec I (attempt p) (fun found => ∀ a ∈ found, good a) bad := by
  intro text kept
  have met := holds text kept
  simp only [Parsing.attempt]
  split
  · next a rest result =>
    rw [result] at met
    refine ⟨met.1, ?_⟩
    rintro b ⟨⟩
    exact met.2
  · next e rest result =>
    rw [result] at met
    split
    · refine ⟨met.1, ?_⟩
      rintro b ⟨⟩
    · next stops => exact ⟨met.1, fails e met.2 (by simpa using stops)⟩

/-- Every failure is put up with. -/
theorem tried {p : Parser Tok A} (holds : Spec I p good bad) :
    Spec I (Parsing.attempt p) (fun found => ∀ a ∈ found, good a) bad :=
  holds.attempt (fun _ met _ => met)

theorem imp {p : Parser Tok A} {weaker : A → Prop} (holds : Spec I p good bad)
    (ok : ∀ a, good a → weaker a) : Spec I p weaker bad := holds.mono ok (fun _ met => met)

/-- Only the text and the failures matter. -/
theorem forget {p : Parser Tok A} (holds : Spec I p good bad) : Spec I p (fun _ => True) bad :=
  holds.imp (fun _ _ => trivial)

theorem peek {p : Parser Tok A} (holds : Spec I p good bad) : Spec I (peek p) good bad :=
  fun text kept => ⟨kept, (holds text kept).2⟩

theorem onText {code : List Tok} {p : Parser Tok A} (kept : I code) (holds : Spec I p good bad) :
    Spec I (onText code p) (fun result => good result.1 ∧ I result.2) bad := by
  intro text left
  have met := holds code kept
  simp only [Parsing.onText]
  split
  · next a rest result =>
    rw [result] at met
    exact ⟨left, met.2, met.1⟩
  · next e rest result =>
    rw [result] at met
    exact ⟨left, met.2⟩

/-- A text of its own whose rest is not looked at. -/
theorem within {code : List Tok} {p : Parser Tok A} (kept : I code) (holds : Spec I p good bad) :
    Spec I (Parsing.onText code p >>= fun result => Pure.pure result.1) good bad :=
  (onText kept holds).bind (fun _ met => pure met.1)

theorem getText : Spec I (getText : Parser Tok (List Tok)) I bad := fun _ kept => ⟨kept, kept⟩

theorem setText {rest : List Tok} (kept : I rest) :
    Spec I (setText rest) (fun _ => True) bad := fun _ _ => ⟨kept, trivial⟩

theorem manyFrom {p : Parser Tok A} (stops : bad .exhausted) (empty : bad .cut)
    (holds : Spec I p good bad) (fuel : Nat) :
    Spec I (manyFrom p fuel) (fun found => ∀ a ∈ found, good a) bad := by
  induction fuel with
  | zero => exact failWith stops
  | succ fuel ih =>
    intro text kept
    have met := holds text kept
    simp only [Parsing.manyFrom]
    split
    · next a rest result =>
      rw [result] at met
      split
      · exact ⟨met.1, empty⟩
      · have others := ih rest met.1
        split
        · next found last tail =>
          rw [tail] at others
          exact ⟨others.1, List.forall_mem_cons.mpr ⟨met.2, others.2⟩⟩
        · next e last tail =>
          rw [tail] at others
          exact others
    · refine ⟨kept, ?_⟩
      rintro b ⟨⟩
    · next e rest _ result =>
      rw [result] at met
      exact met

theorem many {p : Parser Tok A} (stops : bad .exhausted) (empty : bad .cut)
    (holds : Spec I p good bad) : Spec I (many p) (fun found => ∀ a ∈ found, good a) bad :=
  fun text => manyFrom stops empty holds (text.length + 1) text

theorem many1 {p : Parser Tok A} (stops : bad .exhausted) (empty : bad .cut)
    (holds : Spec I p good bad) :
    Spec I (many1 p) (fun found => found ≠ [] ∧ ∀ a ∈ found, good a) bad := by
  refine holds.bind (fun first met => (many stops empty holds).bind (fun rest others => ?_))
  exact pure ⟨List.cons_ne_nil first rest, List.forall_mem_cons.mpr ⟨met, others⟩⟩

end Spec

end Parsing
