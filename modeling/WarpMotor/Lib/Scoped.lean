import WarpMotor.Lib.Parsing

/-!
Parsers that take a scope, a text of its own, and read its body: what they leave
of the body, lists with separators in it, and the places at which a repeated
parser starts.
-/
namespace Parsing
variable {Tok : Type} {A B : Type}

theorem bind_of_ok {p : Parser Tok A} {f : A → Parser Tok B} {text rest : List Tok} {a : A}
    (first : p text = (.ok a, rest)) : (p >>= f) text = f a rest := by
  rw [bind_run, first]

theorem bind_assoc {C : Type} (p : Parser Tok A) (f : A → Parser Tok B) (g : B → Parser Tok C) :
    p >>= f >>= g = p >>= fun a => f a >>= g := by
  funext text
  simp only [bind_run]
  cases p text with
  | mk result rest => cases result <;> rfl

theorem bind_pure_run (p : Parser Tok A) : (p >>= fun a => pure a) = p := by
  funext text
  rw [bind_run]
  cases p text with
  | mk result rest => cases result <;> rfl

theorem bind_congr_run {f g : A → Parser Tok B} (p : Parser Tok A) (text : List Tok)
    (same : ∀ a, f a = g a) : (p >>= f) text = (p >>= g) text := by
  rw [funext same]

theorem onText_ok {code text last : List Tok} {p : Parser Tok A} {read : A × List Tok}
    (result : onText code p text = (.ok read, last)) :
    p code = (.ok read.1, read.2) ∧ last = text := by
  unfold onText at result
  split at result
  · next ran =>
    cases result
    exact ⟨ran, rfl⟩
  · cases result

theorem attempt_of_ok {p : Parser Tok A} {text rest : List Tok} {a : A}
    (read : p text = (.ok a, rest)) : attempt p text = (.ok (some a), rest) := by
  rw [attempt, read]

/-- What an accepted attempt has seen. -/
theorem attempt_cases {p : Parser Tok A} {text rest : List Tok} {found : Option A}
    (result : attempt p text = (.ok found, rest)) :
    (∃ a, found = some a ∧ p text = (.ok a, rest)) ∨
      (found = none ∧ ∃ e, p text = (.error e, rest)) := by
  unfold attempt at result
  split at result
  · next a after ran =>
    cases result
    exact .inl ⟨a, rfl, ran⟩
  · next e after ran =>
    split at result
    · cases result
      exact .inr ⟨rfl, e, ran⟩
    · cases result

/-- A parser seen from one of its scopes: what it does up to the body, on the body, and with what
    was read and left of the body. -/
structure ScopeReader (Tok : Type) where
  Result : Type
  Head : Type
  Body : Type
  parser : Parser Tok Result
  head : Parser Tok (Head × List Tok)
  inner : Head → List Tok → Parser Tok Body
  finish : Head → Body → List Tok → Parser Tok Result
  reads : ∀ {text rest : List Tok} {before : Head} {code : List Tok},
    head text = (.ok (before, code), rest) →
      parser text = (onText code (inner before code) >>= fun read =>
        finish before read.1 read.2) rest

namespace ScopeReader
variable (blank : List Tok → Prop) (r : ScopeReader Tok)

/-- The text is accepted, and `code` is the body that is read in it. -/
def Accepts (text : List Tok) (before : r.Head) (code : List Tok) : Prop :=
  (∃ rest, r.head text = (.ok (before, code), rest)) ∧ ∃ a last, r.parser text = (.ok a, last)

/-- The body is read as `b`, and `left` stands behind what is read. -/
def Leaves (before : r.Head) (code : List Tok) (b : r.Body) (left : List Tok) : Prop :=
  r.inner before code code = (.ok b, left)

/-- Where the text is accepted, all of the body is read. -/
def Consumes (text : List Tok) : Prop :=
  ∀ before code, r.Accepts text before code → ∃ b left, r.Leaves before code b left ∧ blank left

variable {blank r}

theorem Accepts.leaves {text code : List Tok} {before : r.Head}
    (accepts : r.Accepts text before code) :
    ∃ b left, r.Leaves before code b left ∧
      ∃ rest a last, r.finish before b left rest = (.ok a, last) := by
  obtain ⟨⟨rest, opened⟩, a, last, parsed⟩ := accepts
  rw [r.reads opened] at parsed
  obtain ⟨read, after, ran, finished⟩ := bind_ok_run parsed
  exact ⟨read.1, read.2, (onText_ok ran).1, after, a, last, finished⟩

theorem Leaves.unique {code left left' : List Tok} {before : r.Head} {b b' : r.Body}
    (one : r.Leaves before code b left) (other : r.Leaves before code b' left') : left = left' := by
  have same := one.symm.trans other
  cases same
  rfl

/-- A scope is consumed where what follows checks that nothing is left. -/
theorem consumes_of_finish (checked : ∀ before b left rest a last,
    r.finish before b left rest = (.ok a, last) → blank left) (text : List Tok) :
    r.Consumes blank text := by
  intro before code accepts
  obtain ⟨b, left, leaves, rest, a, last, finished⟩ := accepts.leaves
  exact ⟨b, left, leaves, checked before b left rest a last finished⟩

/-- A scope is consumed where its reader stops at the end only. -/
theorem consumes_of_inner (total : ∀ before code b left, r.Leaves before code b left → blank left)
    (text : List Tok) : r.Consumes blank text := by
  intro before code accepts
  obtain ⟨b, left, leaves, -⟩ := accepts.leaves
  exact ⟨b, left, leaves, total before code b left leaves⟩

/-- A scope that nothing checks is consumed where its body is of the form that is read in full. -/
theorem consumes_iff {bare : List Tok → Prop} (exact : ∀ before code b left,
    r.Leaves before code b left → (blank left ↔ bare code)) (text : List Tok) :
    r.Consumes blank text ↔ ∀ before code, r.Accepts text before code → bare code := by
  constructor
  · intro consumes before code accepts
    obtain ⟨b, left, leaves, none⟩ := consumes before code accepts
    exact (exact before code b left leaves).mp none
  · intro full before code accepts
    obtain ⟨b, left, leaves, -⟩ := accepts.leaves
    exact ⟨b, left, leaves, (exact before code b left leaves).mpr (full before code accepts)⟩

/-- An accepted text of whose body something is left. -/
theorem not_consumes {text : List Tok} (before : r.Head) (code : List Tok)
    (opened : (r.head text).1 = .ok (before, code)) (accepted : (r.parser text).1.isOk = true)
    (some_left : ¬ blank (r.inner before code code).2) : ¬ r.Consumes blank text := by
  intro consumes
  have accepts : r.Accepts text before code := by
    refine ⟨⟨(r.head text).2, Prod.ext opened rfl⟩, ?_⟩
    cases ran : r.parser text with
    | mk result last =>
      rw [ran] at accepted
      cases result with
      | ok a => exact ⟨a, last, rfl⟩
      | error e => cases accepted
  obtain ⟨b, left, leaves, none⟩ := consumes before code accepts
  rw [leaves] at some_left
  exact some_left none

end ScopeReader

section Lists
variable (comma : Parser Tok Unit) (item : Parser Tok A)

/-- Items with a comma between them, and what stands behind the last, where no comma does. -/
inductive Listed : List Tok → List A → List Tok → Prop where
  | last {text rest left : List Tok} {a : A} {e : Fail} :
      item text = (.ok a, rest) → comma rest = (.error e, left) → Listed text [a] left
  | more {text rest next left : List Tok} {a : A} {as : List A} :
      item text = (.ok a, rest) → comma rest = (.ok (), next) → Listed next as left →
        Listed text (a :: as) left

/-- The items behind the first. -/
def moreItems : Nat → Parser Tok (List A)
  | 0 => failWith .exhausted
  | rounds + 1 => do
    match ← attempt comma with
    | some _ =>
      let a ← item
      return a :: (← moreItems rounds)
    | none => return []

variable {comma item}

theorem Listed.unique {text left left' : List Tok} {as as' : List A}
    (one : Listed comma item text as left) (other : Listed comma item text as' left') :
    as = as' ∧ left = left' := by
  induction one generalizing as' left' with
  | last read stop =>
    cases other with
    | last read' stop' =>
      cases read.symm.trans read'
      cases stop.symm.trans stop'
      exact ⟨rfl, rfl⟩
    | more read' go _ =>
      cases read.symm.trans read'
      cases stop.symm.trans go
  | more read go _ ih =>
    cases other with
    | last read' stop =>
      cases read.symm.trans read'
      cases go.symm.trans stop
    | more read' go' others =>
      cases read.symm.trans read'
      cases go.symm.trans go'
      obtain ⟨same, ends⟩ := ih others
      exact ⟨congrArg _ same, ends⟩

theorem moreItems_listed {rounds : Nat} {text rest left : List Tok} {a : A} {as : List A}
    (first : item text = (.ok a, rest)) (others : moreItems comma item rounds rest = (.ok as, left)) :
    Listed comma item text (a :: as) left := by
  induction rounds generalizing text rest a as with
  | zero => cases others
  | succ rounds ih =>
    rw [moreItems] at others
    obtain ⟨found, between, tried, result⟩ := bind_ok_run others
    rcases attempt_cases tried with ⟨u, rfl, go⟩ | ⟨rfl, e, stop⟩
    · obtain ⟨b, after, second, result⟩ := bind_ok_run result
      obtain ⟨bs, last, more, done⟩ := bind_ok_run result
      cases done
      exact .more first go (ih second more)
    · cases result
      exact .last first stop

end Lists

/-- The places at which a parser starts when it is repeated from `text` on. -/
inductive Starts (p : Parser Tok A) : List Tok → List Tok → Prop where
  | here {text : List Tok} : Starts p text text
  | later {text next start : List Tok} {a : A} :
      p text = (.ok a, next) → Starts p next start → Starts p text start

/-- The parser returns `a` at one of the places at which it starts. -/
def Returns (p : Parser Tok A) (text : List Tok) (a : A) : Prop :=
  ∃ start next, Starts p text start ∧ p start = (.ok a, next)

theorem returns_of_ok {p : Parser Tok A} {text after : List Tok} {first : A}
    (read : p text = (.ok first, after)) (a : A) :
    Returns p text a ↔ a = first ∨ Returns p after a := by
  constructor
  · rintro ⟨start, next, starts, found⟩
    cases starts with
    | here =>
      cases read.symm.trans found
      exact .inl rfl
    | later read' starts =>
      cases read.symm.trans read'
      exact .inr ⟨start, next, starts, found⟩
  · rintro (rfl | ⟨start, next, starts, found⟩)
    · exact ⟨text, after, .here, read⟩
    · exact ⟨start, next, .later read starts, found⟩

theorem not_returns_of_error {p : Parser Tok A} {text after : List Tok} {e : Fail}
    (stop : p text = (.error e, after)) (a : A) : ¬ Returns p text a := by
  rintro ⟨start, next, starts, found⟩
  cases starts with
  | here => cases stop.symm.trans found
  | later read _ => cases stop.symm.trans read

theorem mem_manyFrom {p : Parser Tok A} {fuel : Nat} {text rest : List Tok} {as : List A}
    (parsed : manyFrom p fuel text = (.ok as, rest)) (a : A) : a ∈ as ↔ Returns p text a := by
  induction fuel generalizing text as with
  | zero => cases parsed
  | succ fuel ih =>
    unfold manyFrom at parsed
    split at parsed
    · next first after read =>
      split at parsed
      · cases parsed
      · split at parsed
        · next others last tail =>
          cases parsed
          rw [List.mem_cons, ih tail, returns_of_ok read]
        · cases parsed
    · next after stop =>
      cases parsed
      have none := not_returns_of_error stop a
      simp [none]
    · cases parsed

/-- What a repeated parser returns. -/
theorem mem_many1 {p : Parser Tok A} {text rest : List Tok} {as : List A}
    (parsed : many1 p text = (.ok as, rest)) (a : A) : a ∈ as ↔ Returns p text a := by
  obtain ⟨first, after, read, result⟩ := bind_ok_run parsed
  obtain ⟨others, last, more, done⟩ := bind_ok_run result
  cases done
  rw [List.mem_cons, mem_manyFrom more, returns_of_ok read]

end Parsing
