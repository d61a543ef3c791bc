import Mathlib.Data.Option.Basic

/-!
Two computations with a state that may fail, run from the same state: both
fail, or both return, with related results and in the same state.
-/
namespace Relate
variable {S A B C D : Type*}

inductive Outcomes (R : A → B → Prop) : Option (A × S) → Option (B × S) → Prop where
  | failed : Outcomes R none none
  | returned {a : A} {b : B} {state : S} (related : R a b) :
      Outcomes R (some (a, state)) (some (b, state))

variable {R : A → B → Prop} {T : C → D → Prop}

/-- Related computations, continued by computations that are related after related results. -/
theorem Outcomes.bind {p : Option (A × S)} {q : Option (B × S)} (first : Outcomes R p q)
    {f : A × S → Option (C × S)} {g : B × S → Option (D × S)}
    (next : ∀ a b state, p = some (a, state) → R a b → Outcomes T (f (a, state)) (g (b, state))) :
    Outcomes T (p.bind f) (q.bind g) := by
  cases first with
  | failed => exact .failed
  | returned related => exact next _ _ _ rfl related

theorem Outcomes.mono {R' : A → B → Prop} {p : Option (A × S)} {q : Option (B × S)}
    (first : Outcomes R p q) (weaker : ∀ a b, R a b → R' a b) : Outcomes R' p q := by
  cases first with
  | failed => exact .failed
  | returned related => exact .returned (weaker _ _ related)

/-- The first result is changed afterwards, without a look at the state. -/
theorem Outcomes.mapLeft {R' : C → B → Prop} {p : Option (A × S)} {q : Option (B × S)}
    (first : Outcomes R p q) {f : A → C} (related : ∀ a b, R a b → R' (f a) b) :
    Outcomes R' (p.bind fun r => some (f r.1, r.2)) q := by
  cases first with
  | failed => exact .failed
  | returned same => exact .returned (related _ _ same)

/-- One computation, read in two ways. -/
theorem Outcomes.same {R : A → A → Prop} (p : Option (A × S)) (related : ∀ a, R a a) :
    Outcomes R p p := by
  cases p with
  | none => exact .failed
  | some result => exact .returned (related result.1)

end Relate
