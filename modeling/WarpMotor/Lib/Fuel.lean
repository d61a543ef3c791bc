import Mathlib.Data.Nat.Notation

/-!
Functions with a fuel argument that return a result from some amount of fuel
on, or fail from some amount on. The rules follow the shape of a definition by recursion on the fuel: one
unit is spent, and the rest is handed to the calls.
-/
namespace Fuel
variable {A B : Type*}

/-- `f` returns `r`, given enough fuel. -/
def Yields (f : Nat → Option A) (r : A) : Prop := ∃ enough, ∀ fuel, enough ≤ fuel → f fuel = some r

theorem Yields.const {f : Nat → Option A} {r : A} (returns : ∀ fuel, f (fuel + 1) = some r) :
    Yields f r := by
  refine ⟨1, ?_⟩
  intro fuel enough
  obtain ⟨rest, rfl⟩ : ∃ rest, fuel = rest + 1 := ⟨fuel - 1, by omega⟩
  exact returns rest

/-- One unit is spent and the call goes on as `g`. -/
theorem Yields.step {f g : Nat → Option A} {r : A} (unfolds : ∀ fuel, f (fuel + 1) = g fuel)
    (later : Yields g r) : Yields f r := by
  obtain ⟨enough, returns⟩ := later
  refine ⟨enough + 1, ?_⟩
  intro fuel bound
  obtain ⟨rest, rfl⟩ : ∃ rest, fuel = rest + 1 := ⟨fuel - 1, by omega⟩
  rw [unfolds]
  exact returns rest (by omega)

theorem Yields.bind {f : Nat → Option A} {g : Nat → A → Option B} {a : A} {b : B}
    (first : Yields f a) (second : Yields (fun fuel => g fuel a) b) :
    Yields (fun fuel => (f fuel).bind (g fuel)) b := by
  obtain ⟨enough₁, returns₁⟩ := first
  obtain ⟨enough₂, returns₂⟩ := second
  refine ⟨max enough₁ enough₂, ?_⟩
  intro fuel bound
  have returned : f fuel = some a := returns₁ fuel (by omega)
  dsimp only
  rw [returned, Option.bind_some]
  exact returns₂ fuel (by omega)

theorem Yields.map {f : Nat → Option A} {a : A} (returns : Yields f a) (g : A → B) :
    Yields (fun fuel => (f fuel).map g) (g a) := by
  obtain ⟨enough, returns⟩ := returns
  refine ⟨enough, ?_⟩
  intro fuel bound
  dsimp only
  rw [returns fuel bound, Option.map_some]

theorem Yields.unique {f : Nat → Option A} {r r' : A} (one : Yields f r) (other : Yields f r') :
    r = r' := by
  obtain ⟨enough₁, returns₁⟩ := one
  obtain ⟨enough₂, returns₂⟩ := other
  have first := returns₁ (max enough₁ enough₂) (by omega)
  have second := returns₂ (max enough₁ enough₂) (by omega)
  rw [first] at second
  exact Option.some.inj second

/-- `f` returns `r`, a result or a failure, from some amount of fuel on. -/
def Settles (f : Nat → Option A) (r : Option A) : Prop := ∃ enough, ∀ fuel, enough ≤ fuel → f fuel = r

theorem Settles.const {f : Nat → Option A} {r : Option A} (returns : ∀ fuel, f (fuel + 1) = r) :
    Settles f r := by
  refine ⟨1, ?_⟩
  intro fuel enough
  obtain ⟨rest, rfl⟩ : ∃ rest, fuel = rest + 1 := ⟨fuel - 1, by omega⟩
  exact returns rest

theorem Settles.step {f g : Nat → Option A} {r : Option A} (unfolds : ∀ fuel, f (fuel + 1) = g fuel)
    (later : Settles g r) : Settles f r := by
  obtain ⟨enough, returns⟩ := later
  refine ⟨enough + 1, ?_⟩
  intro fuel bound
  obtain ⟨rest, rfl⟩ : ∃ rest, fuel = rest + 1 := ⟨fuel - 1, by omega⟩
  rw [unfolds]
  exact returns rest (by omega)

theorem Settles.bind_none {f : Nat → Option A} (g : Nat → A → Option B) (fails : Settles f none) :
    Settles (fun fuel => (f fuel).bind (g fuel)) none := by
  obtain ⟨enough, returns⟩ := fails
  refine ⟨enough, ?_⟩
  intro fuel bound
  dsimp only
  rw [returns fuel bound, Option.bind_none]

theorem Settles.bind_some {f : Nat → Option A} {g : Nat → A → Option B} {a : A} {r : Option B}
    (first : Settles f (some a)) (second : Settles (fun fuel => g fuel a) r) :
    Settles (fun fuel => (f fuel).bind (g fuel)) r := by
  obtain ⟨enough₁, returns₁⟩ := first
  obtain ⟨enough₂, returns₂⟩ := second
  refine ⟨max enough₁ enough₂, ?_⟩
  intro fuel bound
  dsimp only
  rw [returns₁ fuel (by omega), Option.bind_some]
  exact returns₂ fuel (by omega)

theorem Settles.unique {f : Nat → Option A} {r r' : Option A} (one : Settles f r)
    (other : Settles f r') : r = r' := by
  obtain ⟨enough₁, returns₁⟩ := one
  obtain ⟨enough₂, returns₂⟩ := other
  have first := returns₁ (max enough₁ enough₂) (by omega)
  have second := returns₂ (max enough₁ enough₂) (by omega)
  exact first.symm.trans second

end Fuel
