import Mathlib.Data.List.Basic
import Mathlib.Data.Option.Basic

/-!
Stages that a value passes one after another, each of which may fail. The whole
run succeeds exactly when every stage accepts what the stages before it hand
on; a second kind of value that is seen as the first runs alike.
-/
namespace Stages

variable {F A B : Type*}

/-- Each stage accepts the value that reaches it. -/
def AcceptsAll (accepts : F → A → Prop) (run : F → A → Option A) : List F → A → Prop
  | [], _ => True
  | stage :: rest, a => accepts stage a ∧ ∀ b, run stage a = some b → AcceptsAll accepts run rest b

variable {accepts : F → A → Prop} {run : F → A → Option A}

theorem foldlM_isSome_iff (exact : ∀ stage a, (run stage a).isSome ↔ accepts stage a)
    (stages : List F) (a : A) :
    (stages.foldlM (fun a stage => run stage a) a).isSome ↔ AcceptsAll accepts run stages a := by
  induction stages generalizing a with
  | nil => simp [AcceptsAll]
  | cons stage rest ih =>
    rw [List.foldlM_cons, AcceptsAll, ← exact]
    cases ran : run stage a with
    | none => simp
    | some b => simp [ih b]

/-- Stages that accept every value do so in any chain. -/
theorem acceptsAll_of_forall {stages : List F} (all : ∀ stage ∈ stages, ∀ a, accepts stage a)
    (a : A) : AcceptsAll accepts run stages a := by
  induction stages generalizing a with
  | nil => trivial
  | cons stage rest ih =>
    exact ⟨all stage List.mem_cons_self a, fun b _ =>
      ih (fun later member => all later (List.mem_cons_of_mem stage member)) b⟩

theorem foldlM_map_view {runB : F → B → Option B} {view : B → A}
    (same : ∀ stage b, (runB stage b).map view = run stage (view b)) (stages : List F) (b : B) :
    (stages.foldlM (fun b stage => runB stage b) b).map view =
      stages.foldlM (fun a stage => run stage a) (view b) := by
  induction stages generalizing b with
  | nil => rfl
  | cons stage rest ih =>
    rw [List.foldlM_cons, List.foldlM_cons, ← same]
    cases runB stage b with
    | none => rfl
    | some next => exact ih next

end Stages
