import Mathlib.Algebra.BigOperators.Group.List.Basic

/-!
Runs of deterministic step functions over a list of inputs. `run` is for
steps that always continue. `List.foldlM` in `Except` is for steps that may
leave the loop with an exit value. The rules below carry a one-step fact to
a whole run; they name no particular machine.
-/
namespace Runs
variable {S I A X : Type*}

def run (step : S → I → S) (start : S) (inputs : List I) : S := inputs.foldl step start

@[simp] theorem run_nil (step : S → I → S) (s : S) : run step s [] = s := rfl

@[simp] theorem run_cons (step : S → I → S) (s : S) (i : I) (rest : List I) :
    run step s (i :: rest) = run step (step s i) rest := rfl

theorem run_invariant {step : S → I → S} (Inv : S → Prop) (inputs : List I)
    (preserved : ∀ s, ∀ i ∈ inputs, Inv s → Inv (step s i)) (s : S) (start : Inv s) :
    Inv (run step s inputs) := by
  induction inputs generalizing s with
  | nil => exact start
  | cons i rest ih =>
    refine ih (fun t j member => preserved t j (List.mem_cons_of_mem i member)) (step s i) ?_
    exact preserved s i (List.mem_cons_self ..) start

/-- Every step of the run from `s` meets `ok`, judged in the state before the step. -/
def AllSteps (step : S → I → S) (ok : S → I → Prop) : S → List I → Prop
  | _, [] => True
  | s, i :: rest => ok s i ∧ AllSteps step ok (step s i) rest

theorem run_invariant_of_allSteps {step : S → I → S} {ok : S → I → Prop} (Inv : S → Prop)
    (preserved : ∀ s i, ok s i → Inv s → Inv (step s i)) (inputs : List I) (s : S) (start : Inv s)
    (allowed : AllSteps step ok s inputs) : Inv (run step s inputs) := by
  induction inputs generalizing s with
  | nil => exact start
  | cons i rest ih => exact ih (step s i) (preserved s i allowed.1 start) allowed.2

/-- Where a step stays good exactly if it meets `ok`, and then keeps the invariant, the run is good
    all along exactly if every step meets it. -/
theorem good_prefixes_iff_allSteps {step : S → I → S} {ok : S → I → Prop} (Inv Good : S → Prop)
    (exact_ : ∀ s i, Inv s → Good s → (Good (step s i) ↔ ok s i))
    (kept : ∀ s i, Inv s → Good s → ok s i → Inv (step s i)) (inputs : List I) (s : S)
    (inv : Inv s) (start : Good s) :
    (∀ seen, seen <+: inputs → Good (run step s seen)) ↔ AllSteps step ok s inputs := by
  induction inputs generalizing s with
  | nil =>
    constructor
    · intro _
      trivial
    · intro _ seen first
      rw [List.prefix_nil.mp first]
      exact start
  | cons i rest ih =>
    constructor
    · intro always
      have one := always [i] ⟨rest, rfl⟩
      have allowed := (exact_ s i inv start).mp one
      refine ⟨allowed, (ih (step s i) (kept s i inv start allowed) one).mp ?_⟩
      intro seen first
      exact always (i :: seen) (List.cons_prefix_cons.mpr ⟨rfl, first⟩)
    · intro allowed seen first
      have next := (exact_ s i inv start).mpr allowed.1
      rcases List.prefix_cons_iff.mp first with rfl | ⟨tail, rfl, shorter⟩
      · exact start
      · exact (ih (step s i) (kept s i inv start allowed.1) next).mpr allowed.2 tail shorter

/-- Where a step keeps the invariant exactly if it meets `ok`, the invariant holds all along the run
    exactly if every step meets it. -/
theorem prefixes_iff_allSteps {step : S → I → S} {ok : S → I → Prop} (Inv : S → Prop)
    (exact_ : ∀ s i, Inv s → (Inv (step s i) ↔ ok s i)) (inputs : List I) (s : S) (start : Inv s) :
    (∀ seen, seen <+: inputs → Inv (run step s seen)) ↔ AllSteps step ok s inputs :=
  good_prefixes_iff_allSteps (fun _ => True) Inv (fun s i _ good => exact_ s i good)
    (fun _ _ _ _ _ => trivial) inputs s trivial start

/-- Steps that an invariant allows and that keep it are allowed all along the run. -/
theorem allSteps_of_invariant {step : S → I → S} {ok : S → I → Prop} (Inv : S → Prop)
    (allowed : ∀ s i, Inv s → ok s i) (kept : ∀ s i, Inv s → Inv (step s i)) (inputs : List I)
    (s : S) (start : Inv s) : AllSteps step ok s inputs := by
  induction inputs generalizing s with
  | nil => trivial
  | cons i rest ih => exact ⟨allowed s i start, ih (step s i) (kept s i start)⟩

/-- Where an invariant makes two conditions on a step the same, they are so all along the run. -/
theorem allSteps_congr {step : S → I → S} {ok fits : S → I → Prop} (Inv : S → Prop)
    (same : ∀ s i, Inv s → (ok s i ↔ fits s i)) (kept : ∀ s i, Inv s → Inv (step s i))
    (inputs : List I) (s : S) (start : Inv s) :
    AllSteps step ok s inputs ↔ AllSteps step fits s inputs := by
  induction inputs generalizing s with
  | nil => exact Iff.rfl
  | cons i rest ih => exact and_congr (same s i start) (ih (step s i) (kept s i start))

/-- A list-valued quantity to which every step appends what its input brings. -/
theorem run_appends {step : S → I → S} (content : S → List A) (brought : I → List A)
    (balanced : ∀ s i, content (step s i) = content s ++ brought i) (inputs : List I) (s : S) :
    content (run step s inputs) = content s ++ inputs.flatMap brought := by
  induction inputs generalizing s with
  | nil => simp
  | cons i rest ih => simp [ih, balanced, List.append_assoc]

/-- Every state a run passes through, and the state before its exit, satisfies the invariant. -/
theorem foldlM_ok_invariant {step : S → I → Except X S} (Inv : S → Prop) (inputs : List I)
    (preserved : ∀ s, ∀ i ∈ inputs, ∀ t, Inv s → step s i = .ok t → Inv t) (s t : S)
    (start : Inv s) (passed : inputs.foldlM step s = .ok t) : Inv t := by
  induction inputs generalizing s with
  | nil =>
    cases passed
    exact start
  | cons i rest ih =>
    rw [List.foldlM_cons] at passed
    cases first : step s i with
    | error x => simp [first, bind, Except.bind] at passed
    | ok middle =>
      rw [first] at passed
      have next := preserved s i (List.mem_cons_self ..) middle start first
      exact ih (fun u j member => preserved u j (List.mem_cons_of_mem i member)) middle next passed

/-- Every step that the loop takes, the one it leaves by included, meets `ok` in the state before
    the step. -/
def EveryStep (step : S → I → Except X S) (ok : S → I → Prop) : S → List I → Prop
  | _, [] => True
  | s, i :: rest => ok s i ∧ ∀ t, step s i = .ok t → EveryStep step ok t rest

/-- A loop that carries an invariant with a condition along and is left by `x`: `good` holds at the
    end exactly when every step has met `ok`. -/
theorem exit_iff_everyStep {step : S → I → Except X S} {ok : S → I → Prop}
    (Inv : S → Prop → Prop) {x : X} {good : Prop}
    (kept : ∀ s p i t, Inv s p → step s i = .ok t → Inv t (p ∧ ok s i))
    (left : ∀ s p i, Inv s p → step s i = .error x → (good ↔ p ∧ ok s i))
    (inputs : List I) (s : S) {p : Prop} (start : Inv s p)
    (exits : inputs.foldlM step s = .error x) : good ↔ p ∧ EveryStep step ok s inputs := by
  induction inputs generalizing s p with
  | nil => cases exits
  | cons i rest ih =>
    rw [List.foldlM_cons] at exits
    unfold EveryStep
    cases first : step s i with
    | error y =>
      simp only [first, bind, Except.bind] at exits
      cases exits
      rw [left s p i start first]
      simp
    | ok t =>
      rw [first] at exits
      rw [ih t (kept s p i t start first) exits, and_assoc]
      simp

/-- A loop over a list that changes each element and ends at the first error. -/
def tryEach (f : A → A × Except X Unit) : List A → List A × Except X Unit
  | [] => ([], .ok ())
  | a :: rest =>
    match f a with
    | (a, .error x) => (a :: rest, .error x)
    | (a, .ok ()) =>
      let (rest, result) := tryEach f rest
      (a :: rest, result)

/-- A loop that ends without an error has changed every element, each on its own. -/
theorem tryEach_ok {f : A → A × Except X Unit} {l l' : List A}
    (done : tryEach f l = (l', .ok ())) : ∀ a' ∈ l', ∃ a ∈ l, f a = (a', .ok ()) := by
  induction l generalizing l' with
  | nil =>
    cases done
    intro a' member
    cases member
  | cons a rest ih =>
    unfold tryEach at done
    cases first : f a with
    | mk a₁ result =>
      rw [first] at done
      cases result with
      | error x => cases done
      | ok _ =>
        cases others : tryEach f rest with
        | mk rest₁ result =>
          rw [others] at done
          cases done
          intro a' member
          rcases List.mem_cons.mp member with rfl | later
          · exact ⟨a, List.mem_cons_self .., first⟩
          · obtain ⟨before, present, step⟩ := ih others a' later
            exact ⟨before, List.mem_cons_of_mem a present, step⟩

end Runs
