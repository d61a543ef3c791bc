import Mathlib.Data.List.Basic

/-!
Frames taken off the front of a growing buffer. `next` takes the first frame,
when the buffer shows one; `drain` takes all of them; `feed` appends chunk
after chunk and drains each time. The question is when the frames depend on
the bytes alone and not on the chunks. The fuel of `drain` is the length of
its buffer, enough for a `next` that always takes something.
-/
namespace StreamFraming
variable {A F : Type*}

/-- Every frame takes at least one element off the buffer. -/
def Shrinks (next : List A → Option (F × List A)) : Prop :=
  ∀ buf frame rest, next buf = some (frame, rest) → rest.length < buf.length

/-- A frame that a buffer shows does not change when more arrives. -/
def Stable (next : List A → Option (F × List A)) : Prop :=
  ∀ buf frame rest more, next buf = some (frame, rest) →
    next (buf ++ more) = some (frame, rest ++ more)

def drainFuel (next : List A → Option (F × List A)) : Nat → List A → List F × List A
  | 0, buf => ([], buf)
  | fuel + 1, buf =>
    match next buf with
    | none => ([], buf)
    | some (frame, rest) =>
      let later := drainFuel next fuel rest
      (frame :: later.1, later.2)

def drain (next : List A → Option (F × List A)) (buf : List A) : List F × List A :=
  drainFuel next buf.length buf

def feed (next : List A → Option (F × List A)) : List A → List (List A) → List F × List A
  | buf, [] => ([], buf)
  | buf, chunk :: rest =>
    let now := drain next (buf ++ chunk)
    let later := feed next now.2 rest
    (now.1 ++ later.1, later.2)

section Drain
variable {next : List A → Option (F × List A)}

theorem Shrinks.nil (shrinks : Shrinks next) : next [] = none := by
  cases first : next [] with
  | none => rfl
  | some taken =>
    have shorter := shrinks [] taken.1 taken.2 first
    simp at shorter

theorem Shrinks.ne_nil (shrinks : Shrinks next) {buf rest : List A} {frame : F}
    (taken : next buf = some (frame, rest)) : buf ≠ [] := by
  rintro rfl
  rw [shrinks.nil] at taken
  cases taken

theorem drainFuel_enough (shrinks : Shrinks next) (fuel : Nat) (buf : List A)
    (enough : buf.length ≤ fuel) : drainFuel next fuel buf = drain next buf := by
  unfold drain
  -- Both sides read the same frames; what is left is shorter than either amount of fuel.
  have same : ∀ (n m : Nat) (buf : List A), buf.length ≤ n → buf.length ≤ m →
      drainFuel next n buf = drainFuel next m buf := by
    intro n
    induction n with
    | zero =>
      intro m buf short _
      have empty : buf = [] := List.eq_nil_of_length_eq_zero (by omega)
      subst empty
      cases m with
      | zero => rfl
      | succ m => simp [drainFuel, shrinks.nil]
    | succ n ih =>
      intro m buf short fits
      cases first : next buf with
      | none => cases m <;> simp [drainFuel, first]
      | some taken =>
        obtain ⟨frame, rest⟩ := taken
        have shorter := shrinks buf frame rest first
        cases m with
        | zero => omega
        | succ m =>
          have tail := ih m rest (by omega) (by omega)
          simp [drainFuel, first, tail]
  exact same fuel buf.length buf enough (by omega)

theorem drain_none {buf : List A} (first : next buf = none) : drain next buf = ([], buf) := by
  unfold drain
  cases buf.length <;> simp [drainFuel, first]

theorem drain_some (shrinks : Shrinks next) {buf rest : List A} {frame : F}
    (first : next buf = some (frame, rest)) :
    drain next buf = (frame :: (drain next rest).1, (drain next rest).2) := by
  have shorter := shrinks buf frame rest first
  obtain ⟨fuel, size⟩ : ∃ fuel, buf.length = fuel + 1 := ⟨buf.length - 1, by omega⟩
  have tail := drainFuel_enough shrinks fuel rest (by omega)
  simp [drain, size, drainFuel, first, tail]

/-- Induction along the frames of a buffer. -/
theorem drain_induction (shrinks : Shrinks next) {motive : List A → Prop}
    (stop : ∀ buf, next buf = none → motive buf)
    (frame : ∀ buf frame rest, next buf = some (frame, rest) → motive rest → motive buf)
    (buf : List A) : motive buf := by
  suffices short : ∀ n (buf : List A), buf.length ≤ n → motive buf by
    exact short buf.length buf (by omega)
  intro n
  induction n with
  | zero =>
    intro buf bound
    have empty : buf = [] := List.eq_nil_of_length_eq_zero (by omega)
    subst empty
    exact stop [] shrinks.nil
  | succ n ih =>
    intro buf bound
    cases first : next buf with
    | none => exact stop buf first
    | some taken =>
      have shorter := shrinks buf taken.1 taken.2 first
      exact frame buf taken.1 taken.2 first (ih taken.2 (by omega))

theorem next_drained (shrinks : Shrinks next) (buf : List A) :
    next (drain next buf).2 = none := by
  induction buf using drain_induction shrinks with
  | stop buf first => rw [drain_none first, first]
  | frame buf frame rest first ih => rw [drain_some shrinks first, ih]

theorem drain_length_le (shrinks : Shrinks next) (buf : List A) :
    (drain next buf).2.length ≤ buf.length := by
  induction buf using drain_induction shrinks with
  | stop buf first => simp [drain_none first]
  | frame buf frame rest first ih =>
    have shorter := shrinks buf frame rest first
    rw [drain_some shrinks first]
    exact Nat.le_trans ih (Nat.le_of_lt shorter)

end Drain

section Cuts
variable {next : List A → Option (F × List A)}

/-- However the stream is cut, its front shows no other first frame than the whole stream. -/
def Settled (next : List A → Option (F × List A)) (stream : List A) : Prop :=
  ∀ buf more, stream = buf ++ more → ∀ frame rest, next buf = some (frame, rest) →
    next stream = some (frame, rest ++ more)

/-- The stream is settled at every frame boundary. -/
inductive Uniform (next : List A → Option (F × List A)) : List A → Prop where
  | stop {stream : List A} (settled : Settled next stream) (done : next stream = none) :
      Uniform next stream
  | frame {stream rest : List A} {frame : F} (settled : Settled next stream)
      (first : next stream = some (frame, rest)) (tail : Uniform next rest) : Uniform next stream

theorem Uniform.settled {stream : List A} (uniform : Uniform next stream) :
    Settled next stream := by
  cases uniform with
  | stop settled _ => exact settled
  | frame settled _ _ => exact settled

theorem Uniform.tail {stream rest : List A} {frame : F} (uniform : Uniform next stream)
    (first : next stream = some (frame, rest)) : Uniform next rest := by
  cases uniform with
  | stop _ done =>
    rw [done] at first
    cases first
  | frame _ first' tail =>
    rw [first'] at first
    cases first
    exact tail

theorem Stable.uniform (stable : Stable next) (shrinks : Shrinks next) (stream : List A) :
    Uniform next stream := by
  have settled : ∀ stream, Settled next stream := by
    rintro stream buf more rfl frame rest first
    exact stable buf frame rest more first
  induction stream using drain_induction shrinks with
  | stop stream done => exact .stop (settled stream) done
  | frame stream frame rest first ih => exact .frame (settled stream) first ih

/-- Draining a front first, and then the rest, takes the frames of the whole. -/
theorem Uniform.drain_append (shrinks : Shrinks next) (buf more : List A)
    (uniform : Uniform next (buf ++ more)) :
    Uniform next ((drain next buf).2 ++ more) ∧
      drain next (buf ++ more) =
        ((drain next buf).1 ++ (drain next ((drain next buf).2 ++ more)).1,
          (drain next ((drain next buf).2 ++ more)).2) := by
  induction buf using drain_induction shrinks with
  | stop buf first =>
    rw [drain_none first]
    exact ⟨uniform, rfl⟩
  | frame buf frame rest first ih =>
    have whole := uniform.settled buf more rfl frame rest first
    obtain ⟨later, same⟩ := ih (uniform.tail whole)
    rw [drain_some shrinks whole, drain_some shrinks first]
    refine ⟨later, ?_⟩
    rw [same]
    rfl

theorem Uniform.feed_eq (shrinks : Shrinks next) (chunks : List (List A)) (buf : List A)
    (waiting : next buf = none) (uniform : Uniform next (buf ++ chunks.flatten)) :
    feed next buf chunks = drain next (buf ++ chunks.flatten) := by
  induction chunks generalizing buf with
  | nil =>
    rw [List.flatten_nil, List.append_nil, drain_none waiting]
    rfl
  | cons chunk rest ih =>
    rw [List.flatten_cons, ← List.append_assoc] at uniform ⊢
    obtain ⟨later, same⟩ := uniform.drain_append shrinks
    have tail := ih (drain next (buf ++ chunk)).2 (next_drained shrinks _) later
    rw [same, ← tail]
    rfl

theorem Stable.drain_append (stable : Stable next) (shrinks : Shrinks next) (buf more : List A) :
    drain next (buf ++ more) =
      ((drain next buf).1 ++ (drain next ((drain next buf).2 ++ more)).1,
        (drain next ((drain next buf).2 ++ more)).2) :=
  ((stable.uniform shrinks (buf ++ more)).drain_append shrinks).2

/-- A stable extractor gives the same frames, and leaves the same rest, for every partition. -/
theorem Stable.feed_eq (stable : Stable next) (shrinks : Shrinks next) (chunks : List (List A)) :
    feed next [] chunks = drain next chunks.flatten :=
  (stable.uniform shrinks chunks.flatten).feed_eq shrinks chunks [] shrinks.nil

end Cuts

end StreamFraming
