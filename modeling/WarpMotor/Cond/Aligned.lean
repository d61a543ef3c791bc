import WarpMotor.Cond.Grammar

/-!
A tree that is not aligned is misread. When its comparisons are distinct they
can be made true or false one by one, and so can the known sides of all the
calls that a tree leaves open. At the first operator that is out of line the
open calls are set so that the difference comes through to the whole value.
-/
namespace WarpMotor
open BoolFrames

namespace Cond
variable {C : Type}

theorem endAnds_truth (truth truth' : C → Bool) (frames : List (Frame Bool)) (value : Bool) :
    (boolOps truth).endAnds frames value = (boolOps truth').endAnds frames value := by
  induction frames generalizing value with
  | nil => rfl
  | cons frame rest ih =>
    cases frame with
    | and left => exact ih (left && value)
    | or left => rfl
    | group negated => rfl

theorem closeTop_truth (truth truth' : C → Bool) (negated : Bool) (open_ : List (Frame Bool) × Bool) :
    (boolOps truth).closeTop negated open_ = (boolOps truth').closeTop negated open_ := by
  obtain ⟨frames, value⟩ := open_
  cases frames with
  | nil => simp only [LogicOps.closeTop, boolOps_close]
  | cons frame rest => simp only [LogicOps.closeTop, boolOps_close]

/-- Only the comparisons of a tree count. -/
theorem residual_congr {truth truth' : C → Bool} {level : CondLevel} (t : Cond C level)
    (same : ∀ c ∈ t.comparisons, truth c = truth' c) :
    (boolOps truth).residual t = (boolOps truth').residual t := by
  induction t with
  | cmp negated c =>
    have equal : truth c = truth' c := same c (List.mem_singleton_self c)
    rw [boolOps_residual_cmp, boolOps_residual_cmp, equal]
  | group negated body ih =>
    simp only [LogicOps.residual]
    rw [ih same, closeTop_truth truth truth']
  | lastAnd operand ih => exact ih same
  | and operand rest ih₁ ih₂ =>
    have first := ih₁ (fun c member => same c (List.mem_append_left _ member))
    have second := ih₂ (fun c member => same c (List.mem_append_right _ member))
    simp only [LogicOps.residual, first, second]
  | lastOr operand ih => exact ih same
  | or operand rest ih₁ ih₂ =>
    have first := ih₁ (fun c member => same c (List.mem_append_left _ member))
    have second := ih₂ (fun c member => same c (List.mem_append_right _ member))
    simp only [LogicOps.residual, first, second, endAnds_truth truth truth']

theorem value_congr {truth truth' : C → Bool} {level : CondLevel} (t : Cond C level)
    (same : ∀ c ∈ t.comparisons, truth c = truth' c) : t.value truth = t.value truth' := by
  induction t with
  | cmp negated c => rw [value, value, same c (List.mem_singleton_self c)]
  | group negated body ih => rw [value, value, ih same]
  | lastAnd operand ih => exact ih same
  | and operand rest ih₁ ih₂ =>
    rw [value, value, ih₁ (fun c member => same c (List.mem_append_left _ member)),
      ih₂ (fun c member => same c (List.mem_append_right _ member))]
  | lastOr operand ih => exact ih same
  | or operand rest ih₁ ih₂ =>
    rw [value, value, ih₁ (fun c member => same c (List.mem_append_left _ member)),
      ih₂ (fun c member => same c (List.mem_append_right _ member))]

/-- Two trees without a common comparison can be given truth values independently. -/
theorem exists_joint {level₁ level₂ : CondLevel} (t₁ : Cond C level₁) (t₂ : Cond C level₂)
    (distinct : (t₁.comparisons ++ t₂.comparisons).Nodup) (truth₁ truth₂ : C → Bool) :
    ∃ truth : C → Bool,
      (boolOps truth).residual t₁ = (boolOps truth₁).residual t₁ ∧
      t₁.value truth = t₁.value truth₁ ∧
      (boolOps truth).residual t₂ = (boolOps truth₂).residual t₂ ∧
      t₂.value truth = t₂.value truth₂ := by
  classical
  obtain ⟨-, -, disjoint⟩ := List.nodup_append.mp distinct
  have first : ∀ c ∈ t₁.comparisons,
      (if c ∈ t₁.comparisons then truth₁ c else truth₂ c) = truth₁ c := by
    intro c member
    rw [if_pos member]
  have second : ∀ c ∈ t₂.comparisons,
      (if c ∈ t₁.comparisons then truth₁ c else truth₂ c) = truth₂ c := by
    intro c member
    rw [if_neg (fun other => disjoint c other c member rfl)]
  exact ⟨fun c => if c ∈ t₁.comparisons then truth₁ c else truth₂ c, residual_congr t₁ first,
    value_congr t₁ first, residual_congr t₂ second, value_congr t₂ second⟩

theorem exists_frame_apply (kind : Kind) (value : Bool) :
    ∃ frame : Frame Bool, frame.kind = kind ∧ ∃ operand, frame.apply operand = value := by
  cases kind with
  | and => exact ⟨.and true, rfl, value, by simp [Frame.apply]⟩
  | or => exact ⟨.or false, rfl, value, by simp [Frame.apply]⟩
  | group negated =>
    refine ⟨.group negated, rfl, xor value negated, ?_⟩
    rw [Frame.apply, negate_twice]

/-- Pending `&&` calls with a true left side disappear at `||`. -/
theorem exists_endAnds (truth : C → Bool) (kinds : List Kind) (frames : List (Frame Bool))
    (left : frames.map Frame.kind = kinds.dropWhile (fun kind => kind = .and)) (value : Bool) :
    ∃ before : List (Frame Bool), before.map Frame.kind = kinds ∧
      (boolOps truth).endAnds before value = (frames, value) := by
  induction kinds with
  | nil =>
    have none : frames = [] := by simpa using left
    subst none
    exact ⟨[], rfl, rfl⟩
  | cons kind rest ih =>
    by_cases pending : kind = .and
    · subst pending
      obtain ⟨before, kinds, ended⟩ := ih (by simpa using left)
      refine ⟨.and true :: before, by simp [Frame.kind, kinds], ?_⟩
      have step : (boolOps truth).endAnds (.and true :: before) value =
          (boolOps truth).endAnds before (true && value) := rfl
      rw [step, Bool.true_and, ended]
    · have same : frames.map Frame.kind = kind :: rest := by simpa [pending] using left
      refine ⟨frames, same, ?_⟩
      cases frames with
      | nil => cases same
      | cons frame others =>
        cases frame with
        | and side =>
          have top : Kind.and = kind := by simpa [Frame.kind] using congrArg List.head? same
          exact absurd top.symm pending
        | or side => rfl
        | group negated => rfl

/-- What `||` finds open behind a tree can be chosen once what the tree leaves open can be. -/
theorem exists_ended {level : CondLevel} {t : Cond C level}
    (control : ∀ frames value, frames.map Frame.kind = t.openCalls →
      ∃ truth : C → Bool, (boolOps truth).residual t = (frames, value))
    (frames : List (Frame Bool)) (value : Bool)
    (kinds : frames.map Frame.kind = t.openCalls.dropWhile (fun kind => kind = .and)) :
    ∃ truth : C → Bool, (boolOps truth).endAnds ((boolOps truth).residual t).1
      ((boolOps truth).residual t).2 = (frames, value) := by
  obtain ⟨before, beforeKinds, ended⟩ :=
    exists_endAnds (fun _ : C => true) t.openCalls frames kinds value
  obtain ⟨truth, opened⟩ := control before value beforeKinds
  refine ⟨truth, ?_⟩
  rw [opened, endAnds_truth truth (fun _ => true), ended]

/-- What a tree leaves open can be given any truth values. -/
theorem exists_residual {level : CondLevel} (t : Cond C level) (distinct : t.comparisons.Nodup)
    (frames : List (Frame Bool)) (kinds : frames.map Frame.kind = t.openCalls) (value : Bool) :
    ∃ truth : C → Bool, (boolOps truth).residual t = (frames, value) := by
  induction t generalizing frames value with
  | cmp negated c =>
    have none : frames = [] := by simpa [openCalls] using kinds
    subst none
    refine ⟨fun _ => xor value negated, ?_⟩
    rw [boolOps_residual_cmp, negate_twice]
  | group negated body ih =>
    rw [openCalls] at kinds
    cases opened : body.openCalls with
    | nil =>
      have none : frames = [] := by simpa [opened] using kinds
      subst none
      obtain ⟨truth, inner⟩ := ih distinct [] (by rw [opened]; rfl) (xor value negated)
      refine ⟨truth, ?_⟩
      simp only [LogicOps.residual, inner, LogicOps.closeTop, boolOps_close, Frame.apply]
      rw [negate_twice]
    | cons kind rest =>
      rw [opened, List.cons_append, List.tail_cons] at kinds
      obtain ⟨upper, last, rfl, upperKinds, lastKind⟩ := List.map_eq_append_iff.mp kinds
      obtain ⟨frame, rfl, groupKind⟩ := List.map_eq_singleton_iff.mp lastKind
      have bottom : frame = .group negated := by
        cases frame <;> simp_all [Frame.kind]
      subst bottom
      obtain ⟨top, topKind, operand, applied⟩ := exists_frame_apply kind value
      obtain ⟨truth, inner⟩ := ih distinct (top :: upper)
        (by rw [opened, List.map_cons, topKind, upperKinds]) operand
      refine ⟨truth, ?_⟩
      simp only [LogicOps.residual, inner, LogicOps.closeTop, boolOps_close, applied]
  | lastAnd operand ih => exact ih distinct frames kinds value
  | and operand rest ih₁ ih₂ =>
    obtain ⟨distinct₁, distinct₂, -⟩ := List.nodup_append.mp distinct
    rw [openCalls] at kinds
    obtain ⟨upper, lower, rfl, upperKinds, lowerKinds⟩ := List.map_eq_append_iff.mp kinds
    obtain ⟨frame, others, rfl, frameKind, othersKinds⟩ := List.map_eq_cons_iff.mp lowerKinds
    cases frame with
    | and side =>
      obtain ⟨truth₁, open₁⟩ := ih₁ distinct₁ others othersKinds side
      obtain ⟨truth₂, open₂⟩ := ih₂ distinct₂ upper upperKinds value
      obtain ⟨truth, same₁, -, same₂, -⟩ := exists_joint operand rest distinct truth₁ truth₂
      refine ⟨truth, ?_⟩
      simp only [LogicOps.residual, same₁, same₂, open₁, open₂]
    | or side => cases frameKind
    | group negated => cases frameKind
  | lastOr operand ih => exact ih distinct frames kinds value
  | or operand rest ih₁ ih₂ =>
    obtain ⟨distinct₁, distinct₂, -⟩ := List.nodup_append.mp distinct
    rw [openCalls] at kinds
    obtain ⟨upper, lower, rfl, upperKinds, lowerKinds⟩ := List.map_eq_append_iff.mp kinds
    obtain ⟨frame, others, rfl, frameKind, othersKinds⟩ := List.map_eq_cons_iff.mp lowerKinds
    cases frame with
    | or side =>
      obtain ⟨truth₁, ended⟩ := exists_ended
        (fun frames value kinds => ih₁ distinct₁ frames kinds value) others side othersKinds
      obtain ⟨truth₂, open₂⟩ := ih₂ distinct₂ upper upperKinds value
      obtain ⟨truth, same₁, -, same₂, -⟩ := exists_joint operand rest distinct truth₁ truth₂
      refine ⟨truth, ?_⟩
      simp only [LogicOps.residual, same₁, same₂, open₂, endAnds_truth truth truth₁, ended]
    | and side => cases frameKind
    | group negated => cases frameKind

theorem readValue_of_residual {truth truth' : C → Bool} {level : CondLevel} {t : Cond C level}
    (same : (boolOps truth).residual t = (boolOps truth').residual t) :
    readValue truth t = readValue truth' t := by
  rw [readValue, readValue, same]

/-- Either value can be had from a tree in both readings at once. -/
theorem exists_agreeing {level : CondLevel} (t : Cond C level) (distinct : t.comparisons.Nodup)
    (result : Bool) :
    ∃ truth : C → Bool, readValue truth t = result ∧ t.value truth = result := by
  induction t generalizing result with
  | cmp negated c =>
    have single : value (fun _ => xor result negated) (.cmp negated c) = result := by
      rw [value, negate_twice]
    refine ⟨fun _ => xor result negated, ?_, single⟩
    rw [readValue_of_aligned _ (.cmp negated c) rfl, single]
  | group negated body ih =>
    obtain ⟨truth, read, meant⟩ := ih distinct (xor result negated)
    refine ⟨truth, ?_, ?_⟩
    · rw [readValue_group, read, negate_twice]
    · rw [value, meant, negate_twice]
  | lastAnd operand ih => exact ih distinct result
  | and operand rest ih₁ ih₂ =>
    obtain ⟨distinct₁, distinct₂, -⟩ := List.nodup_append.mp distinct
    obtain ⟨truth₁, read₁, meant₁⟩ := ih₁ distinct₁ result
    obtain ⟨truth₂, read₂, meant₂⟩ := ih₂ distinct₂ true
    obtain ⟨truth, same₁, kept₁, same₂, kept₂⟩ := exists_joint operand rest distinct truth₁ truth₂
    refine ⟨truth, ?_, ?_⟩
    · rw [readValue_and, readValue_of_residual same₂, read₂, Bool.and_true]
      exact (readValue_of_residual same₁).trans read₁
    · rw [value, kept₁, kept₂, meant₁, meant₂, Bool.and_true]
  | lastOr operand ih => exact ih distinct result
  | or operand rest ih₁ ih₂ =>
    obtain ⟨distinct₁, distinct₂, -⟩ := List.nodup_append.mp distinct
    obtain ⟨truth₁, read₁, meant₁⟩ := ih₁ distinct₁ result
    obtain ⟨truth₂, read₂, meant₂⟩ := ih₂ distinct₂ false
    obtain ⟨truth, same₁, kept₁, same₂, kept₂⟩ := exists_joint operand rest distinct truth₁ truth₂
    refine ⟨truth, ?_, ?_⟩
    · rw [readValue_or, readValue_of_residual same₂, read₂, Bool.or_false, pass_endAnds]
      exact (readValue_of_residual same₁).trans read₁
    · rw [value, kept₁, kept₂, meant₁, meant₂, Bool.or_false]

/-- `&&` and `||` by their unit. -/
def joinOp (unit left right : Bool) : Bool := if unit then left && right else left || right

theorem joinOp_unit_left (unit right : Bool) : joinOp unit unit right = right := by
  cases unit <;> simp [joinOp]

theorem joinOp_unit_right (unit left : Bool) : joinOp unit left unit = left := by
  cases unit <;> simp [joinOp]

theorem joinOp_zero_left (unit right : Bool) : joinOp unit (!unit) right = !unit := by
  cases unit <;> simp [joinOp]

theorem joinOp_zero_right (unit left : Bool) : joinOp unit left (!unit) = !unit := by
  cases unit <;> simp [joinOp]

/-- An operator out of line, seen from what its left operand `t₁` leaves open beside it. If the
    rest is misread, the open calls let the difference through; if the operand is, the rest is set
    to the unit; and if only the operator is, the rest is set to the other value. -/
theorem exists_misread_join (unit : Bool) {level₁ level₂ : CondLevel} {t₁ : Cond C level₁}
    {t₂ : Cond C level₂} (distinct : (t₁.comparisons ++ t₂.comparisons).Nodup)
    (side : (C → Bool) → List (Frame Bool) × Bool) (kinds : List Kind)
    (sideSame : ∀ truth truth',
      (boolOps truth).residual t₁ = (boolOps truth').residual t₁ → side truth = side truth')
    (control : ∀ frames value, frames.map Frame.kind = kinds → ∃ truth, side truth = (frames, value))
    (sideRead : ∀ truth, pass (side truth).1 (side truth).2 = readValue truth t₁)
    (apart : (∃ truth, readValue truth t₂ ≠ t₂.value truth) ∨
      (∃ truth, readValue truth t₁ ≠ t₁.value truth) ∨ forced kinds (!unit) ≠ some (!unit)) :
    ∃ truth, pass (side truth).1 (joinOp unit (side truth).2 (readValue truth t₂)) ≠
      joinOp unit (t₁.value truth) (t₂.value truth) := by
  obtain ⟨-, distinct₂, -⟩ := List.nodup_append.mp distinct
  rcases apart with ⟨truth₂, misread⟩ | ⟨truth₁, misread⟩ | free
  · obtain ⟨frames, framesKinds, flip, through⟩ := exists_transparent kinds
    obtain ⟨truth₁, opened⟩ := control frames unit framesKinds
    -- the reading of the whole is the reading of the rest, negated or not
    have reading : ∀ truth, (boolOps truth).residual t₁ = (boolOps truth₁).residual t₁ →
        pass (side truth).1 (joinOp unit (side truth).2 (readValue truth t₂)) =
          xor (readValue truth t₂) flip := by
      intro truth same
      rw [sideSame truth truth₁ same, opened, joinOp_unit_left, through]
    by_cases meant : t₁.value truth₁ = unit
    · cases flip with
      | false =>
        obtain ⟨truth, same₁, kept₁, same₂, kept₂⟩ := exists_joint t₁ t₂ distinct truth₁ truth₂
        refine ⟨truth, ?_⟩
        rw [reading truth same₁, readValue_of_residual same₂, kept₁, kept₂, meant, joinOp_unit_left,
          Bool.xor_false]
        exact misread
      | true =>
        obtain ⟨truth₃, read₃, meant₃⟩ := exists_agreeing t₂ distinct₂ true
        obtain ⟨truth, same₁, kept₁, same₂, kept₂⟩ := exists_joint t₁ t₂ distinct truth₁ truth₃
        refine ⟨truth, ?_⟩
        rw [reading truth same₁, readValue_of_residual same₂, read₃, kept₁, kept₂, meant, meant₃,
          joinOp_unit_left]
        simp
    · have zero : t₁.value truth₁ = !unit := Bool.eq_not_of_ne meant
      obtain ⟨truth₃, read₃, -⟩ := exists_agreeing t₂ distinct₂ (xor unit flip)
      obtain ⟨truth, same₁, kept₁, same₂, -⟩ := exists_joint t₁ t₂ distinct truth₁ truth₃
      refine ⟨truth, ?_⟩
      rw [reading truth same₁, readValue_of_residual same₂, read₃, kept₁, zero, joinOp_zero_left,
        negate_twice]
      simp
  · obtain ⟨truth₂, read₂, meant₂⟩ := exists_agreeing t₂ distinct₂ unit
    obtain ⟨truth, same₁, kept₁, same₂, kept₂⟩ := exists_joint t₁ t₂ distinct truth₁ truth₂
    refine ⟨truth, ?_⟩
    rw [readValue_of_residual same₂, read₂, joinOp_unit_right, sideRead, readValue_of_residual same₁,
      kept₁, kept₂, meant₂, joinOp_unit_right]
    exact misread
  · obtain ⟨frames, framesKinds, out⟩ := exists_pass_of_not_forced free
    obtain ⟨truth₁, opened⟩ := control frames unit framesKinds
    obtain ⟨truth₂, read₂, meant₂⟩ := exists_agreeing t₂ distinct₂ (!unit)
    obtain ⟨truth, same₁, -, same₂, kept₂⟩ := exists_joint t₁ t₂ distinct truth₁ truth₂
    refine ⟨truth, ?_⟩
    rw [readValue_of_residual same₂, read₂, joinOp_zero_right, sideSame truth truth₁ same₁, opened, out,
      kept₂, meant₂, joinOp_zero_right]
    simp

/-- The tree of an operator is out of line because of its rest, its operand or the operator. -/
theorem misread_somewhere {level₁ level₂ : CondLevel} {operand : Cond C level₁}
    {rest : Cond C level₂} {fits : Prop} [Decidable fits]
    (apart : (operand.aligned && decide fits && rest.aligned) = false)
    (misread₁ : operand.aligned = false → ∃ truth, readValue truth operand ≠ operand.value truth)
    (misread₂ : rest.aligned = false → ∃ truth, readValue truth rest ≠ rest.value truth) :
    (∃ truth, readValue truth rest ≠ rest.value truth) ∨
      (∃ truth, readValue truth operand ≠ operand.value truth) ∨ ¬ fits := by
  cases fits₂ : rest.aligned with
  | false =>
    left
    exact misread₂ fits₂
  | true =>
    cases fits₁ : operand.aligned with
    | false =>
      right; left
      exact misread₁ fits₁
    | true =>
      right; right
      simpa [fits₁, fits₂] using apart

theorem exists_misread {level : CondLevel} (t : Cond C level) (distinct : t.comparisons.Nodup)
    (apart : t.aligned = false) : ∃ truth, readValue truth t ≠ t.value truth := by
  induction t with
  | cmp negated c => cases apart
  | group negated body ih =>
    obtain ⟨truth, misread⟩ := ih distinct apart
    refine ⟨truth, ?_⟩
    rw [readValue_group, value]
    simpa using misread
  | lastAnd operand ih => exact ih distinct apart
  | and operand rest ih₁ ih₂ =>
    obtain ⟨distinct₁, distinct₂, -⟩ := List.nodup_append.mp distinct
    have somewhere := misread_somewhere apart (ih₁ distinct₁) (ih₂ distinct₂)
    obtain ⟨truth, misread⟩ := exists_misread_join true distinct
      (fun truth => (boolOps truth).residual operand) operand.openCalls
      (fun _ _ same => same)
      (fun frames value kinds => exists_residual operand distinct₁ frames kinds value)
      (fun _ => rfl) somewhere
    refine ⟨truth, ?_⟩
    rw [readValue_and, value]
    exact misread
  | lastOr operand ih => exact ih distinct apart
  | or operand rest ih₁ ih₂ =>
    obtain ⟨distinct₁, distinct₂, -⟩ := List.nodup_append.mp distinct
    have somewhere := misread_somewhere apart (ih₁ distinct₁) (ih₂ distinct₂)
    obtain ⟨truth, misread⟩ := exists_misread_join false distinct
      (fun truth => (boolOps truth).endAnds ((boolOps truth).residual operand).1
        ((boolOps truth).residual operand).2)
      (operand.openCalls.dropWhile (fun kind => kind = .and))
      (fun truth truth' same => by rw [same, endAnds_truth truth truth'])
      (exists_ended (fun frames value kinds => exists_residual operand distinct₁ frames kinds value))
      (fun truth => pass_endAnds truth _ _) somewhere
    refine ⟨truth, ?_⟩
    rw [readValue_or, value]
    exact misread

end Cond
end WarpMotor
