import Mathlib.Data.List.Rotate
import WarpMotor.Lib.Runs
import WarpMotor.Picker.Router

/-!
Picker sends and processing reloads on one shared router. A send is cut into
its atomic reads: the snapshot of the senders, the reloading flag when the
snapshot is empty, otherwise the rotation counter and one `try_send` for each
sender of the snapshot. `begin_reload` and `replace` are atomic. A parser
channel closes only after some `begin_reload` has taken it out of the router,
and `replace` installs senders that were never taken out. Any number of
pickers send at any time; a step that is not enabled changes nothing.
-/
namespace WarpMotor

/-- Where a picker stands inside `try_send_round_robin`. -/
inductive SendPc where
  | idle
  | sawEmpty (batch : SourceBatch)
  | snapped (senders : List Nat) (batch : SourceBatch)
  | trying (rest : List Nat) (sawFull : Bool) (batch : SourceBatch)
  deriving DecidableEq, Repr

/-- `retired`: senders some `begin_reload` took out. `results`: what all sends have returned. -/
structure SharedRouter where
  router : ParseDispatchRouter Nat
  retired : List Nat
  closed : Nat → Bool
  sends : Nat → SendPc
  results : List ParseDispatchResult

inductive RouterStep where
  | snapshot (picker : Nat) (batch : SourceBatch)
  | loadFlag (picker : Nat)
  | rotate (picker : Nat)
  | trySend (picker : Nat) (room : Bool)
  | finish (picker : Nat)
  | beginReload
  | replace (senders : List Nat)
  | close (sender : Nat)
  deriving DecidableEq, Repr

namespace SharedRouter

def start (senders : List Nat) : SharedRouter :=
  { router := ParseDispatchRouter.new senders, retired := [], closed := fun _ => false
    sends := fun _ => .idle, results := [] }

def setPc (w : SharedRouter) (picker : Nat) (pc : SendPc) : SharedRouter :=
  { w with sends := Function.update w.sends picker pc }

def returns (w : SharedRouter) (picker : Nat) (result : ParseDispatchResult) : SharedRouter :=
  { w.setPc picker .idle with results := w.results ++ [result] }

def step (w : SharedRouter) : RouterStep → SharedRouter
  | .snapshot picker batch =>
    match w.sends picker with
    | .idle =>
      if w.router.snapshot.isEmpty then w.setPc picker (.sawEmpty batch)
      else w.setPc picker (.snapped w.router.snapshot batch)
    | _ => w
  | .loadFlag picker =>
    match w.sends picker with
    | .sawEmpty batch =>
      w.returns picker (if w.router.reloading then .reloading batch else .closed batch)
    | _ => w
  | .rotate picker =>
    match w.sends picker with
    | .snapped senders batch =>
      -- the loop visits index (start + offset) % len for offset = 0, 1, ..
      let start := w.router.nextIdx % senders.length
      { w.setPc picker (.trying (senders.rotate start) false batch) with
        router := { w.router with nextIdx := w.router.nextIdx + 1 } }
    | _ => w
  | .trySend picker room =>
    match w.sends picker with
    | .trying (sender :: rest) sawFull batch =>
      if w.closed sender then w.setPc picker (.trying rest sawFull batch)
      else if room then w.returns picker .sent
      else w.setPc picker (.trying rest true batch)
    | _ => w
  | .finish picker =>
    match w.sends picker with
    | .trying [] sawFull batch =>
      w.returns picker (if sawFull then .full batch else .closed batch)
    | _ => w
  | .beginReload =>
    if w.router.reloading then w
    else { w with router := w.router.beginReload, retired := w.router.senders ++ w.retired }
  | .replace senders =>
    if w.router.reloading && !senders.isEmpty && senders.all (fun c => !w.retired.contains c) then
      { w with router := w.router.replace senders }
    else w
  | .close sender =>
    if w.retired.contains sender then { w with closed := Function.update w.closed sender true }
    else w

end SharedRouter

/-- The send has not yet lost: a flag it will find set, a full sender it has met, or an open
    sender it has still to try. -/
def SendPc.Hopeful (reloading : Bool) (closed : Nat → Bool) : SendPc → Prop
  | .idle => True
  | .sawEmpty _ => reloading = true
  | .snapped senders _ => ∃ sender ∈ senders, closed sender = false
  | .trying rest sawFull _ => sawFull = true ∨ ∃ sender ∈ rest, closed sender = false

/-- What a step must not do to a send in progress. `replace` must not clear the flag between an
    empty snapshot and the load of the flag; a closing channel must not be the last open one
    that a send on an old snapshot has left to try. -/
def Spares (w : SharedRouter) : RouterStep → Prop
  | .replace _ => ∀ picker batch, w.sends picker ≠ .sawEmpty batch
  | .close sender =>
    ∀ picker, (w.sends picker).Hopeful w.router.reloading (Function.update w.closed sender true)
  | _ => True

/-- Between reloads the router holds senders that were never taken out; during one it is empty. -/
structure SharedRouter.Inv (w : SharedRouter) : Prop where
  reloading_empty : w.router.reloading = true → w.router.senders = []
  running_senders : w.router.reloading = false →
    w.router.senders ≠ [] ∧ ∀ sender ∈ w.router.senders, sender ∉ w.retired
  closed_retired : ∀ sender, w.closed sender = true → sender ∈ w.retired
  hopeful : ∀ picker, (w.sends picker).Hopeful w.router.reloading w.closed
  no_closed : ∀ result ∈ w.results, ∀ batch, result ≠ .closed batch

namespace SharedRouter

theorem setPc_hopeful {w : SharedRouter} {picker : Nat} {pc : SendPc} {reloading : Bool}
    {closed : Nat → Bool} (others : ∀ q, (w.sends q).Hopeful reloading closed)
    (own : pc.Hopeful reloading closed) (q : Nat) :
    ((w.setPc picker pc).sends q).Hopeful reloading closed := by
  unfold setPc
  by_cases same : q = picker
  · subst same
    simpa using own
  · simpa [same] using others q

theorem setPc_inv {w : SharedRouter} (inv : w.Inv) (picker : Nat) {pc : SendPc}
    (own : pc.Hopeful w.router.reloading w.closed) : (w.setPc picker pc).Inv where
  reloading_empty := inv.reloading_empty
  running_senders := inv.running_senders
  closed_retired := inv.closed_retired
  hopeful := setPc_hopeful inv.hopeful own
  no_closed := inv.no_closed

theorem returns_inv {w : SharedRouter} (inv : w.Inv) {picker : Nat} {result : ParseDispatchResult}
    (open_result : ∀ batch, result ≠ .closed batch) : (w.returns picker result).Inv where
  reloading_empty := inv.reloading_empty
  running_senders := inv.running_senders
  closed_retired := inv.closed_retired
  hopeful := setPc_hopeful inv.hopeful trivial
  no_closed := by
    intro r member batch
    rcases List.mem_append.mp member with old | new
    · exact inv.no_closed r old batch
    · rw [List.mem_singleton] at new
      subst new
      exact open_result batch

theorem snapshot_inv {w : SharedRouter} (inv : w.Inv) (picker : Nat) (batch : SourceBatch) :
    (w.step (.snapshot picker batch)).Inv := by
  dsimp only [step]
  split
  · by_cases empty : w.router.snapshot = []
    · rw [if_pos (by simp [empty])]
      apply setPc_inv inv picker
      -- an empty snapshot is only seen while the flag is set
      by_contra unset
      exact (inv.running_senders (by simpa [SendPc.Hopeful] using unset)).1 empty
    · rw [if_neg (by simp [empty])]
      apply setPc_inv inv picker
      have running : w.router.reloading = false := by
        by_contra set
        exact empty (inv.reloading_empty (by simpa using set))
      obtain ⟨sender, member⟩ := List.exists_mem_of_ne_nil _ empty
      have fresh := (inv.running_senders running).2 sender member
      refine ⟨sender, member, ?_⟩
      by_contra shut
      exact fresh (inv.closed_retired sender (by simpa using shut))
  all_goals exact inv

theorem loadFlag_inv {w : SharedRouter} (inv : w.Inv) (picker : Nat) :
    (w.step (.loadFlag picker)).Inv := by
  dsimp only [step]
  have own := inv.hopeful picker
  split
  · rename_i batch waiting
    rw [waiting] at own
    have set : w.router.reloading = true := own
    apply returns_inv inv
    intro other
    simp [set]
  all_goals exact inv

theorem rotate_inv {w : SharedRouter} (inv : w.Inv) (picker : Nat) :
    (w.step (.rotate picker)).Inv := by
  dsimp only [step]
  have own := inv.hopeful picker
  split
  · rename_i senders batch taken
    rw [taken] at own
    obtain ⟨sender, member, opened⟩ := own
    have rotated : (SendPc.trying (senders.rotate (w.router.nextIdx % senders.length)) false
        batch).Hopeful w.router.reloading w.closed :=
      Or.inr ⟨sender, List.mem_rotate.mpr member, opened⟩
    have kept := setPc_inv inv picker rotated
    exact ⟨kept.reloading_empty, kept.running_senders, kept.closed_retired, kept.hopeful,
      kept.no_closed⟩
  all_goals exact inv

theorem trySend_inv {w : SharedRouter} (inv : w.Inv) (picker : Nat) (room : Bool) :
    (w.step (.trySend picker room)).Inv := by
  dsimp only [step]
  have own := inv.hopeful picker
  split
  · rename_i sender rest sawFull batch head
    rw [head] at own
    by_cases shut : w.closed sender = true
    · rw [if_pos shut]
      apply setPc_inv inv picker
      rcases own with full | ⟨other, member, opened⟩
      · exact Or.inl full
      · rcases List.mem_cons.mp member with same | later
        · rw [same, shut] at opened
          cases opened
        · exact Or.inr ⟨other, later, opened⟩
    · rw [if_neg shut]
      cases room with
      | true => exact returns_inv inv (fun batch => by simp)
      | false => exact setPc_inv inv picker (Or.inl rfl)
  all_goals exact inv

theorem finish_inv {w : SharedRouter} (inv : w.Inv) (picker : Nat) :
    (w.step (.finish picker)).Inv := by
  dsimp only [step]
  have own := inv.hopeful picker
  split
  · rename_i sawFull batch ended
    rw [ended] at own
    have full : sawFull = true := by
      rcases own with full | ⟨sender, member, -⟩
      · exact full
      · cases member
    apply returns_inv inv
    intro other
    simp [full]
  all_goals exact inv

theorem hopeful_reloading {pc : SendPc} {reloading : Bool} {closed : Nat → Bool}
    (hopeful : pc.Hopeful reloading closed) : pc.Hopeful true closed := by
  cases pc with
  | sawEmpty batch => rfl
  | idle => trivial
  | snapped senders batch => exact hopeful
  | trying rest sawFull batch => exact hopeful

theorem beginReload_inv {w : SharedRouter} (inv : w.Inv) : (w.step .beginReload).Inv := by
  dsimp only [step]
  split
  · exact inv
  · constructor
    · intro _
      rfl
    · intro running
      cases running
    · intro sender shut
      exact List.mem_append_right _ (inv.closed_retired sender shut)
    · intro picker
      exact hopeful_reloading (inv.hopeful picker)
    · exact inv.no_closed

theorem replace_inv {w : SharedRouter} (inv : w.Inv) (senders : List Nat)
    (spared : Spares w (.replace senders)) : (w.step (.replace senders)).Inv := by
  dsimp only [step]
  split
  · rename_i enabled
    simp only [Bool.and_eq_true, Bool.not_eq_true', List.isEmpty_eq_false_iff, List.all_eq_true,
      List.contains_eq_mem, decide_eq_false_iff_not] at enabled
    constructor
    · intro reloading
      cases reloading
    · intro _
      exact ⟨enabled.1.2, enabled.2⟩
    · exact inv.closed_retired
    · intro picker
      have own := inv.hopeful picker
      dsimp only
      cases pc : w.sends picker with
      | idle => trivial
      | sawEmpty batch => exact absurd pc (spared picker batch)
      | snapped taken batch =>
        rw [pc] at own
        exact own
      | trying rest sawFull batch =>
        rw [pc] at own
        exact own
    · exact inv.no_closed
  · exact inv

theorem close_inv {w : SharedRouter} (inv : w.Inv) (sender : Nat)
    (spared : Spares w (.close sender)) : (w.step (.close sender)).Inv := by
  dsimp only [step]
  split
  · rename_i retired
    constructor
    · exact inv.reloading_empty
    · exact inv.running_senders
    · intro other shut
      by_cases same : other = sender
      · subst same
        simpa using retired
      · exact inv.closed_retired other (by simpa [same] using shut)
    · exact spared
    · exact inv.no_closed
  · exact inv

theorem step_inv (w : SharedRouter) (s : RouterStep) (spared : Spares w s) (inv : w.Inv) :
    (w.step s).Inv := by
  cases s with
  | snapshot picker batch => exact snapshot_inv inv picker batch
  | loadFlag picker => exact loadFlag_inv inv picker
  | rotate picker => exact rotate_inv inv picker
  | trySend picker room => exact trySend_inv inv picker room
  | finish picker => exact finish_inv inv picker
  | beginReload => exact beginReload_inv inv
  | replace senders => exact replace_inv inv senders spared
  | close sender => exact close_inv inv sender spared

theorem start_inv (senders : List Nat) (nonempty : senders ≠ []) : (start senders).Inv := by
  constructor
  · intro reloading
    cases reloading
  · intro _
    refine ⟨nonempty, ?_⟩
    intro sender _ member
    cases member
  · intro sender shut
    cases shut
  · intro picker
    trivial
  · intro result member
    cases member

end SharedRouter

/-- No send of any picker returns `Closed` in a run whose reload steps spare the sends that are
    in progress. -/
theorem reload_hides_closed_router (senders : List Nat) (nonempty : senders ≠ [])
    (steps : List RouterStep)
    (spared : Runs.AllSteps SharedRouter.step Spares (SharedRouter.start senders) steps) :
    ∀ result ∈ (Runs.run SharedRouter.step (SharedRouter.start senders) steps).results,
      ∀ batch, result ≠ .closed batch := by
  have inv := Runs.run_invariant_of_allSteps SharedRouter.Inv SharedRouter.step_inv steps
    (SharedRouter.start senders) (SharedRouter.start_inv senders nonempty) spared
  exact inv.no_closed

namespace SharedRouter

/-- A send that has only closed senders left returns `Closed` by its own steps alone. -/
theorem only_closed_left_returns_closed (rest : List Nat) (w : SharedRouter) (picker : Nat)
    (batch : SourceBatch) (pc : w.sends picker = .trying rest false batch)
    (shut : ∀ sender ∈ rest, w.closed sender = true) :
    .closed batch ∈ (Runs.run step w
      (List.replicate rest.length (.trySend picker true) ++ [.finish picker])).results := by
  induction rest generalizing w with
  | nil => simp [step, pc, returns]
  | cons sender rest ih =>
    have first := shut sender (List.mem_cons_self ..)
    have tried : w.step (.trySend picker true) = w.setPc picker (.trying rest false batch) := by
      simp [step, pc, first]
    rw [List.length_cons, List.replicate_succ, List.cons_append, Runs.run_cons, tried]
    apply ih
    · simp [setPc]
    · intro other later
      exact shut other (List.mem_cons_of_mem _ later)

/-- The condition is not too strong: a reload step that does not spare a send can be followed by
    steps of that send alone after which it has returned `Closed`. -/
theorem unspared_step_can_return_closed (w : SharedRouter) (inv : w.Inv) (s : RouterStep)
    (enabled : w.step s ≠ w) (unspared : ¬ Spares w s) :
    ∃ own batch, .closed batch ∈ (Runs.run step (w.step s) own).results := by
  cases s with
  | replace senders =>
    simp only [Spares, ne_eq, not_forall, not_not] at unspared
    obtain ⟨picker, batch, waiting⟩ := unspared
    refine ⟨[.loadFlag picker], batch, ?_⟩
    have replaced : w.step (.replace senders) =
        { w with router := w.router.replace senders } := by
      rw [step, ite_ne_right_iff] at enabled
      rw [step, if_pos enabled.1]
    rw [replaced, Runs.run_cons, Runs.run_nil]
    simp [step, waiting, returns, ParseDispatchRouter.replace]
  | close sender =>
    simp only [Spares, not_forall] at unspared
    obtain ⟨picker, lost⟩ := unspared
    have closing : w.step (.close sender) =
        { w with closed := Function.update w.closed sender true } := by
      rw [step, ite_ne_right_iff] at enabled
      rw [step, if_pos enabled.1]
    rw [closing]
    have before := inv.hopeful picker
    cases pc : w.sends picker with
    | idle => simp [pc, SendPc.Hopeful] at lost
    | sawEmpty batch =>
      rw [pc] at lost before
      exact absurd before lost
    | snapped taken batch =>
      simp only [pc, SendPc.Hopeful, not_exists, not_and, Bool.not_eq_false] at lost
      let order := taken.rotate (w.router.nextIdx % taken.length)
      refine ⟨.rotate picker ::
        (List.replicate order.length (.trySend picker true) ++ [.finish picker]), batch, ?_⟩
      rw [Runs.run_cons]
      apply only_closed_left_returns_closed order
      · simp [step, pc, setPc, order]
      · intro other member
        have shut := lost other (List.mem_rotate.mp member)
        simpa [step, pc, setPc] using shut
    | trying rest sawFull batch =>
      simp only [pc, SendPc.Hopeful, not_or, not_exists, not_and, Bool.not_eq_false,
        Bool.not_eq_true] at lost
      obtain ⟨unseen, shut⟩ := lost
      subst unseen
      exact ⟨_, batch, only_closed_left_returns_closed rest _ picker batch pc shut⟩
  | snapshot picker batch => exact absurd trivial unspared
  | loadFlag picker => exact absurd trivial unspared
  | rotate picker => exact absurd trivial unspared
  | trySend picker room => exact absurd trivial unspared
  | finish picker => exact absurd trivial unspared
  | beginReload => exact absurd trivial unspared

end SharedRouter

/-- A picker that took its empty snapshot before `replace` and loads the flag after it. -/
theorem reload_race_returns_closed :
    ParseDispatchResult.closed [] ∈
      (Runs.run SharedRouter.step (SharedRouter.start [0])
        [.beginReload, .snapshot 7 [], .replace [1], .loadFlag 7]).results := by
  decide

/-- Sends before, during and after a reload, none of them caught in between. -/
theorem spared_reload_returns_no_closed :
    .closed [] ∉ (Runs.run SharedRouter.step (SharedRouter.start [0])
      [.snapshot 7 [], .rotate 7, .trySend 7 true, .beginReload, .snapshot 7 [], .loadFlag 7,
        .replace [1], .snapshot 7 [], .rotate 7, .trySend 7 true]).results := by
  intro returned
  refine reload_hides_closed_router [0] (by decide) _ ?_ _ returned [] rfl
  refine ⟨trivial, trivial, trivial, trivial, trivial, trivial, ?_, trivial, trivial, trivial, trivial⟩
  intro picker batch
  simp [SharedRouter.step, SharedRouter.start, SharedRouter.returns, SharedRouter.setPc,
    ParseDispatchRouter.snapshot, ParseDispatchRouter.new, ParseDispatchRouter.beginReload]

end WarpMotor
