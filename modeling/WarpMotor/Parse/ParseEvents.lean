import WarpMotor.Actor.Command
import WarpMotor.Lib.Runs

/-!
The loop of a parser worker as a step machine. Its select takes any branch that
is ready: a batch or the end of the data channel, a command, an idle tick or a
statistics tick. Pickers, the engine and the senders' end are steps as well.
A tick or a branch that is not ready changes nothing. `accepted` is the history
of what the data channel took, as the hooks leave it; `parsed` is what was
passed to `proc_batch`.
-/
namespace WarpMotor

/-- How the loop ended: `failed` is an error of `proc_batch` or of `send_stat`. -/
inductive ParserExit where
  | closed | stopped | failed
  deriving DecidableEq, Repr

structure ParserWorker (Event : Type) where
  queue : List (List Event)
  senders : Bool
  cmds : List ActorCtrlCmd
  ctrl : TaskController
  needSendStat : Bool
  exit : Option ParserExit
  accepted : List (List Event)
  parsed : List (List Event)

/-- The results are those of `proc_batch` and `send_stat`; instants are read by the controller. -/
inductive ParserStep (Event : Type) where
  | accept (batch : List Event)
  | dropSenders
  | broadcast (cmd : ActorCtrlCmd)
  | data (parseOk : Bool)
  | command (missNow now : Nat)
  | idleTick (idleNow missNow now : Nat)
  | statTick (sent : Bool)

section
variable {Event : Type}

/-- `rec_task_suc` for each event; the hooks run in the same loop. -/
def recEvents (ctrl : TaskController) (batch : List Event) : TaskController :=
  batch.foldl (fun ctrl _ => ctrl.recTaskSucCnt 1) ctrl

namespace ParserWorker

def start : ParserWorker Event :=
  { queue := [], senders := true, cmds := [], ctrl := .new, needSendStat := false, exit := none
    accepted := [], parsed := [] }

def leave (why : ParserExit) (w : ParserWorker Event) : ParserWorker Event :=
  { w with exit := some why }

/-- The branch of `dat_recv.recv()`. -/
def onData (skipParse : Bool) (preproc : Event → Event) (parseOk : Bool)
    (w : ParserWorker Event) : ParserWorker Event :=
  match w.queue with
  | batch :: rest =>
    let w := { w with queue := rest, ctrl := recEvents w.ctrl batch }
    if skipParse then w
    else
      let w := { w with parsed := w.parsed ++ [batch.map preproc] }
      if parseOk then { w with needSendStat := true } else w.leave .failed
  | [] => if w.senders then w else w.leave .closed

/-- The branch of the command receiver. -/
def onCommand (missNow now : Nat) (w : ParserWorker Event) : ParserWorker Event :=
  match w.cmds with
  | cmd :: rest =>
    let w := { w with cmds := rest, ctrl := w.ctrl.updateCmd cmd }
    if w.ctrl.isStop missNow now then w.leave .stopped else w
  | [] => w

def onIdle (idleNow missNow now : Nat) (w : ParserWorker Event) : ParserWorker Event :=
  let w := { w with ctrl := w.ctrl.recTaskIdle idleNow }
  if w.ctrl.isStop missNow now then w.leave .stopped else w

def onStat (sent : Bool) (w : ParserWorker Event) : ParserWorker Event :=
  if w.needSendStat then
    let w := { w with needSendStat := false }
    if sent then w else w.leave .failed
  else w

/-- One step of the worker or of a party around it; a worker that has left its loop takes none. -/
def step (skipParse : Bool) (preproc : Event → Event) (w : ParserWorker Event) :
    ParserStep Event → ParserWorker Event
  | .accept batch =>
    if w.exit.isNone && w.senders then
      { w with queue := w.queue ++ [batch], accepted := w.accepted ++ [batch.map preproc] }
    else w
  | .dropSenders => { w with senders := false }
  | .broadcast cmd => { w with cmds := w.cmds ++ [cmd] }
  | .data parseOk => if w.exit.isNone then w.onData skipParse preproc parseOk else w
  | .command missNow now => if w.exit.isNone then w.onCommand missNow now else w
  | .idleTick idleNow missNow now =>
    if w.exit.isNone then w.onIdle idleNow missNow now else w
  | .statTick sent => if w.exit.isNone then w.onStat sent else w

/-- Would this step leave the loop by a stop or by an error? -/
def breaksOff (w : ParserWorker Event) : ParserStep Event → Bool
  | .data parseOk => !w.queue.isEmpty && !parseOk
  | .command missNow now =>
    match w.cmds with
    | cmd :: _ => (w.ctrl.updateCmd cmd).isStop missNow now
    | [] => false
  | .idleTick idleNow missNow now => (w.ctrl.recTaskIdle idleNow).isStop missNow now
  | .statTick sent => w.needSendStat && !sent
  | _ => false

/-- Batches that would be left behind by a step that leaves the loop. -/
def leftBehind (w : ParserWorker Event) : ParserStep Event → List (List Event)
  | .data _ => w.queue.tail
  | _ => w.queue

/-- A step that loses nothing: it parses what it takes, and it breaks off only with nothing left. -/
def Keeps (skipParse : Bool) (w : ParserWorker Event) (taken : ParserStep Event) : Prop :=
  w.exit = none → (w.breaksOff taken = true → w.leftBehind taken = []) ∧
    ∀ parseOk, taken = .data parseOk → w.queue ≠ [] → skipParse = false

/-- What a step did to the batches: nothing, or one of four moves. -/
inductive Moved (skipParse : Bool) (preproc : Event → Event) (w : ParserWorker Event)
    (taken : ParserStep Event) (after : ParserWorker Event) : Prop where
  | quiet (calm : w.exit = none → w.breaksOff taken = false ∧
        ∀ parseOk, taken = .data parseOk → w.queue = [])
      (queue : after.queue = w.queue) (accepted : after.accepted = w.accepted)
      (parsed : after.parsed = w.parsed)
      (exit : after.exit = w.exit ∨ after.exit = some .closed ∧ w.exit = none ∧ w.queue = [])
  | took (batch : List Event) (calm : w.breaksOff taken = false)
      (other : ∀ parseOk, taken ≠ .data parseOk)
      (queue : after.queue = w.queue ++ [batch])
      (accepted : after.accepted = w.accepted ++ [batch.map preproc])
      (parsed : after.parsed = w.parsed) (running : w.exit = none) (exit : after.exit = none)
  | handed (batch : List Event) (parseOk : Bool) (data : taken = .data parseOk)
      (parses : skipParse = false) (queue : w.queue = batch :: after.queue)
      (accepted : after.accepted = w.accepted)
      (parsed : after.parsed = w.parsed ++ [batch.map preproc]) (running : w.exit = none)
      (exit : after.exit = if parseOk then none else some .failed)
  | skipped (batch : List Event) (parseOk : Bool) (data : taken = .data parseOk)
      (skips : skipParse = true) (queue : w.queue = batch :: after.queue)
      (accepted : after.accepted = w.accepted) (parsed : after.parsed = w.parsed)
      (running : w.exit = none) (exit : after.exit = none)
  | left (breaks : w.breaksOff taken = true) (other : ∀ parseOk, taken ≠ .data parseOk)
      (queue : after.queue = w.queue) (accepted : after.accepted = w.accepted)
      (parsed : after.parsed = w.parsed) (running : w.exit = none) (exit : after.exit ≠ none)

variable {skipParse : Bool} {preproc : Event → Event} {w : ParserWorker Event}

theorem onData_moved (running : w.exit = none) (parseOk : Bool) :
    Moved skipParse preproc w (.data parseOk) (w.onData skipParse preproc parseOk) := by
  unfold onData
  split
  · rename_i batch rest queued
    cases skipParse with
    | true => exact .skipped batch parseOk rfl rfl queued rfl rfl running running
    | false =>
      cases parseOk with
      | true => exact .handed batch true rfl rfl queued rfl rfl running running
      | false => exact .handed batch false rfl rfl queued rfl rfl running rfl
  · rename_i empty
    have calm : w.breaksOff (.data parseOk) = false := by simp [breaksOff, empty]
    split
    · exact .quiet (fun _ => ⟨calm, fun _ _ => empty⟩) rfl rfl rfl (Or.inl rfl)
    · exact .quiet (fun _ => ⟨calm, fun _ _ => empty⟩) rfl rfl rfl (Or.inr ⟨rfl, running, empty⟩)

theorem onCommand_moved (running : w.exit = none) (missNow now : Nat) :
    Moved skipParse preproc w (.command missNow now) (w.onCommand missNow now) := by
  have other : ∀ parseOk, (ParserStep.command missNow now : ParserStep Event) ≠ .data parseOk := by
    intro parseOk same
    cases same
  unfold onCommand
  split
  · rename_i cmd rest pending
    dsimp only
    split
    · rename_i stops
      have breaks : w.breaksOff (.command missNow now) = true := by
        simp only [breaksOff, pending]
        exact stops
      exact .left breaks other rfl rfl rfl running (by simp [leave])
    · rename_i goes
      have calm : w.breaksOff (.command missNow now) = false := by
        simp only [breaksOff, pending]
        exact Bool.not_eq_true _ ▸ goes
      exact .quiet (fun _ => ⟨calm, fun p same => absurd same (other p)⟩) rfl rfl rfl (Or.inl rfl)
  · rename_i nothing
    have calm : w.breaksOff (.command missNow now) = false := by simp [breaksOff, nothing]
    exact .quiet (fun _ => ⟨calm, fun p same => absurd same (other p)⟩) rfl rfl rfl (Or.inl rfl)

theorem onIdle_moved (running : w.exit = none) (idleNow missNow now : Nat) :
    Moved skipParse preproc w (.idleTick idleNow missNow now) (w.onIdle idleNow missNow now) := by
  have other : ∀ parseOk,
      (ParserStep.idleTick idleNow missNow now : ParserStep Event) ≠ .data parseOk := by
    intro parseOk same
    cases same
  unfold onIdle
  dsimp only
  split
  · rename_i stops
    exact .left stops other rfl rfl rfl running (by simp [leave])
  · rename_i goes
    have calm : w.breaksOff (.idleTick idleNow missNow now) = false := Bool.not_eq_true _ ▸ goes
    exact .quiet (fun _ => ⟨calm, fun p same => absurd same (other p)⟩) rfl rfl rfl (Or.inl rfl)

theorem onStat_moved (running : w.exit = none) (sent : Bool) :
    Moved skipParse preproc w (.statTick sent) (w.onStat sent) := by
  have other : ∀ parseOk, (ParserStep.statTick sent : ParserStep Event) ≠ .data parseOk := by
    intro parseOk same
    cases same
  unfold onStat
  split
  · rename_i due
    cases sent with
    | true =>
      have calm : w.breaksOff (.statTick true) = false := by simp [breaksOff]
      exact .quiet (fun _ => ⟨calm, fun p same => absurd same (other p)⟩) rfl rfl rfl (Or.inl rfl)
    | false =>
      have breaks : w.breaksOff (.statTick false) = true := by simp [breaksOff, due]
      exact .left breaks other rfl rfl rfl running (by simp [leave])
  · rename_i early
    have calm : w.breaksOff (.statTick sent) = false := by simp [breaksOff, early]
    exact .quiet (fun _ => ⟨calm, fun p same => absurd same (other p)⟩) rfl rfl rfl (Or.inl rfl)

theorem step_moved (skipParse : Bool) (preproc : Event → Event) (w : ParserWorker Event)
    (taken : ParserStep Event) :
    Moved skipParse preproc w taken (step skipParse preproc w taken) := by
  cases gone : w.exit with
  | some why =>
    have ended : w.exit ≠ none := by simp [gone]
    have still : (step skipParse preproc w taken).queue = w.queue ∧
        (step skipParse preproc w taken).accepted = w.accepted ∧
        (step skipParse preproc w taken).parsed = w.parsed ∧
        (step skipParse preproc w taken).exit = w.exit := by
      cases taken <;> simp [step, gone]
    obtain ⟨queue, accepted, parsed, exit⟩ := still
    exact .quiet (fun running => absurd running ended) queue accepted parsed (Or.inl exit)
  | none =>
    cases taken with
    | accept batch =>
      have other : ∀ parseOk, ParserStep.accept batch ≠ .data parseOk := by
        intro parseOk same
        cases same
      cases joined : w.senders with
      | true =>
        have next : step skipParse preproc w (.accept batch) = { w with
            queue := w.queue ++ [batch], accepted := w.accepted ++ [batch.map preproc] } := by
          simp [step, gone, joined]
        rw [next]
        exact .took batch rfl other rfl rfl rfl gone gone
      | false =>
        have same : step skipParse preproc w (.accept batch) = w := by simp [step, gone, joined]
        rw [same]
        exact .quiet (fun _ => ⟨rfl, fun p data => absurd data (other p)⟩) rfl rfl rfl (Or.inl rfl)
    | dropSenders =>
      exact .quiet (fun _ => ⟨rfl, fun p data => by cases data⟩) rfl rfl rfl (Or.inl rfl)
    | broadcast cmd =>
      exact .quiet (fun _ => ⟨rfl, fun p data => by cases data⟩) rfl rfl rfl (Or.inl rfl)
    | data parseOk =>
      simp only [step, gone, Option.isNone_none, if_true]
      exact onData_moved gone parseOk
    | command missNow now =>
      simp only [step, gone, Option.isNone_none, if_true]
      exact onCommand_moved gone missNow now
    | idleTick idleNow missNow now =>
      simp only [step, gone, Option.isNone_none, if_true]
      exact onIdle_moved gone idleNow missNow now
    | statTick sent =>
      simp only [step, gone, Option.isNone_none, if_true]
      exact onStat_moved gone sent

/-- Nothing lost so far: what was accepted is parsed or waits, and nothing waits after the end. -/
structure Intact (preproc : Event → Event) (w : ParserWorker Event) : Prop where
  whole : w.parsed ++ w.queue.map (List.map preproc) = w.accepted
  ended : w.exit ≠ none → w.queue = []

/-- Some batch will never be parsed. -/
def Lost (w : ParserWorker Event) : Prop :=
  w.parsed.length + (if w.exit = none then w.queue.length else 0) < w.accepted.length

theorem start_intact (preproc : Event → Event) : Intact preproc (start : ParserWorker Event) :=
  ⟨rfl, fun ended => absurd rfl ended⟩

theorem step_intact {taken : ParserStep Event} (intact : Intact preproc w)
    (keeps : w.Keeps skipParse taken) : Intact preproc (step skipParse preproc w taken) := by
  have moved := step_moved skipParse preproc w taken
  have whole := intact.whole
  cases moved with
  | quiet calm queue accepted parsed exit =>
    constructor
    · rw [queue, accepted, parsed]
      exact whole
    · intro ended
      rw [queue]
      cases exit with
      | inl same =>
        rw [same] at ended
        exact intact.ended ended
      | inr closed => exact closed.2.2
  | took batch calm other queue accepted parsed running exit =>
    constructor
    · rw [queue, accepted, parsed, ← whole, List.map_append, List.append_assoc]
      rfl
    · intro ended
      exact absurd exit ended
  | handed batch parseOk data parses queue accepted parsed running exit =>
    constructor
    · rw [accepted, parsed, ← whole, queue, List.map_cons, List.append_assoc]
      rfl
    · intro ended
      cases parseOk with
      | true => exact absurd exit ended
      | false =>
        have breaks : w.breaksOff taken = true := by simp [data, breaksOff, queue]
        have rest := (keeps running).1 breaks
        simpa [data, leftBehind, queue] using rest
  | skipped batch parseOk data skips queue accepted parsed running exit =>
    have waiting : w.queue ≠ [] := by simp [queue]
    have parses := (keeps running).2 parseOk data waiting
    rw [skips] at parses
    cases parses
  | left breaks other queue accepted parsed running exit =>
    constructor
    · rw [queue, accepted, parsed]
      exact whole
    · intro _
      have rest := (keeps running).1 breaks
      rw [queue]
      cases taken with
      | data parseOk => exact absurd rfl (other parseOk)
      | accept batch => exact rest
      | dropSenders => exact rest
      | broadcast cmd => exact rest
      | command missNow now => exact rest
      | idleTick idleNow missNow now => exact rest
      | statTick sent => exact rest

theorem intact_length (intact : Intact preproc w) :
    w.parsed.length + w.queue.length = w.accepted.length := by
  rw [← intact.whole, List.length_append, List.length_map]

/-- A step that does not keep every batch loses one for good. -/
theorem step_loses {taken : ParserStep Event} (intact : Intact preproc w)
    (careless : ¬ w.Keeps skipParse taken) : Lost (step skipParse preproc w taken) := by
  have moved := step_moved skipParse preproc w taken
  have length := intact_length intact
  unfold Lost
  cases moved with
  | quiet calm queue accepted parsed exit =>
    refine absurd ?_ careless
    intro running
    obtain ⟨quiet, empty⟩ := calm running
    refine ⟨fun breaks => ?_, fun parseOk data waiting => absurd (empty parseOk data) waiting⟩
    rw [quiet] at breaks
    cases breaks
  | took batch calm other queue accepted parsed running exit =>
    refine absurd ?_ careless
    intro _
    refine ⟨fun breaks => ?_, fun parseOk data => absurd data (other parseOk)⟩
    rw [calm] at breaks
    cases breaks
  | handed batch parseOk data parses queue accepted parsed running exit =>
    cases parseOk with
    | true =>
      refine absurd ?_ careless
      intro _
      refine ⟨fun breaks => ?_, fun _ _ _ => parses⟩
      simp [data, breaksOff] at breaks
    | false =>
      have waiting : (step skipParse preproc w taken).queue ≠ [] := by
        intro empty
        apply careless
        intro _
        refine ⟨fun _ => ?_, fun _ _ _ => parses⟩
        have behind : w.leftBehind taken = w.queue.tail := by
          rw [data]
          rfl
        rw [behind, queue]
        exact empty
      have some := List.length_pos_iff.mpr waiting
      rw [queue, List.length_cons] at length
      simp only [parsed, accepted, exit, List.length_append, List.length_singleton]
      simp only [Bool.false_eq_true, if_false, reduceCtorEq]
      omega
  | skipped batch parseOk data skips queue accepted parsed running exit =>
    rw [queue, List.length_cons] at length
    rw [parsed, accepted, if_pos exit]
    omega
  | left breaks other queue accepted parsed running exit =>
    have waiting : w.queue ≠ [] := by
      intro empty
      apply careless
      intro _
      refine ⟨fun _ => ?_, fun parseOk data => absurd data (other parseOk)⟩
      cases taken <;> simp [leftBehind, empty]
    have some := List.length_pos_iff.mpr waiting
    rw [parsed, accepted, if_neg exit]
    omega

theorem step_lost (lost : Lost w) (taken : ParserStep Event) :
    Lost (step skipParse preproc w taken) := by
  have moved := step_moved skipParse preproc w taken
  unfold Lost at lost ⊢
  cases moved with
  | quiet calm queue accepted parsed exit =>
    rw [queue, accepted, parsed]
    cases exit with
    | inl same =>
      rw [same]
      exact lost
    | inr closed =>
      obtain ⟨after, running, empty⟩ := closed
      rw [if_pos running, empty] at lost
      rw [if_neg (by simp [after])]
      exact lost
  | took batch calm other queue accepted parsed running exit =>
    rw [if_pos running] at lost
    rw [queue, accepted, parsed, if_pos exit, List.length_append, List.length_append]
    simp only [List.length_singleton]
    omega
  | handed batch parseOk data parses queue accepted parsed running exit =>
    rw [if_pos running, queue, List.length_cons] at lost
    rw [accepted, parsed, List.length_append, List.length_singleton]
    split <;> omega
  | skipped batch parseOk data skips queue accepted parsed running exit =>
    rw [if_pos running, queue, List.length_cons] at lost
    rw [accepted, parsed, if_pos exit]
    omega
  | left breaks other queue accepted parsed running exit =>
    rw [if_pos running] at lost
    rw [accepted, parsed, if_neg exit]
    omega

/-- A run keeps every batch as long as its steps do, and loses one at the first that does not. -/
theorem run_intact_or_lost (skipParse : Bool) (steps : List (ParserStep Event))
    (intact : Intact preproc w) :
    (Runs.AllSteps (step skipParse preproc) (Keeps skipParse) w steps ∧
        Intact preproc (Runs.run (step skipParse preproc) w steps)) ∨
      (¬ Runs.AllSteps (step skipParse preproc) (Keeps skipParse) w steps ∧
        Lost (Runs.run (step skipParse preproc) w steps)) := by
  induction steps generalizing w with
  | nil => exact Or.inl ⟨trivial, intact⟩
  | cons taken rest ih =>
    by_cases keeps : w.Keeps skipParse taken
    · cases ih (step_intact intact keeps) with
      | inl kept => exact Or.inl ⟨⟨keeps, kept.1⟩, kept.2⟩
      | inr dropped => exact Or.inr ⟨fun all => dropped.1 all.2, dropped.2⟩
    · right
      refine ⟨fun all => keeps all.1, ?_⟩
      apply Runs.run_invariant Lost rest (fun state next _ lost => step_lost lost next)
      exact step_loses intact keeps

end ParserWorker

/-- When the loop has ended, every accepted batch was passed to `proc_batch` exactly when no step
    skipped parsing or broke the loop off with batches still waiting. -/
theorem accepted_batches_are_parsed_iff (skipParse : Bool) (preproc : Event → Event)
    (steps : List (ParserStep Event))
    (ended : (Runs.run (ParserWorker.step skipParse preproc) .start steps).exit ≠ none) :
    (Runs.run (ParserWorker.step skipParse preproc) .start steps).parsed =
        (Runs.run (ParserWorker.step skipParse preproc) .start steps).accepted ↔
      Runs.AllSteps (ParserWorker.step skipParse preproc) (ParserWorker.Keeps skipParse) .start
        steps := by
  rcases ParserWorker.run_intact_or_lost skipParse steps
    (ParserWorker.start_intact preproc) with ⟨all, intact⟩ | ⟨broken, lost⟩
  · have whole := intact.whole
    rw [intact.ended ended, List.map_nil, List.append_nil] at whole
    exact ⟨fun _ => all, fun _ => whole⟩
  · constructor
    · intro same
      unfold ParserWorker.Lost at lost
      rw [if_neg ended, same] at lost
      omega
    · intro all
      exact absurd all broken

/-- The senders go and everything waiting is parsed before the loop sees its channel closed. -/
theorem closing_run_parses_all :
    (Runs.run (ParserWorker.step false id) (.start : ParserWorker Nat)
        [.accept [1, 2], .accept [3], .dropSenders, .data true, .data true, .data true]).parsed =
      (Runs.run (ParserWorker.step false id) (.start : ParserWorker Nat)
        [.accept [1, 2], .accept [3], .dropSenders, .data true, .data true, .data true]).accepted := by
  apply (accepted_batches_are_parsed_iff false id _ (by decide)).mpr
  simp [Runs.AllSteps, ParserWorker.Keeps, ParserWorker.step, ParserWorker.start,
    ParserWorker.breaksOff, ParserWorker.leftBehind, ParserWorker.onData]

/-- A Stop is taken while a batch waits: the loop ends and the batch is never parsed. -/
theorem stop_leaves_batch_behind :
    (Runs.run (ParserWorker.step false id) (.start : ParserWorker Nat)
        [.accept [1], .broadcast (.stop .immediate), .command 0 0]).exit = some .stopped ∧
      (Runs.run (ParserWorker.step false id) (.start : ParserWorker Nat)
        [.accept [1], .broadcast (.stop .immediate), .command 0 0]).accepted = [[1]] ∧
      (Runs.run (ParserWorker.step false id) (.start : ParserWorker Nat)
        [.accept [1], .broadcast (.stop .immediate), .command 0 0]).parsed = [] :=
  ⟨rfl, rfl, rfl⟩

end
end WarpMotor
