import WarpMotor.Lib.Ownership
import WarpMotor.Lib.Runs
import WarpMotor.Sink.Work

/-!
Who keeps the data channels of a processing set open. Parsers, sink groups and
the infrastructure worker see the end of a channel when its last sender is gone
and nothing is queued in it. The router, pickers with a snapshot of it, the
parsers' agents, the sinks' agents of the infrastructure groups, the monitor
task and every dispatcher hold senders; a task drops its own when it ends.
-/
namespace WarpMotor
open Ownership

inductive InfraSinkType where
  | default | miss | residue | monitor | error
  deriving DecidableEq, Repr

inductive ProcWorker where
  | parser (i : Nat)
  | sink (j : Nat)
  | infra
  deriving DecidableEq, Repr

inductive ProcChannel where
  | parser (i : Nat)
  | sink (j : Nat)
  | infra (kind : InfraSinkType)
  deriving DecidableEq, Repr

inductive SenderHolder where
  | router
  | picker (p : Nat)
  | monitor
  | worker (w : ProcWorker)
  deriving DecidableEq, Repr

def SenderHolder.pickerIndex : SenderHolder → Option Nat
  | .picker p => some p
  | _ => none

/-- What `start_processing_tasks` is given: the parsers asked for, the parts that are there, the
    number of sink dispatchers, and the dispatchers that the parse units send to. -/
structure PipelineConf where
  parallel : Nat
  infra : Bool
  resc : Bool
  sinks : Option Nat
  routes : List Nat
  deriving DecidableEq, Repr

namespace PipelineConf

def parserTotal (conf : PipelineConf) : Nat :=
  if conf.infra && conf.resc && conf.sinks.isSome then conf.parallel else 0

def sinkTotal (conf : PipelineConf) : Nat := if conf.infra then conf.sinks.getD 0 else 0

def parsers (conf : PipelineConf) : List ProcWorker := (List.range conf.parserTotal).map .parser

def workers (conf : PipelineConf) : List ProcWorker :=
  conf.parsers ++ ((List.range conf.sinkTotal).map .sink ++ if conf.infra then [.infra] else [])

end PipelineConf

/-- `InfraSinkAgent`: a sender of each of the five groups. -/
def infraChannels : List ProcChannel :=
  [.infra .default, .infra .miss, .infra .residue, .infra .monitor, .infra .error]

/-- The data channels in the select of a worker. -/
def ProcWorker.receives : ProcWorker → List ProcChannel
  | .parser i => [.parser i]
  | .sink j => [.sink j]
  | .infra => infraChannels

/-- The senders a worker's task owns. A dispatcher keeps the sender it was made with. -/
def ProcWorker.sends (conf : PipelineConf) : ProcWorker → List ProcChannel
  | .parser _ => conf.routes.map .sink ++ infraChannels
  | .sink j => .sink j :: infraChannels
  | .infra => infraChannels

inductive DrainPhase where
  | running | reported | ended
  deriving DecidableEq, Repr

/-- `channels`: the branches of the select that are still on. -/
structure ProcWorkerState where
  channels : List ProcChannel
  drainState : DrainState
  phase : DrainPhase
  deriving DecidableEq, Repr

structure Pipeline where
  senders : Senders SenderHolder ProcChannel
  queued : ProcChannel → Nat
  workers : ProcWorker → ProcWorkerState

inductive PipelineStep where
  | disconnect
  | snapshot (p : Nat)
  | release (p : Nat)
  | send (holder : SenderHolder) (channel : ProcChannel)
  | recv (w : ProcWorker) (channel : ProcChannel)
  | seeClosed (w : ProcWorker) (channel : ProcChannel)
  | stop (w : ProcWorker)
  | finish (w : ProcWorker)
  deriving DecidableEq, Repr

namespace ProcWorkerState

def start (w : ProcWorker) : ProcWorkerState :=
  ⟨w.receives, .new w.receives.length, .running⟩

/-- `None` from a channel. A parser leaves its loop at once, the others count. -/
def onClosed (w : ProcWorker) (channel : ProcChannel) (state : ProcWorkerState) :
    ProcWorkerState :=
  match w with
  | .parser _ => { state with channels := state.channels.erase channel, phase := .reported }
  | _ =>
    let (drainState, event) := state.drainState.channelClosedIsDrained
    { channels := state.channels.erase channel, drainState
      phase := if event = .pending then .running else .reported }

/-- A parser that is stopped leaves its loop and reports; the others close their channels. -/
def onStop (w : ProcWorker) (state : ProcWorkerState) : ProcWorkerState :=
  match w with
  | .parser _ => { state with phase := .reported }
  | _ => { state with drainState := state.drainState.startDraining }

end ProcWorkerState

namespace Pipeline

def start (conf : PipelineConf) : Pipeline :=
  { senders :=
      { held := (List.range conf.parserTotal).map (fun i => (.router, .parser i)) ++
          (conf.workers.flatMap (fun w => (w.sends conf).map (fun c => (.worker w, c))) ++
            if conf.infra then [(.monitor, .infra .monitor)] else [])
        shut := [] }
    queued := fun _ => 0
    workers := fun w =>
      if w ∈ conf.workers then .start w else { ProcWorkerState.start w with phase := .ended } }

def setWorker (p : Pipeline) (w : ProcWorker) (state : ProcWorkerState) : Pipeline :=
  { p with workers := fun other => if other = w then state else p.workers other }

def setQueued (p : Pipeline) (channel : ProcChannel) (count : Nat) : Pipeline :=
  { p with queued := fun other => if other = channel then count else p.queued other }

/-- `recv` of the channel would give a message or `None` to this worker. -/
def listens (p : Pipeline) (w : ProcWorker) (channel : ProcChannel) : Bool :=
  decide ((p.workers w).phase = .running) && decide (channel ∈ (p.workers w).channels)

/-- A step whose party is not ready for it changes nothing. -/
def step (p : Pipeline) : PipelineStep → Pipeline
  | .disconnect => { p with senders := p.senders.drop .router }
  | .snapshot k => { p with senders := p.senders.copy .router (.picker k) }
  | .release k => { p with senders := p.senders.drop (.picker k) }
  | .send holder channel =>
    if p.senders.holds holder channel && decide (channel ∉ p.senders.shut) then
      p.setQueued channel (p.queued channel + 1)
    else p
  | .recv w channel =>
    if p.listens w channel && decide (0 < p.queued channel) then
      p.setQueued channel (p.queued channel - 1)
    else p
  | .seeClosed w channel =>
    if p.listens w channel && (decide (p.queued channel = 0) && p.senders.isClosed channel) then
      p.setWorker w ((p.workers w).onClosed w channel)
    else p
  | .stop w =>
    if (p.workers w).phase = .running then
      let p := p.setWorker w ((p.workers w).onStop w)
      match w with
      | .parser _ => p
      | _ => { p with senders := p.senders.close w.receives }
    else p
  | .finish w =>
    if (p.workers w).phase = .reported then
      { p.setWorker w { p.workers w with phase := .ended } with
        senders := p.senders.drop (.worker w) }
    else p

/-- The worker has reported that it is drained. -/
def HasReported (p : Pipeline) (w : ProcWorker) : Prop := (p.workers w).phase ≠ .running

end Pipeline

def PipelineStep.isStop : PipelineStep → Bool
  | .stop _ => true
  | _ => false

/-- A run in which no worker is told to stop. -/
def StopFree (steps : List PipelineStep) : Prop := ∀ taken ∈ steps, taken.isStop = false

theorem StopFree.append {first second : List PipelineStep} (early : StopFree first)
    (late : StopFree second) : StopFree (first ++ second) := by
  intro taken member
  cases List.mem_append.mp member with
  | inl before => exact early taken before
  | inr after => exact late taken after

theorem disconnect_stopFree : StopFree [.disconnect] := by
  intro taken member
  rw [List.mem_singleton.mp member]
  rfl

def runPipeline (conf : PipelineConf) (steps : List PipelineStep) : Pipeline :=
  Runs.run Pipeline.step (Pipeline.start conf) steps

/-- From every state that is reached without a Stop, with the router disconnected and nothing in
    flight, the workers can go on so that every one of them reports. -/
def GracefulDrainReachable (conf : PipelineConf) : Prop :=
  ∀ steps, StopFree steps → .disconnect ∈ steps →
    (∀ channel, (runPipeline conf steps).queued channel = 0) →
      ∃ more, StopFree more ∧
        ∀ w ∈ conf.workers, (runPipeline conf (steps ++ more)).HasReported w

namespace Pipeline
variable {p : Pipeline} {w : ProcWorker} {own : ProcChannel}

/-- A worker that counts the ends of its channels and holds a sender of one of them itself. -/
structure SelfHeld (w : ProcWorker) (own : ProcChannel) (p : Pipeline) : Prop where
  running : (p.workers w).phase = .running
  waits : own ∈ (p.workers w).channels
  counted : (p.workers w).drainState.openChannels = (p.workers w).channels.length
  held : (.worker w, own) ∈ p.senders.held
  unshut : own ∉ p.senders.shut

theorem setWorker_same (p : Pipeline) (w : ProcWorker) (state : ProcWorkerState) :
    (p.setWorker w state).workers w = state := if_pos rfl

theorem setWorker_other {other : ProcWorker} (state : ProcWorkerState) (differs : w ≠ other) :
    (p.setWorker other state).workers w = p.workers w := if_neg differs

/-- The end of another channel leaves a counting worker in its loop. -/
theorem onClosed_stays {channel : ProcChannel} {state : ProcWorkerState}
    (counts : ∀ i, w ≠ .parser i) (other : own ≠ channel) (listens : channel ∈ state.channels)
    (waits : own ∈ state.channels)
    (counted : state.drainState.openChannels = state.channels.length) :
    (state.onClosed w channel).phase = .running ∧ own ∈ (state.onClosed w channel).channels ∧
      (state.onClosed w channel).drainState.openChannels =
        (state.onClosed w channel).channels.length := by
  have left : own ∈ state.channels.erase channel := (List.mem_erase_of_ne other).mpr waits
  have shorter := List.length_erase_of_mem listens
  have some := List.length_pos_of_mem left
  have pending : state.drainState.channelClosedIsDrained =
      ({ state.drainState with openChannels := state.drainState.openChannels - 1 }, .pending) := by
    unfold DrainState.channelClosedIsDrained
    rw [if_neg]
    dsimp only
    omega
  have closed : state.onClosed w channel = ⟨state.channels.erase channel,
      { state.drainState with openChannels := state.drainState.openChannels - 1 }, .running⟩ := by
    cases w with
    | parser i => exact absurd rfl (counts i)
    | sink j => simp [ProcWorkerState.onClosed, pending]
    | infra => simp [ProcWorkerState.onClosed, pending]
  rw [closed]
  refine ⟨rfl, left, ?_⟩
  dsimp only
  omega

/-- Without a Stop such a worker never sees all its channels close. -/
theorem step_selfHeld (counts : ∀ i, w ≠ .parser i) (self : SelfHeld w own p)
    {taken : PipelineStep} (free : taken.isStop = false) : SelfHeld w own (p.step taken) := by
  cases taken with
  | disconnect =>
    exact ⟨self.running, self.waits, self.counted,
      Senders.mem_drop.mpr ⟨self.held, by intro same; cases same⟩, self.unshut⟩
  | snapshot k =>
    exact ⟨self.running, self.waits, self.counted, Senders.mem_copy.mpr (Or.inl self.held),
      self.unshut⟩
  | release k =>
    exact ⟨self.running, self.waits, self.counted,
      Senders.mem_drop.mpr ⟨self.held, by intro same; cases same⟩, self.unshut⟩
  | send holder channel =>
    unfold step
    dsimp only
    split
    · exact ⟨self.running, self.waits, self.counted, self.held, self.unshut⟩
    · exact self
  | recv reader channel =>
    unfold step
    dsimp only
    split
    · exact ⟨self.running, self.waits, self.counted, self.held, self.unshut⟩
    · exact self
  | seeClosed reader channel =>
    unfold step
    dsimp only
    split
    · rename_i closed
      rw [Bool.and_eq_true, Bool.and_eq_true] at closed
      obtain ⟨hears, _, ended⟩ := closed
      by_cases same : w = reader
      · subst same
        have other : own ≠ channel := by
          intro equal
          rw [← equal, Senders.not_closed_of_held self.held self.unshut] at ended
          cases ended
        rw [listens, Bool.and_eq_true, decide_eq_true_iff, decide_eq_true_iff] at hears
        obtain ⟨runs, waits, counted⟩ :=
          onClosed_stays counts other hears.2 self.waits self.counted
        constructor
        · rw [setWorker_same]
          exact runs
        · rw [setWorker_same]
          exact waits
        · rw [setWorker_same]
          exact counted
        · exact self.held
        · exact self.unshut
      · constructor
        · rw [setWorker_other _ same]
          exact self.running
        · rw [setWorker_other _ same]
          exact self.waits
        · rw [setWorker_other _ same]
          exact self.counted
        · exact self.held
        · exact self.unshut
    · exact self
  | stop reader => cases free
  | finish reader =>
    unfold step
    dsimp only
    split
    · rename_i reported
      have other : w ≠ reader := by
        intro same
        rw [← same, self.running] at reported
        cases reported
      have stays : (p.setWorker reader { p.workers reader with phase := .ended }).workers w =
          p.workers w := setWorker_other _ other
      constructor
      · exact (congrArg ProcWorkerState.phase stays).trans self.running
      · exact stays.symm ▸ self.waits
      · exact stays.symm ▸ self.counted
      · refine Senders.mem_drop.mpr ⟨self.held, ?_⟩
        intro same
        exact other (SenderHolder.worker.inj same)
      · exact self.unshut
    · exact self

theorem run_selfHeld (counts : ∀ i, w ≠ .parser i) (self : SelfHeld w own p)
    {steps : List PipelineStep} (free : StopFree steps) :
    SelfHeld w own (Runs.run step p steps) := by
  apply Runs.run_invariant (SelfHeld w own) steps
  · intro state taken member holds
    exact step_selfHeld counts holds (free taken member)
  · exact self

/-- The first channel of a worker that is not a parser is one of those it sends to. -/
theorem start_selfHeld {conf : PipelineConf} (started : w ∈ conf.workers)
    (waits : own ∈ w.receives) (sends : own ∈ w.sends conf) : SelfHeld w own (start conf) := by
  have state : (start conf).workers w = .start w := if_pos started
  constructor
  · rw [state]
    rfl
  · rw [state]
    exact waits
  · rw [state]
    rfl
  · refine List.mem_append_right _ (List.mem_append_left _ ?_)
    exact List.mem_flatMap.mpr ⟨w, started, List.mem_map.mpr ⟨own, sends, rfl⟩⟩
  · intro shut
    cases shut

end Pipeline

/-- A sink group or the infrastructure worker never reports without a Stop: its dispatchers keep
    senders of their own channels. -/
theorem counting_worker_never_reports {conf : PipelineConf} {w : ProcWorker}
    (started : w ∈ conf.workers) (counts : ∀ i, w ≠ .parser i) {steps : List PipelineStep}
    (free : StopFree steps) : ¬ (runPipeline conf steps).HasReported w := by
  have own : ∃ c, c ∈ w.receives ∧ c ∈ w.sends conf := by
    cases w with
    | parser i => exact absurd rfl (counts i)
    | sink j => exact ⟨.sink j, by simp [ProcWorker.receives], by simp [ProcWorker.sends]⟩
    | infra =>
      exact ⟨.infra .default, by simp [ProcWorker.receives, infraChannels],
        by simp [ProcWorker.sends, infraChannels]⟩
  obtain ⟨channel, waits, sends⟩ := own
  have self := Pipeline.run_selfHeld counts (Pipeline.start_selfHeld started waits sends) free
  intro reported
  exact reported self.running

namespace Pipeline
variable {p : Pipeline}

/-- Only the router and pickers with a snapshot of it can send to a parser, and a running parser
    waits for its channel. -/
structure ParsersFed (p : Pipeline) : Prop where
  holders : ∀ holder i, (holder, ProcChannel.parser i) ∈ p.senders.held →
    holder = .router ∨ ∃ k, holder = .picker k
  waits : ∀ i, (p.workers (.parser i)).phase = .running →
    ProcChannel.parser i ∈ (p.workers (.parser i)).channels

theorem start_parsersFed (conf : PipelineConf) : ParsersFed (start conf) := by
  constructor
  · intro holder i held
    simp only [start, List.mem_append, List.mem_map, List.mem_flatMap] at held
    rcases held with ⟨k, _, same⟩ | ⟨w, _, channel, sends, same⟩ | monitor
    · cases same
      exact Or.inl rfl
    · cases same
      cases w <;> simp [ProcWorker.sends, infraChannels] at sends
    · split at monitor <;> simp at monitor
  · intro i _
    have waits : ProcChannel.parser i ∈ (ProcWorkerState.start (.parser i)).channels := by
      simp [ProcWorkerState.start, ProcWorker.receives]
    unfold start
    dsimp only
    split <;> exact waits

theorem setWorker_waits {w : ProcWorker} {state : ProcWorkerState} (fed : ParsersFed p)
    (kept : ∀ i, w = .parser i → state.phase = .running →
      ProcChannel.parser i ∈ state.channels) (i : Nat)
    (running : ((p.setWorker w state).workers (.parser i)).phase = .running) :
    ProcChannel.parser i ∈ ((p.setWorker w state).workers (.parser i)).channels := by
  by_cases same : ProcWorker.parser i = w
  · subst same
    rw [setWorker_same] at running ⊢
    exact kept i rfl running
  · rw [setWorker_other state same] at running ⊢
    exact fed.waits i running

theorem step_parsersFed (fed : ParsersFed p) {taken : PipelineStep} (free : taken.isStop = false) :
    ParsersFed (p.step taken) := by
  cases taken with
  | disconnect => exact ⟨fun h i held => fed.holders h i (Senders.mem_drop.mp held).1, fed.waits⟩
  | snapshot k =>
    refine ⟨?_, fed.waits⟩
    intro holder i held
    cases Senders.mem_copy.mp held with
    | inl before => exact fed.holders holder i before
    | inr copied => exact Or.inr ⟨k, copied.1⟩
  | release k => exact ⟨fun h i held => fed.holders h i (Senders.mem_drop.mp held).1, fed.waits⟩
  | send holder channel =>
    unfold step
    dsimp only
    split <;> exact ⟨fed.holders, fed.waits⟩
  | recv w channel =>
    unfold step
    dsimp only
    split <;> exact ⟨fed.holders, fed.waits⟩
  | seeClosed w channel =>
    unfold step
    dsimp only
    split
    · refine ⟨fed.holders, setWorker_waits fed ?_⟩
      intro i parser running
      rw [parser] at running
      cases running
    · exact fed
  | stop w => cases free
  | finish w =>
    unfold step
    dsimp only
    split
    · refine ⟨fun h i held => fed.holders h i (Senders.mem_drop.mp held).1, ?_⟩
      refine setWorker_waits fed ?_
      intro i _ running
      cases running
    · exact fed

theorem run_parsersFed (fed : ParsersFed p) {steps : List PipelineStep} (free : StopFree steps) :
    ParsersFed (Runs.run step p steps) := by
  apply Runs.run_invariant ParsersFed steps
  · intro state taken member holds
    exact step_parsersFed holds (free taken member)
  · exact fed

/-- A router that holds nothing never holds anything again. -/
def Disconnected (p : Pipeline) : Prop :=
  ∀ channel, (SenderHolder.router, channel) ∉ p.senders.held

theorem step_disconnected (cut : Disconnected p) (taken : PipelineStep) :
    Disconnected (p.step taken) := by
  intro channel
  cases taken with
  | disconnect => exact fun held => cut channel (Senders.mem_drop.mp held).1
  | snapshot k =>
    intro held
    cases Senders.mem_copy.mp held with
    | inl before => exact cut channel before
    | inr copied => cases copied.1
  | release k => exact fun held => cut channel (Senders.mem_drop.mp held).1
  | send holder other =>
    unfold step
    dsimp only
    split <;> exact cut channel
  | recv w other =>
    unfold step
    dsimp only
    split <;> exact cut channel
  | seeClosed w other =>
    unfold step
    dsimp only
    split <;> exact cut channel
  | stop w =>
    unfold step
    dsimp only
    split
    · split <;> exact cut channel
    · exact cut channel
  | finish w =>
    unfold step
    dsimp only
    split
    · exact fun held => cut channel (Senders.mem_drop.mp held).1
    · exact cut channel

theorem run_disconnected {steps : List PipelineStep} (member : .disconnect ∈ steps) :
    Disconnected (Runs.run step p steps) := by
  obtain ⟨before, after, rfl⟩ := List.append_of_mem member
  unfold Runs.run
  rw [List.foldl_append, List.foldl_cons]
  apply Runs.run_invariant Disconnected after
  · intro state taken _ cut
    exact step_disconnected cut taken
  · intro channel held
    exact (Senders.mem_drop.mp held).2 rfl

theorem run_releases (pickers : List Nat) (p : Pipeline) :
    Runs.run step p (pickers.map .release) =
      { p with senders := (pickers.map SenderHolder.picker).foldl Senders.drop p.senders } := by
  induction pickers generalizing p with
  | nil => rfl
  | cons k rest ih => exact ih (p.step (.release k))

/-- Each parser in the list sees the end of its channel. -/
theorem run_parsers_report (parsers : List Nat) (p : Pipeline)
    (closed : ∀ i, p.queued (.parser i) = 0 ∧ p.senders.isClosed (.parser i) = true)
    (fed : ParsersFed p) :
    ∀ i, i ∈ parsers ∨ p.HasReported (.parser i) →
      (Runs.run step p (parsers.map (fun i => .seeClosed (.parser i) (.parser i)))).HasReported
        (.parser i) := by
  induction parsers generalizing p with
  | nil =>
    intro i reported
    cases reported with
    | inl none => cases none
    | inr done => exact done
  | cons k rest ih =>
    rw [List.map_cons, Runs.run_cons]
    have same : (p.step (.seeClosed (.parser k) (.parser k))).queued = p.queued ∧
        (p.step (.seeClosed (.parser k) (.parser k))).senders = p.senders := by
      unfold step
      dsimp only
      split <;> exact ⟨rfl, rfl⟩
    have reports : (p.step (.seeClosed (.parser k) (.parser k))).HasReported (.parser k) := by
      unfold HasReported
      cases running : decide ((p.workers (.parser k)).phase = .running) with
      | true =>
        rw [decide_eq_true_iff] at running
        have waits := fed.waits k running
        simp [step, listens, running, waits, (closed k).1, (closed k).2, setWorker_same,
          ProcWorkerState.onClosed]
      | false =>
        rw [decide_eq_false_iff_not] at running
        simp [step, listens, running]
    have keeps : ∀ i, p.HasReported (.parser i) →
        (p.step (.seeClosed (.parser k) (.parser k))).HasReported (.parser i) := by
      intro i done
      by_cases equal : i = k
      · exact equal ▸ reports
      · have other : ProcWorker.parser i ≠ .parser k := fun h => equal (ProcWorker.parser.inj h)
        unfold step HasReported
        dsimp only
        split
        · rw [setWorker_other _ other]
          exact done
        · exact done
    have next := ih (p.step (.seeClosed (.parser k) (.parser k)))
      (by rw [same.1, same.2]; exact closed) (step_parsersFed fed rfl)
    intro i reported
    apply next
    rcases reported with member | done
    · rcases List.mem_cons.mp member with equal | later
      · exact Or.inr (equal ▸ reports)
      · exact Or.inl later
    · exact Or.inr (keeps i done)

end Pipeline

/-- The parsers by themselves do drain: once the router is disconnected and nothing is queued for
    them, the pickers let go of their snapshots and every parser sees the end of its channel. -/
theorem parsers_can_report (conf : PipelineConf) {steps : List PipelineStep} (free : StopFree steps)
    (cut : .disconnect ∈ steps)
    (quiet : ∀ i, (runPipeline conf steps).queued (.parser i) = 0) :
    ∃ more, StopFree more ∧
      ∀ w ∈ conf.parsers, (runPipeline conf (steps ++ more)).HasReported w := by
  have fed := Pipeline.run_parsersFed (Pipeline.start_parsersFed conf) free
  have gone := Pipeline.run_disconnected (p := Pipeline.start conf) cut
  let reached := runPipeline conf steps
  let pickers := reached.senders.held.filterMap (fun sender => sender.1.pickerIndex)
  let releases : List PipelineStep := pickers.map .release
  let ends : List PipelineStep :=
    (List.range conf.parserTotal).map (fun i => .seeClosed (.parser i) (.parser i))
  have releasesFree : StopFree releases := by
    intro taken member
    obtain ⟨k, _, rfl⟩ := List.mem_map.mp member
    rfl
  refine ⟨releases ++ ends, ?_, ?_⟩
  · apply releasesFree.append
    intro taken member
    obtain ⟨i, _, rfl⟩ := List.mem_map.mp member
    rfl
  · have split : runPipeline conf (steps ++ (releases ++ ends)) =
        Runs.run Pipeline.step (Runs.run Pipeline.step reached releases) ends := by
      simp only [runPipeline, Runs.run, List.foldl_append, reached]
    have released := Pipeline.run_releases pickers reached
    have closed : ∀ i, (Runs.run Pipeline.step reached releases).queued (.parser i) = 0 ∧
        (Runs.run Pipeline.step reached releases).senders.isClosed (.parser i) = true := by
      intro i
      rw [released]
      refine ⟨quiet i, Senders.closed_of_unheld ?_⟩
      intro holder held
      obtain ⟨before, kept⟩ := (Senders.mem_dropAll _ _).mp held
      rcases fed.holders holder i before with router | ⟨k, picker⟩
      · exact gone (.parser i) (router ▸ before)
      · apply kept
        rw [picker]
        refine List.mem_map_of_mem (List.mem_filterMap.mpr ⟨_, picker ▸ before, rfl⟩)
    have fedAfter := Pipeline.run_parsersFed fed releasesFree
    intro w member
    obtain ⟨i, inside, rfl⟩ := List.mem_map.mp member
    rw [split]
    exact Pipeline.run_parsers_report _ _ closed fedAfter i (Or.inl inside)

/-- A graceful drain is reachable only when there is no infrastructure service, and then there is no
    worker to wait for. -/
theorem graceful_drain_reachable_iff (conf : PipelineConf) :
    GracefulDrainReachable conf ↔ conf.infra = false := by
  constructor
  · intro reachable
    cases there : conf.infra with
    | false => rfl
    | true =>
      have started : ProcWorker.infra ∈ conf.workers := by
        simp [PipelineConf.workers, there]
      obtain ⟨more, free, reported⟩ :=
        reachable [.disconnect] disconnect_stopFree (List.mem_singleton.mpr rfl) (fun _ => rfl)
      have never := counting_worker_never_reports started (fun i same => by cases same)
        (disconnect_stopFree.append free)
      exact absurd (reported .infra started) never
  · intro absent steps _ _ _
    have none : conf.workers = [] := by
      simp [PipelineConf.workers, PipelineConf.parsers, PipelineConf.parserTotal,
        PipelineConf.sinkTotal, absent]
    refine ⟨[], ?_, ?_⟩
    · intro taken member
      cases member
    · rw [none]
      intro w member
      cases member

/-- One parser, one sink group that its rules are routed to, and the infrastructure groups. -/
def onePipeline : PipelineConf :=
  { parallel := 1, infra := true, resc := true, sinks := some 1, routes := [0] }

theorem one_sink_group_never_drains : ¬ GracefulDrainReachable onePipeline := by
  intro reachable
  obtain ⟨more, free, reported⟩ :=
    reachable [.disconnect] disconnect_stopFree (List.mem_singleton.mpr rfl) (fun _ => rfl)
  have started : ProcWorker.sink 0 ∈ onePipeline.workers := by decide
  exact counting_worker_never_reports started (fun i same => by cases same)
    (disconnect_stopFree.append free) (reported (.sink 0) started)

end WarpMotor
