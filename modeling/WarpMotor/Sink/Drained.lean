import WarpMotor.Sink.Work

/-!
When a worker's report that it is drained is true. The report is sent at the
closing of the last data channel, before the final flush, so what the buffers
hold at that moment is what the packages since the last flush tick leave over.
A parser worker, by contrast, reports after all of its work.
-/
namespace WarpMotor
open BatchBuffer

namespace SinkSlot
variable {M : Type} [DecidableEq M]

theorem Counted.of_buffer {slot : SinkSlot M} (counted : slot.Counted) (slot' : SinkSlot M)
    (env : slot'.env = slot.env) (inputs : slot'.inputs = slot.inputs)
    (buffer : SinkState.SameBuffer slot.state slot'.state) : slot'.Counted := by
  have step : slot'.addInput = slot.addInput := by
    funext fill input
    cases input with
    | package package => simp only [addInput, buffer.batchSize, env, buffer.shape.unitMetas]
    | flush => simp only [addInput, env]
  have same : slot'.fill = slot.fill := by rw [fill, step, inputs, env, fill]
  rw [Counted, same]
  constructor
  · rw [buffer.pendingRecords]
    exact counted.1
  · rw [buffer.pendingMeta]
    exact counted.2

theorem sendStat_counted {slot slot' : SinkSlot M} {result : Except SinkError Unit}
    (counted : slot.Counted) (sent : slot.sendStat = (slot', result)) : slot'.Counted := by
  unfold sendStat at sent
  obtain ⟨rfl, -⟩ := Prod.mk.inj sent
  have kept : (slot.state.sendStat slot.env).1.rt = slot.state.rt :=
    SinkState.sendStatTo_rt slot.env true slot.state
  exact counted.of_buffer _ rfl rfl (SinkState.SameBuffer.of_rt kept)

theorem procFix_counted (handle : ASinkHandle) (sinks : List (SinkSlot M))
    (counted : ∀ slot ∈ sinks, slot.Counted) :
    ∀ slot ∈ (procFix handle sinks).1, slot.Counted := by
  induction sinks with
  | nil => exact counted
  | cons slot rest ih =>
    have first : slot.Counted := counted slot (List.mem_cons_self ..)
    have others : ∀ slot ∈ rest, slot.Counted := fun s m => counted s (List.mem_cons_of_mem _ m)
    have recovered := SinkState.recoverSink_buffer slot.env handle slot.state
    unfold procFix
    split
    · split
      all_goals
        rename_i state outcome
        rw [outcome] at recovered
        intro other member
        rcases List.mem_cons.mp member with rfl | later
        · exact first.of_buffer _ rfl rfl recovered
        · exact others other later
    · intro other member
      rcases List.mem_cons.mp member with rfl | later
      · exact first
      · exact ih others other later

end SinkSlot

namespace SinkDispatcher
variable {M : Type}

theorem emitOmlFailures_sinks (rule : ProcMeta) (failures : SinkPackage) (d : SinkDispatcher M) :
    (d.emitOmlFailures rule failures).1.sinks = d.sinks := by
  induction failures generalizing d with
  | nil => rfl
  | cons bad rest ih =>
    unfold emitOmlFailures
    split
    · rfl
    · exact ih _

theorem runOmlPipeline_sinks (d : SinkDispatcher M) (rule : ProcMeta) (batch : SinkPackage) :
    (d.runOmlPipeline rule batch).1.sinks = d.sinks := by
  unfold runOmlPipeline
  split <;> rfl

theorem omlProcBatch_sinks (d : SinkDispatcher M) (batch : SinkPackage) (rule : ProcMeta) :
    (d.omlProcBatch batch rule).1.sinks = d.sinks := by
  unfold omlProcBatch
  split
  · rfl
  · split
    · rfl
    · have piped := runOmlPipeline_sinks d rule batch
      have emitted := emitOmlFailures_sinks rule (d.runOmlPipeline rule batch).2.2
        (d.runOmlPipeline rule batch).1
      dsimp only
      split
      all_goals
        rename_i outcome
        rw [outcome] at emitted
        exact emitted.trans piped

variable [DecidableEq M]

def Counted (d : SinkDispatcher M) : Prop := ∀ slot ∈ d.sinks, slot.Counted

theorem forSinks_counted {f : SinkSlot M → SinkSlot M × Except SinkError Unit}
    (keeps : ∀ slot slot', slot.Counted → f slot = (slot', .ok ()) → slot'.Counted)
    {d d' : SinkDispatcher M} (counted : d.Counted) (done : d.forSinks f = (d', .ok ())) :
    d'.Counted := by
  unfold forSinks at done
  cases outcome : Runs.tryEach f d.sinks with
  | mk sinks result =>
    rw [outcome] at done
    obtain ⟨rfl, rfl⟩ := Prod.mk.inj done
    intro slot' member
    obtain ⟨slot, before, step⟩ := Runs.tryEach_ok outcome slot' member
    exact keeps slot slot' (counted slot before) step

theorem deliverPerSink_counted (sinks : List (SinkSlot M)) (perSink : List SinkPackage)
    {sinks' : List (SinkSlot M)} (counted : ∀ slot ∈ sinks, slot.Counted)
    (sent : deliverPerSink sinks perSink = (sinks', .ok ())) : ∀ slot ∈ sinks', slot.Counted := by
  induction sinks generalizing perSink sinks' with
  | nil =>
    cases sent
    exact counted
  | cons slot rest ih =>
    cases perSink with
    | nil =>
      cases sent
      exact counted
    | cons units more =>
      have first : slot.Counted := counted slot (List.mem_cons_self ..)
      have others : ∀ slot ∈ rest, slot.Counted := fun s m => counted s (List.mem_cons_of_mem _ m)
      unfold deliverPerSink at sent
      cases tail : deliverPerSink rest more with
      | mk rest' result =>
        rw [tail] at sent
        split at sent
        · split at sent
          · cases sent
          · rename_i slot' taken
            cases sent
            intro other member
            rcases List.mem_cons.mp member with rfl | later
            · exact SinkSlot.sendPackage_counted first taken
            · exact ih more others tail other later
        · cases sent
          intro other member
          rcases List.mem_cons.mp member with rfl | later
          · exact first
          · exact ih more others tail other later

theorem deliverRouted_counted (sinks : List (SinkSlot M)) (seen : List String)
    (routed : List (String × SinkPackage)) {sinks' : List (SinkSlot M)}
    (counted : ∀ slot ∈ sinks, slot.Counted)
    (sent : deliverRouted sinks seen routed = (sinks', .ok ())) :
    ∀ slot ∈ sinks', slot.Counted := by
  induction sinks generalizing seen routed sinks' with
  | nil =>
    cases sent
    exact counted
  | cons slot rest ih =>
    have first : slot.Counted := counted slot (List.mem_cons_self ..)
    have others : ∀ slot ∈ rest, slot.Counted := fun s m => counted s (List.mem_cons_of_mem _ m)
    -- the head after its own delivery, and the loop over the rest
    have assemble : ∀ (head : SinkSlot M) (seen : List String)
        (routed : List (String × SinkPackage)), head.Counted →
        ((head :: (deliverRouted rest seen routed).1), (deliverRouted rest seen routed).2) =
          (sinks', .ok ()) → ∀ slot ∈ sinks', slot.Counted := by
      intro head seen routed headCounted result
      obtain ⟨rfl, ok⟩ := Prod.mk.inj result
      intro other member
      rcases List.mem_cons.mp member with rfl | later
      · exact headCounted
      · exact ih seen routed others (Prod.ext rfl ok) other later
    unfold deliverRouted at sent
    split at sent
    · split at sent
      · split at sent
        · exact assemble slot _ _ first sent
        · split at sent
          · cases sent
          · rename_i slot' taken
            exact assemble slot' _ _ (SinkSlot.sendPackage_counted first taken) sent
      · exact assemble slot _ _ first sent
    · exact assemble slot _ _ first sent

theorem sinkRuleUnits_counted (units : SinkPackage) {d d' : SinkDispatcher M}
    (counted : d.Counted) (sent : d.sinkRuleUnits units = (d', .ok ())) : d'.Counted := by
  unfold sinkRuleUnits at sent
  split at sent
  · cases sent
    exact counted
  · rename_i first _
    have same := omlProcBatch_sinks d units first.procMeta
    split at sent
    · cases sent
    · rename_i d₁ perSink outcome
      rw [outcome] at same
      dsimp only at sent same
      cases delivered : deliverPerSink d₁.sinks perSink with
      | mk sinks result =>
        rw [delivered] at sent
        obtain ⟨rfl, rfl⟩ := Prod.mk.inj sent
        refine deliverPerSink_counted d₁.sinks perSink ?_ delivered
        rw [same]
        exact counted

theorem sinkRuleGroups_counted (groups : List (String × SinkPackage)) {d d' : SinkDispatcher M}
    (counted : d.Counted) (sent : sinkRuleGroups groups d = (d', .ok ())) : d'.Counted := by
  induction groups generalizing d with
  | nil =>
    cases sent
    exact counted
  | cons group rest ih =>
    unfold sinkRuleGroups at sent
    split at sent
    · cases sent
    · rename_i d₁ outcome
      exact ih (sinkRuleUnits_counted group.2 counted outcome) sent

theorem groupSinkPackage_counted {package : SinkPackage} {d d' : SinkDispatcher M} {count : Nat}
    (counted : d.Counted) (sent : d.groupSinkPackage package = (d', .ok count)) :
    d'.Counted := by
  unfold groupSinkPackage at sent
  dsimp only at sent
  split at sent
  · cases sent
  · rename_i d₁ outcome
    cases sent
    have ticked : { d with tick := d.tick + 1 }.Counted := counted
    exact sinkRuleGroups_counted _ ticked outcome

theorem groupSinkBatchDirect_counted {package : SinkPackage} {d d' : SinkDispatcher M}
    {count : Nat} (counted : d.Counted)
    (sent : d.groupSinkBatchDirect package = (d', .ok count)) : d'.Counted := by
  unfold groupSinkBatchDirect at sent
  split at sent
  · cases sent
    exact counted
  · split at sent
    · cases sent
      exact counted
    · dsimp only at sent
      split at sent
      · cases sent
      · rename_i sinks outcome
        cases sent
        exact deliverRouted_counted d.sinks [] _ counted outcome

theorem activeFirst_counted (target : String) (sinks : List (SinkSlot M))
    (counted : ∀ slot ∈ sinks, slot.Counted) : ∀ slot ∈ activeFirst target sinks, slot.Counted := by
  induction sinks with
  | nil => exact counted
  | cons slot rest ih =>
    have others : ∀ slot ∈ rest, slot.Counted := fun s m => counted s (List.mem_cons_of_mem _ m)
    have first : slot.Counted := counted slot (List.mem_cons_self ..)
    unfold activeFirst
    split
    · intro other member
      rcases List.mem_cons.mp member with rfl | later
      · exact first
      · exact others other later
    · intro other member
      rcases List.mem_cons.mp member with rfl | later
      · exact first
      · exact ih others other later

theorem executeOne_counted (target : String) {d : SinkDispatcher M} (counted : d.Counted) :
    (d.freezeAll.activeOne target).Counted := by
  refine activeFirst_counted target _ ?_
  intro slot member
  obtain ⟨before, present, rfl⟩ := List.mem_map.mp member
  exact counted before present

end SinkDispatcher

namespace WorkChannel
variable {M : Type} [DecidableEq M]

/-- The step of a loop over the groups keeps the count when it meets no error. -/
def Keeps (f : WorkChannel M → WorkChannel M × Except SinkError Unit) : Prop :=
  ∀ channel channel', channel.dispatcher.Counted → f channel = (channel', .ok ()) →
    channel'.dispatcher.Counted

theorem lift_keeps {f : SinkDispatcher M → SinkDispatcher M × Except SinkError Unit}
    (keeps : ∀ d d', d.Counted → f d = (d', .ok ()) → d'.Counted) : Keeps (lift f) := by
  intro channel channel' counted done
  unfold lift at done
  cases outcome : f channel.dispatcher with
  | mk dispatcher result =>
    rw [outcome] at done
    obtain ⟨rfl, rfl⟩ := Prod.mk.inj done
    exact keeps channel.dispatcher dispatcher counted outcome

theorem flush_keeps : Keeps (flush (M := M)) := by
  apply lift_keeps
  intro d d' counted done
  refine SinkDispatcher.forSinks_counted ?_ counted done
  intro slot slot' _ flushed
  exact SinkSlot.flush_counted flushed

theorem sendStat_keeps (kind : WorkKind) : Keeps (sendStat (M := M) kind) := by
  apply lift_keeps
  intro d d' counted done
  cases outcome : d.forSinks SinkSlot.sendStat with
  | mk d₁ result =>
    rw [outcome] at done
    cases result with
    | error e => cases done
    | ok _ =>
      have counted₁ : d₁.Counted := by
        refine SinkDispatcher.forSinks_counted ?_ counted outcome
        intro slot slot' before sent
        exact SinkSlot.sendStat_counted before sent
      cases kind with
      | sink =>
        unfold SinkDispatcher.sendIngressStat at done
        obtain ⟨rfl, -⟩ := Prod.mk.inj done
        exact counted₁
      | infra =>
        cases done
        exact counted₁

theorem deliver_counted (kind : WorkKind) {package : SinkPackage} {d d' : SinkDispatcher M}
    {count : Nat} (counted : d.Counted) (sent : deliver kind package d = (d', .ok count)) :
    d'.Counted := by
  cases kind with
  | sink =>
    have received : (d.recordIngressBatch package.length).Counted := counted
    exact SinkDispatcher.groupSinkPackage_counted received sent
  | infra => exact SinkDispatcher.groupSinkBatchDirect_counted counted sent

theorem procFix_counted (handle : ASinkHandle) (channels : List (WorkChannel M))
    (counted : ∀ channel ∈ channels, channel.dispatcher.Counted) :
    ∀ channel ∈ (procFix handle channels).1, channel.dispatcher.Counted := by
  induction channels generalizing handle with
  | nil => exact counted
  | cons channel rest ih =>
    have others : ∀ channel ∈ rest, channel.dispatcher.Counted :=
      fun c m => counted c (List.mem_cons_of_mem _ m)
    have fixed : (channel.dispatcher.procFix handle).1.Counted :=
      SinkSlot.procFix_counted handle channel.dispatcher.sinks (counted channel (List.mem_cons_self ..))
    unfold procFix
    split
    all_goals
      rename_i outcome
      rw [outcome] at fixed
      intro other member
      rcases List.mem_cons.mp member with rfl | later
      · exact fixed
      · first
        | exact others other later
        | exact ih _ others other later

end WorkChannel

namespace SinkWorker
variable {M : Type}

/-- Closing a channel leaves its runtimes as they are. -/
theorem slots_set_closed {w : SinkWorker M} {index : Nat} {channel : WorkChannel M}
    (found : w.channels[index]? = some channel) :
    (w.channels.set index { channel with closed := true }).flatMap
      (fun channel => channel.dispatcher.sinks) = w.slots := by
  have same : (w.channels.set index { channel with closed := true }).map
      (fun channel => channel.dispatcher.sinks) =
        w.channels.map (fun channel => channel.dispatcher.sinks) := by
    apply List.ext_getElem?
    intro position
    rw [List.getElem?_map, List.getElem?_map, List.getElem?_set]
    by_cases here : index = position
    · subst here
      obtain ⟨inside, equal⟩ := List.getElem?_eq_some_iff.mp found
      simp [inside, equal]
    · simp [here]
  rw [slots, List.flatMap_def, same, ← List.flatMap_def]

/-- The worker is at its end and has reported nothing but an abort. -/
def Silent (w w' : SinkWorker M) : Prop :=
  (∃ result, w'.phase = .ended result) ∧
    (w'.reports = w.reports ∨
      ∃ report, w'.reports = w.reports ++ [report] ∧ report.outcome = .aborted)

theorem leave_silent {w : SinkWorker M} (w₁ : SinkWorker M) (reports : w₁.reports = w.reports)
    (result : Except SinkError Unit) : Silent w (w₁.leave result) := by
  refine ⟨⟨result, rfl⟩, ?_⟩
  unfold leave ReloadDrainReporter.sendPending
  cases w₁.reporter.pending with
  | none =>
    left
    dsimp only
    rw [reports, List.append_nil]
  | some event =>
    right
    refine ⟨{ event with outcome := .aborted }, ?_, rfl⟩
    dsimp only
    rw [reports]

theorem forChannels_silent (f : WorkChannel M → WorkChannel M × Except SinkError Unit)
    {andThen : SinkWorker M → SinkWorker M} {w₀ w : SinkWorker M}
    (reports : w.reports = w₀.reports)
    (follows : ∀ w₁ : SinkWorker M, w₁.reports = w₀.reports → Silent w₀ (andThen w₁)) :
    Silent w₀ (w.forChannels f andThen) := by
  unfold forChannels
  split
  · apply leave_silent
    exact reports
  · apply follows
    exact reports

theorem finish_silent (w : SinkWorker M) : Silent w w.finish := by
  apply forChannels_silent _ rfl
  intro w₁ reports₁
  apply forChannels_silent _ reports₁
  intro w₂ reports₂
  apply forChannels_silent _ reports₂
  intro w₃ reports₃
  exact leave_silent w₃ reports₃ (.ok ())

variable [DecidableEq M]

def AllCounted (w : SinkWorker M) : Prop :=
  ∀ channel ∈ w.channels, channel.dispatcher.Counted

/-- What one turn of a worker can come to. -/
inductive Turn (w w' : SinkWorker M) : Prop where
  | stayed (reports : w'.reports = w.reports) (counted : w'.AllCounted)
  | left (slots : w'.slots = w.slots) (counted : w'.AllCounted)
  | ended (silent : Silent w w')

theorem allCounted_set {w : SinkWorker M} (counted : w.AllCounted) (index : Nat)
    (channel : WorkChannel M) (updated : channel.dispatcher.Counted) :
    ∀ other ∈ w.channels.set index channel, other.dispatcher.Counted := by
  intro other member
  rcases List.mem_or_eq_of_mem_set member with before | rfl
  · exact counted other before
  · exact updated

theorem forChannels_turn {f : WorkChannel M → WorkChannel M × Except SinkError Unit}
    (keeps : WorkChannel.Keeps f) (andThen : SinkWorker M → SinkWorker M) {w w₀ : SinkWorker M}
    (reports : w.reports = w₀.reports) (counted : w.AllCounted)
    (follows : ∀ w₁ : SinkWorker M, w₁.reports = w₀.reports → w₁.AllCounted →
      Turn w₀ (andThen w₁)) :
    Turn w₀ (w.forChannels f andThen) := by
  unfold forChannels
  cases outcome : Runs.tryEach f w.channels with
  | mk channels result =>
    cases result with
    | error e => exact .ended (leave_silent { w with channels } reports (.error e))
    | ok _ =>
      refine follows { w with channels } reports ?_
      intro channel' member
      obtain ⟨channel, before, step⟩ := Runs.tryEach_ok outcome channel' member
      exact keeps channel channel' (counted channel before) step

theorem onPackage_turn (index : Nat) (package : SinkPackage) (now : Nat) {w : SinkWorker M}
    (counted : w.AllCounted) : Turn w (w.onPackage index package now) := by
  unfold onPackage
  split
  · exact .stayed rfl counted
  · rename_i channel found
    have present : channel ∈ w.channels := List.mem_of_getElem? found
    split
    · exact .stayed rfl counted
    · split
      · exact .ended (leave_silent _ rfl _)
      · rename_i dispatcher processed sent
        refine .stayed rfl ?_
        refine allCounted_set counted index _ ?_
        exact WorkChannel.deliver_counted w.kind (counted channel present) sent

theorem onClosed_turn (index : Nat) {w : SinkWorker M} (counted : w.AllCounted) :
    Turn w (w.onClosed index) := by
  unfold onClosed
  split
  · exact .stayed rfl counted
  · rename_i channel found
    have present : channel ∈ w.channels := List.mem_of_getElem? found
    have kept := allCounted_set counted index { channel with closed := true }
      (counted channel present)
    split
    · exact .stayed rfl counted
    · dsimp only
      split
      · exact .stayed rfl kept
      · exact .left (slots_set_closed found) kept
      · exact .left (slots_set_closed found) kept

theorem onCommand_turn (cmd : ActorCtrlCmd) (missNow now : Nat) {w : SinkWorker M}
    (counted : w.AllCounted) : Turn w (w.onCommand cmd missNow now) := by
  unfold onCommand
  split
  · exact .stayed rfl counted
  · have routed : ∀ channel ∈ WorkChannel.obey cmd w.channels, channel.dispatcher.Counted := by
      unfold WorkChannel.obey
      split
      · intro channel member
        obtain ⟨before, present, rfl⟩ := List.mem_map.mp member
        exact SinkDispatcher.executeOne_counted _ (counted before present)
      · exact counted
    dsimp only
    split <;> exact .stayed rfl routed

theorem onFix_turn (handle : ASinkHandle) {w : SinkWorker M} (counted : w.AllCounted) :
    Turn w (w.onFix handle) := by
  have fixed := WorkChannel.procFix_counted handle w.channels counted
  unfold onFix
  split
  · exact .stayed rfl counted
  · split
    · exact .ended (leave_silent _ rfl _)
    · rename_i channels outcome
      rw [outcome] at fixed
      exact .stayed rfl fixed

theorem loopStep_turn (event : WorkEvent) {w : SinkWorker M} (counted : w.AllCounted) :
    Turn w (w.loopStep event) := by
  cases event with
  | package index package now => exact onPackage_turn index package now counted
  | closed index => exact onClosed_turn index counted
  | command cmd missNow now => exact onCommand_turn cmd missNow now counted
  | cmdClosed =>
    simp only [loopStep]
    split <;> exact .stayed rfl counted
  | fix handle => exact onFix_turn handle counted
  | statTick =>
    simp only [loopStep]
    split
    · refine forChannels_turn (WorkChannel.sendStat_keeps w.kind) id rfl counted ?_
      intro w₁ reports counted₁
      exact .stayed reports counted₁
    · exact .stayed rfl counted
  | flushTick =>
    simp only [loopStep]
    refine forChannels_turn WorkChannel.flush_keeps _ rfl counted ?_
    intro w₁ reports counted₁
    exact .stayed reports counted₁

theorem step_turn (event : WorkEvent) {w : SinkWorker M}
    (counted : (∃ result, w.phase = .ended result) ∨ w.AllCounted) : Turn w (w.step event) := by
  unfold step
  rcases counted with ⟨result, ended⟩ | counted
  · rw [ended]
    exact .ended ⟨⟨result, ended⟩, .inl rfl⟩
  · split
    · exact loopStep_turn event counted
    · exact .ended (finish_silent w)
    · exact .stayed rfl counted

/-- Until it ends, a worker's buffers hold what its inputs leave over. -/
theorem run_counted (events : List WorkEvent) (w : SinkWorker M) (counted : w.AllCounted) :
    (∃ result, (Runs.run SinkWorker.step w events).phase = .ended result) ∨
      (Runs.run SinkWorker.step w events).AllCounted := by
  refine Runs.run_invariant (fun w : SinkWorker M => (∃ result, w.phase = .ended result) ∨ w.AllCounted)
    events ?_ w (.inr counted)
  intro w event _ before
  cases step_turn event before with
  | stayed _ counted => exact .inr counted
  | left _ counted => exact .inr counted
  | ended silent => exact .inl silent.1

theorem start_counted (reporter : ReloadDrainReporter) (start : WorkStart M) :
    (start.worker reporter).AllCounted := by
  have fresh : ∀ group : GroupConf M, group.channel.dispatcher.Counted := by
    intro group slot member
    obtain ⟨conf, -, rfl⟩ := List.mem_map.mp member
    exact SinkState.hasFill_empty rfl _
  cases start with
  | sink group =>
    intro channel member
    rw [List.mem_singleton.mp member]
    exact fresh group
  | infra groups =>
    intro channel member
    simp only [WorkStart.worker, List.mem_cons, List.not_mem_nil, or_false] at member
    rcases member with rfl | rfl | rfl | rfl | rfl <;> exact fresh _

end SinkWorker

/-- Whenever a sink or infrastructure worker reports that it is drained, its buffers are all empty
    exactly if the inputs of each of its runtimes leave nothing over. -/
theorem drained_report_is_true_iff {M : Type} [DecidableEq M] (start : WorkStart M)
    (reporter : ReloadDrainReporter) (events : List WorkEvent) (event : WorkEvent)
    (report : ReloadDrainEvent)
    (sent : ((Runs.run SinkWorker.step (start.worker reporter) events).step event).reports =
      (Runs.run SinkWorker.step (start.worker reporter) events).reports ++ [report])
    (drained : report.outcome = .drained) :
    (∀ slot ∈ ((Runs.run SinkWorker.step (start.worker reporter) events).step event).slots,
        slot.state.rt.pendingRecords = []) ↔
      ∀ slot ∈ (Runs.run SinkWorker.step (start.worker reporter) events).slots,
        slot.fill.count = 0 := by
  have counted := SinkWorker.run_counted events (start.worker reporter)
    (SinkWorker.start_counted reporter start)
  generalize Runs.run SinkWorker.step (start.worker reporter) events = w at sent counted
  cases SinkWorker.step_turn event counted with
  | stayed reports _ =>
    rw [reports] at sent
    simp at sent
  | ended silent =>
    rcases silent.2 with reports | ⟨other, reports, aborted⟩
    · rw [reports] at sent
      simp at sent
    · rw [reports] at sent
      have same : other = report := by simpa using sent
      rw [same, drained] at aborted
      cases aborted
  | left slots counted =>
    rw [← slots]
    have each : ∀ slot ∈ (w.step event).slots,
        (slot.state.rt.pendingRecords = [] ↔ slot.fill.count = 0) := by
      intro slot member
      obtain ⟨channel, present, inside⟩ := List.mem_flatMap.mp member
      exact SinkSlot.counted_iff_empty (counted channel present slot inside)
    constructor
    · intro empty slot member
      exact (each slot member).mp (empty slot member)
    · intro settled slot member
      exact (each slot member).mpr (settled slot member)

section OneRecord

def plainDispatchEnv : DispatchEnv where
  transform _ _ records := records
  takeSummary _ _ := none
  sendError _ := .ok ()
  sendIngress _ := .ok ()
  hashOrder _ groups := groups
  hashOrder_perm _ groups := .refl groups

/-- A group of one sink with room for two records in its buffer. -/
def pairGroup : GroupConf PlainMeta where
  env := plainDispatchEnv
  name := "group"
  sinks := [⟨plainEnv (fun _ => false), { fileSinkConf with batchSize := 2 }, .real 7, none, true, []⟩]
  models := []
  globalTags := none

/-- One record, the stop command, the end of the channel. -/
theorem drained_report_with_a_buffered_record :
    let w := Runs.run SinkWorker.step
      ((WorkStart.sink pairGroup).worker (reloadReporter 1 .sink "work-sink"))
      [.package 0 [⟨1, .null, ⟨1, []⟩⟩] 0, .command (.stop .immediate) 0 0, .closed 0]
    w.reports = [⟨1, .sink, "work-sink", .drained⟩] ∧
      w.slots.map (fun slot => slot.state.rt.pendingRecords) = [[⟨1, []⟩]] := by
  decide

/-- The same with a flush tick before the end of the channel. -/
theorem drained_report_after_a_flush_tick :
    let w := Runs.run SinkWorker.step
      ((WorkStart.sink pairGroup).worker (reloadReporter 1 .sink "work-sink"))
      [.package 0 [⟨1, .null, ⟨1, []⟩⟩] 0, .command (.stop .immediate) 0 0, .flushTick]
    (w.step (.closed 0)).slots.all (fun slot => slot.state.rt.pendingRecords.isEmpty) = true := by
  have empty := (drained_report_is_true_iff (.sink pairGroup) (reloadReporter 1 .sink "work-sink")
    [.package 0 [⟨1, .null, ⟨1, []⟩⟩] 0, .command (.stop .immediate) 0 0, .flushTick] (.closed 0)
    ⟨1, .sink, "work-sink", .drained⟩ (by decide) rfl).mpr (by decide)
  intro w
  rw [List.all_eq_true]
  intro slot member
  rw [empty slot member]
  rfl

end OneRecord
end WarpMotor
