import Mathlib.Logic.Function.Basic
import WarpMotor.Parse.Batch

/-!
How a parse worker hands a parsed batch on: the missed events and the residues
to the infra sinks, then the records of each rule to one of the outputs of the
rule, the outputs taking turns. Clones of a pipeline share its outputs and its
counter. What the sinks answer is a list that every try consumes; where it
ends the worker still waits.
-/
namespace WarpMotor.Sender

inductive TrySendStatus where
  | sended
  | fulfilled
  | err (e : SinkError)

/-- Files, views and buffers are `other`. -/
inductive SinkTerminal where
  | channel
  | blackHole
  | other
  deriving DecidableEq

inductive InfraSink where
  | miss
  | residue
  deriving DecidableEq

/-- What the sinks have taken, and which outputs the counters chose. -/
structure SendWorld where
  answers : List TrySendStatus
  infra : List (InfraSink × SinkRecUnit)
  dealt : List (String × SinkRecUnit)
  sendRr : Nat → Nat
  choices : List (Nat × Nat)

def SendWorld.new (answers : List TrySendStatus) : SendWorld :=
  ⟨answers, [], [], fun _ => 0, []⟩

inductive SendStop where
  | failed
  | panicked
  | waiting

abbrev Sent := Except (SendStop × SendWorld) SendWorld

namespace Sent

def world : Sent → SendWorld
  | .ok w => w
  | .error (_, w) => w

/-- After an error the worker may go on with the next batch. -/
def recover : Sent → Sent
  | .error (.failed, w) => .ok w
  | result => result

end Sent

/-- The first answer that is not a full channel. -/
def settle : List TrySendStatus → Option TrySendStatus × List TrySendStatus
  | [] => (none, [])
  | .fulfilled :: rest => settle rest
  | answer :: rest => (some answer, rest)

variable (mode : RobustnessMode)

def handleTrySendStatus (e : SinkError) (w : SendWorld) : Sent :=
  match err4SendToSink mode e with
  | .fixRetry => .error (.failed, w)
  | .throw => .error (.failed, w)
  | .terminate => .ok w
  | .tolerant => .ok w
  | .ignore => .ok w

def forwardRawToInfra (w : SendWorld) (entry : InfraSink × SinkRecUnit) : Sent :=
  let settled := settle w.answers
  let later := { w with answers := settled.2 }
  match settled.1 with
  | none => .error (.waiting, later)
  | some (.err e) => handleTrySendStatus mode e later
  | some _ => .ok { later with infra := later.infra ++ [entry] }

/-- One try for each unit; with a full sink the worker pauses and leaves the unit out. -/
def tryEachUnit (w : SendWorld) (entry : String × SinkRecUnit) : Sent :=
  match w.answers with
  | [] => .error (.waiting, w)
  | .sended :: rest => .ok { w with answers := rest, dealt := w.dealt ++ [entry] }
  | .fulfilled :: rest => .ok { w with answers := rest }
  | .err e :: rest => handleTrySendStatus mode e { w with answers := rest }

/-- A closed channel is only logged. -/
def sinkBatch (entries : List (String × SinkRecUnit)) (w : SendWorld) : SinkTerminal → Sent
  | .channel =>
    let settled := settle w.answers
    let later := { w with answers := settled.2 }
    match settled.1 with
    | none => .error (.waiting, later)
    | some (.err _) => .ok later
    | some _ => .ok { later with dealt := later.dealt ++ entries }
  | .blackHole => .ok { w with dealt := w.dealt ++ entries }
  | .other => entries.foldlM (tryEachUnit mode) w

variable (outputs : Nat → List SinkTerminal)

/-- `next_output_index`; the counter wraps. -/
def SendWorld.roll (w : SendWorld) (pipeline : Nat) : SendWorld :=
  { w with
    sendRr := Function.update w.sendRr pipeline ((w.sendRr pipeline + 1) % (usizeMax + 1))
    choices := w.choices ++ [(pipeline, w.sendRr pipeline % (outputs pipeline).length)] }

/-- `update_meta` gives a record the name of its rule. -/
def named (key : String) (unit : SinkRecUnit) : String × SinkRecUnit :=
  (key, { unit with procMeta := .wplName key })

/-- The records of a rule, if there is a pipeline for it. -/
def ruleUnits (pipelines : List (String × Nat)) (group : String × SinkPackage) :
    List (String × SinkRecUnit) :=
  match pipelines.find? (·.1 = group.1) with
  | none => []
  | some _ => group.2.map (named group.1)

def sendToSinkGroup (pipelines : List (String × Nat)) (w : SendWorld)
    (group : String × SinkPackage) : Sent :=
  if group.2.isEmpty then .ok w
  else
    match pipelines.find? (·.1 = group.1) with
    | none => .ok w
    | some (_, pipeline) =>
      match (outputs pipeline)[w.sendRr pipeline % (outputs pipeline).length]? with
      | none => .error (.panicked, w.roll outputs pipeline)
      | some terminal =>
        sinkBatch mode (ruleUnits pipelines group) (w.roll outputs pipeline) terminal

def rawUnit (pkgId : Nat) (raw : String) : SinkRecUnit :=
  ⟨pkgId, .wplName "raw", ⟨0, [DataField.fromChars "raw" raw]⟩⟩

/-- A parsed batch, the pipelines in the order the worker has them in, and whether the sinks are to
    be left out. -/
structure Handover where
  skipSink : Bool
  pipelines : List (String × Nat)
  data : ParsedDatSet

variable (lossy : List UInt8 → String) (formatError : ParseFailInfo → String)

def missText (event : SourceEvent) (info : ParseFailInfo) : String :=
  let raw := match event.payload with
    | .string text => text
    | .bytes data => lossy data
    | .arcBytes data => lossy data
  "src_key: " ++ event.srcKey ++ "  | data:\n" ++ raw ++ "\n" ++ formatError info ++ "\n\n"

def missUnits (data : ParsedDatSet) : List (InfraSink × SinkRecUnit) :=
  data.missedPackets.map fun entry =>
    (.miss, rawUnit entry.1.eventId (missText lossy formatError entry.1 entry.2))

def residueUnits (data : ParsedDatSet) : List (InfraSink × SinkRecUnit) :=
  data.residueData.map fun entry => (.residue, rawUnit entry.1 entry.2)

def sendBatchedData (w : SendWorld) (h : Handover) : Sent := do
  let missed ← (missUnits lossy formatError h.data).foldlM (forwardRawToInfra mode) w
  let left ← (residueUnits h.data).foldlM (forwardRawToInfra mode) missed
  if h.skipSink then .ok left
  else h.data.sinkGroups.foldlM (sendToSinkGroup mode outputs h.pipelines) left

/-- The worker with one batch after the other, until it waits. -/
def runSends (w : SendWorld) (batches : List Handover) : Sent :=
  batches.foldlM (fun w h => Sent.recover (sendBatchedData mode outputs lossy formatError w h)) w

def infraUnits (h : Handover) : List (InfraSink × SinkRecUnit) :=
  missUnits lossy formatError h.data ++ residueUnits h.data

def groupUnits (h : Handover) : List (String × SinkRecUnit) :=
  if h.skipSink then [] else h.data.sinkGroups.flatMap (ruleUnits h.pipelines)

/-- No sink will be closed. -/
def SendWorld.Open (w : SendWorld) : Prop := ∀ e, TrySendStatus.err e ∉ w.answers

/-- The outputs of every pipeline have taken turns, as far as the counter goes. -/
def SendWorld.Turns (w : SendWorld) : Prop :=
  ∀ pipeline, ∃ n, w.sendRr pipeline = n % (usizeMax + 1) ∧
    (w.choices.filter (·.1 = pipeline)).map Prod.snd =
      (List.range n).map fun k => k % (usizeMax + 1) % (outputs pipeline).length

/-- No output is tried only once for a unit. -/
def Patient : Prop := ∀ pipeline, SinkTerminal.other ∉ outputs pipeline

/-- What of the units a step has handed on; all of them when no sink is closed. -/
structure Handed (raws : List (InfraSink × SinkRecUnit)) (units : List (String × SinkRecUnit))
    (w : SendWorld) (result : Sent) : Prop where
  infra : ∃ taken, (Sent.world result).infra = w.infra ++ taken ∧ taken.Sublist raws
  dealt : ∃ sent, (Sent.world result).dealt = w.dealt ++ sent ∧ sent.Sublist units
  answers : (Sent.world result).answers <:+ w.answers
  turns : w.Turns outputs → (Sent.world result).Turns outputs
  whole : ∀ t, result = .ok t → w.Open → Patient outputs →
    t.infra = w.infra ++ raws ∧ t.dealt = w.dealt ++ units
  fails : ∀ t, result = .error (.failed, t) → ¬ w.Open

theorem new_turns (answers : List TrySendStatus) : (SendWorld.new answers).Turns outputs :=
  fun _ => ⟨0, rfl, rfl⟩

variable {mode outputs lossy formatError}

theorem SendWorld.Open.later {w t : SendWorld} (isOpen : w.Open) (used : t.answers <:+ w.answers) :
    t.Open :=
  fun e member => isOpen e (used.subset member)

theorem Handed.took {raws : List (InfraSink × SinkRecUnit)} {units : List (String × SinkRecUnit)}
    {w t : SendWorld} (infra : t.infra = w.infra ++ raws) (dealt : t.dealt = w.dealt ++ units)
    (used : t.answers <:+ w.answers) (counters : t.sendRr = w.sendRr)
    (choices : t.choices = w.choices) : Handed outputs raws units w (.ok t) where
  infra := ⟨raws, infra, List.Sublist.refl _⟩
  dealt := ⟨units, dealt, List.Sublist.refl _⟩
  answers := used
  turns turns pipeline := by
    change ∃ n, t.sendRr pipeline = _ ∧ (t.choices.filter _).map _ = _
    rw [counters, choices]
    exact turns pipeline
  whole u same _ _ := by
    cases same
    exact ⟨infra, dealt⟩
  fails u stops := by cases stops

theorem Handed.nothing (w : SendWorld) : Handed outputs [] [] w (.ok w) :=
  .took (List.append_nil _).symm (List.append_nil _).symm List.suffix_rfl rfl rfl

theorem Handed.bind {raws raws' : List (InfraSink × SinkRecUnit)}
    {units units' : List (String × SinkRecUnit)} {w : SendWorld} {result : Sent}
    {next : SendWorld → Sent} (first : Handed outputs raws units w result)
    (second : ∀ t, result = .ok t → Handed outputs raws' units' t (next t)) :
    Handed outputs (raws ++ raws') (units ++ units') w (result >>= next) := by
  obtain ⟨taken, infra_eq, part⟩ := first.infra
  obtain ⟨sent, dealt_eq, some_units⟩ := first.dealt
  cases result with
  | error stop =>
    refine ⟨⟨taken, infra_eq, part.trans (List.sublist_append_left _ _)⟩,
      ⟨sent, dealt_eq, some_units.trans (List.sublist_append_left _ _)⟩, first.answers,
      first.turns, ?_, first.fails⟩
    intro t same
    cases same
  | ok u =>
    have after := second u rfl
    obtain ⟨taken', infra_eq', part'⟩ := after.infra
    obtain ⟨sent', dealt_eq', some_units'⟩ := after.dealt
    change u.infra = w.infra ++ taken at infra_eq
    change u.dealt = w.dealt ++ sent at dealt_eq
    have used : u.answers <:+ w.answers := first.answers
    change Handed outputs _ _ w (next u)
    refine ⟨⟨taken ++ taken', ?_, part.append part'⟩,
      ⟨sent ++ sent', ?_, some_units.append some_units'⟩, after.answers.trans used,
      fun turns => after.turns (first.turns turns), ?_, ?_⟩
    · rw [infra_eq', infra_eq, List.append_assoc]
    · rw [dealt_eq', dealt_eq, List.append_assoc]
    · intro t same isOpen patient
      obtain ⟨infra_all, dealt_all⟩ := first.whole u rfl isOpen patient
      obtain ⟨infra_rest, dealt_rest⟩ := after.whole t same (isOpen.later used) patient
      rw [infra_rest, dealt_rest, infra_all, dealt_all, List.append_assoc, List.append_assoc]
      exact ⟨rfl, rfl⟩
    · intro t stops isOpen
      exact after.fails t stops (isOpen.later used)

theorem flatMap_nothing {I A : Type*} (inputs : List I) :
    inputs.flatMap (fun _ => ([] : List A)) = [] :=
  List.flatMap_eq_nil_iff.mpr fun _ _ => rfl

theorem Handed.foldlM {I : Type*} {infraOf : I → List (InfraSink × SinkRecUnit)}
    {unitsOf : I → List (String × SinkRecUnit)} {step : SendWorld → I → Sent}
    (each : ∀ w i, Handed outputs (infraOf i) (unitsOf i) w (step w i)) (inputs : List I)
    (w : SendWorld) :
    Handed outputs (inputs.flatMap infraOf) (inputs.flatMap unitsOf) w (inputs.foldlM step w) := by
  induction inputs generalizing w with
  | nil => exact .nothing w
  | cons i rest ih =>
    rw [List.foldlM_cons, List.flatMap_cons, List.flatMap_cons]
    exact (each w i).bind fun t _ => ih t

theorem Handed.recover {raws : List (InfraSink × SinkRecUnit)}
    {units : List (String × SinkRecUnit)} {w : SendWorld} {result : Sent}
    (handed : Handed outputs raws units w result) :
    Handed outputs raws units w (Sent.recover result) := by
  cases result with
  | ok t => exact handed
  | error stop =>
    obtain ⟨stop, t⟩ := stop
    cases stop with
    | failed =>
      have closed := handed.fails t rfl
      exact ⟨handed.infra, handed.dealt, handed.answers, handed.turns,
        fun _ _ isOpen => absurd isOpen closed, fun _ stops => by cases stops⟩
    | panicked => exact handed
    | waiting => exact handed

/-- A step that only uses up answers, and either stops or has met a closed sink. -/
theorem Handed.unmoved {raws : List (InfraSink × SinkRecUnit)}
    {units : List (String × SinkRecUnit)} {w : SendWorld} {answers : List TrySendStatus}
    {result : Sent} (same : Sent.world result = { w with answers := answers })
    (used : answers <:+ w.answers)
    (whole : ∀ t, result = .ok t → w.Open → ¬ Patient outputs)
    (fails : ∀ t, result = .error (.failed, t) → ¬ w.Open) :
    Handed outputs raws units w result where
  infra := ⟨[], by rw [same, List.append_nil], List.nil_sublist _⟩
  dealt := ⟨[], by rw [same, List.append_nil], List.nil_sublist _⟩
  answers := by rwa [same]
  turns turns := by rwa [same]
  whole t ends isOpen patient := absurd patient (whole t ends isOpen)
  fails := fails

theorem settle_spec (answers : List TrySendStatus) :
    (settle answers).2 <:+ answers ∧
      ∀ answer, (settle answers).1 = some answer → answer ∈ answers := by
  induction answers with
  | nil => exact ⟨List.suffix_rfl, fun answer found => by cases found⟩
  | cons first rest ih =>
    cases first with
    | sended =>
      refine ⟨List.suffix_cons _ _, fun answer found => ?_⟩
      cases found
      exact List.mem_cons_self
    | fulfilled =>
      exact ⟨ih.1.trans (List.suffix_cons _ _),
        fun answer found => List.mem_cons_of_mem _ (ih.2 answer found)⟩
    | err e =>
      refine ⟨List.suffix_cons _ _, fun answer found => ?_⟩
      cases found
      exact List.mem_cons_self

theorem handle_handed {raws : List (InfraSink × SinkRecUnit)}
    {units : List (String × SinkRecUnit)} {w : SendWorld} {e : SinkError}
    {answers : List TrySendStatus} (used : answers <:+ w.answers) (met : .err e ∈ w.answers) :
    Handed outputs raws units w (handleTrySendStatus mode e { w with answers := answers }) := by
  have closed : ¬ w.Open := fun isOpen => isOpen e met
  apply Handed.unmoved ?_ used (fun _ _ isOpen => absurd isOpen closed) (fun _ _ => closed)
  unfold handleTrySendStatus
  split <;> rfl

variable (mode outputs)

theorem forwardRawToInfra_handed (w : SendWorld) (entry : InfraSink × SinkRecUnit) :
    Handed outputs [entry] [] w (forwardRawToInfra mode w entry) := by
  obtain ⟨used, answered⟩ := settle_spec w.answers
  unfold forwardRawToInfra
  generalize settle w.answers = settled at used answered ⊢
  obtain ⟨first, rest⟩ := settled
  have taken : Handed outputs [entry] [] w
      (.ok { w with answers := rest, infra := w.infra ++ [entry] }) :=
    .took rfl (List.append_nil _).symm used rfl rfl
  cases first with
  | none => exact .unmoved rfl used (fun t ends => by cases ends) (fun t stops => by cases stops)
  | some answer =>
    cases answer with
    | sended => exact taken
    | fulfilled => exact taken
    | err e => exact handle_handed used (answered _ rfl)

theorem tryEachUnit_handed {outputs : Nat → List SinkTerminal} (impatient : ¬ Patient outputs)
    (w : SendWorld) (entry : String × SinkRecUnit) :
    Handed outputs [] [entry] w (tryEachUnit mode w entry) := by
  unfold tryEachUnit
  cases had : w.answers with
  | nil =>
    exact .unmoved rfl (List.suffix_refl w.answers) (fun t ends => by cases ends)
      (fun t stops => by cases stops)
  | cons first rest =>
    have used : rest <:+ w.answers := had ▸ List.suffix_cons _ _
    cases first with
    | sended => exact .took (List.append_nil _).symm rfl used rfl rfl
    | fulfilled => exact .unmoved rfl used (fun _ _ _ => impatient) (fun t stops => by cases stops)
    | err e => exact handle_handed used (had ▸ List.mem_cons_self)

theorem sinkBatch_handed (entries : List (String × SinkRecUnit)) (w : SendWorld)
    {terminal : SinkTerminal} {pipeline : Nat} (among : terminal ∈ outputs pipeline) :
    Handed outputs [] entries w (sinkBatch mode entries w terminal) := by
  have taken : ∀ rest, rest <:+ w.answers → Handed outputs [] entries w
      (.ok { w with answers := rest, dealt := w.dealt ++ entries }) :=
    fun rest used => .took (List.append_nil _).symm rfl used rfl rfl
  cases terminal with
  | channel =>
    obtain ⟨used, answered⟩ := settle_spec w.answers
    unfold sinkBatch
    generalize settle w.answers = settled at used answered ⊢
    obtain ⟨first, rest⟩ := settled
    cases first with
    | none => exact .unmoved rfl used (fun t ends => by cases ends) (fun t stops => by cases stops)
    | some answer =>
      cases answer with
      | sended => exact taken rest used
      | fulfilled => exact taken rest used
      | err e =>
        have closed : ¬ w.Open := fun isOpen => isOpen e (answered _ rfl)
        exact .unmoved rfl used (fun _ _ isOpen => absurd isOpen closed) (fun _ _ => closed)
  | blackHole => exact taken w.answers List.suffix_rfl
  | other =>
    have impatient : ¬ Patient outputs := fun patient => patient pipeline among
    have each := Handed.foldlM (tryEachUnit_handed mode impatient) entries w
    rwa [flatMap_nothing, List.flatMap_singleton'] at each

theorem roll_turns {w : SendWorld} (turns : w.Turns outputs) (pipeline : Nat) :
    (w.roll outputs pipeline).Turns outputs := by
  intro other
  obtain ⟨n, count, chosen⟩ := turns other
  by_cases same : other = pipeline
  · subst same
    refine ⟨n + 1, ?_, ?_⟩
    · change Function.update w.sendRr other _ other = _
      rw [Function.update_self, count, Nat.mod_add_mod]
    · change ((w.choices ++ [_]).filter _).map _ = _
      rw [List.filter_append, List.map_append, chosen, List.range_succ, List.map_append]
      simp [count]
  · refine ⟨n, ?_, ?_⟩
    · change Function.update w.sendRr pipeline _ other = _
      rw [Function.update_of_ne same, count]
    · change ((w.choices ++ [_]).filter _).map _ = _
      rw [List.filter_append, List.map_append, chosen]
      simp [Ne.symm same]

/-- Only the counter and the choice are new after a roll. -/
theorem Handed.after_roll {raws : List (InfraSink × SinkRecUnit)}
    {units : List (String × SinkRecUnit)} {w : SendWorld} (pipeline : Nat) {result : Sent}
    (handed : Handed outputs raws units (w.roll outputs pipeline) result) :
    Handed outputs raws units w result :=
  ⟨handed.infra, handed.dealt, handed.answers,
    fun turns => handed.turns (roll_turns outputs turns pipeline), handed.whole, handed.fails⟩

theorem sendToSinkGroup_handed (pipelines : List (String × Nat)) (w : SendWorld)
    (group : String × SinkPackage) :
    Handed outputs [] (ruleUnits pipelines group) w
      (sendToSinkGroup mode outputs pipelines w group) := by
  unfold sendToSinkGroup
  by_cases empty : group.2.isEmpty
  · rw [if_pos empty]
    have none_there : ruleUnits pipelines group = [] := by
      unfold ruleUnits
      rw [List.isEmpty_iff.mp empty]
      split <;> rfl
    rw [none_there]
    exact .nothing w
  · rw [if_neg empty]
    cases found : pipelines.find? (·.1 = group.1) with
    | none =>
      have unknown : ruleUnits pipelines group = [] := by
        unfold ruleUnits
        rw [found]
      rw [unknown]
      exact .nothing w
    | some rule =>
      obtain ⟨key, pipeline⟩ := rule
      dsimp only
      cases chosen : (outputs pipeline)[w.sendRr pipeline % (outputs pipeline).length]? with
      | none =>
        apply Handed.after_roll outputs pipeline
        exact .unmoved rfl (List.suffix_refl w.answers) (fun t ends => by cases ends)
          (fun t stops => by cases stops)
      | some terminal =>
        apply Handed.after_roll outputs pipeline
        exact sinkBatch_handed mode outputs _ _ (List.mem_of_getElem? chosen)

theorem sendBatchedData_handed (w : SendWorld) (h : Handover) :
    Handed outputs (infraUnits lossy formatError h) (groupUnits h) w
      (sendBatchedData mode outputs lossy formatError w h) := by
  have forwards : ∀ (units : List (InfraSink × SinkRecUnit)) w,
      Handed outputs units [] w (units.foldlM (forwardRawToInfra mode) w) := by
    intro units w
    have each := Handed.foldlM
      (forwardRawToInfra_handed mode outputs) units w
    rwa [flatMap_nothing, List.flatMap_singleton'] at each
  have groups : ∀ w, Handed outputs [] (groupUnits h) w
      (if h.skipSink then .ok w
        else h.data.sinkGroups.foldlM (sendToSinkGroup mode outputs h.pipelines) w) := by
    intro w
    unfold groupUnits
    split
    · exact .nothing w
    · have each := Handed.foldlM
        (sendToSinkGroup_handed mode outputs h.pipelines)
        h.data.sinkGroups w
      rwa [flatMap_nothing] at each
  have parts := (forwards (missUnits lossy formatError h.data) w).bind fun t _ =>
    (forwards (residueUnits h.data) t).bind fun u _ => groups u
  rw [List.append_nil] at parts
  exact parts

variable (lossy formatError)

/-- The infra sinks and the outputs take what they are sent once at most and in the order of the
    batches, and all of it when the worker comes to the end and no sink was closed. -/
theorem runSends_handed (w : SendWorld) (batches : List Handover) :
    Handed outputs (batches.flatMap (infraUnits lossy formatError)) (batches.flatMap groupUnits) w
      (runSends mode outputs lossy formatError w batches) :=
  Handed.foldlM (fun w h => (sendBatchedData_handed mode outputs w h).recover) batches w

section Parsed
open SinkDispatcher (held)
variable {Progress : Type} (api : ParserApi Progress) (setting : ParseOption)

/-- A worker parses batches, and puts its pipelines into another order now and then. -/
inductive WorkerInput where
  | batch (skipSink : Bool) (events : SourceBatch)
  | optimized

/-- `proc_batch`, batch after batch. -/
def handovers : MultiParser Progress → List WorkerInput → List Handover
  | _, [] => []
  | mp, .batch skipSink events :: rest =>
    let parsed := batchParsePackage api setting events mp ⟨[], [], []⟩
    if events.isEmpty then handovers mp rest
    else
      ⟨skipSink, parsed.2.pipelines.map fun p => (p.wplKey, p.index), parsed.1⟩ ::
        handovers parsed.2 rest
  | mp, .optimized :: rest => handovers mp.optimized rest

/-- The events of every batch with their results. -/
def parsedBatches : MultiParser Progress → List WorkerInput →
    List (Bool × List (SourceEvent × ProcessResult))
  | _, [] => []
  | mp, .batch skipSink events :: rest =>
    (skipSink, parseEach api setting events mp) ::
      parsedBatches (batchParsePackage api setting events mp ⟨[], [], []⟩).2 rest
  | mp, .optimized :: rest => parsedBatches mp.optimized rest

/-- What a batch brings the infra sinks: its misses, then its residues. -/
def rawsOf (batch : Bool × List (SourceEvent × ProcessResult)) :
    List (InfraSink × SinkRecUnit) :=
  (batch.2.flatMap missedPacket).map (fun entry =>
    (.miss, rawUnit entry.1.eventId (missText lossy formatError entry.1 entry.2))) ++
  (batch.2.flatMap residueEntry).map (fun entry => (.residue, rawUnit entry.1 entry.2))

/-- What a batch brings the outputs of a rule. -/
def unitsOf (known : Bool) (key : String) (batch : Bool × List (SourceEvent × ProcessResult)) :
    List (String × SinkRecUnit) :=
  if batch.1 = true ∨ known = false then []
  else (batch.2.flatMap (unitsUnder key)).map (named key)

/-- There is a pipeline for the rule. -/
def knows (mp : MultiParser Progress) (key : String) : Bool :=
  mp.pipelines.any (·.wplKey = key)

theorem knows_rulesOf (mp : MultiParser Progress) (key : String) :
    knows mp key = (rulesOf mp.pipelines).any (·.wplKey = key) := by
  unfold knows rulesOf
  rw [List.any_map]
  rfl

theorem batchParsePackage_rules (events : SourceBatch) (mp : MultiParser Progress)
    (out : ParsedDatSet) :
    rulesOf (batchParsePackage api setting events mp out).2.pipelines = rulesOf mp.pipelines := by
  induction events generalizing mp out with
  | nil => rfl
  | cons event rest ih =>
    have same : rulesOf (mp.parseEvent api event setting).2.pipelines = rulesOf mp.pipelines :=
      parseEvent_rules api event mp
    unfold batchParsePackage
    split
    · rename_i parsed
      rw [parsed] at same
      rw [ih, same]
    · rename_i parsed
      rw [parsed] at same
      rw [ih, same]
    · rename_i parsed
      rw [parsed] at same
      split
      · rw [ih, same]
      · rw [ih, same]

theorem knows_optimized (api : ParserApi Progress) (mp : MultiParser Progress) (key : String) :
    knows mp.optimized key = knows mp key := by
  have moved := step_rules api mp .optimize
  rw [knows_rulesOf, knows_rulesOf]
  exact moved.any_eq

theorem held_absent {key : String} {groups : List (String × SinkPackage)}
    (absent : key ∉ groups.map Prod.fst) : held key groups = [] := by
  induction groups with
  | nil => rfl
  | cons group rest ih =>
    obtain ⟨name, units⟩ := group
    rw [List.map_cons, List.mem_cons, not_or] at absent
    have later := ih absent.2
    simp only [held, takeEntry, Ne.symm absent.1, if_false] at later ⊢
    exact later

theorem ruleUnits_under (pipelines : List (String × Nat)) (key : String)
    {groups : List (String × SinkPackage)} (distinct : (groups.map Prod.fst).Nodup) :
    (groups.flatMap (ruleUnits pipelines)).filter (·.1 = key) =
      if (pipelines.find? (·.1 = key)).isSome then (held key groups).map (named key) else [] := by
  induction groups with
  | nil => split <;> rfl
  | cons group rest ih =>
    obtain ⟨name, units⟩ := group
    rw [List.map_cons, List.nodup_cons] at distinct
    rw [List.flatMap_cons, List.filter_append, ih distinct.2]
    by_cases same : name = key
    · subst same
      have rest_empty := held_absent distinct.1
      have own : held name ((name, units) :: rest) = units := by simp [held, takeEntry]
      rw [rest_empty, own]
      cases found : pipelines.find? (·.1 = name) with
      | none => simp [ruleUnits, found]
      | some _ => simp [ruleUnits, found, named]
    · have own : held key ((name, units) :: rest) = held key rest := by
        simp [held, takeEntry, same]
      have other : (ruleUnits pipelines (name, units)).filter (·.1 = key) = [] := by
        rw [List.filter_eq_nil_iff]
        intro entry member
        unfold ruleUnits at member
        split at member
        · cases member
        · obtain ⟨unit, _, rfl⟩ := List.mem_map.mp member
          simp [named, same]
      rw [other, own, List.nil_append]

theorem handovers_infra (mp : MultiParser Progress) (inputs : List WorkerInput) :
    (handovers api setting mp inputs).flatMap (infraUnits lossy formatError) =
      (parsedBatches api setting mp inputs).flatMap (rawsOf lossy formatError) := by
  induction inputs generalizing mp with
  | nil => rfl
  | cons input rest ih =>
    cases input with
    | optimized => exact ih mp.optimized
    | batch skipSink events =>
      unfold handovers parsedBatches
      dsimp only
      by_cases none_there : events.isEmpty
      · have nothing := List.isEmpty_iff.mp none_there
        subst nothing
        rw [if_pos none_there, ih, List.flatMap_cons]
        rfl
      · have split := batch_partitioned api setting events mp
        rw [if_neg none_there, List.flatMap_cons, List.flatMap_cons, ih]
        congr 1
        unfold infraUnits missUnits residueUnits rawsOf
        rw [split.missed, split.residues]

theorem handovers_units (key : String) (mp : MultiParser Progress) (inputs : List WorkerInput) :
    ((handovers api setting mp inputs).flatMap groupUnits).filter (·.1 = key) =
      (parsedBatches api setting mp inputs).flatMap (unitsOf (knows mp key) key) := by
  induction inputs generalizing mp with
  | nil => rfl
  | cons input rest ih =>
    cases input with
    | optimized =>
      rw [← knows_optimized api mp key]
      exact ih mp.optimized
    | batch skipSink events =>
      have rules := batchParsePackage_rules api setting events mp ⟨[], [], []⟩
      have still : knows (batchParsePackage api setting events mp ⟨[], [], []⟩).2 key =
          knows mp key := by
        rw [knows_rulesOf, knows_rulesOf, rules]
      unfold handovers parsedBatches
      dsimp only
      by_cases none_there : events.isEmpty
      · have nothing := List.isEmpty_iff.mp none_there
        subst nothing
        rw [if_pos none_there, ih, List.flatMap_cons]
        unfold unitsOf
        simp [parseEach, batchParsePackage]
      · have split := batch_partitioned api setting events mp
        rw [if_neg none_there, List.flatMap_cons, List.filter_append, List.flatMap_cons, ih, still]
        congr 1
        unfold groupUnits unitsOf
        cases skipSink with
        | true => rfl
        | false =>
          have found : (((batchParsePackage api setting events mp ⟨[], [], []⟩).2.pipelines.map
              fun p => (p.wplKey, p.index)).find? (·.1 = key)).isSome = knows mp key := by
            rw [← still, Bool.eq_iff_iff, List.find?_isSome, ← List.any_eq_true, List.any_map]
            rfl
          simp only [Bool.false_eq_true, if_false, false_or]
          rw [ruleUnits_under _ _ split.keys, found, split.groups]
          cases knows mp key <;> rfl

/-- Two batches of a rule with two outputs; the second waits for room once. -/
example :
    let batch : Handover := ⟨false, [("rule", 0)], ⟨[("rule", [rawUnit 1 "a"])], [], []⟩⟩
    (Sent.world (runSends .normal (fun _ => [.channel, .channel]) (fun _ => "") (fun _ => "")
      (.new [.sended, .fulfilled, .sended]) [batch, batch])).choices = [(0, 0), (0, 1)] := by
  decide

end Parsed

end WarpMotor.Sender
