import Mathlib.Data.List.Nodup
import WarpMotor.Lib.Runs

/-!
Reload requests on the runtime command channel. Clients check that the engine
is ready, take the reload permit, mark the status record and send the command;
the engine takes a command, marks it running, finishes it and replies. Each
access to the record, the permit or the queue is one step, and steps of all
parties interleave freely. `LoadModel` is the only command, so every command
carries the permit. A request is told apart from the others by its ticket;
request ids are free text and may coincide. `accepted`, `responses` and
`refusals` are histories.
-/
namespace WarpMotor

inductive RuntimeCommandResult where
  | reloadDone
  | reloadDoneWithForceReplace
  | reloadFailed (reason : String)
  deriving DecidableEq, Repr

inductive RuntimeCommandSendError where
  | runtimeNotReady | reloadBusy | channelClosed
  deriving DecidableEq, Repr

structure RuntimeStatusSnapshot where
  acceptingCommands : Bool
  reloading : Bool
  currentRequestId : Option String
  lastReloadRequestId : Option String
  lastReloadResult : Option RuntimeCommandResult
  lastReloadStartedAt : Option Nat
  lastReloadFinishedAt : Option Nat
  deriving DecidableEq, Repr

structure RuntimeControlState where
  acceptingCommands : Bool
  currentRequestId : Option String
  lastReloadRequestId : Option String
  lastReloadResult : Option RuntimeCommandResult
  lastReloadStartedAt : Option Nat
  lastReloadFinishedAt : Option Nat
  deriving DecidableEq, Repr

namespace RuntimeControlState

def default : RuntimeControlState := ⟨false, none, none, none, none, none⟩

def snapshot (s : RuntimeControlState) : RuntimeStatusSnapshot :=
  { acceptingCommands := s.acceptingCommands
    reloading := s.currentRequestId.isSome
    currentRequestId := s.currentRequestId
    lastReloadRequestId := s.lastReloadRequestId
    lastReloadResult := s.lastReloadResult
    lastReloadStartedAt := s.lastReloadStartedAt
    lastReloadFinishedAt := s.lastReloadFinishedAt }

def markReloadSubmitted (s : RuntimeControlState) (requestId : String) (now : Nat) :
    RuntimeControlState :=
  { s with
    currentRequestId := some requestId
    lastReloadStartedAt := some now
    lastReloadFinishedAt := none }

def markReloadRunning (s : RuntimeControlState) (requestId : String) (now : Nat) :
    RuntimeControlState :=
  if s.currentRequestId ≠ some requestId then
    { s with
      currentRequestId := some requestId
      lastReloadStartedAt := some now
      lastReloadFinishedAt := none }
  else s

def finishReload (s : RuntimeControlState) (requestId : String) (result : RuntimeCommandResult)
    (now : Nat) : RuntimeControlState :=
  { s with
    currentRequestId := none
    lastReloadRequestId := some requestId
    lastReloadResult := some result
    lastReloadFinishedAt := some now }

/-- The times are cleared, not put back. -/
def rollbackReloadSubmission (s : RuntimeControlState) (requestId : String) : RuntimeControlState :=
  if s.currentRequestId = some requestId then
    { s with currentRequestId := none, lastReloadStartedAt := none, lastReloadFinishedAt := none }
  else s

end RuntimeControlState

structure RuntimeCommandReq where
  ticket : Nat
  requestId : String
  deriving DecidableEq, Repr

structure RuntimeCommandResp where
  requestId : String
  accepted : Bool
  result : RuntimeCommandResult
  deriving DecidableEq, Repr

/-- Where a call of `request` stands; `before` is the record its submission overwrote. -/
inductive RequestPc where
  | idle
  | ready (requestId : String)
  | permitted (requestId : String)
  | submitted (requestId : String) (before : RuntimeControlState)
  | rolledBack
  | accepted
  | refused (error : RuntimeCommandSendError)
  deriving DecidableEq, Repr

/-- Where the engine stands with the command it has taken. -/
inductive EnginePc where
  | idle
  | taken (req : RuntimeCommandReq)
  | running (req : RuntimeCommandReq)
  | finished (req : RuntimeCommandReq) (result : RuntimeCommandResult)
  | replied (req : RuntimeCommandReq)
  deriving DecidableEq, Repr

/-- A request that returned an error: the status without it and the status it left. The readiness
    flag is not a request's to change and is taken as it is at the end. -/
structure Refusal where
  ticket : Nat
  error : RuntimeCommandSendError
  before : RuntimeStatusSnapshot
  after : RuntimeStatusSnapshot
  deriving DecidableEq, Repr

structure ControlWorld where
  state : RuntimeControlState
  permitFree : Bool
  queue : List RuntimeCommandReq
  engine : EnginePc
  requests : Nat → RequestPc
  accepted : List (Nat × String)
  responses : List (Nat × RuntimeCommandResp)
  refusals : List Refusal

inductive ControlStep where
  | check (ticket : Nat) (requestId : String)
  | acquire (ticket : Nat)
  | submit (ticket : Nat) (now : Nat)
  | sendOk (ticket : Nat)
  | sendFails (ticket : Nat)
  | dropPermit (ticket : Nat)
  | take
  | markRunning (now : Nat)
  | finish (result : RuntimeCommandResult) (now : Nat)
  | reply
  | dropCommand
  | activate
  | deactivate
  deriving DecidableEq, Repr

namespace ControlWorld

def start : ControlWorld :=
  { state := RuntimeControlState.default, permitFree := true, queue := [], engine := .idle
    requests := fun _ => .idle, accepted := [], responses := [], refusals := [] }

def setPc (w : ControlWorld) (ticket : Nat) (pc : RequestPc) : ControlWorld :=
  { w with requests := fun t => if t = ticket then pc else w.requests t }

/-- A refusal by a step that leaves the record as it is. -/
def refuse (w : ControlWorld) (ticket : Nat) (error : RuntimeCommandSendError) : ControlWorld :=
  { w.setPc ticket (.refused error) with
    refusals := w.refusals ++ [⟨ticket, error, w.state.snapshot, w.state.snapshot⟩] }

/-- One step; a step that is not the party's next one changes nothing. -/
def step (w : ControlWorld) : ControlStep → ControlWorld
  | .check ticket requestId =>
    match w.requests ticket with
    | .idle =>
      if w.state.acceptingCommands then w.setPc ticket (.ready requestId)
      else w.refuse ticket .runtimeNotReady
    | _ => w
  | .acquire ticket =>
    match w.requests ticket with
    | .ready requestId =>
      if w.permitFree then { w.setPc ticket (.permitted requestId) with permitFree := false }
      else w.refuse ticket .reloadBusy
    | _ => w
  | .submit ticket now =>
    match w.requests ticket with
    | .permitted requestId =>
      { w.setPc ticket (.submitted requestId w.state) with
        state := w.state.markReloadSubmitted requestId now }
    | _ => w
  | .sendOk ticket =>
    match w.requests ticket with
    | .submitted requestId _ =>
      { w.setPc ticket .accepted with
        queue := w.queue ++ [⟨ticket, requestId⟩]
        accepted := w.accepted ++ [(ticket, requestId)] }
    | _ => w
  | .sendFails ticket =>
    match w.requests ticket with
    | .submitted requestId before =>
      let state := w.state.rollbackReloadSubmission requestId
      { w.setPc ticket .rolledBack with
        state
        refusals := w.refusals ++ [⟨ticket, .channelClosed,
          { before with acceptingCommands := state.acceptingCommands }.snapshot, state.snapshot⟩] }
    | _ => w
  | .dropPermit ticket =>
    match w.requests ticket with
    | .rolledBack => { w.setPc ticket (.refused .channelClosed) with permitFree := true }
    | _ => w
  | .take =>
    match w.engine, w.queue with
    | .idle, req :: queue => { w with engine := .taken req, queue }
    | _, _ => w
  | .markRunning now =>
    match w.engine with
    | .taken req =>
      { w with engine := .running req, state := w.state.markReloadRunning req.requestId now }
    | _ => w
  | .finish result now =>
    match w.engine with
    | .running req =>
      { w with
        engine := .finished req result
        state := w.state.finishReload req.requestId result now }
    | _ => w
  | .reply =>
    match w.engine with
    | .finished req result =>
      { w with
        engine := .replied req
        responses := w.responses ++ [(req.ticket, ⟨req.requestId, true, result⟩)] }
    | _ => w
  | .dropCommand =>
    match w.engine with
    | .replied _ => { w with engine := .idle, permitFree := true }
    | _ => w
  | .activate => { w with state := { w.state with acceptingCommands := true } }
  | .deactivate => { w with state := { w.state with acceptingCommands := false } }

end ControlWorld

def RequestPc.holds : RequestPc → Bool
  | .permitted _ => true
  | .submitted _ _ => true
  | .rolledBack => true
  | _ => false

/-- The command the engine has taken and not yet dropped. -/
def EnginePc.command : EnginePc → Option RuntimeCommandReq
  | .idle => none
  | .taken req => some req
  | .running req => some req
  | .finished req _ => some req
  | .replied req => some req

/-- The command the engine has not answered yet. -/
def EnginePc.unanswered : EnginePc → Option RuntimeCommandReq
  | .taken req => some req
  | .running req => some req
  | .finished req _ => some req
  | _ => none

/-- A status record while one request waits for its send: only its own fields differ from the
    record before. -/
structure Submitted (state before : RuntimeControlState) (requestId : String) : Prop where
  current : state.currentRequestId = some requestId
  was_free : before.currentRequestId = none
  same_id : state.lastReloadRequestId = before.lastReloadRequestId
  same_result : state.lastReloadResult = before.lastReloadResult

namespace ControlWorld

/-- Who holds the permit: nobody, one request before its send, or one command. -/
inductive Phase (w : ControlWorld) : Prop where
  | free (permit : w.permitFree = true) (nobody : ∀ t, (w.requests t).holds = false)
      (queue : w.queue = []) (engine : w.engine = .idle)
      (current : w.state.currentRequestId = none)
  | client (t : Nat) (permit : w.permitFree = false)
      (others : ∀ u, u ≠ t → (w.requests u).holds = false)
      (queue : w.queue = []) (engine : w.engine = .idle)
      (record : ((∃ id, w.requests t = .permitted id) ∨ w.requests t = .rolledBack) ∧
          w.state.currentRequestId = none ∨
        ∃ id before, w.requests t = .submitted id before ∧ Submitted w.state before id)
  | command (req : RuntimeCommandReq) (permit : w.permitFree = false)
      (nobody : ∀ t, (w.requests t).holds = false)
      (place : (w.queue = [req] ∧ w.engine = .idle ∨
            w.queue = [] ∧ (w.engine = .taken req ∨ w.engine = .running req)) ∧
          w.state.currentRequestId = some req.requestId ∨
        w.queue = [] ∧ ((∃ result, w.engine = .finished req result) ∨ w.engine = .replied req) ∧
          w.state.currentRequestId = none)

section Steps
variable {w : ControlWorld}

@[simp] theorem setPc_same (t : Nat) (pc : RequestPc) : (w.setPc t pc).requests t = pc := by
  simp [setPc]

theorem setPc_other {t u : Nat} (pc : RequestPc) (differs : u ≠ t) :
    (w.setPc t pc).requests u = w.requests u := by
  simp [setPc, differs]

/-- Other requests than the one that moves are not touched. -/
theorem setPc_others {t : Nat} (others : ∀ u, u ≠ t → (w.requests u).holds = false)
    (pc : RequestPc) : ∀ u, u ≠ t → ((w.setPc t pc).requests u).holds = false := by
  intro u differs
  rw [setPc_other pc differs]
  exact others u differs

theorem setPc_nobody {t : Nat} (others : ∀ u, u ≠ t → (w.requests u).holds = false)
    {pc : RequestPc} (released : pc.holds = false) :
    ∀ u, ((w.setPc t pc).requests u).holds = false := by
  intro u
  by_cases same : u = t
  · subst same
    rw [setPc_same]
    exact released
  · exact setPc_others others pc u same

theorem setPc_quiet {t : Nat} {pc : RequestPc} (idle : (w.requests t).holds = false)
    (next : pc.holds = false) (u : Nat) :
    (w.setPc t pc).requests u = w.requests u ∨
      ((w.requests u).holds = false ∧ ((w.setPc t pc).requests u).holds = false) := by
  by_cases same : u = t
  · subst same
    rw [setPc_same]
    exact Or.inr ⟨idle, next⟩
  · exact Or.inl (setPc_other pc same)

/-- The request that holds the permit is the one of the phase. -/
theorem Phase.of_holder {t : Nat} (phase : w.Phase) (holds : (w.requests t).holds = true) :
    w.permitFree = false ∧ (∀ u, u ≠ t → (w.requests u).holds = false) ∧ w.queue = [] ∧
      w.engine = .idle ∧
      (((∃ id, w.requests t = .permitted id) ∨ w.requests t = .rolledBack) ∧
          w.state.currentRequestId = none ∨
        ∃ id before, w.requests t = .submitted id before ∧ Submitted w.state before id) := by
  cases phase with
  | free permit nobody queue engine current =>
    rw [nobody t] at holds
    cases holds
  | client u permit others queue engine record =>
    by_cases same : t = u
    · subst same
      exact ⟨permit, others, queue, engine, record⟩
    · rw [others t same] at holds
      cases holds
  | command req permit nobody place =>
    rw [nobody t] at holds
    cases holds

/-- A request that has marked the record stands alone with its mark. -/
theorem Phase.of_submitted {t : Nat} {id : String} {before : RuntimeControlState} (phase : w.Phase)
    (pc : w.requests t = .submitted id before) :
    w.permitFree = false ∧ (∀ u, u ≠ t → (w.requests u).holds = false) ∧ w.queue = [] ∧
      w.engine = .idle ∧ Submitted w.state before id := by
  have holds : (w.requests t).holds = true := by rw [pc]; rfl
  obtain ⟨permit, others, queue, engine, record⟩ := phase.of_holder holds
  refine ⟨permit, others, queue, engine, ?_⟩
  rcases record with ⟨⟨id', other⟩ | other, -⟩ | ⟨id', before', other, submitted⟩
  all_goals
    rw [pc] at other
    cases other
  exact submitted

/-- A request with the permit and no mark finds the record free. -/
theorem Phase.of_unmarked {t : Nat} (phase : w.Phase)
    (pc : (∃ id, w.requests t = .permitted id) ∨ w.requests t = .rolledBack) :
    (∀ u, u ≠ t → (w.requests u).holds = false) ∧ w.permitFree = false ∧ w.queue = [] ∧
      w.engine = .idle ∧ w.state.currentRequestId = none := by
  have holds : (w.requests t).holds = true := by
    rcases pc with ⟨id, pc⟩ | pc
    · rw [pc]; rfl
    · rw [pc]; rfl
  obtain ⟨permit, others, queue, engine, record⟩ := phase.of_holder holds
  refine ⟨others, permit, queue, engine, ?_⟩
  rcases record with ⟨-, current⟩ | ⟨id, before, submitted, -⟩
  · exact current
  · rcases pc with ⟨id', pc⟩ | pc
    all_goals
      rw [pc] at submitted
      cases submitted

/-- The engine's command is the one of the phase. -/
theorem Phase.of_command (phase : w.Phase) (req : RuntimeCommandReq)
    (busy : w.engine.command = some req) :
    w.permitFree = false ∧ (∀ t, (w.requests t).holds = false) ∧ w.queue = [] ∧
      ((w.engine = .taken req ∨ w.engine = .running req) ∧
          w.state.currentRequestId = some req.requestId ∨
        ((∃ result, w.engine = .finished req result) ∨ w.engine = .replied req) ∧
          w.state.currentRequestId = none) := by
  cases phase with
  | free permit nobody queue engine current =>
    rw [engine] at busy
    cases busy
  | client t permit others queue engine record =>
    rw [engine] at busy
    cases busy
  | command other permit nobody place =>
    refine ⟨permit, nobody, ?_⟩
    rcases place with ⟨⟨-, engine⟩ | ⟨queue, engine | engine⟩, current⟩ |
      ⟨queue, ⟨result, engine⟩ | engine, current⟩
    · rw [engine] at busy
      cases busy
    all_goals
      rw [engine] at busy
      cases busy
    · exact ⟨queue, Or.inl ⟨Or.inl engine, current⟩⟩
    · exact ⟨queue, Or.inl ⟨Or.inr engine, current⟩⟩
    · exact ⟨queue, Or.inr ⟨Or.inl ⟨result, engine⟩, current⟩⟩
    · exact ⟨queue, Or.inr ⟨Or.inr engine, current⟩⟩

theorem Phase.of_done (phase : w.Phase) (req : RuntimeCommandReq)
    (done : (∃ result, w.engine = .finished req result) ∨ w.engine = .replied req) :
    w.permitFree = false ∧ (∀ t, (w.requests t).holds = false) ∧ w.queue = [] ∧
      w.state.currentRequestId = none := by
  have busy : w.engine.command = some req := by
    rcases done with ⟨result, engine⟩ | engine <;> rw [engine] <;> rfl
  obtain ⟨permit, nobody, queue, ⟨other, -⟩ | ⟨-, current⟩⟩ := phase.of_command req busy
  · rcases done with ⟨result, engine⟩ | engine
    all_goals
      rw [engine] at other
      rcases other with taken | running
      · cases taken
      · cases running
  · exact ⟨permit, nobody, queue, current⟩

/-- A change of requests that neither held the permit before nor hold it after. -/
theorem Phase.of_quiet {w' : ControlWorld} (phase : w.Phase) (permit : w'.permitFree = w.permitFree)
    (queue : w'.queue = w.queue) (engine : w'.engine = w.engine)
    (current : w'.state.currentRequestId = w.state.currentRequestId)
    (same_id : w'.state.lastReloadRequestId = w.state.lastReloadRequestId)
    (same_result : w'.state.lastReloadResult = w.state.lastReloadResult)
    (requests : ∀ t, w'.requests t = w.requests t ∨
      ((w.requests t).holds = false ∧ (w'.requests t).holds = false)) : w'.Phase := by
  have quiet : ∀ t, (w.requests t).holds = false → (w'.requests t).holds = false := by
    intro t none_held
    rcases requests t with same | ⟨-, none_held'⟩
    · rw [same]
      exact none_held
    · exact none_held'
  have kept : ∀ t, (w.requests t).holds = true → w'.requests t = w.requests t := by
    intro t held
    rcases requests t with same | ⟨none_held, -⟩
    · exact same
    · rw [held] at none_held
      cases none_held
  cases phase with
  | free p n q e c =>
    exact .free (permit.trans p) (fun t => quiet t (n t)) (queue.trans q) (engine.trans e)
      (current.trans c)
  | client t p others q e record =>
    refine .client t (permit.trans p) (fun u differs => quiet u (others u differs))
      (queue.trans q) (engine.trans e) ?_
    rcases record with ⟨⟨id, pc⟩ | pc, c⟩ | ⟨id, before, pc, submitted⟩
    · rw [kept t (by rw [pc]; rfl)]
      exact Or.inl ⟨Or.inl ⟨id, pc⟩, current.trans c⟩
    · rw [kept t (by rw [pc]; rfl)]
      exact Or.inl ⟨Or.inr pc, current.trans c⟩
    · rw [kept t (by rw [pc]; rfl)]
      exact Or.inr ⟨id, before, pc, current.trans submitted.current, submitted.was_free,
        same_id.trans submitted.same_id, same_result.trans submitted.same_result⟩
  | command req p n place =>
    refine .command req (permit.trans p) (fun t => quiet t (n t)) ?_
    rw [queue, engine, current]
    exact place

theorem check_phase (phase : w.Phase) (ticket : Nat) (requestId : String) :
    (w.step (.check ticket requestId)).Phase := by
  dsimp only [step]
  split
  · rename_i pc
    have idle : (w.requests ticket).holds = false := by rw [pc]; rfl
    split
    · exact phase.of_quiet rfl rfl rfl rfl rfl rfl (setPc_quiet idle rfl)
    · exact phase.of_quiet rfl rfl rfl rfl rfl rfl (setPc_quiet idle rfl)
  · exact phase

theorem acquire_phase (phase : w.Phase) (ticket : Nat) : (w.step (.acquire ticket)).Phase := by
  dsimp only [step]
  split
  · rename_i requestId pc
    have idle : (w.requests ticket).holds = false := by rw [pc]; rfl
    split
    · rename_i permit
      cases phase with
      | free _ nobody queue engine current =>
        exact .client ticket rfl (setPc_others (fun u _ => nobody u) _) queue engine
          (Or.inl ⟨Or.inl ⟨requestId, setPc_same ..⟩, current⟩)
      | client t taken others queue engine record =>
        rw [permit] at taken
        cases taken
      | command req taken nobody place =>
        rw [permit] at taken
        cases taken
    · exact phase.of_quiet rfl rfl rfl rfl rfl rfl (setPc_quiet idle rfl)
  · exact phase

theorem submit_phase (phase : w.Phase) (ticket now : Nat) : (w.step (.submit ticket now)).Phase := by
  dsimp only [step]
  split
  · rename_i requestId pc
    obtain ⟨others, permit, queue, engine, current⟩ := phase.of_unmarked (Or.inl ⟨requestId, pc⟩)
    exact .client ticket permit (setPc_others others _) queue engine
      (Or.inr ⟨requestId, w.state, setPc_same .., rfl, current, rfl, rfl⟩)
  · exact phase

theorem sendOk_phase (phase : w.Phase) (ticket : Nat) : (w.step (.sendOk ticket)).Phase := by
  dsimp only [step]
  split
  · rename_i requestId before pc
    obtain ⟨permit, others, queue, engine, submitted⟩ := phase.of_submitted pc
    refine .command ⟨ticket, requestId⟩ permit (setPc_nobody others rfl)
      (Or.inl ⟨Or.inl ⟨?_, engine⟩, submitted.current⟩)
    simp [queue]
  · exact phase

theorem sendFails_phase (phase : w.Phase) (ticket : Nat) : (w.step (.sendFails ticket)).Phase := by
  dsimp only [step]
  split
  · rename_i requestId before pc
    obtain ⟨permit, others, queue, engine, submitted⟩ := phase.of_submitted pc
    refine .client ticket permit (setPc_others others _) queue engine
      (Or.inl ⟨Or.inr (setPc_same ..), ?_⟩)
    simp [RuntimeControlState.rollbackReloadSubmission, submitted.current]
  · exact phase

theorem dropPermit_phase (phase : w.Phase) (ticket : Nat) :
    (w.step (.dropPermit ticket)).Phase := by
  dsimp only [step]
  split
  · rename_i pc
    obtain ⟨others, permit, queue, engine, current⟩ := phase.of_unmarked (Or.inr pc)
    exact .free rfl (setPc_nobody others rfl) queue engine current
  · exact phase

theorem take_phase (phase : w.Phase) : (w.step .take).Phase := by
  dsimp only [step]
  split
  · rename_i req queue idle waiting
    cases phase with
    | free _ _ empty _ _ =>
      rw [empty] at waiting
      cases waiting
    | client _ _ _ empty _ _ =>
      rw [empty] at waiting
      cases waiting
    | command other permit nobody place =>
      rcases place with ⟨⟨one, -⟩ | ⟨empty, -⟩, current⟩ | ⟨empty, -, -⟩
      · rw [one] at waiting
        cases waiting
        exact .command req permit nobody (Or.inl ⟨Or.inr ⟨rfl, Or.inl rfl⟩, current⟩)
      · rw [empty] at waiting
        cases waiting
      · rw [empty] at waiting
        cases waiting
  · exact phase

theorem markRunning_phase (phase : w.Phase) (now : Nat) : (w.step (.markRunning now)).Phase := by
  dsimp only [step]
  split
  · rename_i req engine
    obtain ⟨permit, nobody, queue, ⟨-, current⟩ | ⟨⟨result, other⟩ | other, -⟩⟩ :=
      phase.of_command req (by rw [engine]; rfl)
    · refine .command req permit nobody (Or.inl ⟨Or.inr ⟨queue, Or.inr rfl⟩, ?_⟩)
      simp [RuntimeControlState.markReloadRunning, current]
    · rw [engine] at other
      cases other
    · rw [engine] at other
      cases other
  · exact phase

theorem finish_phase (phase : w.Phase) (result : RuntimeCommandResult) (now : Nat) :
    (w.step (.finish result now)).Phase := by
  dsimp only [step]
  split
  · rename_i req engine
    obtain ⟨permit, nobody, queue, -⟩ := phase.of_command req (by rw [engine]; rfl)
    exact .command req permit nobody (Or.inr ⟨queue, Or.inl ⟨result, rfl⟩, rfl⟩)
  · exact phase

theorem reply_phase (phase : w.Phase) : (w.step .reply).Phase := by
  dsimp only [step]
  split
  · rename_i req result engine
    obtain ⟨permit, nobody, queue, current⟩ := phase.of_done req (Or.inl ⟨result, engine⟩)
    exact .command req permit nobody (Or.inr ⟨queue, Or.inr rfl, current⟩)
  · exact phase

theorem dropCommand_phase (phase : w.Phase) : (w.step .dropCommand).Phase := by
  dsimp only [step]
  split
  · rename_i req engine
    obtain ⟨-, nobody, queue, current⟩ := phase.of_done req (Or.inr engine)
    exact .free rfl nobody queue rfl current
  · exact phase

theorem step_phase (phase : w.Phase) (s : ControlStep) : (w.step s).Phase := by
  cases s with
  | check ticket requestId => exact check_phase phase ticket requestId
  | acquire ticket => exact acquire_phase phase ticket
  | submit ticket now => exact submit_phase phase ticket now
  | sendOk ticket => exact sendOk_phase phase ticket
  | sendFails ticket => exact sendFails_phase phase ticket
  | dropPermit ticket => exact dropPermit_phase phase ticket
  | take => exact take_phase phase
  | markRunning now => exact markRunning_phase phase now
  | finish result now => exact finish_phase phase result now
  | reply => exact reply_phase phase
  | dropCommand => exact dropCommand_phase phase
  | activate => exact phase.of_quiet rfl rfl rfl rfl rfl rfl (fun _ => Or.inl rfl)
  | deactivate => exact phase.of_quiet rfl rfl rfl rfl rfl rfl (fun _ => Or.inl rfl)

/-- The accepted requests are the answered ones and the commands without an answer, in order. -/
structure Accounts (w : ControlWorld) : Prop where
  balance : w.accepted = w.responses.map (fun answer => (answer.1, answer.2.requestId)) ++
    (w.engine.unanswered.toList ++ w.queue).map (fun req => (req.ticket, req.requestId))
  once : (w.accepted.map Prod.fst).Nodup
  settled : ∀ t ∈ w.accepted.map Prod.fst, w.requests t = .accepted

/-- A request that has not been accepted may move on. -/
theorem Accounts.setPc {w' : ControlWorld} (accounts : w.Accounts) (ticket : Nat) (pc : RequestPc)
    (open_request : w.requests ticket ≠ .accepted) (accepted : w'.accepted = w.accepted)
    (responses : w'.responses = w.responses) (engine : w'.engine = w.engine)
    (queue : w'.queue = w.queue) (requests : w'.requests = (w.setPc ticket pc).requests) :
    w'.Accounts := by
  constructor
  · rw [accepted, responses, engine, queue]
    exact accounts.balance
  · rw [accepted]
    exact accounts.once
  · intro t member
    rw [accepted] at member
    have before := accounts.settled t member
    have differs : t ≠ ticket := by
      rintro rfl
      exact open_request before
    rw [requests, setPc_other pc differs]
    exact before

/-- The engine moves on without answering. -/
theorem Accounts.engine {w' : ControlWorld} (accounts : w.Accounts)
    (accepted : w'.accepted = w.accepted) (responses : w'.responses = w.responses)
    (commands : w'.engine.unanswered.toList ++ w'.queue = w.engine.unanswered.toList ++ w.queue)
    (requests : w'.requests = w.requests) : w'.Accounts := by
  constructor
  · rw [accepted, responses, commands]
    exact accounts.balance
  · rw [accepted]
    exact accounts.once
  · intro t member
    rw [accepted] at member
    rw [requests]
    exact accounts.settled t member

theorem sendOk_accounts (accounts : w.Accounts) (ticket : Nat) :
    (w.step (.sendOk ticket)).Accounts := by
  dsimp only [step]
  split
  · rename_i requestId before pc
    have fresh : ticket ∉ w.accepted.map Prod.fst := by
      intro member
      rw [accounts.settled ticket member] at pc
      cases pc
    constructor
    · rw [accounts.balance]
      simp [ControlWorld.setPc]
    · rw [List.map_append]
      apply List.nodup_append'.mpr
      refine ⟨accounts.once, List.nodup_singleton ticket, ?_⟩
      intro t before now
      rw [List.mem_singleton.mp now] at before
      exact fresh before
    · intro t member
      by_cases same : t = ticket
      · subst same
        exact setPc_same ..
      · rw [List.map_append, List.mem_append] at member
        rcases member with earlier | now
        · exact (setPc_other .accepted same).trans (accounts.settled t earlier)
        · exact absurd (List.mem_singleton.mp now) same
  · exact accounts

theorem reply_accounts (accounts : w.Accounts) : (w.step .reply).Accounts := by
  dsimp only [step]
  split
  · rename_i req result engine
    constructor
    · have balance := accounts.balance
      rw [engine] at balance
      simpa [EnginePc.unanswered] using balance
    · exact accounts.once
    · exact accounts.settled
  · exact accounts

theorem step_accounts (accounts : w.Accounts) (s : ControlStep) : (w.step s).Accounts := by
  cases s with
  | check ticket requestId =>
    dsimp only [step]
    split
    · rename_i pc
      have open_request : w.requests ticket ≠ .accepted := by simp [pc]
      split
      · exact accounts.setPc ticket _ open_request rfl rfl rfl rfl rfl
      · exact accounts.setPc ticket _ open_request rfl rfl rfl rfl rfl
    · exact accounts
  | acquire ticket =>
    dsimp only [step]
    split
    · rename_i requestId pc
      have open_request : w.requests ticket ≠ .accepted := by simp [pc]
      split
      · exact accounts.setPc ticket _ open_request rfl rfl rfl rfl rfl
      · exact accounts.setPc ticket _ open_request rfl rfl rfl rfl rfl
    · exact accounts
  | submit ticket now =>
    dsimp only [step]
    split
    · rename_i requestId pc
      exact accounts.setPc ticket _ (by simp [pc]) rfl rfl rfl rfl rfl
    · exact accounts
  | sendOk ticket => exact sendOk_accounts accounts ticket
  | sendFails ticket =>
    dsimp only [step]
    split
    · rename_i requestId before pc
      exact accounts.setPc ticket _ (by simp [pc]) rfl rfl rfl rfl rfl
    · exact accounts
  | dropPermit ticket =>
    dsimp only [step]
    split
    · rename_i pc
      exact accounts.setPc ticket _ (by simp [pc]) rfl rfl rfl rfl rfl
    · exact accounts
  | take =>
    dsimp only [step]
    split
    · rename_i req queue idle waiting
      exact accounts.engine rfl rfl (by simp [idle, waiting, EnginePc.unanswered]) rfl
    · exact accounts
  | markRunning now =>
    dsimp only [step]
    split
    · rename_i req engine
      exact accounts.engine rfl rfl (by simp [engine, EnginePc.unanswered]) rfl
    · exact accounts
  | finish result now =>
    dsimp only [step]
    split
    · rename_i req engine
      exact accounts.engine rfl rfl (by simp [engine, EnginePc.unanswered]) rfl
    · exact accounts
  | reply => exact reply_accounts accounts
  | dropCommand =>
    dsimp only [step]
    split
    · rename_i req engine
      exact accounts.engine rfl rfl (by simp [engine, EnginePc.unanswered]) rfl
    · exact accounts
  | activate => exact accounts.engine rfl rfl rfl rfl
  | deactivate => exact accounts.engine rfl rfl rfl rfl

/-- The record after a rollback is the record without the request exactly when that record had no
    times. -/
theorem rollback_restores_iff {state before : RuntimeControlState} {requestId : String}
    (submitted : Submitted state before requestId) :
    (state.rollbackReloadSubmission requestId).snapshot =
        { before with acceptingCommands :=
          (state.rollbackReloadSubmission requestId).acceptingCommands }.snapshot ↔
      before.lastReloadStartedAt = none ∧ before.lastReloadFinishedAt = none := by
  obtain ⟨current, was_free, same_id, same_result⟩ := submitted
  simp [RuntimeControlState.rollbackReloadSubmission, current, RuntimeControlState.snapshot,
    was_free, same_id, same_result, eq_comm]

/-- A failing send finds a record without times behind its own submission. -/
def FreshFailure (w : ControlWorld) (s : ControlStep) : Prop :=
  ∀ ticket, s = .sendFails ticket → ∀ requestId before,
    w.requests ticket = .submitted requestId before →
      before.lastReloadStartedAt = none ∧ before.lastReloadFinishedAt = none

def RefusalsFaithful (w : ControlWorld) : Prop :=
  ∀ refusal ∈ w.refusals, refusal.after = refusal.before

theorem refuse_faithful (faithful : w.RefusalsFaithful) (ticket : Nat)
    (error : RuntimeCommandSendError) : (w.refuse ticket error).RefusalsFaithful := by
  intro refusal member
  rcases List.mem_append.mp member with earlier | now
  · exact faithful refusal earlier
  · rw [List.mem_singleton.mp now]

theorem step_faithful (phase : w.Phase) (faithful : w.RefusalsFaithful) (s : ControlStep)
    (fresh : w.FreshFailure s) : (w.step s).RefusalsFaithful := by
  cases s with
  | check ticket requestId =>
    dsimp only [step]
    split
    · split
      · exact faithful
      · exact refuse_faithful faithful ticket .runtimeNotReady
    · exact faithful
  | acquire ticket =>
    dsimp only [step]
    split
    · split
      · exact faithful
      · exact refuse_faithful faithful ticket .reloadBusy
    · exact faithful
  | sendFails ticket =>
    dsimp only [step]
    split
    · rename_i requestId before pc
      obtain ⟨-, -, -, -, submitted⟩ := phase.of_submitted pc
      intro refusal member
      rcases List.mem_append.mp member with earlier | now
      · exact faithful refusal earlier
      · rw [List.mem_singleton.mp now]
        exact (rollback_restores_iff submitted).mpr (fresh ticket rfl requestId before pc)
    · exact faithful
  | submit ticket now =>
    dsimp only [step]
    split <;> exact faithful
  | sendOk ticket =>
    dsimp only [step]
    split <;> exact faithful
  | dropPermit ticket =>
    dsimp only [step]
    split <;> exact faithful
  | take =>
    dsimp only [step]
    split <;> exact faithful
  | markRunning now =>
    dsimp only [step]
    split <;> exact faithful
  | finish result now =>
    dsimp only [step]
    split <;> exact faithful
  | reply =>
    dsimp only [step]
    split <;> exact faithful
  | dropCommand =>
    dsimp only [step]
    split <;> exact faithful
  | activate => exact faithful
  | deactivate => exact faithful

theorem start_phase : start.Phase :=
  .free rfl (fun _ => rfl) rfl rfl rfl

theorem start_accounts : start.Accounts := by
  constructor
  · rfl
  · exact List.nodup_nil
  · intro t member
    cases member

theorem Phase.one_command (phase : w.Phase) : (w.queue ++ w.engine.command.toList).length ≤ 1 := by
  cases phase with
  | free _ _ queue engine _ => simp [queue, engine, EnginePc.command]
  | client _ _ _ queue engine _ => simp [queue, engine, EnginePc.command]
  | command req _ _ place =>
    rcases place with ⟨⟨queue, engine⟩ | ⟨queue, engine | engine⟩, -⟩ |
      ⟨queue, ⟨result, engine⟩ | engine, -⟩
    all_goals simp [queue, engine, EnginePc.command]

/-- The id in the record is the one of the request or command that holds the permit. -/
theorem Phase.current_holds (phase : w.Phase) {id : String}
    (current : w.state.currentRequestId = some id) :
    w.permitFree = false ∧ ((∃ t before, w.requests t = .submitted id before) ∨
      ∃ req ∈ w.queue ++ w.engine.command.toList, req.requestId = id) := by
  cases phase with
  | free _ _ _ _ none_current =>
    rw [none_current] at current
    cases current
  | client t permit _ _ _ record =>
    rcases record with ⟨-, none_current⟩ | ⟨other, before, pc, submitted⟩
    · rw [none_current] at current
      cases current
    · rw [submitted.current] at current
      cases current
      exact ⟨permit, Or.inl ⟨t, before, pc⟩⟩
  | command req permit _ place =>
    refine ⟨permit, Or.inr ⟨req, ?_⟩⟩
    rcases place with ⟨⟨queue, engine⟩ | ⟨queue, engine | engine⟩, own⟩ | ⟨-, -, none_current⟩
    · rw [own] at current
      exact ⟨by simp [queue], Option.some.inj current⟩
    · rw [own] at current
      exact ⟨by simp [engine, EnginePc.command], Option.some.inj current⟩
    · rw [own] at current
      exact ⟨by simp [engine, EnginePc.command], Option.some.inj current⟩
    · rw [none_current] at current
      cases current

theorem Phase.permit_free_iff (phase : w.Phase) :
    w.permitFree = true ↔
      (∀ t, (w.requests t).holds = false) ∧ w.queue = [] ∧ w.engine = .idle := by
  cases phase with
  | free permit nobody queue engine _ => exact ⟨fun _ => ⟨nobody, queue, engine⟩, fun _ => permit⟩
  | client t permit _ _ _ record =>
    have holds : (w.requests t).holds = true := by
      rcases record with ⟨⟨id, pc⟩ | pc, -⟩ | ⟨id, before, pc, -⟩
      all_goals
        rw [pc]
        rfl
    constructor
    · intro free
      rw [permit] at free
      cases free
    · rintro ⟨nobody, -, -⟩
      rw [nobody t] at holds
      cases holds
  | command req permit _ place =>
    constructor
    · intro free
      rw [permit] at free
      cases free
    · rintro ⟨-, empty, idle⟩
      rcases place with ⟨⟨queue, -⟩ | ⟨-, engine | engine⟩, -⟩ | ⟨-, ⟨result, engine⟩ | engine, -⟩
      · rw [queue] at empty
        cases empty
      all_goals
        rw [engine] at idle
        cases idle

end Steps

end ControlWorld

/-- Over every interleaving in which a send fails only on a record without times: one command at
    most is queued or running, the record names the holder of the permit, the accepted requests
    are answered once each with their own id in order, refused requests leave the status as it
    was, and the permit is free whenever nobody is using it. -/
theorem single_reload_in_flight (steps : List ControlStep)
    (fresh : Runs.AllSteps ControlWorld.step ControlWorld.FreshFailure ControlWorld.start steps) :
    let w := Runs.run ControlWorld.step ControlWorld.start steps
    (w.queue ++ w.engine.command.toList).length ≤ 1 ∧
    (∀ id, w.state.currentRequestId = some id →
      w.permitFree = false ∧ ((∃ t before, w.requests t = .submitted id before) ∨
        ∃ req ∈ w.queue ++ w.engine.command.toList, req.requestId = id)) ∧
    ((w.accepted.map Prod.fst).Nodup ∧
      w.accepted = w.responses.map (fun answer => (answer.1, answer.2.requestId)) ++
        (w.engine.unanswered.toList ++ w.queue).map (fun req => (req.ticket, req.requestId))) ∧
    (∀ refusal ∈ w.refusals, refusal.after = refusal.before) ∧
    (w.permitFree = true ↔
      (∀ t, (w.requests t).holds = false) ∧ w.queue = [] ∧ w.engine = .idle) := by
  intro w
  have inv : w.Phase ∧ w.Accounts ∧ w.RefusalsFaithful := by
    refine Runs.run_invariant_of_allSteps
      (fun w : ControlWorld => w.Phase ∧ w.Accounts ∧ w.RefusalsFaithful) ?_ steps
      ControlWorld.start ?_ fresh
    · rintro w s allowed ⟨phase, accounts, faithful⟩
      exact ⟨ControlWorld.step_phase phase s, ControlWorld.step_accounts accounts s,
        ControlWorld.step_faithful phase faithful s allowed⟩
    · refine ⟨ControlWorld.start_phase, ControlWorld.start_accounts, ?_⟩
      intro refusal member
      cases member
  obtain ⟨phase, accounts, faithful⟩ := inv
  refine ⟨phase.one_command, ?_, ⟨accounts.once, accounts.balance⟩, faithful, phase.permit_free_iff⟩
  intro id current
  exact phase.current_holds current

/-- The first request of all fails in its send: the status is as before and the permit is free. -/
theorem first_send_fails :
    let steps : List ControlStep :=
      [.activate, .check 0 "a", .acquire 0, .submit 0 5, .sendFails 0, .dropPermit 0]
    let w := Runs.run ControlWorld.step ControlWorld.start steps
    w.refusals.length = 1 ∧ w.permitFree = true ∧
      ∀ refusal ∈ w.refusals, refusal.after = refusal.before := by
  intro steps w
  refine ⟨rfl, rfl, (single_reload_in_flight steps ?_).2.2.2.1⟩
  refine ⟨?_, ?_, ?_, ?_, ?_, ?_, trivial⟩
  all_goals
    intro ticket failing requestId before submitted
    cases failing
  cases submitted
  exact ⟨rfl, rfl⟩

/-- After one reload has finished, a request whose send fails takes the times of that reload out
    of the status. -/
theorem failed_send_forgets_last_reload :
    let steps : List ControlStep :=
      [.activate, .check 0 "a", .acquire 0, .submit 0 5, .sendOk 0, .take, .markRunning 6,
        .finish .reloadDone 7, .reply, .dropCommand, .check 1 "b", .acquire 1, .submit 1 8,
        .sendFails 1, .dropPermit 1]
    let w := Runs.run ControlWorld.step ControlWorld.start steps
    w.refusals.map (fun refusal => (refusal.error, refusal.before.lastReloadStartedAt,
        refusal.before.lastReloadFinishedAt)) = [(.channelClosed, some 5, some 7)] ∧
      w.refusals.map (fun refusal => (refusal.after.lastReloadStartedAt,
        refusal.after.lastReloadFinishedAt)) = [(none, none)] := by
  decide

end WarpMotor
