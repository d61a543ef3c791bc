import Mathlib.Data.List.Nodup
import Mathlib.Data.List.Perm.Subperm
import WarpMotor.Actor.Routine
import WarpMotor.Lib.Runs

/-!
The drain events of a reload. Every worker of a processing set holds a
reporter that sends one event: drained when it is notified, aborted when it is
dropped before that. The tracker counts the events of its own epoch by role.
Reporters finish in any order, and events of other epochs or of roles that are
not tracked share the channel.
-/
namespace WarpMotor

inductive ReloadDrainOutcome where
  | drained | aborted
  deriving DecidableEq, Repr

structure ReloadDrainEvent where
  epoch : Nat
  role : TaskRole
  workerName : String
  outcome : ReloadDrainOutcome
  deriving DecidableEq, Repr

structure ReloadDrainReporter where
  pending : Option ReloadDrainEvent
  deriving DecidableEq, Repr

/-- The first outcome is sent, later ones are not. -/
def ReloadDrainReporter.sendPending (outcome : ReloadDrainOutcome)
    (reporter : ReloadDrainReporter) : ReloadDrainReporter × List ReloadDrainEvent :=
  match reporter.pending with
  | some event => (⟨none⟩, [{ event with outcome }])
  | none => (reporter, [])

def reloadReporter (epoch : Nat) (role : TaskRole) (workerName : String) : ReloadDrainReporter :=
  ⟨some ⟨epoch, role, workerName, .aborted⟩⟩

def TaskRole.debugName : TaskRole → String
  | .monitor => "Monitor"
  | .infra => "Infra"
  | .sink => "Sink"
  | .maintainer => "Maintainer"
  | .parser => "Parser"
  | .picker => "Picker"
  | .acceptor => "Acceptor"
  | .generator => "Generator"
  | .router => "Router"

structure ReloadDrainTracker where
  epoch : Nat
  parserPending : Nat
  sinkPending : Nat
  infraPending : Nat
  deriving DecidableEq, Repr

namespace ReloadDrainTracker

def nextEpoch (t : ReloadDrainTracker) : Nat := t.epoch + 1

def isFullyQuiesced (t : ReloadDrainTracker) : Bool :=
  t.parserPending == 0 && t.sinkPending == 0 && t.infraPending == 0

/-- The counter of a role; the other roles are not tracked. -/
def pending (t : ReloadDrainTracker) : TaskRole → Option Nat
  | .parser => some t.parserPending
  | .sink => some t.sinkPending
  | .infra => some t.infraPending
  | _ => none

def setPending (t : ReloadDrainTracker) (role : TaskRole) (count : Nat) : ReloadDrainTracker :=
  match role with
  | .parser => { t with parserPending := count }
  | .sink => { t with sinkPending := count }
  | .infra => { t with infraPending := count }
  | _ => t

def abortMessage (event : ReloadDrainEvent) : String :=
  "reload drain aborted epoch=" ++ toString event.epoch ++ " role=" ++ event.role.debugName ++
    " worker=" ++ event.workerName

/-- A counter that is already zero ignores the event, whatever its outcome. -/
def observe (t : ReloadDrainTracker) (event : ReloadDrainEvent) :
    ReloadDrainTracker × Except String Unit :=
  if event.epoch ≠ t.epoch then (t, .ok ())
  else
    match t.pending event.role with
    | none => (t, .ok ())
    | some 0 => (t, .ok ())
    | some (left + 1) =>
      if event.outcome = .aborted then (t, .error (abortMessage event))
      else (t.setPending event.role left, .ok ())

theorem setPending_other (t : ReloadDrainTracker) {role other : TaskRole} (count : Nat)
    (differs : other ≠ role) : (t.setPending role count).pending other = t.pending other := by
  cases role <;> cases other <;> first | rfl | exact absurd rfl differs

theorem setPending_same (t : ReloadDrainTracker) {role : TaskRole} (count : Nat)
    (tracked : t.pending role ≠ none) : (t.setPending role count).pending role = some count := by
  cases role <;> first | rfl | exact absurd rfl tracked

theorem setPending_untracked (t : ReloadDrainTracker) (role other : TaskRole) (count : Nat) :
    (t.setPending role count).pending other = none ↔ t.pending other = none := by
  cases role <;> cases other <;> simp [setPending, pending]

@[simp] theorem epoch_setPending (t : ReloadDrainTracker) (role : TaskRole) (count : Nat) :
    (t.setPending role count).epoch = t.epoch := by
  cases role <;> rfl

end ReloadDrainTracker

/-- An event on its way to the tracker; `none` when no reporter of this processing set sent it. -/
structure DrainMessage where
  reporter : Option Nat
  event : ReloadDrainEvent
  deriving DecidableEq, Repr

/-- `observed` is the history of what the tracker was given and answered. -/
structure DrainBoard where
  reporters : List ReloadDrainReporter
  channel : List DrainMessage
  tracker : ReloadDrainTracker
  observed : List (DrainMessage × Except String Unit)

inductive DrainStep where
  | notify (reporter : Nat)
  | drop (reporter : Nat)
  | foreign (event : ReloadDrainEvent)
  | observe
  deriving DecidableEq, Repr

namespace DrainBoard

/-- One reporter for each worker; the tracker is told how many workers each role has. -/
def start (epoch : Nat) (parsers sinks infras : List String) : DrainBoard :=
  { reporters := parsers.map (reloadReporter epoch .parser) ++
      (sinks.map (reloadReporter epoch .sink) ++ infras.map (reloadReporter epoch .infra))
    channel := []
    tracker := ⟨epoch, parsers.length, sinks.length, infras.length⟩
    observed := [] }

def send (w : DrainBoard) (reporter : Nat) (outcome : ReloadDrainOutcome) : DrainBoard :=
  match w.reporters[reporter]? with
  | none => w
  | some owner =>
    let sent := owner.sendPending outcome
    { w with
      reporters := w.reporters.set reporter sent.1
      channel := w.channel ++ sent.2.map (fun event => ⟨some reporter, event⟩) }

def step (w : DrainBoard) : DrainStep → DrainBoard
  | .notify reporter => w.send reporter .drained
  | .drop reporter => w.send reporter .aborted
  | .foreign event =>
    if event.epoch ≠ w.tracker.epoch ∨ w.tracker.pending event.role = none then
      { w with channel := w.channel ++ [⟨none, event⟩] }
    else w
  | .observe =>
    match w.channel with
    | [] => w
    | message :: rest =>
      let answer := w.tracker.observe message.event
      { w with
        channel := rest
        tracker := answer.1
        observed := w.observed ++ [(message, answer.2)] }

/-- Every message so far, in the order of the channel. -/
def sent (w : DrainBoard) : List DrainMessage := w.observed.map Prod.fst ++ w.channel

end DrainBoard

/-- The message is a reporter's and reports a drained worker of this role. -/
def DrainMessage.drains (role : TaskRole) (message : DrainMessage) : Bool :=
  message.reporter.isSome && decide (message.event.role = role) &&
    decide (message.event.outcome = .drained)

namespace DrainBoard

def drainedOf (w : DrainBoard) (role : TaskRole) : List DrainMessage :=
  (w.observed.map Prod.fst).filter (DrainMessage.drains role)

end DrainBoard

namespace ReloadDrainReporter

/-- The event a reporter was created with. -/
def owes (reporter : ReloadDrainReporter) (epoch : Nat) (role : TaskRole) : Bool :=
  match reporter.pending with
  | some event => decide (event.epoch = epoch) && decide (event.role = role)
  | none => false

end ReloadDrainReporter

namespace DrainBoard

/-- The event, up to its outcome, is the one the `i`-th reporter of the team was created with. -/
def Owed (team : List ReloadDrainReporter) (epoch : Nat) (w : DrainBoard) (i : Nat)
    (event : ReloadDrainEvent) : Prop :=
  event.epoch = epoch ∧ w.tracker.pending event.role ≠ none ∧
    ∃ owner, team[i]? = some owner ∧ owner.owes epoch event.role = true

/-- `team` are the reporters as they were created. -/
structure Inv (team : List ReloadDrainReporter) (epoch : Nat) (w : DrainBoard) : Prop where
  same_epoch : w.tracker.epoch = epoch
  waiting : ∀ (i : Nat) (event : ReloadDrainEvent),
    w.reporters[i]? = some ⟨some event⟩ → Owed team epoch w i event
  once : (w.sent.filterMap DrainMessage.reporter).Nodup
  done : ∀ i, i ∈ w.sent.filterMap DrainMessage.reporter ↔ w.reporters[i]? = some ⟨none⟩
  own : ∀ message ∈ w.sent, ∀ i, message.reporter = some i → Owed team epoch w i message.event
  foreign : ∀ message ∈ w.sent, message.reporter = none →
    message.event.epoch ≠ epoch ∨ w.tracker.pending message.event.role = none
  counts : ∀ role left, w.tracker.pending role = some left →
    left + (w.drainedOf role).length = (team.filter (fun owner => owner.owes epoch role)).length
  answers : ∀ answer ∈ w.observed, (∃ text, answer.2 = .error text) ↔
    answer.1.event.epoch = epoch ∧ w.tracker.pending answer.1.event.role ≠ none ∧
      answer.1.event.outcome = .aborted

/-- Only a reporter that still owes its event sends one. -/
theorem send_cases (w : DrainBoard) (reporter : Nat) (outcome : ReloadDrainOutcome) :
    (w.send reporter outcome = w ∧ ∀ event, w.reporters[reporter]? ≠ some ⟨some event⟩) ∨
      ∃ event, w.reporters[reporter]? = some ⟨some event⟩ ∧
        w.send reporter outcome = { w with
          reporters := w.reporters.set reporter ⟨none⟩
          channel := w.channel ++ [⟨some reporter, { event with outcome }⟩] } := by
  unfold send
  cases owner : w.reporters[reporter]? with
  | none =>
    left
    refine ⟨rfl, ?_⟩
    intro event owed
    cases owed
  | some held =>
    obtain ⟨pending⟩ := held
    cases pending with
    | none =>
      left
      constructor
      · have same : w.reporters.set reporter ⟨none⟩ = w.reporters := by
          obtain ⟨inside, value⟩ := List.getElem?_eq_some_iff.mp owner
          rw [← value]
          exact List.set_getElem_self inside
        simp [ReloadDrainReporter.sendPending, same]
      · intro event owed
        cases owed
    | some event =>
      right
      exact ⟨event, rfl, rfl⟩

section Preserved
variable {team : List ReloadDrainReporter} {epoch : Nat} {w : DrainBoard}

/-- Putting a message into the channel leaves everything about the tracker as it was. -/
theorem queued_inv (inv : Inv team epoch w) (reporters : List ReloadDrainReporter)
    (message : DrainMessage)
    (waiting : ∀ (i : Nat) (event : ReloadDrainEvent), reporters[i]? = some ⟨some event⟩ →
      w.reporters[i]? = some ⟨some event⟩)
    (once : ((w.sent ++ [message]).filterMap DrainMessage.reporter).Nodup)
    (done : ∀ i, i ∈ (w.sent ++ [message]).filterMap DrainMessage.reporter ↔
      reporters[i]? = some ⟨none⟩)
    (own : ∀ i, message.reporter = some i → Owed team epoch w i message.event)
    (foreign : message.reporter = none →
      message.event.epoch ≠ epoch ∨ w.tracker.pending message.event.role = none) :
    Inv team epoch { w with reporters, channel := w.channel ++ [message] } := by
  have longer : sent { w with reporters, channel := w.channel ++ [message] } =
      w.sent ++ [message] := by
    simp [sent]
  constructor
  · exact inv.same_epoch
  · intro i event held
    exact inv.waiting i event (waiting i event held)
  · rw [longer]
    exact once
  · intro i
    rw [longer]
    exact done i
  · intro other present i source
    rw [longer, List.mem_append, List.mem_singleton] at present
    rcases present with earlier | rfl
    · exact inv.own other earlier i source
    · exact own i source
  · intro other present source
    rw [longer, List.mem_append, List.mem_singleton] at present
    rcases present with earlier | rfl
    · exact inv.foreign other earlier source
    · exact foreign source
  · exact inv.counts
  · exact inv.answers

theorem send_inv (inv : Inv team epoch w) (reporter : Nat) (outcome : ReloadDrainOutcome) :
    Inv team epoch (w.send reporter outcome) := by
  rcases send_cases w reporter outcome with ⟨same, -⟩ | ⟨event, owed, moved⟩
  · rw [same]
    exact inv
  · rw [moved]
    have current := inv.waiting reporter event owed
    have inside : reporter < w.reporters.length := (List.getElem?_eq_some_iff.mp owed).1
    have fresh : reporter ∉ w.sent.filterMap DrainMessage.reporter := by
      rw [inv.done, owed]
      intro finished
      cases finished
    apply queued_inv inv
    case waiting =>
      intro i other held
      rw [List.getElem?_set] at held
      split at held
      · cases held
      · exact held
    case once =>
      rw [List.filterMap_append]
      apply List.nodup_append'.mpr
      refine ⟨inv.once, List.nodup_singleton reporter, ?_⟩
      intro i before now
      rw [List.mem_singleton.mp now] at before
      exact fresh before
    case done =>
      intro i
      rw [List.filterMap_append, List.mem_append, List.getElem?_set, inv.done i]
      by_cases same : reporter = i
      · subst same
        simp [inside]
      · simp [same, Ne.symm same]
    case own =>
      intro i source
      cases source
      exact current
    case foreign =>
      intro source
      cases source

theorem foreign_inv (inv : Inv team epoch w) (event : ReloadDrainEvent) :
    Inv team epoch (w.step (.foreign event)) := by
  dsimp only [step]
  split
  · rename_i other
    rw [inv.same_epoch] at other
    have same : (w.sent ++ [(⟨none, event⟩ : DrainMessage)]).filterMap DrainMessage.reporter =
        w.sent.filterMap DrainMessage.reporter := by
      rw [List.filterMap_append]
      exact List.append_nil _
    apply queued_inv inv w.reporters
    case waiting => exact fun _ _ held => held
    case once =>
      rw [same]
      exact inv.once
    case done =>
      intro i
      rw [same]
      exact inv.done i
    case own =>
      intro i source
      cases source
    case foreign => exact fun _ => other
  · exact inv

/-- The reporters of the team that owe an event of this role, by their place. -/
def owingPlaces (team : List ReloadDrainReporter) (epoch : Nat) (role : TaskRole) : List Nat :=
  (team.zipIdx.filter (fun place => place.1.owes epoch role)).map Prod.snd

theorem owingPlaces_length (role : TaskRole) :
    (owingPlaces team epoch role).length =
      (team.filter (fun owner => owner.owes epoch role)).length := by
  have places : (team.zipIdx.filter (fun place => place.1.owes epoch role)).map Prod.fst =
      team.filter (fun owner => owner.owes epoch role) := by
    rw [← List.zipIdx_map_fst 0 team, List.filter_map, List.zipIdx_map_fst]
    rfl
  rw [owingPlaces, List.length_map, ← places, List.length_map]

theorem Owed.place {i : Nat} {event : ReloadDrainEvent} (owed : Owed team epoch w i event) :
    i ∈ owingPlaces team epoch event.role := by
  obtain ⟨-, -, owner, member, owes⟩ := owed
  apply List.mem_map.mpr
  refine ⟨(owner, i), List.mem_filter.mpr ⟨?_, owes⟩, rfl⟩
  exact List.mk_mem_zipIdx_iff_getElem?.mpr member

/-- An event of the team that still waits in the channel finds its counter above zero: the
    workers of its role that were counted are others. -/
theorem counter_positive (inv : Inv team epoch w) {message : DrainMessage}
    {rest : List DrainMessage} (head : w.channel = message :: rest) {i : Nat}
    (source : message.reporter = some i) {left : Nat}
    (counter : w.tracker.pending message.event.role = some left) : left ≠ 0 := by
  intro zero
  have total := inv.counts message.event.role left counter
  let counted := w.drainedOf message.event.role ++ [message]
  have kept : (counted.filterMap DrainMessage.reporter).Sublist
      (w.sent.filterMap DrainMessage.reporter) := by
    apply List.Sublist.filterMap
    rw [sent, head]
    exact List.Sublist.append List.filter_sublist (by simp)
  have places : counted.filterMap DrainMessage.reporter ⊆
      owingPlaces team epoch message.event.role := by
    intro j member
    obtain ⟨other, present, from_j⟩ := List.mem_filterMap.mp member
    rcases List.mem_append.mp present with drained | last
    · obtain ⟨seen, drains⟩ := List.mem_filter.mp drained
      have role : other.event.role = message.event.role := by
        simp only [DrainMessage.drains, Bool.and_eq_true, decide_eq_true_eq] at drains
        exact drains.1.2
      rw [← role]
      exact (inv.own other (List.mem_append_left _ seen) j from_j).place
    · rw [List.mem_singleton] at last
      subst last
      have waits : other ∈ w.sent := by
        rw [sent, head]
        simp
      exact (inv.own other waits j from_j).place
  have all_named : (counted.filterMap DrainMessage.reporter).length = counted.length := by
    rw [List.filterMap_length_eq_length]
    intro other present
    rcases List.mem_append.mp present with drained | last
    · obtain ⟨-, drains⟩ := List.mem_filter.mp drained
      simp only [DrainMessage.drains, Bool.and_eq_true] at drains
      exact drains.1.1
    · rw [List.mem_singleton.mp last, source]
      rfl
  have few := (List.Nodup.subperm (inv.once.sublist kept) places).length_le
  rw [all_named, List.length_append, List.length_singleton, owingPlaces_length] at few
  omega

/-- What the tracker does with the next event of the channel. -/
theorem observe_cases (inv : Inv team epoch w) {message : DrainMessage}
    {rest : List DrainMessage} (head : w.channel = message :: rest) :
    (w.tracker.observe message.event = (w.tracker, .ok ()) ∧ message.reporter = none ∧
        (message.event.epoch ≠ epoch ∨ w.tracker.pending message.event.role = none)) ∨
      (∃ text, w.tracker.observe message.event = (w.tracker, .error text) ∧
        message.event.epoch = epoch ∧ w.tracker.pending message.event.role ≠ none ∧
        message.event.outcome = .aborted) ∨
      ∃ left, w.tracker.observe message.event =
          (w.tracker.setPending message.event.role left, .ok ()) ∧
        message.reporter.isSome = true ∧
        w.tracker.pending message.event.role = some (left + 1) ∧
        message.event.outcome = .drained := by
  have waits : message ∈ w.sent := by
    rw [sent, head]
    simp
  unfold ReloadDrainTracker.observe
  rw [inv.same_epoch]
  cases source : message.reporter with
  | none =>
    left
    rcases inv.foreign message waits source with stale | untracked
    · exact ⟨if_pos stale, rfl, .inl stale⟩
    · refine ⟨?_, rfl, .inr untracked⟩
      split
      · rfl
      · rw [untracked]
  | some i =>
    right
    obtain ⟨current, tracked, -⟩ := inv.own message waits i source
    obtain ⟨count, counter⟩ := Option.ne_none_iff_exists'.mp tracked
    rw [if_neg (not_not_intro current), counter]
    obtain ⟨left, rfl⟩ := Nat.exists_eq_succ_of_ne_zero (counter_positive inv head source counter)
    cases outcome : message.event.outcome with
    | aborted =>
      left
      exact ⟨_, rfl, current, Option.some_ne_none _, rfl⟩
    | drained =>
      right
      exact ⟨left, rfl, rfl, rfl, rfl⟩

/-- Taking a message from the channel leaves everything about the senders as it was. -/
theorem observed_inv (inv : Inv team epoch w) {message : DrainMessage}
    {rest : List DrainMessage} (head : w.channel = message :: rest)
    (tracker : ReloadDrainTracker) (result : Except String Unit)
    (same_epoch : tracker.epoch = w.tracker.epoch)
    (same_roles : ∀ role, tracker.pending role = none ↔ w.tracker.pending role = none)
    (counts : ∀ role left, tracker.pending role = some left →
      left + (w.drainedOf role ++ [message].filter (DrainMessage.drains role)).length =
        (team.filter (fun owner => owner.owes epoch role)).length)
    (answer : (∃ text, result = .error text) ↔ message.event.epoch = epoch ∧
      w.tracker.pending message.event.role ≠ none ∧ message.event.outcome = .aborted) :
    Inv team epoch { w with
      channel := rest, tracker, observed := w.observed ++ [(message, result)] } := by
  have same : sent { w with
      channel := rest, tracker, observed := w.observed ++ [(message, result)] } = w.sent := by
    simp [sent, head]
  have owed : ∀ i event, Owed team epoch w i event → Owed team epoch { w with
      channel := rest, tracker, observed := w.observed ++ [(message, result)] } i event := by
    rintro i event ⟨current, tracked, owner⟩
    exact ⟨current, fun gone => tracked ((same_roles _).mp gone), owner⟩
  constructor
  · exact same_epoch.trans inv.same_epoch
  · intro i event held
    exact owed i event (inv.waiting i event held)
  · rw [same]
    exact inv.once
  · intro i
    rw [same]
    exact inv.done i
  · intro other present i source
    rw [same] at present
    exact owed i other.event (inv.own other present i source)
  · intro other present source
    rw [same] at present
    rw [same_roles]
    exact inv.foreign other present source
  · intro role left counter
    have total := counts role left counter
    simpa [drainedOf] using total
  · intro given member
    rw [ne_eq, same_roles]
    rcases List.mem_append.mp member with earlier | last
    · exact inv.answers given earlier
    · rw [List.mem_singleton.mp last]
      exact answer

theorem observe_inv (inv : Inv team epoch w) : Inv team epoch (w.step .observe) := by
  dsimp only [step]
  cases head : w.channel with
  | nil => exact inv
  | cons message rest =>
    dsimp only
    rcases observe_cases inv head with
      ⟨answer, source, other⟩ | ⟨text, answer, current, tracked, aborted⟩ |
      ⟨left, answer, named, counter, drained⟩
    · rw [answer]
      refine observed_inv inv head _ _ rfl (fun _ => Iff.rfl) ?_ ?_
      · intro role left counter
        have ignored : DrainMessage.drains role message = false := by
          simp [DrainMessage.drains, source]
        rw [List.filter_singleton, ignored]
        simpa using inv.counts role left counter
      · constructor
        · rintro ⟨text, failed⟩
          cases failed
        · rintro ⟨current, tracked, -⟩
          rcases other with stale | untracked
          · exact absurd current stale
          · exact absurd untracked tracked
    · rw [answer]
      refine observed_inv inv head _ _ rfl (fun _ => Iff.rfl) ?_ ?_
      · intro role left counter
        have ignored : DrainMessage.drains role message = false := by
          simp [DrainMessage.drains, aborted]
        rw [List.filter_singleton, ignored]
        simpa using inv.counts role left counter
      · exact ⟨fun _ => ⟨current, tracked, aborted⟩, fun _ => ⟨text, rfl⟩⟩
    · rw [answer]
      refine observed_inv inv head _ _ (by simp) ?_ ?_ ?_
      · intro role
        exact ReloadDrainTracker.setPending_untracked _ _ _ _
      · intro role now after
        by_cases same : role = message.event.role
        · subst same
          rw [ReloadDrainTracker.setPending_same _ _ (by simp [counter])] at after
          cases after
          have counted : DrainMessage.drains message.event.role message = true := by
            simp [DrainMessage.drains, named, drained]
          have total := inv.counts _ _ counter
          rw [List.filter_singleton, counted, List.length_append]
          simp only [Bool.cond_true, List.length_singleton]
          omega
        · rw [ReloadDrainTracker.setPending_other _ _ same] at after
          have ignored : DrainMessage.drains role message = false := by
            simp [DrainMessage.drains, Ne.symm same]
          rw [List.filter_singleton, ignored]
          simpa using inv.counts role now after
      · constructor
        · rintro ⟨text, failed⟩
          cases failed
        · rintro ⟨-, -, aborted⟩
          rw [drained] at aborted
          cases aborted

theorem step_inv (s : DrainStep) (inv : Inv team epoch w) : Inv team epoch (w.step s) := by
  cases s with
  | notify reporter => exact send_inv inv reporter .drained
  | drop reporter => exact send_inv inv reporter .aborted
  | foreign event => exact foreign_inv inv event
  | observe => exact observe_inv inv

end Preserved

/-- A reporter has sent its event once it was notified or dropped. -/
theorem send_finished (w : DrainBoard) (reporter i : Nat) (outcome : ReloadDrainOutcome)
    (inside : i < w.reporters.length) :
    (w.send reporter outcome).reporters[i]? = some ⟨none⟩ ↔
      w.reporters[i]? = some ⟨none⟩ ∨ reporter = i := by
  rcases send_cases w reporter outcome with ⟨same, idle⟩ | ⟨event, owed, moved⟩
  · rw [same]
    constructor
    · exact Or.inl
    · rintro (finished | rfl)
      · exact finished
      · cases held : w.reporters[reporter] with
        | mk pending =>
          have there : w.reporters[reporter]? = some ⟨pending⟩ := by
            rw [List.getElem?_eq_getElem inside, held]
          cases pending with
          | none => exact there
          | some event => exact absurd there (idle event)
  · rw [moved]
    dsimp only
    rw [List.getElem?_set]
    by_cases same : reporter = i
    · subst same
      simp [inside]
    · simp [same]

theorem send_size (w : DrainBoard) (reporter : Nat) (outcome : ReloadDrainOutcome) :
    (w.send reporter outcome).reporters.length = w.reporters.length := by
  rcases send_cases w reporter outcome with ⟨same, -⟩ | ⟨event, -, moved⟩
  · rw [same]
  · rw [moved]
    exact List.length_set

theorem step_finished (w : DrainBoard) (s : DrainStep) (i : Nat)
    (inside : i < w.reporters.length) :
    (w.step s).reporters.length = w.reporters.length ∧
      ((w.step s).reporters[i]? = some ⟨none⟩ ↔
        w.reporters[i]? = some ⟨none⟩ ∨ s = .notify i ∨ s = .drop i) := by
  cases s with
  | notify reporter =>
    refine ⟨send_size w reporter .drained, ?_⟩
    simpa [step] using send_finished w reporter i .drained inside
  | drop reporter =>
    refine ⟨send_size w reporter .aborted, ?_⟩
    simpa [step] using send_finished w reporter i .aborted inside
  | foreign event =>
    dsimp only [step]
    split <;> simp
  | observe =>
    dsimp only [step]
    split <;> simp

theorem run_finished (steps : List DrainStep) (w : DrainBoard) (i : Nat)
    (inside : i < w.reporters.length) :
    (Runs.run step w steps).reporters[i]? = some ⟨none⟩ ↔
      w.reporters[i]? = some ⟨none⟩ ∨ .notify i ∈ steps ∨ .drop i ∈ steps := by
  induction steps generalizing w with
  | nil => simp
  | cons s rest ih =>
    obtain ⟨size, finished⟩ := step_finished w s i inside
    rw [Runs.run_cons, ih (w.step s) (by omega), finished]
    simp only [List.mem_cons]
    constructor
    · rintro ((before | now | now) | later | later)
      · exact Or.inl before
      · exact Or.inr (Or.inl (Or.inl now.symm))
      · exact Or.inr (Or.inr (Or.inl now.symm))
      · exact Or.inr (Or.inl (Or.inr later))
      · exact Or.inr (Or.inr (Or.inr later))
    · rintro (before | (now | later) | (now | later))
      · exact Or.inl (Or.inl before)
      · exact Or.inl (Or.inr (Or.inl now.symm))
      · exact Or.inr (Or.inl later)
      · exact Or.inl (Or.inr (Or.inr now.symm))
      · exact Or.inr (Or.inr later)

theorem owes_reporter (epoch : Nat) (role other : TaskRole) (name : String) :
    (reloadReporter epoch role name).owes epoch other = decide (role = other) := by
  simp [reloadReporter, ReloadDrainReporter.owes]

theorem team_size (epoch : Nat) (role other : TaskRole) (names : List String) :
    ((names.map (reloadReporter epoch role)).filter (fun owner => owner.owes epoch other)).length =
      if role = other then names.length else 0 := by
  rw [List.filter_map, List.length_map]
  have same : ((fun owner : ReloadDrainReporter => owner.owes epoch other) ∘
      reloadReporter epoch role) = fun _ => decide (role = other) := by
    funext name
    exact owes_reporter epoch role other name
  rw [same]
  by_cases this : role = other
  · simp [this]
  · simp [this]

theorem start_inv (epoch : Nat) (parsers sinks infras : List String) :
    Inv (start epoch parsers sinks infras).reporters epoch
      (start epoch parsers sinks infras) := by
  constructor
  · rfl
  · intro i event held
    have member := List.mem_of_getElem? held
    simp only [start, List.mem_append, List.mem_map] at member
    rcases member with ⟨name, -, made⟩ | ⟨name, -, made⟩ | ⟨name, -, made⟩
    all_goals
      cases made
      refine ⟨rfl, Option.some_ne_none _, _, held, ?_⟩
      simp [ReloadDrainReporter.owes]
  · exact List.nodup_nil
  · intro i
    constructor
    · intro member
      cases member
    · intro held
      have member := List.mem_of_getElem? held
      simp only [start, List.mem_append, List.mem_map] at member
      rcases member with ⟨name, -, made⟩ | ⟨name, -, made⟩ | ⟨name, -, made⟩
      all_goals cases made
  · intro message member
    cases member
  · intro message member
    cases member
  · intro role left counter
    simp only [start, List.filter_append, List.length_append, team_size]
    cases role <;> cases counter <;> simp [drainedOf, start]
  · intro answer member
    cases member

section Counted
variable {team : List ReloadDrainReporter} {epoch : Nat} {w : DrainBoard}

/-- The reporters whose drained events of this role were observed. -/
def drainedPlaces (w : DrainBoard) (role : TaskRole) : List Nat :=
  (w.drainedOf role).filterMap DrainMessage.reporter

theorem mem_drainedPlaces {role : TaskRole} {i : Nat} :
    i ∈ w.drainedPlaces role ↔ ∃ answer ∈ w.observed, answer.1.reporter = some i ∧
      answer.1.event.role = role ∧ answer.1.event.outcome = .drained := by
  simp only [drainedPlaces, drainedOf, List.mem_filterMap, List.mem_filter, List.mem_map,
    DrainMessage.drains, Bool.and_eq_true, decide_eq_true_eq]
  constructor
  · rintro ⟨message, ⟨⟨answer, member, rfl⟩, ⟨-, role⟩, drained⟩, source⟩
    exact ⟨answer, member, source, role, drained⟩
  · rintro ⟨answer, member, source, role, drained⟩
    exact ⟨answer.1, ⟨⟨answer, member, rfl⟩, ⟨by simp [source], role⟩, drained⟩, source⟩

theorem drainedPlaces_length (w : DrainBoard) (role : TaskRole) :
    (w.drainedPlaces role).length = (w.drainedOf role).length := by
  rw [drainedPlaces, List.filterMap_length_eq_length]
  intro message member
  have drains := (List.mem_filter.mp member).2
  simp only [DrainMessage.drains, Bool.and_eq_true] at drains
  exact drains.1.1

theorem drainedPlaces_nodup (inv : Inv team epoch w) (role : TaskRole) :
    (w.drainedPlaces role).Nodup := by
  have kept : (w.drainedPlaces role).Sublist (w.sent.filterMap DrainMessage.reporter) := by
    apply List.Sublist.filterMap
    exact List.filter_sublist.trans (List.sublist_append_left _ _)
  exact List.Nodup.sublist kept inv.once

theorem drainedPlaces_owing (inv : Inv team epoch w) (role : TaskRole) :
    w.drainedPlaces role ⊆ owingPlaces team epoch role := by
  intro i member
  obtain ⟨answer, given, source, rfl, -⟩ := mem_drainedPlaces.mp member
  have sent : answer.1 ∈ w.sent := List.mem_append_left _ (List.mem_map_of_mem given)
  exact (inv.own answer.1 sent i source).place

theorem owingPlaces_nodup (team : List ReloadDrainReporter) (epoch : Nat) (role : TaskRole) :
    (owingPlaces team epoch role).Nodup := by
  have sub : (owingPlaces team epoch role).Sublist (team.zipIdx.map Prod.snd) :=
    List.filter_sublist.map _
  rw [List.zipIdx_map_snd] at sub
  exact List.Nodup.sublist sub (List.nodup_range' 1)

/-- The event of a reporter has the role the reporter was created for. -/
theorem answer_role (inv : Inv team epoch w) {role : TaskRole} {i : Nat}
    (owing : i ∈ owingPlaces team epoch role) {answer : DrainMessage × Except String Unit}
    (given : answer ∈ w.observed) (source : answer.1.reporter = some i) :
    answer.1.event.role = role := by
  have sent : answer.1 ∈ w.sent := List.mem_append_left _ (List.mem_map_of_mem given)
  obtain ⟨-, -, owner, there, owes⟩ := inv.own answer.1 sent i source
  obtain ⟨⟨other, place⟩, member, rfl⟩ := List.mem_map.mp owing
  obtain ⟨listed, owes'⟩ := List.mem_filter.mp member
  rw [List.mk_mem_zipIdx_iff_getElem?.mp listed] at there
  cases there
  unfold ReloadDrainReporter.owes at owes owes'
  cases pending : owner.pending with
  | none => simp [pending] at owes
  | some event =>
    simp only [pending, Bool.and_eq_true, decide_eq_true_eq] at owes owes'
    exact owes.2.symm.trans owes'.2

/-- A counter is zero exactly when every reporter of its role has been seen to drain. -/
theorem counter_zero_iff (inv : Inv team epoch w) (role : TaskRole) {left : Nat}
    (counter : w.tracker.pending role = some left) :
    left = 0 ↔ ∀ i ∈ owingPlaces team epoch role, ∃ answer ∈ w.observed,
      answer.1.reporter = some i ∧ answer.1.event.outcome = .drained := by
  have total := inv.counts role left counter
  rw [← drainedPlaces_length, ← owingPlaces_length] at total
  constructor
  · intro zero i owing
    have some_places := List.Nodup.subperm (drainedPlaces_nodup inv role)
      (drainedPlaces_owing inv role)
    have drained := (some_places.perm_of_length_le (by omega)).mem_iff.mpr owing
    obtain ⟨answer, given, source, -, outcome⟩ := mem_drainedPlaces.mp drained
    exact ⟨answer, given, source, outcome⟩
  · intro all
    have drained : owingPlaces team epoch role ⊆ w.drainedPlaces role := by
      intro i owing
      obtain ⟨answer, given, source, outcome⟩ := all i owing
      exact mem_drainedPlaces.mpr ⟨answer, given, source, answer_role inv owing given source, outcome⟩
    have places := (List.Nodup.subperm (owingPlaces_nodup team epoch role) drained).length_le
    omega

end Counted

theorem start_owing (epoch : Nat) (parsers sinks infras : List String) (i : Nat) :
    i < parsers.length + sinks.length + infras.length ↔
      i ∈ owingPlaces (start epoch parsers sinks infras).reporters epoch .parser ∨
      i ∈ owingPlaces (start epoch parsers sinks infras).reporters epoch .sink ∨
      i ∈ owingPlaces (start epoch parsers sinks infras).reporters epoch .infra := by
  have size : (start epoch parsers sinks infras).reporters.length =
      parsers.length + sinks.length + infras.length := by
    simp only [start, List.length_append, List.length_map]
    omega
  rw [← size]
  simp only [owingPlaces, List.mem_map, List.mem_filter, Prod.exists, exists_eq_right,
    List.mk_mem_zipIdx_iff_getElem?]
  constructor
  · intro inside
    have there := List.getElem?_eq_getElem inside
    have member := List.mem_of_getElem? there
    simp only [start, List.mem_append, List.mem_map] at member
    rcases member with ⟨name, -, made⟩ | ⟨name, -, made⟩ | ⟨name, -, made⟩
    · exact Or.inl ⟨_, there, by simp [start, ← made, owes_reporter]⟩
    · exact Or.inr (Or.inl ⟨_, there, by simp [start, ← made, owes_reporter]⟩)
    · exact Or.inr (Or.inr ⟨_, there, by simp [start, ← made, owes_reporter]⟩)
  · rintro (⟨owner, there, -⟩ | ⟨owner, there, -⟩ | ⟨owner, there, -⟩)
    all_goals exact (List.getElem?_eq_some_iff.mp there).1

end DrainBoard

/-- Every reporter sends one event, once it is notified or dropped; each counter is what its role
    has left; the tracker is quiesced exactly when all reporters were seen to drain; and it
    answers with an error exactly to the aborts of its own epoch and roles. -/
theorem reload_drain_tracker_is_exact (epoch : Nat) (parsers sinks infras : List String)
    (steps : List DrainStep) :
    let w := Runs.run DrainBoard.step (DrainBoard.start epoch parsers sinks infras) steps
    let workers := parsers.length + sinks.length + infras.length
    (∀ i < workers, (w.sent.filterMap DrainMessage.reporter).count i =
      if .notify i ∈ steps ∨ .drop i ∈ steps then 1 else 0) ∧
    (w.tracker.parserPending + (w.drainedOf .parser).length = parsers.length ∧
      w.tracker.sinkPending + (w.drainedOf .sink).length = sinks.length ∧
      w.tracker.infraPending + (w.drainedOf .infra).length = infras.length) ∧
    (w.tracker.isFullyQuiesced = true ↔ ∀ i < workers, ∃ answer ∈ w.observed,
      answer.1.reporter = some i ∧ answer.1.event.outcome = .drained) ∧
    (∀ answer ∈ w.observed, (∃ text, answer.2 = .error text) ↔
      answer.1.event.epoch = epoch ∧ answer.1.event.role ∈ [.parser, .sink, .infra] ∧
        answer.1.event.outcome = .aborted) := by
  intro w workers
  let team := (DrainBoard.start epoch parsers sinks infras).reporters
  have inv : DrainBoard.Inv team epoch w :=
    Runs.run_invariant (DrainBoard.Inv team epoch) steps (fun _ s _ => DrainBoard.step_inv s) _
      (DrainBoard.start_inv epoch parsers sinks infras)
  have size : team.length = workers := by
    simp only [team, workers, DrainBoard.start, List.length_append, List.length_map]
    omega
  refine ⟨?_, ?_, ?_, ?_⟩
  · intro i inside
    have waiting : team[i]? ≠ some ⟨none⟩ := by
      intro finished
      have sent := (DrainBoard.start_inv epoch parsers sinks infras).done i
      cases sent.mpr finished
    have finished := DrainBoard.run_finished steps (DrainBoard.start epoch parsers sinks infras) i
      (by rw [← size] at inside; exact inside)
    rw [or_iff_right waiting, ← inv.done i] at finished
    rw [List.Nodup.count inv.once]
    simp only [finished]
  · have parser := inv.counts .parser _ rfl
    have sink := inv.counts .sink _ rfl
    have infra := inv.counts .infra _ rfl
    simp only [team, DrainBoard.start, List.filter_append, List.length_append,
      DrainBoard.team_size] at parser sink infra
    simp only [reduceCtorEq, if_true, if_false] at parser sink infra
    omega
  · have parser := DrainBoard.counter_zero_iff inv .parser rfl
    have sink := DrainBoard.counter_zero_iff inv .sink rfl
    have infra := DrainBoard.counter_zero_iff inv .infra rfl
    simp only [ReloadDrainTracker.isFullyQuiesced, Bool.and_eq_true, beq_iff_eq, parser, sink, infra]
    constructor
    · rintro ⟨⟨parsed, sunk⟩, stored⟩ i inside
      rcases (DrainBoard.start_owing epoch parsers sinks infras i).mp inside with
        owing | owing | owing
      · exact parsed i owing
      · exact sunk i owing
      · exact stored i owing
    · intro all
      have inside := fun i => (DrainBoard.start_owing epoch parsers sinks infras i).mpr
      refine ⟨⟨?_, ?_⟩, ?_⟩
      · intro i owing
        exact all i (inside i (Or.inl owing))
      · intro i owing
        exact all i (inside i (Or.inr (Or.inl owing)))
      · intro i owing
        exact all i (inside i (Or.inr (Or.inr owing)))
  · intro answer given
    rw [inv.answers answer given]
    have tracked : w.tracker.pending answer.1.event.role ≠ none ↔
        answer.1.event.role ∈ [.parser, .sink, .infra] := by
      cases answer.1.event.role <;> simp [ReloadDrainTracker.pending]
    rw [tracked]

end WarpMotor
