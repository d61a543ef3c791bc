import Mathlib.Logic.Function.Basic
import WarpMotor.Lib.Runs
import WarpMotor.Lib.Slots
import WarpMotor.Actor.SourceRate

/-!
The leases that workers draw on the shared rate limiter. A call of `consume`
waits for the lock, makes its reservation under it, and sleeps outside it; a
run is any sequence of these moves by any number of leases. Calls may be
cancelled while they wait.
-/
namespace WarpMotor

/-- The head of the loop of `consume`: what it still has to be granted, or the tokens it leaves. -/
inductive ConsumeTurn where
  | needs (required : Nat)
  | done (remaining : Nat)
  deriving DecidableEq, Repr

def consumeTurn (remaining required : Nat) : ConsumeTurn :=
  if remaining < required then .needs (required - remaining) else .done (remaining - required)

/-- A call of `consume` inside `wait_for_events`. -/
structure Consume where
  lease : Nat
  events : Nat
  required : Nat
  deriving DecidableEq, Repr

structure Release where
  grant : Grant
  time : Nat
  deriving DecidableEq, Repr

/-- The limiter with its leases (`remaining`) and the calls in flight. `reserved`, `released`,
    `dropped`, `panicked`, `granted` and `passed` are histories. -/
structure RateRun where
  clock : Nat
  limiter : SourceRateLimiter
  remaining : Nat → Nat
  queued : List Consume
  sleeping : List (Consume × Grant)
  reserved : List Grant
  released : List Release
  dropped : List Grant
  panicked : List Consume
  granted : Nat → Nat
  passed : Nat → Nat

/-- `lock k` gives the lock to the k-th queued call, `wake k` ends the k-th sleep. -/
inductive RateMove where
  | consume (lease events : Nat)
  | lock (k : Nat)
  | wake (k : Nat)
  | cancelQueued (k : Nat)
  | cancelSleeping (k : Nat)
  deriving DecidableEq, Repr

namespace RateRun

def start (limiter : SourceRateLimiter) (clock : Nat) : RateRun :=
  { clock, limiter, remaining := fun _ => 0, queued := [], sleeping := [], reserved := []
    released := [], dropped := [], panicked := [], granted := fun _ => 0, passed := fun _ => 0 }

def inFlight (r : RateRun) : List Consume := r.queued ++ r.sleeping.map Prod.fst

def add (count : Nat → Nat) (lease amount : Nat) : Nat → Nat :=
  Function.update count lease (count lease + amount)

/-- `consume` takes the lease exclusively: a lease has one call at a time. -/
def consume (r : RateRun) (lease events : Nat) : RateRun :=
  if events = 0 ∨ lease ∈ r.inFlight.map Consume.lease then r
  else
    match consumeTurn (r.remaining lease) events with
    | .needs required => { r with queued := r.queued ++ [(⟨lease, events, required⟩ : Consume)] }
    | .done remaining =>
      { r with
        remaining := Function.update r.remaining lease remaining
        passed := add r.passed lease events }

/-- `consume` after `wait_for_events`: the grant becomes the lease's tokens. -/
def goOn (r : RateRun) (call : Consume) (grant : Nat) : RateRun :=
  let r := { r with granted := add r.granted call.lease grant }
  match consumeTurn grant call.required with
  | .needs required =>
    { r with
      remaining := Function.update r.remaining call.lease grant
      queued := r.queued ++ [{ call with required }] }
  | .done remaining =>
    { r with
      remaining := Function.update r.remaining call.lease remaining
      passed := add r.passed call.lease call.events }

def lock (horizon : Nat) (r : RateRun) (call : Consume) : RateRun :=
  let grant := max r.limiter.leaseEvents call.required
  match r.limiter.waitForEvents horizon r.clock grant with
  | none => { r with panicked := r.panicked ++ [call] }
  | some (none, limiter) => { r with limiter }.goOn call grant
  | some (some g, limiter) =>
    let r := { r with limiter, reserved := r.reserved ++ [g] }
    if g.due ≤ r.clock then
      { r with released := r.released ++ [(⟨g, r.clock⟩ : Release)] }.goOn call grant
    else { r with sleeping := r.sleeping ++ [(call, g)] }

def wake (r : RateRun) (k : Nat) (call : Consume) (g : Grant) : RateRun :=
  { r with
    sleeping := r.sleeping.eraseIdx k
    released := r.released ++ [(⟨g, r.clock⟩ : Release)] }.goOn call g.events

/-- One move at time `now`; a move that is not enabled changes nothing. A sleep ends when it is
    due or later. -/
def step (horizon : Nat) (r : RateRun) (now : Nat) (move : RateMove) : RateRun :=
  if now < r.clock then r
  else
    let r := { r with clock := now }
    match move with
    | .consume lease events => r.consume lease events
    | .lock k =>
      match r.queued[k]? with
      | none => r
      | some call => { r with queued := r.queued.eraseIdx k }.lock horizon call
    | .wake k =>
      match r.sleeping[k]? with
      | none => r
      | some (call, g) => if now < g.due then r else r.wake k call g
    | .cancelQueued k => { r with queued := r.queued.eraseIdx k }
    | .cancelSleeping k =>
      match r.sleeping[k]? with
      | none => r
      | some (_, g) =>
        { r with sleeping := r.sleeping.eraseIdx k, dropped := r.dropped ++ [g] }

def run (horizon : Nat) (r : RateRun) (moves : List (Nat × RateMove)) : RateRun :=
  Runs.run (fun r move => r.step horizon move.1 move.2) r moves

def releasedIn (r : RateRun) (s t : Nat) : List Release :=
  r.released.filter fun release => s ≤ release.time && release.time ≤ t

end RateRun

/-- Every run of a limiter with a fixed rate. -/
def rateRun (env : RateEnv) (horizon ratePerSec begin : Nat) (moves : List (Nat × RateMove)) :
    RateRun :=
  (RateRun.start (SourceRateLimiter.withMode env .fixed ratePerSec begin) begin).run horizon moves

namespace RateRun

/-- Reservations are spaced by their durations along the time line, and each is released when it
    is due or later, asleep, or dropped. -/
structure Timed (r : RateRun) (ratePerSec horizon : Nat) : Prop where
  fixed : r.limiter.ratePerSec = ratePerSec
  spaced : Slots.Spaced Grant.due Grant.duration r.reserved
  ends : ∀ g ∈ r.reserved, g.due + g.duration ≤ r.limiter.nextDeadline
  priced : ∀ g ∈ r.reserved, r.limiter.durationFor g.events = some g.duration
  accounted : (r.released.map Release.grant ++ r.sleeping.map Prod.snd ++ r.dropped).Perm r.reserved
  due : ∀ release ∈ r.released, release.grant.due ≤ release.time
  bounded : r.limiter.nextDeadline ≤ r.clock + Slots.total Grant.duration r.reserved
  calm : r.panicked ≠ [] →
    horizon < r.clock + Slots.total Grant.duration r.reserved + u64Max

variable {r : RateRun} {ratePerSec horizon : Nat}

theorem Timed.goOn (timed : r.Timed ratePerSec horizon) (call : Consume) (grant : Nat) :
    (r.goOn call grant).Timed ratePerSec horizon := by
  unfold RateRun.goOn
  dsimp only
  split <;>
    exact ⟨timed.fixed, timed.spaced, timed.ends, timed.priced, timed.accounted, timed.due,
      timed.bounded, timed.calm⟩

theorem Timed.consume (timed : r.Timed ratePerSec horizon) (lease events : Nat) :
    (r.consume lease events).Timed ratePerSec horizon := by
  unfold RateRun.consume
  split
  · exact timed
  · split <;>
      exact ⟨timed.fixed, timed.spaced, timed.ends, timed.priced, timed.accounted, timed.due,
        timed.bounded, timed.calm⟩

theorem Timed.tick (timed : r.Timed ratePerSec horizon) {now : Nat} (later : r.clock ≤ now) :
    Timed { r with clock := now } ratePerSec horizon := by
  refine ⟨timed.fixed, timed.spaced, timed.ends, timed.priced, timed.accounted, timed.due, ?_, ?_⟩
  · exact Nat.le_trans timed.bounded (Nat.add_le_add_right later _)
  · intro panic
    have past := timed.calm panic
    dsimp only
    omega

/-- A reservation in the histories, before its call sleeps or goes on. -/
def reserve (r : RateRun) (g : Grant) (limiter : SourceRateLimiter) : RateRun :=
  { r with limiter, reserved := r.reserved ++ [g] }

theorem Timed.reserves (timed : r.Timed ratePerSec horizon) {events : Nat} {g : Grant}
    {limiter : SourceRateLimiter} (reserves : r.limiter.Reserves r.clock events g limiter)
    {released : List Release} {sleeping : List (Consume × Grant)}
    (accounted : (released.map Release.grant ++ sleeping.map Prod.snd).Perm
      (g :: (r.released.map Release.grant ++ r.sleeping.map Prod.snd)))
    (due : ∀ release ∈ released, release.grant.due ≤ release.time) :
    Timed { r.reserve g limiter with released, sleeping } ratePerSec horizon := by
  have after := reserves.after
  subst after
  have due_eq := reserves.due
  have bounded := timed.bounded
  refine ⟨timed.fixed, ?_, ?_, ?_, ?_, due, ?_, ?_⟩
  · apply Slots.spaced_concat timed.spaced
    intro b member
    have ended := timed.ends b member
    omega
  · intro b member
    rcases List.mem_append.mp member with old | new
    · have ended := timed.ends b old
      show _ ≤ g.due + g.duration
      omega
    · rw [List.mem_singleton.mp new]
      exact Nat.le_refl _
  · intro b member
    rcases List.mem_append.mp member with old | new
    · exact timed.priced b old
    · rw [List.mem_singleton.mp new, reserves.amount]
      exact reserves.priced
  · exact ((accounted.append_right r.dropped).trans (timed.accounted.cons g)).trans
      (List.perm_append_singleton g r.reserved).symm
  · show g.due + g.duration ≤ r.clock + Slots.total Grant.duration (r.reserved ++ [g])
    rw [Slots.total_append, Slots.total_cons, Slots.total_nil]
    omega
  · intro panic
    have past := timed.calm panic
    show horizon < r.clock + Slots.total Grant.duration (r.reserved ++ [g]) + u64Max
    rw [Slots.total_append]
    omega

theorem Timed.lock (timed : r.Timed ratePerSec horizon) (call : Consume) :
    (r.lock horizon call).Timed ratePerSec horizon := by
  unfold RateRun.lock
  dsimp only
  split
  · rename_i panics
    obtain ⟨duration, priced, past⟩ := SourceRateLimiter.waitForEvents_panics panics
    have small := SourceRateLimiter.durationFor_le priced
    have bounded := timed.bounded
    refine ⟨timed.fixed, timed.spaced, timed.ends, timed.priced, timed.accounted, timed.due,
      timed.bounded, ?_⟩
    intro _
    dsimp only
    omega
  · rename_i limiter free
    cases SourceRateLimiter.waitForEvents_free free
    exact timed.goOn call _
  · rename_i g limiter granted
    have reserves := SourceRateLimiter.waitForEvents_reserves granted
    split
    · rename_i at_once
      apply Timed.goOn
      apply timed.reserves reserves
      · rw [List.map_append, List.append_assoc]
        exact List.perm_middle
      · intro release member
        rcases List.mem_append.mp member with old | new
        · exact timed.due release old
        · rw [List.mem_singleton.mp new]
          exact at_once
    · apply timed.reserves reserves _ timed.due
      rw [List.map_append, ← List.append_assoc]
      exact List.perm_append_singleton _ _

theorem perm_cons_eraseIdx {A : Type} {l : List A} {k : Nat} {a : A} (found : l[k]? = some a) :
    (a :: l.eraseIdx k).Perm l := by
  obtain ⟨inside, rfl⟩ := List.getElem?_eq_some_iff.mp found
  exact List.getElem_cons_eraseIdx_perm inside

theorem Timed.step (timed : r.Timed ratePerSec horizon) (now : Nat) (move : RateMove) :
    (r.step horizon now move).Timed ratePerSec horizon := by
  unfold RateRun.step
  split
  · exact timed
  · rename_i reached
    have ticked := timed.tick (Nat.le_of_not_lt reached)
    dsimp only
    cases move with
    | consume lease events => exact ticked.consume lease events
    | lock k =>
      dsimp only
      split
      · exact ticked
      · apply Timed.lock
        exact ⟨ticked.fixed, ticked.spaced, ticked.ends, ticked.priced, ticked.accounted,
          ticked.due, ticked.bounded, ticked.calm⟩
    | wake k =>
      dsimp only
      split
      · exact ticked
      · rename_i call g found
        split
        · exact ticked
        · rename_i over_due
          apply Timed.goOn
          refine ⟨ticked.fixed, ticked.spaced, ticked.ends, ticked.priced, ?_, ?_,
            ticked.bounded, ticked.calm⟩
          · refine List.Perm.trans (List.Perm.append_right _ ?_) ticked.accounted
            have moved := (perm_cons_eraseIdx found).map Prod.snd
            rw [List.map_append, List.append_assoc]
            exact List.Perm.append_left _ moved
          · intro release member
            rcases List.mem_append.mp member with old | new
            · exact ticked.due release old
            · rw [List.mem_singleton.mp new]
              exact Nat.le_of_not_lt over_due
    | cancelQueued k =>
      exact ⟨ticked.fixed, ticked.spaced, ticked.ends, ticked.priced, ticked.accounted,
        ticked.due, ticked.bounded, ticked.calm⟩
    | cancelSleeping k =>
      dsimp only
      split
      · exact ticked
      · rename_i call g found
        refine ⟨ticked.fixed, ticked.spaced, ticked.ends, ticked.priced, ?_, ticked.due,
          ticked.bounded, ticked.calm⟩
        refine List.Perm.trans ?_ ticked.accounted
        have moved := (perm_cons_eraseIdx found).map Prod.snd
        rw [List.append_assoc, List.append_assoc]
        refine List.Perm.append_left _ (List.Perm.trans ?_ (moved.append_right _))
        rw [← List.append_assoc]
        exact List.perm_append_singleton g _

/-- What the calls in flight still owe, and the tokens of every lease. -/
structure Settled (r : RateRun) : Prop where
  single : (r.inFlight.map Consume.lease).Nodup
  owed : ∀ call ∈ r.inFlight, call.events = r.remaining call.lease + call.required
  enough : ∀ held ∈ r.sleeping, held.1.required ≤ held.2.events
  balance : ∀ lease, r.passed lease + r.remaining lease = r.granted lease

theorem consumeTurn_of_le {remaining required : Nat} (enough : required ≤ remaining) :
    consumeTurn remaining required = .done (remaining - required) :=
  if_neg (Nat.not_lt.mpr enough)

/-- Booking tokens of a lease without a call in flight. -/
theorem Settled.books {r' : RateRun} (settled : r.Settled) {lease : Nat}
    (absent : lease ∉ r.inFlight.map Consume.lease) (queued : r'.queued = r.queued)
    (sleeping : r'.sleeping = r.sleeping)
    (elsewhere : ∀ other, other ≠ lease → r'.remaining other = r.remaining other ∧
      r'.passed other = r.passed other ∧ r'.granted other = r.granted other)
    (here : r'.passed lease + r'.remaining lease = r'.granted lease) : r'.Settled := by
  have flight : r'.inFlight = r.inFlight := by
    rw [RateRun.inFlight, RateRun.inFlight, queued, sleeping]
  refine ⟨flight ▸ settled.single, ?_, sleeping ▸ settled.enough, ?_⟩
  · rw [flight]
    intro call member
    have differs : call.lease ≠ lease := by
      intro same
      exact absent (same ▸ List.mem_map_of_mem member)
    rw [(elsewhere call.lease differs).1]
    exact settled.owed call member
  · intro other
    by_cases same : other = lease
    · rw [same]
      exact here
    · obtain ⟨remaining, passed, granted⟩ := elsewhere other same
      rw [remaining, passed, granted]
      exact settled.balance other

/-- A call that has left the lists and is owed what it has asked for goes on. -/
theorem Settled.goOn (settled : r.Settled) {call : Consume} {grant : Nat}
    (absent : call.lease ∉ r.inFlight.map Consume.lease)
    (owes : call.events = r.remaining call.lease + call.required)
    (enough : call.required ≤ grant) : (r.goOn call grant).Settled := by
  have done : r.goOn call grant =
      { r with
        granted := add r.granted call.lease grant
        remaining := Function.update r.remaining call.lease (grant - call.required)
        passed := add r.passed call.lease call.events } := by
    unfold RateRun.goOn
    rw [consumeTurn_of_le enough]
  rw [done]
  refine settled.books absent rfl rfl ?_ ?_
  · intro other differs
    exact ⟨Function.update_of_ne differs .., Function.update_of_ne differs ..,
      Function.update_of_ne differs ..⟩
  · have balanced := settled.balance call.lease
    simp only [add, Function.update_self]
    omega

/-- Taking one call out of flight. -/
theorem Settled.leaves {r' : RateRun} (settled : r.Settled) {call : Consume}
    (flight : (call :: r'.inFlight).Perm r.inFlight) (asleep : r'.sleeping.Sublist r.sleeping)
    (remaining : r'.remaining = r.remaining) (passed : r'.passed = r.passed)
    (granted : r'.granted = r.granted) :
    r'.Settled ∧ call.lease ∉ r'.inFlight.map Consume.lease ∧
      call.events = r'.remaining call.lease + call.required := by
  have single := (flight.map Consume.lease).nodup_iff.mpr settled.single
  rw [List.map_cons, List.nodup_cons] at single
  refine ⟨⟨single.2, ?_, ?_, ?_⟩, single.1, ?_⟩
  · intro other member
    rw [remaining]
    exact settled.owed other (flight.subset (List.mem_cons_of_mem _ member))
  · intro held member
    exact settled.enough held (asleep.subset member)
  · rw [remaining, passed, granted]
    exact settled.balance
  · rw [remaining]
    exact settled.owed call (flight.subset (List.mem_cons_self ..))

theorem Settled.consume (settled : r.Settled) (lease events : Nat) :
    (r.consume lease events).Settled := by
  unfold RateRun.consume
  split
  · exact settled
  · rename_i idle
    have free : lease ∉ r.inFlight.map Consume.lease := fun busy => idle (.inr busy)
    unfold consumeTurn
    split
    · rename_i required turn
      split at turn <;> cases turn
      rename_i short
      have joins : (RateRun.inFlight { r with queued :=
          r.queued ++ [⟨lease, events, events - r.remaining lease⟩] }).Perm
            (⟨lease, events, events - r.remaining lease⟩ :: r.inFlight) := by
        unfold RateRun.inFlight
        rw [List.append_assoc]
        exact List.perm_middle
      refine ⟨?_, ?_, settled.enough, settled.balance⟩
      · exact (joins.map Consume.lease).nodup_iff.mpr
          (List.nodup_cons.mpr ⟨free, settled.single⟩)
      · intro call member
        rcases List.mem_cons.mp (joins.subset member) with rfl | old
        · dsimp only
          omega
        · exact settled.owed call old
    · rename_i remaining turn
      split at turn <;> cases turn
      rename_i enough
      refine settled.books free rfl rfl ?_ ?_
      · intro other differs
        exact ⟨Function.update_of_ne differs .., Function.update_of_ne differs .., rfl⟩
      · have balanced := settled.balance lease
        simp only [add, Function.update_self]
        omega

theorem Settled.lock (settled : r.Settled) {call : Consume}
    (absent : call.lease ∉ r.inFlight.map Consume.lease)
    (owes : call.events = r.remaining call.lease + call.required) :
    (r.lock horizon call).Settled := by
  have enough : call.required ≤ max r.limiter.leaseEvents call.required := Nat.le_max_right _ _
  unfold RateRun.lock
  dsimp only
  split
  · exact ⟨settled.single, settled.owed, settled.enough, settled.balance⟩
  · refine Settled.goOn ?_ absent owes enough
    exact ⟨settled.single, settled.owed, settled.enough, settled.balance⟩
  · rename_i g limiter granted
    have amount := (SourceRateLimiter.waitForEvents_reserves granted).amount
    split
    · refine Settled.goOn ?_ absent owes enough
      exact ⟨settled.single, settled.owed, settled.enough, settled.balance⟩
    · have joins : (r.queued ++ (r.sleeping ++ [(call, g)]).map Prod.fst).Perm
          (call :: r.inFlight) := by
        rw [List.map_append, ← List.append_assoc]
        exact List.perm_append_singleton _ _
      refine ⟨?_, ?_, ?_, settled.balance⟩
      · exact (joins.map Consume.lease).nodup_iff.mpr
          (List.nodup_cons.mpr ⟨absent, settled.single⟩)
      · intro other member
        rcases List.mem_cons.mp (joins.subset member) with rfl | old
        · exact owes
        · exact settled.owed other old
      · intro held member
        rcases List.mem_append.mp member with old | new
        · exact settled.enough held old
        · rw [List.mem_singleton.mp new]
          show call.required ≤ g.events
          rw [amount]
          exact enough

theorem Settled.dequeues (settled : r.Settled) {k : Nat} {call : Consume}
    (found : r.queued[k]? = some call) :
    Settled { r with queued := r.queued.eraseIdx k } ∧
      call.lease ∉ (r.queued.eraseIdx k ++ r.sleeping.map Prod.fst).map Consume.lease ∧
        call.events = r.remaining call.lease + call.required :=
  settled.leaves ((perm_cons_eraseIdx found).append_right _) (List.Sublist.refl _) rfl rfl rfl

theorem Settled.wakes (settled : r.Settled) {k : Nat} {call : Consume} {g : Grant}
    (found : r.sleeping[k]? = some (call, g)) :
    Settled { r with sleeping := r.sleeping.eraseIdx k } ∧
      call.lease ∉ (r.queued ++ (r.sleeping.eraseIdx k).map Prod.fst).map Consume.lease ∧
        call.events = r.remaining call.lease + call.required := by
  have moved := (perm_cons_eraseIdx found).map Prod.fst
  exact settled.leaves (List.perm_middle.symm.trans (moved.append_left r.queued))
    (List.eraseIdx_sublist ..) rfl rfl rfl

theorem Settled.step (settled : r.Settled) (now : Nat) (move : RateMove) :
    (r.step horizon now move).Settled := by
  unfold RateRun.step
  split
  · exact settled
  · have ticked : Settled { r with clock := now } :=
      ⟨settled.single, settled.owed, settled.enough, settled.balance⟩
    dsimp only
    cases move with
    | consume lease events => exact ticked.consume lease events
    | lock k =>
      dsimp only
      split
      · exact ticked
      · rename_i call found
        obtain ⟨rest, absent, owes⟩ := ticked.dequeues found
        exact rest.lock absent owes
    | wake k =>
      dsimp only
      split
      · exact ticked
      · rename_i call g found
        split
        · exact ticked
        · obtain ⟨rest, absent, owes⟩ := ticked.wakes found
          have enough := settled.enough (call, g) (List.mem_of_getElem? found)
          refine Settled.goOn ?_ absent owes enough
          exact ⟨rest.single, rest.owed, rest.enough, rest.balance⟩
    | cancelQueued k =>
      cases found : r.queued[k]? with
      | none =>
        have short : r.queued.length ≤ k := List.getElem?_eq_none_iff.mp found
        dsimp only
        rw [List.eraseIdx_of_length_le short]
        exact ticked
      | some call => exact (ticked.dequeues found).1
    | cancelSleeping k =>
      dsimp only
      split
      · exact ticked
      · rename_i call g found
        have rest := (ticked.wakes found).1
        exact ⟨rest.single, rest.owed, rest.enough, rest.balance⟩

end RateRun

theorem rateRun_timed (env : RateEnv) (horizon ratePerSec begin : Nat)
    (moves : List (Nat × RateMove)) :
    (rateRun env horizon ratePerSec begin moves).Timed ratePerSec horizon := by
  apply Runs.run_invariant (RateRun.Timed · ratePerSec horizon) moves
  · intro r move _ timed
    exact timed.step move.1 move.2
  · exact ⟨rfl, Slots.spaced_nil, by simp [RateRun.start], by simp [RateRun.start], .refl _,
      by simp [RateRun.start], Nat.le_add_right _ _, by simp [RateRun.start]⟩

theorem rateRun_settled (env : RateEnv) (horizon ratePerSec begin : Nat)
    (moves : List (Nat × RateMove)) : (rateRun env horizon ratePerSec begin moves).Settled := by
  apply Runs.run_invariant RateRun.Settled moves
  · intro r move _ settled
    exact settled.step move.1 move.2
  · exact ⟨List.nodup_nil, by simp [RateRun.start, RateRun.inFlight], by simp [RateRun.start],
      fun _ => rfl⟩

namespace RateRun

theorem Timed.window {r : RateRun} {ratePerSec horizon late s t : Nat}
    (timed : r.Timed ratePerSec horizon) (ordered : s ≤ t)
    (prompt : ∀ release ∈ r.releasedIn s t, release.time ≤ release.grant.due + late)
    (some_release : r.releasedIn s t ≠ []) :
    ∃ release ∈ r.releasedIn s t,
      Slots.total Grant.duration ((r.releasedIn s t).map Release.grant) ≤
        (t - s) + late + release.grant.duration := by
  have part : ((r.releasedIn s t).map Release.grant).Subperm r.reserved := by
    have among : ((r.releasedIn s t).map Release.grant).Sublist (r.released.map Release.grant) :=
      List.filter_sublist.map Release.grant
    rw [← timed.accounted.subperm_left, List.append_assoc]
    exact (among.trans (List.sublist_append_left _ _)).subperm
  have inside : ∀ g ∈ (r.releasedIn s t).map Release.grant, s - late ≤ g.due ∧ g.due ≤ t := by
    intro g member
    obtain ⟨release, present, rfl⟩ := List.mem_map.mp member
    have soon := prompt release present
    obtain ⟨held, between⟩ := List.mem_filter.mp present
    have due := timed.due release held
    simp only [Bool.and_eq_true, decide_eq_true_eq] at between
    omega
  obtain ⟨g, member, bounded⟩ := timed.spaced.part_le_window part
    (fun empty => some_release (List.map_eq_nil_iff.mp empty)) inside
  obtain ⟨release, present, rfl⟩ := List.mem_map.mp member
  refine ⟨release, present, bounded.trans ?_⟩
  omega

end RateRun

/-- In every run of a fixed rate the grants released in a window fill no more than the window, the
    longest overrun of a sleep in it and one grant more; no lease passes more than it was granted;
    the 128-bit product is exact and nothing panics before the clock type ends. -/
theorem source_rate_is_global (env : RateEnv) (horizon ratePerSec begin : Nat)
    (moves : List (Nat × RateMove)) (r : RateRun) (fixed : ratePerSec ≠ 0)
    (ran : rateRun env horizon ratePerSec begin moves = r) :
    (∀ release ∈ r.released,
        r.limiter.durationFor release.grant.events = some release.grant.duration ∧
          release.grant.due ≤ release.time) ∧
      (∀ late s t, s ≤ t → r.releasedIn s t ≠ [] →
        (∀ release ∈ r.releasedIn s t, release.time ≤ release.grant.due + late) →
        ∃ release ∈ r.releasedIn s t,
          Slots.total Grant.duration ((r.releasedIn s t).map Release.grant) ≤
            (t - s) + late + release.grant.duration) ∧
        (∀ lease, r.passed lease ≤ r.granted lease) ∧
          (∀ events, events ≤ usizeMax → r.limiter.durationFor events =
            some (min (max (10 ^ 9 * events / ratePerSec) 1) u64Max)) ∧
            (r.clock + Slots.total Grant.duration r.reserved + u64Max ≤ horizon →
              r.panicked = []) := by
  subst ran
  have timed := rateRun_timed env horizon ratePerSec begin moves
  have settled := rateRun_settled env horizon ratePerSec begin moves
  refine ⟨?_, ?_, ?_, ?_, ?_⟩
  · intro release member
    refine ⟨timed.priced _ (timed.accounted.subset ?_), timed.due release member⟩
    rw [List.append_assoc]
    exact List.mem_append_left _ (List.mem_map_of_mem member)
  · intro late s t ordered some_release prompt
    exact timed.window ordered prompt some_release
  · intro lease
    have balanced := settled.balance lease
    omega
  · intro events counted
    have priced := SourceRateLimiter.durationFor_exact
      (rateRun env horizon ratePerSec begin moves).limiter (timed.fixed.trans_ne fixed) counted
    rw [timed.fixed] at priced
    exact priced
  · intro within
    by_contra panic
    have past := timed.calm panic
    omega

section Limits

/-- One event per second, and three leases that take one event each at time 0. -/
def threeLeases : List (Nat × RateMove) :=
  [(0, .consume 0 1), (0, .lock 0), (0, .consume 1 1), (0, .lock 0), (0, .consume 2 1), (0, .lock 0)]

/-- Two sleeps that end on time. -/
theorem three_leases_are_spaced :
    ∃ release ∈ (rateRun plainRateEnv u64Max 1 0
        (threeLeases ++ [(10 ^ 9, .wake 0), (2 * 10 ^ 9, .wake 0)])).releasedIn 0 (2 * 10 ^ 9),
      3 * 10 ^ 9 ≤ (2 * 10 ^ 9 - 0) + 0 + release.grant.duration :=
  (source_rate_is_global plainRateEnv u64Max 1 0
    (threeLeases ++ [(10 ^ 9, .wake 0), (2 * 10 ^ 9, .wake 0)]) _ Nat.one_ne_zero rfl).2.1
      0 0 (2 * 10 ^ 9) (by decide) (by decide) (by decide)

def second : Nat := 10 ^ 9

/-- A limiter of one event per second whose deadline is ahead of the clock, and an empty lease. -/
structure Behind (r : RateRun) (deadline : Nat) : Prop where
  clock : r.clock = 0
  limiter : r.limiter = ⟨.fixed, 1, 1, deadline⟩
  ahead : 0 < deadline
  remaining : r.remaining 0 = 0
  queued : r.queued = []
  sleeping : r.sleeping = []

/-- A call that is cancelled in its sleep. -/
def cancelledCall : List (Nat × RateMove) :=
  [(0, .consume 0 1), (0, .lock 0), (0, .cancelSleeping 0)]

theorem perSecond_durationFor (deadline : Nat) :
    SourceRateLimiter.durationFor ⟨.fixed, 1, 1, deadline⟩ 1 = some second := by
  rw [SourceRateLimiter.durationFor_exact _ Nat.one_ne_zero (by norm_num [usizeMax])]
  norm_num [u64Max, second]

theorem perSecond_waitForEvents (horizon : Nat) {deadline : Nat} (ahead : 0 < deadline) :
    SourceRateLimiter.waitForEvents horizon ⟨.fixed, 1, 1, deadline⟩ 0 1 =
      if deadline + second ≤ horizon then
        some (some ⟨1, deadline, second⟩, ⟨.fixed, 1, 1, deadline + second⟩)
      else none := by
  unfold SourceRateLimiter.waitForEvents
  rw [if_neg Nat.one_ne_zero, perSecond_durationFor]
  dsimp only
  rw [Nat.sub_zero, if_neg (Nat.ne_of_gt ahead)]

theorem lock_panics {r : RateRun} {horizon : Nat} (call : Consume)
    (panics : r.limiter.waitForEvents horizon r.clock
      (max r.limiter.leaseEvents call.required) = none) :
    r.lock horizon call = { r with panicked := r.panicked ++ [call] } := by
  unfold RateRun.lock
  dsimp only
  rw [panics]

theorem lock_sleeps {r : RateRun} {horizon : Nat} (call : Consume) {g : Grant}
    {limiter : SourceRateLimiter}
    (granted : r.limiter.waitForEvents horizon r.clock
      (max r.limiter.leaseEvents call.required) = some (some g, limiter)) (later : r.clock < g.due) :
    r.lock horizon call =
      { r with limiter, reserved := r.reserved ++ [g], sleeping := r.sleeping ++ [(call, g)] } := by
  unfold RateRun.lock
  dsimp only
  rw [granted]
  exact if_neg (Nat.not_le.mpr later)

/-- The first two moves of a call whose lease is empty. -/
theorem Behind.locks {r : RateRun} {deadline : Nat} (behind : Behind r deadline)
    (horizon : Nat) :
    r.run horizon cancelledCall =
      (r.lock horizon ⟨0, 1, 1⟩).step horizon 0 (.cancelSleeping 0) := by
  obtain ⟨clock, limiter, remaining, queued, sleeping, reserved, released, dropped, panicked,
    granted, passed⟩ := r
  obtain ⟨rfl, _, _, empty, rfl, rfl⟩ := behind
  dsimp only at empty
  have turn : consumeTurn (remaining 0) 1 = .needs 1 := by rw [empty]; rfl
  simp [RateRun.run, cancelledCall, RateRun.step, RateRun.consume, RateRun.inFlight, turn]

theorem step_cancelSleeping {r : RateRun} (horizon : Nat) {call : Consume} {g : Grant}
    (clock : r.clock = 0) (sleeping : r.sleeping = [(call, g)]) :
    r.step horizon 0 (.cancelSleeping 0) = { r with sleeping := [], dropped := r.dropped ++ [g] } := by
  simp [RateRun.step, clock, sleeping]

theorem step_cancelSleeping_panicked (r : RateRun) (horizon now k : Nat) :
    (r.step horizon now (.cancelSleeping k)).panicked = r.panicked := by
  unfold RateRun.step
  split
  · rfl
  · dsimp only
    split <;> rfl

/-- A cancelled call leaves its reservation behind, or panics for want of one. -/
theorem Behind.cancelled {r : RateRun} {deadline : Nat} (behind : Behind r deadline)
    (horizon : Nat) :
    (deadline + second ≤ horizon ∧ Behind (r.run horizon cancelledCall) (deadline + second)) ∨
      (r.run horizon cancelledCall).panicked ≠ [] := by
  have reserves : r.limiter.waitForEvents horizon r.clock (max r.limiter.leaseEvents 1) =
      if deadline + second ≤ horizon then
        some (some ⟨1, deadline, second⟩, ⟨.fixed, 1, 1, deadline + second⟩)
      else none := by
    rw [behind.clock, behind.limiter]
    exact perSecond_waitForEvents horizon behind.ahead
  rw [behind.locks horizon]
  by_cases fits : deadline + second ≤ horizon
  · left
    rw [if_pos fits] at reserves
    have later : r.clock < Grant.due ⟨1, deadline, second⟩ := behind.clock ▸ behind.ahead
    have asleep := lock_sleeps ⟨0, 1, 1⟩ reserves later
    rw [behind.sleeping, List.nil_append] at asleep
    have clock : (r.lock horizon ⟨0, 1, 1⟩).clock = 0 := by rw [asleep]; exact behind.clock
    rw [step_cancelSleeping horizon clock (by rw [asleep]), asleep]
    exact ⟨fits, behind.clock, rfl, Nat.add_pos_left behind.ahead _, behind.remaining,
      behind.queued, rfl⟩
  · right
    rw [if_neg fits] at reserves
    rw [step_cancelSleeping_panicked, lock_panics ⟨0, 1, 1⟩ reserves]
    exact List.append_ne_nil_of_right_ne_nil _ (List.cons_ne_nil _ _)

theorem Behind.panics {horizon fuel : Nat} {r : RateRun} {deadline : Nat}
    (behind : Behind r deadline) (enough : horizon < deadline + fuel) :
    ∃ moves, (r.run horizon moves).panicked ≠ [] := by
  induction fuel generalizing r deadline with
  | zero =>
    refine ⟨cancelledCall, (behind.cancelled horizon).resolve_left ?_⟩
    omega
  | succ fuel ih =>
    rcases behind.cancelled horizon with ⟨fits, next⟩ | panic
    · have positive : 0 < second := by decide
      obtain ⟨moves, panic⟩ := ih next (by omega)
      refine ⟨cancelledCall ++ moves, ?_⟩
      rw [RateRun.run, Runs.run, List.foldl_append]
      exact panic
    · exact ⟨cancelledCall, panic⟩

theorem first_call_gets_behind (horizon : Nat) :
    Behind (rateRun plainRateEnv horizon 1 0 [(0, .consume 0 1), (0, .lock 0)]) second ∨
      (rateRun plainRateEnv horizon 1 0 [(0, .consume 0 1), (0, .lock 0)]).panicked ≠ [] := by
  have fresh : SourceRateLimiter.withMode plainRateEnv .fixed 1 0 = ⟨.fixed, 1, 1, 0⟩ := rfl
  have reserves : SourceRateLimiter.waitForEvents horizon ⟨.fixed, 1, 1, 0⟩ 0 1 =
      if second ≤ horizon then some (some ⟨1, 0, second⟩, ⟨.fixed, 1, 1, second⟩) else none := by
    unfold SourceRateLimiter.waitForEvents
    rw [if_neg Nat.one_ne_zero, perSecond_durationFor]
    rfl
  by_cases fits : second ≤ horizon
  · left
    rw [if_pos fits] at reserves
    refine ⟨?_, ?_, by decide, ?_, ?_, ?_⟩ <;>
      simp [rateRun, fresh, RateRun.run, RateRun.start, RateRun.step, RateRun.consume,
        RateRun.inFlight, consumeTurn, RateRun.lock, reserves, RateRun.goOn]
  · right
    rw [if_neg fits] at reserves
    simp [rateRun, fresh, RateRun.run, RateRun.start, RateRun.step, RateRun.consume, RateRun.inFlight,
      consumeTurn, RateRun.lock, reserves]

/-- Two sleeps that end in the same instant release two seconds' worth at once, and whatever the
    clock type holds, enough cancelled calls get past it. -/
theorem late_wakes_and_the_end_of_the_clock :
    (∃ moves r, rateRun plainRateEnv u64Max 1 0 moves = r ∧ r.panicked = [] ∧
      r.releasedIn (2 * 10 ^ 9) (2 * 10 ^ 9) ≠ [] ∧
        ∀ release ∈ r.releasedIn (2 * 10 ^ 9) (2 * 10 ^ 9),
          (2 * 10 ^ 9 - 2 * 10 ^ 9) + release.grant.duration < Slots.total Grant.duration
            ((r.releasedIn (2 * 10 ^ 9) (2 * 10 ^ 9)).map Release.grant)) ∧
      ∀ horizon, ∃ moves, (rateRun plainRateEnv horizon 1 0 moves).panicked ≠ [] := by
  constructor
  · exact ⟨threeLeases ++ [(2 * 10 ^ 9, .wake 0), (2 * 10 ^ 9, .wake 0)], _, rfl, by decide,
      by decide, by decide⟩
  · intro horizon
    rcases first_call_gets_behind horizon with behind | panic
    · obtain ⟨moves, panic⟩ := behind.panics (Nat.lt_add_of_pos_left (by decide))
      refine ⟨[(0, .consume 0 1), (0, .lock 0)] ++ moves, ?_⟩
      rw [rateRun, RateRun.run, Runs.run, List.foldl_append]
      exact panic
    · exact ⟨_, panic⟩

end Limits
end WarpMotor
