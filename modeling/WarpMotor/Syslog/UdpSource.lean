import WarpMotor.Event
import WarpMotor.Lib.Runs

/-!
The syslog source over UDP. A call of `receive` waits for a datagram, takes a
batch with one system call, and then single ones as long as there are any.
Datagrams that are longer than the buffer are cut, and discarded. What the
socket holds is a queue of datagrams and of errors. How a tag is set, and the
event ids, which all sources draw from one counter, are parameters.
-/
namespace WarpMotor.Syslog.UdpSource

def udpMaxDatagram : Nat := 65536

/-- `MAX_MSGS`, the most datagrams of one system call. -/
def maxMsgs : Nat := 64

structure Datagram where
  payload : List UInt8
  ip : String
  deriving DecidableEq

/-- What the next call on the socket meets. -/
inductive Arrival where
  | datagram (d : Datagram)
  | interrupted
  | failure
  deriving DecidableEq

/-- `eventIds` lists the ids this source draws. -/
structure UdpConf where
  key : String
  tags : List (String × String)
  setTag : List (String × String) → String → String → List (String × String)
  eventIds : Nat → Nat
  udpBatchSize : Nat
  batchBuffers : Nat

/-- The socket, and how many events there have been. -/
structure UdpSyslogSource where
  socket : List Arrival
  drawn : Nat

variable (conf : UdpConf)

def makeEvent (drawn : Nat) (d : Datagram) : SourceEvent where
  eventId := conf.eventIds drawn
  srcKey := conf.key
  payload := .bytes d.payload
  tags := conf.setTag (conf.setTag conf.tags "access_ip" d.ip) "wp_access_ip" d.ip
  upsIp := some d.ip

/-- What `recv_event` and `try_recv_event` come to: with an empty queue the one waits and the other
    gives up. -/
inductive Received where
  | empty
  | failed
  | event (ev : SourceEvent)

def Received.events : Received → List SourceEvent
  | .event ev => [ev]
  | _ => []

/-- `recv_from` cuts a datagram to the buffer; one that fills it is discarded. -/
def takeEvent (drawn : Nat) : List Arrival → Received × UdpSyslogSource
  | [] => (.empty, ⟨[], drawn⟩)
  | .interrupted :: rest => takeEvent drawn rest
  | .failure :: rest => (.failed, ⟨rest, drawn⟩)
  | .datagram d :: rest =>
    if min d.payload.length udpMaxDatagram = udpMaxDatagram then takeEvent drawn rest
    else (.event (makeEvent conf drawn d), ⟨rest, drawn + 1⟩)

/-- Datagrams up to the number asked for, or to the first error. -/
def recvDatagrams : Nat → List Arrival → List Datagram × List Arrival
  | count + 1, .datagram d :: rest =>
    let later := recvDatagrams count rest
    (d :: later.1, later.2)
  | _, queue => ([], queue)

/-- `recvmmsg`: an error is left for the next call unless it comes first. -/
def recvmmsg (count : Nat) : List Arrival → List Datagram × List Arrival
  | [] => ([], [])
  | .interrupted :: rest => ([], rest)
  | .failure :: rest => ([], rest)
  | .datagram d :: rest => recvDatagrams count (.datagram d :: rest)

/-- Datagrams longer than their buffer are marked as cut, and skipped. -/
def batchToEvents : Nat → List Datagram → List SourceEvent × Nat
  | drawn, [] => ([], drawn)
  | drawn, d :: rest =>
    if udpMaxDatagram < d.payload.length then batchToEvents drawn rest
    else
      let later := batchToEvents (drawn + 1) rest
      (makeEvent conf drawn d :: later.1, later.2)

def tryRecvBatchLinux (s : UdpSyslogSource) : List SourceEvent × UdpSyslogSource :=
  let maxMsgs := min conf.udpBatchSize maxMsgs
  if maxMsgs = 0 ∨ conf.batchBuffers = 0 then ([], s)
  else
    let taken := recvmmsg (min maxMsgs conf.batchBuffers) s.socket
    let made := batchToEvents conf s.drawn taken.1
    (made.1, ⟨taken.2, made.2⟩)

/-- Single events until the batch is full or there is none; an error is swallowed. -/
def fillBatch : Nat → UdpSyslogSource → List SourceEvent × UdpSyslogSource
  | 0, s => ([], s)
  | room + 1, s =>
    match takeEvent conf s.drawn s.socket with
    | (.event ev, s) =>
      let later := fillBatch room s
      (ev :: later.1, later.2)
    | (_, s) => ([], s)

/-- `receive`: nothing as long as it waits for the first datagram, then a batch or an error. -/
def receive (s : UdpSyslogSource) : Option (Except Unit SourceBatch) × UdpSyslogSource :=
  match takeEvent conf s.drawn s.socket with
  | (.empty, s) => (none, s)
  | (.failed, s) => (some (.error ()), s)
  | (.event ev, s) =>
    let batched := tryRecvBatchLinux conf s
    let singles := fillBatch conf (conf.udpBatchSize - (1 + batched.1.length)) batched.2
    (some (.ok (ev :: (batched.1 ++ singles.1))), singles.2)

def tryReceive (s : UdpSyslogSource) : Option SourceBatch × UdpSyslogSource :=
  match takeEvent conf s.drawn s.socket with
  | (.event ev, s) => (some [ev], s)
  | (_, s) => (none, s)

/-- Something reaches the socket, or the source is asked for events. A call of `receive` that still
    waits may be dropped, and made again. -/
inductive UdpStep where
  | arrive (a : Arrival)
  | receive
  | tryReceive
  deriving DecidableEq

/-- The source with all the batches it has handed out. -/
structure UdpRun where
  source : UdpSyslogSource
  batches : List SourceBatch

def UdpRun.step (r : UdpRun) : UdpStep → UdpRun
  | .arrive a => { r with source := { r.source with socket := r.source.socket ++ [a] } }
  | .receive =>
    match UdpSource.receive conf r.source with
    | (some (.ok batch), s) => ⟨s, r.batches ++ [batch]⟩
    | (_, s) => { r with source := s }
  | .tryReceive =>
    match UdpSource.tryReceive conf r.source with
    | (some batch, s) => ⟨s, r.batches ++ [batch]⟩
    | (none, s) => { r with source := s }

def UdpRun.start : UdpRun := ⟨⟨[], 0⟩, []⟩

def arrivals : List UdpStep → List Arrival :=
  List.filterMap fun
    | .arrive a => some a
    | _ => none

def Arrival.whole? : Arrival → Option Datagram
  | .datagram d => if d.payload.length < udpMaxDatagram then some d else none
  | _ => none

/-- The datagrams that are not cut, in their order. -/
def whole (queue : List Arrival) : List Datagram := queue.filterMap Arrival.whole?

/-- No datagram fills the buffer to the last byte. -/
def NoneFull (queue : List Arrival) : Prop :=
  ∀ d, Arrival.datagram d ∈ queue → d.payload.length ≠ udpMaxDatagram

/-- The events of datagrams when so many have been drawn before. -/
def eventsOf (drawn : Nat) : List Datagram → List SourceEvent
  | [] => []
  | d :: rest => makeEvent conf drawn d :: eventsOf (drawn + 1) rest

theorem eventsOf_append (drawn : Nat) (first second : List Datagram) :
    eventsOf conf drawn (first ++ second) =
      eventsOf conf drawn first ++ eventsOf conf (drawn + first.length) second := by
  induction first generalizing drawn with
  | nil => rfl
  | cons d rest ih =>
    have next : drawn + 1 + rest.length = drawn + (d :: rest).length := by
      rw [List.length_cons]
      omega
    rw [List.cons_append, eventsOf, eventsOf, ih, next, List.cons_append]

theorem length_eventsOf (drawn : Nat) (ds : List Datagram) :
    (eventsOf conf drawn ds).length = ds.length := by
  induction ds generalizing drawn with
  | nil => rfl
  | cons d rest ih => rw [eventsOf, List.length_cons, List.length_cons, ih]

/-- The events are those of the first whole datagrams; the others still wait. -/
structure HandsOut (s : UdpSyslogSource) (events : List SourceEvent) (t : UdpSyslogSource) :
    Prop where
  taken : ∃ ds, whole s.socket = ds ++ whole t.socket ∧ events = eventsOf conf s.drawn ds ∧
    t.drawn = s.drawn + ds.length
  noneFull : NoneFull t.socket

variable {conf}

theorem HandsOut.refl {s : UdpSyslogSource} (full : NoneFull s.socket) : HandsOut conf s [] s :=
  ⟨⟨[], rfl, rfl, rfl⟩, full⟩

theorem HandsOut.trans {s t u : UdpSyslogSource} {first second : List SourceEvent}
    (before : HandsOut conf s first t) (after : HandsOut conf t second u) :
    HandsOut conf s (first ++ second) u := by
  obtain ⟨ds, split, events, next⟩ := before.taken
  obtain ⟨ds', split', events', next'⟩ := after.taken
  refine ⟨⟨ds ++ ds', ?_, ?_, ?_⟩, after.noneFull⟩
  · rw [split, split', List.append_assoc]
  · rw [eventsOf_append, events, events', next]
  · rw [next', next, List.length_append, Nat.add_assoc]

theorem noneFull_tail {a : Arrival} {rest : List Arrival} (full : NoneFull (a :: rest)) :
    NoneFull rest :=
  fun d member => full d (List.mem_cons_of_mem a member)

variable (conf)

/-- The single receiver discards cut datagrams and hands out the next whole one. -/
theorem takeEvent_handsOut (drawn : Nat) {queue : List Arrival} (full : NoneFull queue) :
    HandsOut conf ⟨queue, drawn⟩ (takeEvent conf drawn queue).1.events
      (takeEvent conf drawn queue).2 := by
  induction queue with
  | nil => exact .refl full
  | cons a rest ih =>
    have tail := noneFull_tail full
    cases a with
    | interrupted =>
      obtain ⟨taken, noneFull⟩ := ih tail
      exact ⟨taken, noneFull⟩
    | failure => exact ⟨⟨[], rfl, rfl, rfl⟩, tail⟩
    | datagram d =>
      unfold takeEvent
      by_cases cut : min d.payload.length udpMaxDatagram = udpMaxDatagram
      · have long : ¬ d.payload.length < udpMaxDatagram := by omega
        have skipped : whole (.datagram d :: rest) = whole rest := by
          simp [whole, Arrival.whole?, long]
        rw [if_pos cut]
        obtain ⟨⟨ds, split, events, next⟩, noneFull⟩ := ih tail
        exact ⟨⟨ds, skipped.trans split, events, next⟩, noneFull⟩
      · have short : d.payload.length < udpMaxDatagram := by omega
        rw [if_neg cut]
        refine ⟨⟨[d], ?_, rfl, rfl⟩, tail⟩
        simp [whole, Arrival.whole?, short]

theorem recvDatagrams_split (count : Nat) (queue : List Arrival) :
    queue = (recvDatagrams count queue).1.map .datagram ++ (recvDatagrams count queue).2 ∧
      (recvDatagrams count queue).1.length ≤ count := by
  induction count generalizing queue with
  | zero => exact ⟨rfl, Nat.le_refl _⟩
  | succ count ih =>
    cases queue with
    | nil => exact ⟨rfl, Nat.zero_le _⟩
    | cons a rest =>
      cases a with
      | interrupted => exact ⟨rfl, Nat.zero_le _⟩
      | failure => exact ⟨rfl, Nat.zero_le _⟩
      | datagram d =>
        obtain ⟨split, few⟩ := ih rest
        exact ⟨congrArg (Arrival.datagram d :: ·) split, Nat.succ_le_succ few⟩

/-- A cut datagram is longer than the buffer, so that the batch keeps the whole ones. -/
theorem batchToEvents_eq (drawn : Nat) {ds : List Datagram}
    (full : NoneFull (ds.map .datagram)) :
    batchToEvents conf drawn ds = (eventsOf conf drawn (whole (ds.map .datagram)),
      drawn + (whole (ds.map .datagram)).length) := by
  induction ds generalizing drawn with
  | nil => rfl
  | cons d rest ih =>
    have tail : NoneFull (rest.map .datagram) := noneFull_tail full
    have other : d.payload.length ≠ udpMaxDatagram := full d List.mem_cons_self
    unfold batchToEvents
    by_cases long : udpMaxDatagram < d.payload.length
    · have cut : ¬ d.payload.length < udpMaxDatagram := by omega
      have skipped : whole ((d :: rest).map .datagram) = whole (rest.map .datagram) := by
        simp [whole, Arrival.whole?, cut]
      rw [if_pos long, skipped, ih drawn tail]
    · have short : d.payload.length < udpMaxDatagram := by omega
      have kept : whole ((d :: rest).map .datagram) = d :: whole (rest.map .datagram) := by
        simp [whole, Arrival.whole?, short]
      rw [if_neg long, kept, ih (drawn + 1) tail, List.length_cons]
      simp only [eventsOf, Prod.mk.injEq, true_and]
      omega

theorem length_whole (ds : List Datagram) : (whole (ds.map .datagram)).length ≤ ds.length := by
  have least := List.length_filterMap_le Arrival.whole? (ds.map Arrival.datagram)
  rwa [List.length_map] at least

theorem whole_append (first second : List Arrival) :
    whole (first ++ second) = whole first ++ whole second :=
  List.filterMap_append

/-- What the system call returns stood at the front; an error may be lost before it. -/
theorem recvmmsg_split (count : Nat) {queue : List Arrival} (full : NoneFull queue) :
    whole queue =
        whole ((recvmmsg count queue).1.map .datagram) ++ whole (recvmmsg count queue).2 ∧
      NoneFull ((recvmmsg count queue).1.map .datagram) ∧ NoneFull (recvmmsg count queue).2 ∧
      (recvmmsg count queue).1.length ≤ count := by
  have none_taken : NoneFull ([].map Arrival.datagram) :=
    fun d member => absurd member List.not_mem_nil
  cases queue with
  | nil => exact ⟨rfl, none_taken, full, Nat.zero_le _⟩
  | cons a rest =>
    cases a with
    | interrupted => exact ⟨rfl, none_taken, noneFull_tail full, Nat.zero_le _⟩
    | failure => exact ⟨rfl, none_taken, noneFull_tail full, Nat.zero_le _⟩
    | datagram d =>
      obtain ⟨split, few⟩ := recvDatagrams_split count (.datagram d :: rest)
      have call : recvmmsg count (.datagram d :: rest) =
          recvDatagrams count (.datagram d :: rest) := rfl
      rw [call]
      generalize recvDatagrams count (.datagram d :: rest) = taken at split few ⊢
      rw [split] at full ⊢
      refine ⟨whole_append _ _, ?_, ?_, few⟩
      · exact fun e member => full e (List.mem_append_left _ member)
      · exact fun e member => full e (List.mem_append_right _ member)

theorem tryRecvBatchLinux_handsOut {s : UdpSyslogSource} (full : NoneFull s.socket) :
    HandsOut conf s (tryRecvBatchLinux conf s).1 (tryRecvBatchLinux conf s).2 ∧
      (tryRecvBatchLinux conf s).1.length ≤ min conf.udpBatchSize maxMsgs := by
  unfold tryRecvBatchLinux
  by_cases nothing : min conf.udpBatchSize maxMsgs = 0 ∨ conf.batchBuffers = 0
  · simp only [if_pos nothing]
    exact ⟨.refl full, Nat.zero_le _⟩
  · simp only [if_neg nothing]
    have fewer : min (min conf.udpBatchSize maxMsgs) conf.batchBuffers ≤
        min conf.udpBatchSize maxMsgs := Nat.min_le_left _ _
    obtain ⟨split, front, back, few⟩ :=
      recvmmsg_split (min (min conf.udpBatchSize maxMsgs) conf.batchBuffers) full
    rw [batchToEvents_eq conf s.drawn front, length_eventsOf]
    refine ⟨⟨⟨_, split, rfl, rfl⟩, back⟩, ?_⟩
    exact Nat.le_trans (length_whole _) (Nat.le_trans few fewer)

theorem fillBatch_handsOut (room : Nat) {s : UdpSyslogSource} (full : NoneFull s.socket) :
    HandsOut conf s (fillBatch conf room s).1 (fillBatch conf room s).2 ∧
      (fillBatch conf room s).1.length ≤ room := by
  induction room generalizing s with
  | zero => exact ⟨.refl full, Nat.le_refl _⟩
  | succ room ih =>
    have first := takeEvent_handsOut conf s.drawn full
    unfold fillBatch
    generalize takeEvent conf s.drawn s.socket = taken at first ⊢
    obtain ⟨received, t⟩ := taken
    cases received with
    | empty => exact ⟨first, Nat.zero_le _⟩
    | failed => exact ⟨first, Nat.zero_le _⟩
    | event ev =>
      obtain ⟨rest, few⟩ := ih first.noneFull
      exact ⟨first.trans rest, Nat.succ_le_succ few⟩

/-- A batch may pass the batch size by one, when the system call alone fills it. -/
def BatchBound (batch : SourceBatch) : Prop :=
  1 ≤ batch.length ∧ batch.length ≤ max conf.udpBatchSize (min conf.udpBatchSize maxMsgs + 1)

theorem receive_handsOut {s : UdpSyslogSource} (full : NoneFull s.socket) :
    match receive conf s with
    | (some (.ok batch), t) => HandsOut conf s batch t ∧ BatchBound conf batch
    | (_, t) => HandsOut conf s [] t := by
  have first := takeEvent_handsOut conf s.drawn full
  unfold receive
  generalize takeEvent conf s.drawn s.socket = taken at first ⊢
  obtain ⟨received, t⟩ := taken
  cases received with
  | empty => exact first
  | failed => exact first
  | event ev =>
    have waiting : NoneFull t.socket := first.noneFull
    obtain ⟨batched, most⟩ := tryRecvBatchLinux_handsOut conf waiting
    obtain ⟨singles, few⟩ := fillBatch_handsOut conf
      (conf.udpBatchSize - (1 + (tryRecvBatchLinux conf t).1.length)) batched.noneFull
    refine ⟨first.trans (batched.trans singles), ?_, ?_⟩
    · exact Nat.succ_le_succ (Nat.zero_le _)
    · rw [List.length_cons, List.length_append]
      omega

theorem tryReceive_handsOut {s : UdpSyslogSource} (full : NoneFull s.socket) :
    match tryReceive conf s with
    | (some batch, t) => HandsOut conf s batch t ∧ BatchBound conf batch
    | (none, t) => HandsOut conf s [] t := by
  have first := takeEvent_handsOut conf s.drawn full
  unfold tryReceive
  generalize takeEvent conf s.drawn s.socket = taken at first ⊢
  obtain ⟨received, t⟩ := taken
  cases received with
  | empty => exact first
  | failed => exact first
  | event ev =>
    refine ⟨first, Nat.le_refl _, ?_⟩
    rw [List.length_singleton]
    omega

/-- What the run has handed out and what still waits are the whole datagrams that arrived. -/
structure UdpRun.Delivers (arrived : List Arrival) (r : UdpRun) : Prop where
  split : ∃ ds, whole arrived = ds ++ whole r.source.socket ∧
    r.batches.flatten = eventsOf conf 0 ds ∧ r.source.drawn = ds.length
  bounded : ∀ batch ∈ r.batches, BatchBound conf batch
  noneFull : NoneFull r.source.socket

variable {conf}

theorem UdpRun.Delivers.handOut {arrived : List Arrival} {r : UdpRun}
    (delivers : r.Delivers conf arrived) {events : List SourceEvent} {t : UdpSyslogSource}
    (out : HandsOut conf r.source events t) {batches : List SourceBatch}
    (more : batches.flatten = r.batches.flatten ++ events)
    (bounded : ∀ batch ∈ batches, BatchBound conf batch) :
    UdpRun.Delivers conf arrived ⟨t, batches⟩ := by
  obtain ⟨ds, split, handed, drawn⟩ := delivers.split
  obtain ⟨taken, waits, events_eq, next⟩ := out.taken
  refine ⟨⟨ds ++ taken, ?_, ?_, ?_⟩, bounded, out.noneFull⟩
  · rw [split, waits, List.append_assoc]
  · rw [more, handed, events_eq, drawn, eventsOf_append, Nat.zero_add]
  · rw [next, drawn, List.length_append]

theorem UdpRun.Delivers.step {arrived : List Arrival} {r : UdpRun}
    (delivers : r.Delivers conf arrived) (i : UdpStep) (full : NoneFull (arrivals [i])) :
    (r.step conf i).Delivers conf (arrived ++ arrivals [i]) := by
  have appended : ∀ batch, (r.batches ++ [batch]).flatten = r.batches.flatten ++ batch := by
    intro batch
    rw [List.flatten_append, List.flatten_singleton]
  have stays : ∀ batch, BatchBound conf batch →
      ∀ other ∈ r.batches ++ [batch], BatchBound conf other := by
    intro batch bound other member
    rcases List.mem_append.mp member with early | last
    · exact delivers.bounded other early
    · exact List.mem_singleton.mp last ▸ bound
  cases i with
  | arrive a =>
    obtain ⟨ds, split, handed, drawn⟩ := delivers.split
    refine ⟨⟨ds, ?_, handed, drawn⟩, delivers.bounded, ?_⟩
    · change whole (arrived ++ [a]) = ds ++ whole (r.source.socket ++ [a])
      rw [whole_append, whole_append, split, List.append_assoc]
    · intro d member
      rcases List.mem_append.mp member with early | last
      · exact delivers.noneFull d early
      · exact full d last
  | receive =>
    have out := receive_handsOut conf delivers.noneFull
    unfold UdpRun.step
    simp only
    rw [show arrivals [.receive] = [] from rfl, List.append_nil]
    generalize UdpSource.receive conf r.source = result at out ⊢
    obtain ⟨outcome, t⟩ := result
    match outcome, out with
    | none, out => exact delivers.handOut out (List.append_nil _).symm delivers.bounded
    | some (.error _), out => exact delivers.handOut out (List.append_nil _).symm delivers.bounded
    | some (.ok batch), ⟨out, bound⟩ =>
      exact delivers.handOut out (appended batch) (stays batch bound)
  | tryReceive =>
    have out := tryReceive_handsOut conf delivers.noneFull
    unfold UdpRun.step
    simp only
    rw [show arrivals [.tryReceive] = [] from rfl, List.append_nil]
    generalize UdpSource.tryReceive conf r.source = result at out ⊢
    obtain ⟨outcome, t⟩ := result
    match outcome, out with
    | none, out => exact delivers.handOut out (List.append_nil _).symm delivers.bounded
    | some batch, ⟨out, bound⟩ =>
      exact delivers.handOut out (appended batch) (stays batch bound)

theorem UdpRun.Delivers.run {arrived : List Arrival} {r : UdpRun}
    (delivers : r.Delivers conf arrived) (steps : List UdpStep) (full : NoneFull (arrivals steps)) :
    (Runs.run (UdpRun.step conf) r steps).Delivers conf (arrived ++ arrivals steps) := by
  induction steps generalizing arrived r with
  | nil =>
    rw [show arrivals [] = [] from rfl, List.append_nil]
    exact delivers
  | cons i rest ih =>
    have split : arrivals (i :: rest) = arrivals [i] ++ arrivals rest := by
      unfold arrivals
      rw [← List.filterMap_append]
      rfl
    rw [split] at full ⊢
    rw [Runs.run_cons, ← List.append_assoc]
    apply ih
    · exact delivers.step i fun d member => full d (List.mem_append_left _ member)
    · exact fun d member => full d (List.mem_append_right _ member)

variable (conf)

/-- Every datagram that is not cut is handed out once, in the order of arrival, unless it still
    waits. A batch is never empty, and passes the batch size by one at most. -/
theorem udp_delivers_whole_datagrams (steps : List UdpStep) (full : NoneFull (arrivals steps)) :
    let r := Runs.run (UdpRun.step conf) UdpRun.start steps
    (∃ handed, whole (arrivals steps) = handed ++ whole r.source.socket ∧
      r.batches.flatten = eventsOf conf 0 handed) ∧
      ∀ batch ∈ r.batches, 1 ≤ batch.length ∧
        batch.length ≤ max conf.udpBatchSize (min conf.udpBatchSize maxMsgs + 1) := by
  intro r
  have start : UdpRun.start.Delivers conf [] :=
    ⟨⟨[], rfl, rfl, rfl⟩, fun batch member => absurd member List.not_mem_nil,
      fun d member => absurd member List.not_mem_nil⟩
  have delivers := start.run steps full
  obtain ⟨handed, split, events, _⟩ := delivers.split
  exact ⟨⟨handed, split, events⟩, delivers.bounded⟩

def oneAtATime : UdpConf where
  key := "udp"
  tags := []
  setTag tags name value := tags ++ [(name, value)]
  eventIds := id
  udpBatchSize := 1
  batchBuffers := 1

def threeArrivals : List UdpStep :=
  [.arrive (.datagram ⟨[97], "10.0.0.1"⟩), .arrive .interrupted, .receive,
    .arrive (.datagram ⟨[98], "10.0.0.2"⟩), .arrive (.datagram ⟨[], "10.0.0.1"⟩), .receive]

/-- The second batch has two datagrams, one more than the batch size. -/
theorem batch_of_two :
    (Runs.run (UdpRun.step oneAtATime) UdpRun.start threeArrivals).batches.map List.length =
        [1, 2] ∧
      ∀ batch ∈ (Runs.run (UdpRun.step oneAtATime) UdpRun.start threeArrivals).batches,
        1 ≤ batch.length ∧ batch.length ≤ 2 := by
  refine ⟨by decide, ?_⟩
  have full : NoneFull (arrivals threeArrivals) := by
    intro d member
    simp only [arrivals, threeArrivals, List.filterMap_cons, List.filterMap_nil, List.mem_cons,
      Arrival.datagram.injEq, reduceCtorEq, List.not_mem_nil, or_false, false_or] at member
    rcases member with rfl | rfl | rfl <;> decide
  exact (udp_delivers_whole_datagrams oneAtATime threeArrivals full).2

end WarpMotor.Syslog.UdpSource
