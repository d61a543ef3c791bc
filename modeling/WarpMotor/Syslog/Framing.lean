import WarpMotor.Lib.Runs
import WarpMotor.Tcp.Framing

/-!
RFC 6587 framing of the syslog source. `drainAutoAll` takes octet counted
frames first, waits while a length is in progress, and takes lines otherwise;
it hands every message to the channel at once and gives back the first one the
channel has no room for. `processBuffer` then waits for room and goes on. The
results of `try_send` are an arbitrary sequence; the fuel of both loops is the
length of the buffer, from which every round takes something.
-/
namespace WarpMotor

open Framing

namespace Syslog

inductive SourceReason where
  | supplierError (detail : String)
  | disconnect (detail : String)
  deriving DecidableEq, Repr

/-- The peer and the payload. -/
abbrev Message := String × Bytes

/-- `tries` counts the calls of `try_send`. -/
structure Channel where
  closed : Bool
  tries : Nat
  delivered : List Message
  deriving DecidableEq, Repr

namespace Channel

def trySend (room : Nat → Bool) (ch : Channel) (message : Message) : Channel × Bool :=
  if !ch.closed && room ch.tries then
    ({ ch with tries := ch.tries + 1, delivered := ch.delivered ++ [message] }, true)
  else ({ ch with tries := ch.tries + 1 }, false)

/-- Waits until there is room. -/
def send (ch : Channel) (message : Message) : Except SourceReason Channel :=
  if ch.closed then .error (.disconnect "syslog framing channel closed")
  else .ok { ch with delivered := ch.delivered ++ [message] }

end Channel

/-- What a call leaves in the buffer and in the channel, and what it returns. -/
structure Drained (R : Type) where
  buffer : Bytes
  channel : Channel
  result : R

def drainAutoAll (room : Nat → Bool) (client : String) :
    Nat → Bytes → Channel → Drained (Except SourceReason (Option Message))
  | 0, buf, ch => ⟨buf, ch, .ok none⟩
  | fuel + 1, buf, ch =>
    if buf = [] then ⟨buf, ch, .ok none⟩
    else
      match extractOctetCounted buf with
      | some (msg, rest) =>
        match ch.trySend room (client, msg) with
        | (ch, true) => drainAutoAll room client fuel rest ch
        | (ch, false) => ⟨rest, ch, .ok (some (client, msg))⟩
      | none =>
        if octetInProgress buf then ⟨buf, ch, .ok none⟩
        else
          match extractNewline buf with
          | some (line, rest) =>
            if line = [] then drainAutoAll room client fuel rest ch
            else
              match ch.trySend room (client, line) with
              | (ch, true) => drainAutoAll room client fuel rest ch
              | (ch, false) => ⟨rest, ch, .ok (some (client, line))⟩
          | none =>
            if maxFrameBytes < buf.length then
              ⟨[], ch, .error (.supplierError "buffer overflow")⟩
            else ⟨buf, ch, .ok none⟩

def sendPending (room : Nat → Bool) (client : String) :
    Nat → Bytes → Channel → Drained (Except SourceReason Unit)
  | 0, buf, ch => ⟨buf, ch, .ok ()⟩
  | fuel + 1, buf, ch =>
    let drained := drainAutoAll room client buf.length buf ch
    match drained.result with
    | .error reason => ⟨drained.buffer, drained.channel, .error reason⟩
    | .ok none => ⟨drained.buffer, drained.channel, .ok ()⟩
    | .ok (some pending) =>
      match drained.channel.send pending with
      | .error reason => ⟨drained.buffer, drained.channel, .error reason⟩
      | .ok ch => sendPending room client fuel drained.buffer ch

def processBuffer (room : Nat → Bool) (client : String) (buffer : Bytes) (ch : Channel)
    (data : Bytes) : Drained (Except SourceReason Unit) :=
  let buffer := buffer ++ data
  sendPending room client (buffer.length + 1) buffer ch

/-- One connection: a chunk is processed unless an earlier one ended in an error. -/
def receive (room : Nat → Bool) (client : String) (s : Drained (Except SourceReason Unit))
    (data : Bytes) : Drained (Except SourceReason Unit) :=
  match s.result with
  | .error _ => s
  | .ok () => processBuffer room client s.buffer s.channel data

def opened : Drained (Except SourceReason Unit) := ⟨[], ⟨false, 0, []⟩, .ok ()⟩

/-- The first message of a buffer in auto framing; an empty line is taken without a message. -/
def autoNext (buf : Bytes) : Option (Option Bytes × Bytes) :=
  match extractOctetCounted buf with
  | some (msg, rest) => some (some msg, rest)
  | none =>
    if octetInProgress buf then none
    else (extractNewline buf).map (fun cut => (if cut.1 = [] then none else some cut.1, cut.2))

/-- The buffer shows no message, is not in progress and is over the limit. -/
def overflows (buf : Bytes) : Prop := maxFrameBytes < buf.length ∧ octetInProgress buf = false

theorem autoNext_shrinks : StreamFraming.Shrinks autoNext := by
  intro buf message rest taken
  unfold autoNext at taken
  cases counted : extractOctetCounted buf with
  | some cut =>
    rw [counted] at taken
    cases taken
    exact extractOctetCounted_length counted
  | none =>
    simp only [counted] at taken
    split at taken
    · cases taken
    · obtain ⟨cut, line, same⟩ := Option.map_eq_some_iff.mp taken
      cases same
      exact extractNewline_length line

/-- Beyond a newline the announced length cannot change, so a line stays a line. -/
theorem no_octets_later {buf : Bytes} (more : Bytes) (ended : newline ∈ buf)
    (untaken : extractOctetCounted buf = none) (idle : octetInProgress buf = false) :
    extractOctetCounted (buf ++ more) = none ∧ octetInProgress (buf ++ more) = false := by
  cases read : lengthPrefix (buf ++ more) with
  | none => simp [extractOctetCounted, octetInProgress, read]
  | some found =>
    obtain ⟨n, body⟩ := found
    obtain ⟨front, early, -⟩ := lengthPrefix_of_append ended read
    simp only [extractOctetCounted, octetInProgress, early, read] at untaken idle ⊢
    by_cases refused : n = 0 ∨ maxFrameBytes ≤ n
    · simp [refused]
    · simp only [refused, if_false, decide_eq_false_iff_not, ite_eq_left_iff, reduceCtorEq,
        imp_false, not_not] at untaken idle
      exact absurd untaken idle

theorem autoNext_stable : StreamFraming.Stable autoNext := by
  intro buf message rest more taken
  unfold autoNext at taken ⊢
  cases counted : extractOctetCounted buf with
  | some cut =>
    rw [counted] at taken
    cases taken
    rw [extractOctetCounted_append more counted]
  | none =>
    simp only [counted] at taken
    split at taken
    · cases taken
    · rename_i idle
      obtain ⟨cut, line, same⟩ := Option.map_eq_some_iff.mp taken
      cases same
      obtain ⟨raw, split, -⟩ := Option.map_eq_some_iff.mp line
      have ended : newline ∈ buf := by
        rw [(splitNewline_eq_some.mp split).1]
        simp
      obtain ⟨uncounted, idle'⟩ := no_octets_later more ended counted (by simpa using idle)
      simp [uncounted, idle', extractNewline_append more line]

section Drain
variable {room : Nat → Bool} {client : String}

theorem drainAutoAll_waits (fuel : Nat) {buf : Bytes} (ch : Channel) (waits : autoNext buf = none)
    (fits : ¬ overflows buf) : drainAutoAll room client (fuel + 1) buf ch = ⟨buf, ch, .ok none⟩ := by
  unfold autoNext at waits
  unfold drainAutoAll
  cases counted : extractOctetCounted buf with
  | some cut => simp [counted] at waits
  | none =>
    simp only [counted] at waits ⊢
    by_cases progress : octetInProgress buf = true
    · simp [progress]
    · simp only [progress, Bool.false_eq_true, if_false, Option.map_eq_none_iff] at waits
      have small : ¬ maxFrameBytes < buf.length := by
        intro large
        exact fits ⟨large, by simpa using progress⟩
      simp [progress, waits, small]

theorem drainAutoAll_skips (fuel : Nat) {buf rest : Bytes} (ch : Channel)
    (taken : autoNext buf = some (none, rest)) :
    drainAutoAll room client (fuel + 1) buf ch = drainAutoAll room client fuel rest ch := by
  have nonempty := autoNext_shrinks.ne_nil taken
  unfold autoNext at taken
  conv_lhs => unfold drainAutoAll
  cases counted : extractOctetCounted buf with
  | some cut => simp [counted] at taken
  | none =>
    simp only [counted] at taken ⊢
    split at taken
    · cases taken
    · rename_i idle
      obtain ⟨cut, line, same⟩ := Option.map_eq_some_iff.mp taken
      obtain ⟨empty, rfl⟩ := Prod.mk.inj same
      have blank : cut.1 = [] := by
        by_contra text
        simp [text] at empty
      simp [nonempty, idle, line, blank]

theorem drainAutoAll_sends (fuel : Nat) {buf rest msg : Bytes} (ch : Channel)
    (taken : autoNext buf = some (some msg, rest)) :
    drainAutoAll room client (fuel + 1) buf ch =
      match ch.trySend room (client, msg) with
      | (ch, true) => drainAutoAll room client fuel rest ch
      | (ch, false) => ⟨rest, ch, .ok (some (client, msg))⟩ := by
  have nonempty := autoNext_shrinks.ne_nil taken
  unfold autoNext at taken
  conv_lhs => unfold drainAutoAll
  cases counted : extractOctetCounted buf with
  | some cut =>
    rw [counted] at taken
    cases taken
    simp [nonempty]
  | none =>
    simp only [counted] at taken ⊢
    split at taken
    · cases taken
    · rename_i idle
      obtain ⟨cut, line, same⟩ := Option.map_eq_some_iff.mp taken
      obtain ⟨text, rfl⟩ := Prod.mk.inj same
      by_cases blank : cut.1 = []
      · simp [blank] at text
      · rw [if_neg blank] at text
        cases text
        simp [nonempty, idle, line, blank]

end Drain

/-- The messages of a sequence of frames, for one peer. -/
def messages (client : String) (frames : List (Option Bytes)) : List Message :=
  frames.filterMap (Option.map (fun payload => (client, payload)))

theorem messages_append (client : String) (one other : List (Option Bytes)) :
    messages client (one ++ other) = messages client one ++ messages client other :=
  List.filterMap_append

/-- What a call of `drainAutoAll` has taken off the buffer is delivered, or is the message it
    returns; the rest of the buffer still shows the rest of the messages. -/
theorem drainAutoAll_spec (room : Nat → Bool) (client : String) (fuel : Nat) (buf : Bytes)
    (ch : Channel) (enough : buf.length ≤ fuel) (opened : ch.closed = false)
    (fits : ¬ overflows (StreamFraming.drain autoNext buf).2) :
    let d := drainAutoAll room client fuel buf ch
    d.channel.closed = false ∧
      (d.result = .ok none ∧ d.buffer = (StreamFraming.drain autoNext buf).2 ∧
          d.channel.delivered =
            ch.delivered ++ messages client (StreamFraming.drain autoNext buf).1 ∨
        ∃ taken pending, d.result = .ok (some pending) ∧ d.buffer.length < buf.length ∧
          StreamFraming.drain autoNext buf =
            (taken ++ (StreamFraming.drain autoNext d.buffer).1,
              (StreamFraming.drain autoNext d.buffer).2) ∧
          d.channel.delivered ++ [pending] = ch.delivered ++ messages client taken) := by
  induction fuel generalizing buf ch with
  | zero =>
    have empty : buf = [] := List.eq_nil_of_length_eq_zero (by omega)
    subst empty
    have nothing := StreamFraming.drain_none autoNext_shrinks.nil
    refine ⟨opened, Or.inl ?_⟩
    simp [drainAutoAll, nothing, messages]
  | succ fuel ih =>
    cases first : autoNext buf with
    | none =>
      have nothing := StreamFraming.drain_none first
      rw [nothing] at fits
      rw [drainAutoAll_waits fuel ch first fits, nothing]
      refine ⟨opened, Or.inl ?_⟩
      simp [messages]
    | some found =>
      obtain ⟨message, rest⟩ := found
      have shorter := autoNext_shrinks buf message rest first
      have frames := StreamFraming.drain_some autoNext_shrinks first
      rw [frames] at fits
      cases message with
      | none =>
        rw [drainAutoAll_skips fuel ch first, frames]
        obtain ⟨still, ends | ⟨taken, pending, result, size, split, sent⟩⟩ :=
          ih rest ch (by omega) opened fits
        · exact ⟨still, Or.inl ends⟩
        · refine ⟨still, Or.inr ⟨none :: taken, pending, result, by omega, ?_, sent⟩⟩
          rw [split]
          rfl
      | some msg =>
        rw [drainAutoAll_sends fuel ch first, frames]
        by_cases free : room ch.tries = true
        · have sent : ch.trySend room (client, msg) = ({ ch with
              tries := ch.tries + 1, delivered := ch.delivered ++ [(client, msg)] }, true) := by
            simp [Channel.trySend, opened, free]
          rw [sent]
          obtain ⟨still, ⟨result, left, all⟩ | ⟨taken, pending, result, size, split, sent⟩⟩ :=
            ih rest { ch with
              tries := ch.tries + 1, delivered := ch.delivered ++ [(client, msg)] }
              (by omega) opened fits
          · refine ⟨still, Or.inl ⟨result, left, ?_⟩⟩
            rw [all, List.append_assoc]
            rfl
          · refine ⟨still, Or.inr ⟨some msg :: taken, pending, result, ?_, ?_, ?_⟩⟩
            · exact Nat.lt_trans size shorter
            · rw [split]
              rfl
            · rw [sent, List.append_assoc]
              rfl
        · have full : ch.trySend room (client, msg) = ({ ch with tries := ch.tries + 1 }, false) := by
            simp [Channel.trySend, free]
          rw [full]
          exact ⟨opened, Or.inr ⟨[some msg], (client, msg), rfl, shorter, rfl, rfl⟩⟩

theorem sendPending_spec (room : Nat → Bool) (client : String) (fuel : Nat) (buf : Bytes)
    (ch : Channel) (enough : buf.length < fuel) (opened : ch.closed = false)
    (fits : ¬ overflows (StreamFraming.drain autoNext buf).2) :
    let s := sendPending room client fuel buf ch
    s.result = .ok () ∧ s.buffer = (StreamFraming.drain autoNext buf).2 ∧
      s.channel.closed = false ∧
      s.channel.delivered = ch.delivered ++ messages client (StreamFraming.drain autoNext buf).1 := by
  induction fuel generalizing buf ch with
  | zero => omega
  | succ fuel ih =>
    unfold sendPending
    obtain ⟨still, ⟨result, left, all⟩ | ⟨taken, pending, result, size, split, sent⟩⟩ :=
      drainAutoAll_spec room client buf.length buf ch (by omega) opened fits
    · simp only [result]
      exact ⟨trivial, left, still, all⟩
    · rw [split] at fits ⊢
      simp only [result, Channel.send, still, Bool.false_eq_true, if_false, sent]
      have later := ih (drainAutoAll room client buf.length buf ch).buffer
        ⟨false, (drainAutoAll room client buf.length buf ch).channel.tries,
          ch.delivered ++ messages client taken⟩ (by omega) rfl fits
      rw [messages_append, ← List.append_assoc]
      exact later

/-- The connection has taken in `front`: its messages are delivered, the rest is buffered. -/
structure TakenIn (client : String) (front : Bytes) (s : Drained (Except SourceReason Unit)) :
    Prop where
  running : s.result = .ok ()
  opened : s.channel.closed = false
  buffer : s.buffer = (StreamFraming.drain autoNext front).2
  delivered : s.channel.delivered = messages client (StreamFraming.drain autoNext front).1

theorem opened_takenIn (client : String) : TakenIn client [] opened := by
  have nothing := StreamFraming.drain_none autoNext_shrinks.nil
  constructor <;> simp [opened, nothing, messages]

theorem receive_takenIn (room : Nat → Bool) {client : String} {front : Bytes}
    {s : Drained (Except SourceReason Unit)} (taken : TakenIn client front s) (data : Bytes)
    (fits : ¬ overflows (StreamFraming.drain autoNext (s.buffer ++ data)).2) :
    TakenIn client (front ++ data) (receive room client s data) := by
  have split := autoNext_stable.drain_append autoNext_shrinks front data
  rw [← taken.buffer] at split
  obtain ⟨running, buffer, still, all⟩ := sendPending_spec room client
    ((s.buffer ++ data).length + 1) (s.buffer ++ data) s.channel (by omega) taken.opened fits
  have processed : receive room client s data =
      sendPending room client ((s.buffer ++ data).length + 1) (s.buffer ++ data) s.channel := by
    simp [receive, taken.running, processBuffer]
  rw [processed]
  constructor
  · exact running
  · exact still
  · rw [split]
    exact buffer
  · rw [split, all, taken.delivered, messages_append]

theorem run_takenIn (room : Nat → Bool) {client : String} (chunks : List Bytes) (front : Bytes)
    (s : Drained (Except SourceReason Unit)) (taken : TakenIn client front s)
    (fits : Runs.AllSteps (receive room client) (fun s data =>
      ¬ overflows (StreamFraming.drain autoNext (s.buffer ++ data)).2) s chunks) :
    TakenIn client (front ++ chunks.flatten) (Runs.run (receive room client) s chunks) := by
  induction chunks generalizing front s with
  | nil => simpa using taken
  | cons data rest ih =>
    have next := receive_takenIn room taken data fits.1
    have later := ih (front ++ data) (receive room client s data) next fits.2
    rw [List.flatten_cons, ← List.append_assoc]
    exact later

def encodeFrames (payloads : List Bytes) : Bytes := payloads.flatMap encodeFrame

theorem encodeFrames_cons (p : Bytes) (payloads : List Bytes) :
    encodeFrames (p :: payloads) = encodeFrame p ++ encodeFrames payloads := rfl

theorem maxFrameBytes_le : maxFrameBytes ≤ 10 ^ maxLenDigits := by decide

section Encoded
variable {payload : Bytes}

theorem autoNext_encodeFrame (nonempty : 1 ≤ payload.length)
    (small : payload.length < maxFrameBytes) (rest : Bytes) :
    autoNext (encodeFrame payload ++ rest) = some (some payload, rest) := by
  have counted : extractOctetCounted (encodeFrame payload ++ rest) = some (payload, rest) := by
    apply extractOctetCounted_eq_some.mpr
    refine ⟨⟨List.ne_nil_of_length_pos nonempty, small⟩, ?_⟩
    have read := lengthPrefix_encodeFrame (small.trans_le maxFrameBytes_le) (payload ++ rest)
    simpa [encodeFrame] using read
  simp [autoNext, counted]

/-- A frame that has not arrived in full is in progress, or only its length has arrived. -/
theorem partial_frame_fits (nonempty : 1 ≤ payload.length)
    (small : payload.length < maxFrameBytes) {front more : Bytes} (missing : more ≠ [])
    (cut : front ++ more = encodeFrame payload) :
    ¬ overflows (StreamFraming.drain autoNext front).2 := by
  have left := StreamFraming.drain_length_le autoNext_shrinks front
  have printed := small.trans_le maxFrameBytes_le
  have short := (printed_isLength printed).short
  rcases List.append_eq_append_iff.mp cut with ⟨rest, digits, -⟩ | ⟨body, whole, sent⟩
  · -- The digits are not complete.
    rintro ⟨large, -⟩
    have size := congrArg List.length digits
    rw [List.length_append] at size
    have limit : maxLenDigits ≤ maxFrameBytes := by decide
    omega
  · cases body with
    | nil =>
      rintro ⟨large, -⟩
      rw [List.append_nil] at whole
      have size := congrArg List.length whole
      have limit : maxLenDigits ≤ maxFrameBytes := by decide
      omega
    | cons b body =>
      rw [List.cons_append, List.cons.injEq] at sent
      obtain ⟨rfl, split⟩ := sent
      have read := lengthPrefix_encodeFrame printed body
      rw [← whole] at read
      have size := congrArg List.length split
      have rest : 0 < more.length := List.length_pos_of_ne_nil missing
      rw [List.length_append] at size
      have sized : ¬ (payload.length = 0 ∨ maxFrameBytes ≤ payload.length) := by omega
      have progress : octetInProgress front = true := by
        simp only [octetInProgress, read, sized, if_false]
        simp only [decide_eq_true_eq]
        omega
      have untaken : extractOctetCounted front = none := by
        have incomplete : body.length < payload.length := by omega
        simp [extractOctetCounted, read, incomplete]
      have waits : autoNext front = none := by simp [autoNext, untaken, progress]
      rw [StreamFraming.drain_none waits]
      rintro ⟨-, idle⟩
      rw [progress] at idle
      cases idle

/-- No part of an encoded stream overflows. -/
theorem encoded_front_fits (payloads : List Bytes)
    (sized : ∀ p ∈ payloads, 1 ≤ p.length ∧ p.length < maxFrameBytes) (front more : Bytes)
    (cut : front ++ more = encodeFrames payloads) :
    ¬ overflows (StreamFraming.drain autoNext front).2 := by
  have small : ∀ front : Bytes, front = [] →
      ¬ overflows (StreamFraming.drain autoNext front).2 := by
    rintro front rfl ⟨large, -⟩
    rw [StreamFraming.drain_none autoNext_shrinks.nil] at large
    simp at large
  induction payloads generalizing front with
  | nil => exact small front (List.append_eq_nil_iff.mp cut).1
  | cons p payloads ih =>
    obtain ⟨nonempty, below⟩ := sized p (List.mem_cons_self ..)
    rw [encodeFrames_cons] at cut
    rcases List.append_eq_append_iff.mp cut with ⟨rest, whole, -⟩ | ⟨later, whole, sent⟩
    · by_cases complete : rest = []
      · rw [complete, List.append_nil] at whole
        have taken := autoNext_encodeFrame nonempty below []
        rw [List.append_nil, whole] at taken
        rw [StreamFraming.drain_some autoNext_shrinks taken]
        exact small [] rfl
      · exact partial_frame_fits nonempty below complete whole.symm
    · have taken := autoNext_encodeFrame nonempty below later
      rw [← whole] at taken
      rw [StreamFraming.drain_some autoNext_shrinks taken]
      exact ih (fun q member => sized q (List.mem_cons_of_mem p member)) later sent.symm

theorem drain_encodeFrames (payloads : List Bytes)
    (sized : ∀ p ∈ payloads, 1 ≤ p.length ∧ p.length < maxFrameBytes) :
    StreamFraming.drain autoNext (encodeFrames payloads) = (payloads.map some, []) := by
  induction payloads with
  | nil => exact StreamFraming.drain_none autoNext_shrinks.nil
  | cons p payloads ih =>
    obtain ⟨nonempty, below⟩ := sized p (List.mem_cons_self ..)
    have taken := autoNext_encodeFrame nonempty below (encodeFrames payloads)
    have tail := ih (fun q member => sized q (List.mem_cons_of_mem p member))
    rw [encodeFrames_cons, StreamFraming.drain_some autoNext_shrinks taken, tail]
    rfl

end Encoded

theorem messages_some (client : String) (payloads : List Bytes) :
    messages client (payloads.map some) = payloads.map (fun payload => (client, payload)) := by
  induction payloads with
  | nil => rfl
  | cons p payloads ih =>
    rw [List.map_cons, List.map_cons, ← ih]
    rfl

/-- A stream none of whose fronts overflows is taken in, however it is cut. -/
theorem allSteps_fit (room : Nat → Bool) {client : String} (chunks : List Bytes) (front : Bytes)
    (s : Drained (Except SourceReason Unit)) (taken : TakenIn client front s)
    (fits : ∀ begun more, begun ++ more = front ++ chunks.flatten →
      ¬ overflows (StreamFraming.drain autoNext begun).2) :
    Runs.AllSteps (receive room client) (fun s data =>
      ¬ overflows (StreamFraming.drain autoNext (s.buffer ++ data)).2) s chunks := by
  induction chunks generalizing front s with
  | nil => trivial
  | cons data rest ih =>
    have split := autoNext_stable.drain_append autoNext_shrinks front data
    rw [← taken.buffer] at split
    have now := fits (front ++ data) rest.flatten (by simp)
    rw [split] at now
    refine ⟨now, ?_⟩
    apply ih (front ++ data) _ (receive_takenIn room taken data now)
    intro begun more cut
    exact fits begun more (by simpa using cut)

/-- A connection whose buffer stays within the limit has taken in its chunks, and what is left
    does not overflow. -/
theorem bounded_run (room : Nat → Bool) {client : String} (chunks : List Bytes) (front : Bytes)
    (s : Drained (Except SourceReason Unit)) (taken : TakenIn client front s)
    (small : ¬ overflows s.buffer)
    (bounded : Runs.AllSteps (receive room client) (fun s data =>
      (s.buffer ++ data).length ≤ maxFrameBytes) s chunks) :
    TakenIn client (front ++ chunks.flatten) (Runs.run (receive room client) s chunks) ∧
      ¬ overflows (Runs.run (receive room client) s chunks).buffer := by
  induction chunks generalizing front s with
  | nil => exact ⟨by simpa using taken, small⟩
  | cons data rest ih =>
    have fits : ¬ overflows (StreamFraming.drain autoNext (s.buffer ++ data)).2 := by
      rintro ⟨large, -⟩
      have left := StreamFraming.drain_length_le autoNext_shrinks (s.buffer ++ data)
      have limit := bounded.1
      omega
    have next := receive_takenIn room taken data fits
    have kept : ¬ overflows (receive room client s data).buffer := by
      have split := autoNext_stable.drain_append autoNext_shrinks front data
      rw [next.buffer, split, ← taken.buffer]
      exact fits
    rw [List.flatten_cons, ← List.append_assoc]
    exact ih (front ++ data) (receive room client s data) next kept bounded.2

/-- The messages delivered depend on the bytes alone, not on the chunks and not on when the
    channel has room; encoded payloads are decoded for every partition. -/
theorem auto_framing_ignores_segmentation (client : String) (chunks : List Bytes)
    (room : Nat → Bool)
    (bounded : Runs.AllSteps (receive room client) (fun s data =>
      (s.buffer ++ data).length ≤ maxFrameBytes) opened chunks) :
    let cut := Runs.run (receive room client) opened chunks
    let whole := receive (fun _ => true) client opened chunks.flatten
    (cut.result = .ok () ∧ whole.result = .ok () ∧
      cut.channel.delivered = whole.channel.delivered) ∧
    ∀ (payloads : List Bytes) (pieces : List Bytes) (free : Nat → Bool),
      (∀ p ∈ payloads, 1 ≤ p.length ∧ p.length ≤ maxFrameBytes - 1) →
      pieces.flatten = encodeFrames payloads →
      (Runs.run (receive free client) opened pieces).result = .ok () ∧
        (Runs.run (receive free client) opened pieces).channel.delivered =
          payloads.map (fun payload => (client, payload)) := by
  intro cut whole
  have small : ¬ overflows opened.buffer := by
    rintro ⟨large, -⟩
    simp [opened] at large
  constructor
  · obtain ⟨taken, fits⟩ := bounded_run room chunks [] opened (opened_takenIn client) small bounded
    rw [taken.buffer, List.nil_append] at fits
    have at_once : TakenIn client ([] ++ chunks.flatten) whole :=
      receive_takenIn _ (opened_takenIn client) chunks.flatten fits
    refine ⟨taken.running, at_once.running, ?_⟩
    rw [taken.delivered, at_once.delivered]
  · intro payloads pieces free sized encoded
    have limits : ∀ p ∈ payloads, 1 ≤ p.length ∧ p.length < maxFrameBytes := by
      intro p member
      obtain ⟨nonempty, below⟩ := sized p member
      have positive : 1 ≤ maxFrameBytes := by decide
      omega
    have taken := run_takenIn free pieces [] opened (opened_takenIn client)
      (allSteps_fit free pieces [] opened (opened_takenIn client) (by
        intro begun more cut
        rw [List.nil_append, encoded] at cut
        exact encoded_front_fits payloads limits begun more cut))
    refine ⟨taken.running, ?_⟩
    rw [taken.delivered, List.nil_append, encoded, drain_encodeFrames payloads limits]
    exact messages_some client payloads

/-- `3 a\nb` cut inside its payload and the line `c` after it, with a channel that is full at
    first. -/
theorem auto_framing_of_cut_payload :
    let chunks : List Bytes := [[51, 32, 97, 10], [98, 99], [32, 13, 10, 10]]
    (Runs.run (receive (fun n => n % 2 == 1) "peer") opened chunks).channel.delivered =
        (receive (fun _ => true) "peer" opened chunks.flatten).channel.delivered ∧
      (receive (fun _ => true) "peer" opened chunks.flatten).channel.delivered =
        [("peer", [97, 10, 98]), ("peer", [99])] := by
  intro chunks
  refine ⟨(auto_framing_ignores_segmentation "peer" chunks (fun n => n % 2 == 1) ?_).1.2.2, ?_⟩
  · refine ⟨?_, ?_, ?_, trivial⟩ <;> decide +kernel
  · decide +kernel

end Syslog

end WarpMotor
