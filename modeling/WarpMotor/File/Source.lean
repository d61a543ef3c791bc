import WarpMotor.File.Ranges
import WarpMotor.Lib.Runs

/-!
The file source. A call of `receive` collects lines into a batch of its own
until the batch is full, the byte budget is used up or the file ends; every read
of the file on the way is an await where the call can be dropped, and then the
batch goes with it. The encodings other than plain text are decoded outside
this development.
-/
namespace WarpMotor

open Framing

namespace File

inductive FileEncoding where
  | text | base64 | hex
  deriving DecidableEq, Repr

/-- The decoders of the encodings, with the check for UTF-8 and the trimming before them. -/
structure Decoders where
  base64 : Bytes → Option Bytes
  hex : Bytes → Option Bytes

structure FileSource where
  key : String
  reader : ChunkedLineReader
  encode : FileEncoding
  baseTags : List (String × String)
  batchLines : Nat
  batchBytesBudget : Nat
  nextEventId : Nat
  deriving DecidableEq, Repr

inductive Received where
  | batch (events : SourceBatch)
  | eof
  | failed
  | dropped
  deriving DecidableEq, Repr

def minChunkBytes : Nat := 4 * 1024
def maxChunkBytes : Nat := 128 * 1024

namespace FileSource

/-- A source over a range of the file; `limits` are the configured batch lines, batch bytes and
    chunk bytes. -/
def new (key : String) (data : Bytes) (encode : FileEncoding) (tags : List (String × String))
    (limits : Nat × Nat × Nat) (range : Range) : FileSource :=
  { key, encode, baseTags := tags, batchLines := limits.1, batchBytesBudget := limits.2.1,
    reader := rangeReader data (max minChunkBytes (min limits.2.2 maxChunkBytes)) range,
    nextEventId := 0 }

def payloadFromLine (decoders : Decoders) : FileEncoding → Bytes → Option Bytes
  | .text, line => some line
  | .base64, line => decoders.base64 line
  | .hex, line => decoders.hex line

def makeEvent (src : FileSource) (payload : Bytes) : SourceEvent :=
  { eventId := src.nextEventId, srcKey := src.key, payload := .bytes payload, tags := src.baseTags,
    upsIp := none }

/-- The loop of `receive` with room for so many further lines. -/
def receiveLoop (decoders : Decoders) : Nat → List FileRead → FileSource → SourceBatch → Nat →
    FileSource × Received
  | 0, _, src, batch, _ => (src, .batch batch)
  | room + 1, reads, src, batch, usedBytes =>
    match src.reader.nextLine reads with
    | (reader, _, .pending) => ({ src with reader }, .dropped)
    | (reader, _, .failed) => ({ src with reader }, .failed)
    | (reader, _, .eof) =>
      if batch = [] then ({ src with reader }, .eof) else ({ src with reader }, .batch batch)
    | (reader, reads, .line line) =>
      let src := { src with reader }
      let usedBytes := saturatingAdd usedBytes line.length
      match payloadFromLine decoders src.encode line with
      | none => (src, .failed)
      | some payload =>
        let batch := batch ++ [src.makeEvent payload]
        let src := { src with nextEventId := src.nextEventId + 1 }
        if room = 0 ∨ (0 < src.batchBytesBudget ∧ src.batchBytesBudget ≤ usedBytes) then
          (src, .batch batch)
        else receiveLoop decoders room reads src batch usedBytes

/-- A call that is given these reads of the file, and dropped where it waits for another one. A
    batch has room for one line at least. -/
def receive (decoders : Decoders) (src : FileSource) (reads : List FileRead) :
    FileSource × Received :=
  receiveLoop decoders (max 1 src.batchLines) reads src [] 0

end FileSource

/-- The payloads of the lines of a text. -/
def payloadsOf (decoders : Decoders) (encode : FileEncoding) (text : Bytes) : List (Option Bytes) :=
  (lineChunks text).map (fun line => FileSource.payloadFromLine decoders encode (trimCrlf line))

def payloadOf (event : SourceEvent) : Option Bytes :=
  match event.payload with
  | .bytes data => some data
  | .string _ => none
  | .arcBytes _ => none

def Received.events : Received → SourceBatch
  | .batch events => events
  | .eof => []
  | .failed => []
  | .dropped => []

namespace ChunkedLineReader

theorem readUntil_left {r r' : ChunkedLineReader} {reads left : List FileRead}
    {progress : Progress} (waited : readUntil reads r = (r', left, progress)) :
    left <:+ reads ∧ (progress = .failed → .failed ∈ reads) := by
  induction reads generalizing r with
  | nil =>
    unfold readUntil at waited
    cases cut : splitNewline r.buffered with
    | some parts =>
      rw [cut] at waited
      cases waited
      exact ⟨List.suffix_refl _, fun failed => by cases failed⟩
    | none =>
      rw [cut] at waited
      cases waited
      exact ⟨List.suffix_refl _, fun failed => by cases failed⟩
  | cons read reads ih =>
    unfold readUntil at waited
    cases cut : splitNewline r.buffered with
    | some parts =>
      rw [cut] at waited
      cases waited
      exact ⟨List.suffix_refl _, fun failed => by cases failed⟩
    | none =>
      rw [cut] at waited
      cases read with
      | failed =>
        cases waited
        exact ⟨List.suffix_cons _ _, fun _ => List.mem_cons_self⟩
      | upTo bytes =>
        dsimp only at waited
        split at waited
        · cases waited
          exact ⟨List.suffix_cons _ _, fun failed => by cases failed⟩
        · obtain ⟨suffix, fails⟩ := ih waited
          exact ⟨suffix.trans (List.suffix_cons _ _),
            fun failed => List.mem_cons_of_mem _ (fails failed)⟩

/-- What a call of `next_line` does with any reads. -/
theorem nextLine_spec {r r' : ChunkedLineReader} {front back : Bytes} {reads left : List FileRead}
    {result : LineResult} (hands : HandsOut r front back)
    (answer : nextLine reads r = (r', left, result)) :
    match result with
    | .line text => ∃ line front', front = line ++ front' ∧
        lineChunks front = line :: lineChunks front' ∧ text = trimCrlf line ∧
        HandsOut r' front' back ∧ left <:+ reads
    | .eof => front = [] ∧ HandsOut r' [] back
    | .failed => .failed ∈ reads
    | .pending => True := by
  by_cases spent : r.remaining = some 0
  · obtain ⟨none_left, ended⟩ := nextLine_spent hands spent reads
    rw [ended] at answer
    cases answer
    rw [none_left] at hands
    exact ⟨none_left, hands⟩
  · cases waited : readUntil reads { r with buf := [] } with
    | mk r₁ rest =>
      obtain ⟨left₁, progress⟩ := rest
      obtain ⟨suffix, fails⟩ := readUntil_left waited
      cases progress with
      | pending =>
        unfold nextLine at answer
        rw [if_neg spent, waited] at answer
        cases answer
        trivial
      | failed =>
        unfold nextLine at answer
        rw [if_neg spent, waited] at answer
        cases answer
        exact fails rfl
      | done =>
        rcases nextLine_done hands spent waited with
          ⟨none_left, ended, later⟩ | ⟨line, front', split, -, chunks, taken, later⟩
        · rw [ended] at answer
          cases answer
          exact ⟨none_left, later⟩
        · rw [taken] at answer
          cases answer
          exact ⟨line, front', split, chunks, rfl, later, suffix⟩

/-- With nothing buffered a call takes nothing before its first read. -/
theorem nextLine_untouched {r : ChunkedLineReader} {front back : Bytes}
    (hands : HandsOut r front back) (empty : r.buffered = []) :
    ∃ r' left result, nextLine [] r = (r', left, result) ∧ HandsOut r' front back ∧
      (result = .eof ∨ result = .pending) := by
  unfold nextLine
  split
  · exact ⟨r, [], .eof, rfl, hands, .inl rfl⟩
  · have waits : readUntil [] { r with buf := [] } = ({ r with buf := [] }, [], .pending) := by
      unfold readUntil
      simp [empty, splitNewline, collect]
    rw [waits]
    exact ⟨_, _, .pending, rfl, ⟨hands.whole, hands.limit⟩, .inr rfl⟩

end ChunkedLineReader

namespace FileSource

/-- What the loop takes from the file goes into its batch, line by line, unless the call is
    dropped. -/
theorem receiveLoop_spec {decoders : Decoders} {room : Nat} {reads : List FileRead}
    {src src' : FileSource} {batch : SourceBatch} {usedBytes : Nat} {result : Received}
    {front back : Bytes} (hands : src.reader.HandsOut front back)
    (no_failure : .failed ∉ reads)
    (decodes : none ∉ payloadsOf decoders src.encode front)
    (ends : receiveLoop decoders room reads src batch usedBytes = (src', result)) :
    src'.encode = src.encode ∧ result ≠ .failed ∧ (result ≠ .dropped →
      ∃ front', src'.reader.HandsOut front' back ∧ (result = .eof → front' = []) ∧
        result.events.map payloadOf ++ payloadsOf decoders src.encode front' =
          batch.map payloadOf ++ payloadsOf decoders src.encode front) := by
  induction room generalizing reads src batch usedBytes front with
  | zero =>
    cases ends
    exact ⟨rfl, by simp, fun _ => ⟨front, hands, (fun ended => by cases ended), rfl⟩⟩
  | succ room ih =>
    unfold receiveLoop at ends
    cases answer : src.reader.nextLine reads with
    | mk reader rest =>
      obtain ⟨left, line_result⟩ := rest
      have spec := ChunkedLineReader.nextLine_spec hands answer
      rw [answer] at ends
      cases line_result with
      | pending =>
        cases ends
        exact ⟨rfl, by simp, fun kept => absurd rfl kept⟩
      | failed => exact absurd spec no_failure
      | eof =>
        obtain ⟨none_left, later⟩ := spec
        dsimp only at ends
        split at ends
        · rename_i empty
          cases ends
          refine ⟨rfl, by simp, fun _ => ⟨[], later, (fun _ => rfl), ?_⟩⟩
          rw [none_left, empty]
          rfl
        · cases ends
          refine ⟨rfl, by simp, fun _ => ⟨[], later, (fun _ => rfl), ?_⟩⟩
          rw [none_left]
          rfl
      | line text =>
        obtain ⟨line, front', split, chunks, rfl, later, suffix⟩ := spec
        dsimp only at ends
        have first : payloadsOf decoders src.encode front =
            payloadFromLine decoders src.encode (trimCrlf line) ::
              payloadsOf decoders src.encode front' := by
          simp only [payloadsOf, chunks, List.map_cons]
        rw [first, List.mem_cons, not_or] at decodes
        split at ends
        · rename_i undecoded
          exact absurd undecoded.symm decodes.1
        · rename_i payload decoded
          have made : payloadOf ({ src with reader }.makeEvent payload) = some payload := rfl
          split at ends
          · cases ends
            refine ⟨rfl, by simp, fun _ => ⟨front', later, (fun ended => by cases ended), ?_⟩⟩
            rw [first, decoded]
            simp [Received.events, made]
          · have goes_on : ({ src with reader, nextEventId := src.nextEventId + 1 } :
                FileSource).reader.HandsOut front' back := later
            obtain ⟨same, no_fail, taken⟩ := ih goes_on
              (fun fails => no_failure (suffix.subset fails)) decodes.2 ends
            refine ⟨same, no_fail, ?_⟩
            intro kept
            obtain ⟨rest, hands', ended, balance⟩ := taken kept
            refine ⟨rest, hands', ended, ?_⟩
            rw [first, decoded]
            rw [List.map_append, List.map_cons, List.map_nil, made, List.append_assoc] at balance
            exact balance

/-- A call that is dropped at its first read, with nothing buffered, leaves the file as it was. -/
theorem receive_untouched (decoders : Decoders) {src : FileSource} {front back : Bytes}
    (hands : src.reader.HandsOut front back) (empty : src.reader.buffered = []) :
    ∃ src' result, receive decoders src [] = (src', result) ∧ src'.reader.HandsOut front back ∧
      src'.encode = src.encode ∧ result.events = [] := by
  obtain ⟨room, shape⟩ : ∃ room, max 1 src.batchLines = room + 1 :=
    ⟨max 1 src.batchLines - 1, by omega⟩
  obtain ⟨reader, left, result, answer, untouched, ended⟩ :=
    ChunkedLineReader.nextLine_untouched hands empty
  unfold receive
  rw [shape]
  unfold receiveLoop
  rw [answer]
  rcases ended with rfl | rfl
  · exact ⟨_, .eof, rfl, untouched, rfl, rfl⟩
  · exact ⟨_, .dropped, rfl, untouched, rfl, rfl⟩

end FileSource

/-- A source with the batches that its calls returned. -/
structure FileReceiver where
  source : FileSource
  returned : List SourceBatch
  deriving DecidableEq, Repr

namespace FileReceiver

/-- One call with the reads that it is given. -/
def step (decoders : Decoders) (s : FileReceiver) (reads : List FileRead) : FileReceiver :=
  match s.source.receive decoders reads with
  | (source, .batch events) => ⟨source, s.returned ++ [events]⟩
  | (source, .eof) => ⟨source, s.returned⟩
  | (source, .failed) => ⟨source, s.returned⟩
  | (source, .dropped) => ⟨source, s.returned⟩

/-- No read fails, and a call that is dropped is dropped at its first read while the reader has
    nothing buffered. -/
def Undisturbed (decoders : Decoders) (s : FileReceiver) (reads : List FileRead) : Prop :=
  .failed ∉ reads ∧
    ((s.source.receive decoders reads).2 = .dropped → reads = [] ∧ s.source.reader.buffered = [])

/-- What was returned and what the source still has make up the event sequence of the file. -/
def Complete (decoders : Decoders) (encode : FileEncoding) (text back : Bytes) (s : FileReceiver) :
    Prop :=
  s.source.encode = encode ∧ ∃ front, s.source.reader.HandsOut front back ∧
    s.returned.flatten.map payloadOf ++ payloadsOf decoders encode front =
      payloadsOf decoders encode text

theorem step_returned (decoders : Decoders) (s : FileReceiver) (reads : List FileRead) :
    (s.step decoders reads).source = (s.source.receive decoders reads).1 ∧
      (s.step decoders reads).returned.flatten =
        s.returned.flatten ++ (s.source.receive decoders reads).2.events := by
  unfold step
  cases s.source.receive decoders reads with
  | mk source result =>
    cases result with
    | batch events => exact ⟨rfl, by simp [Received.events]⟩
    | eof => exact ⟨rfl, by simp [Received.events]⟩
    | failed => exact ⟨rfl, by simp [Received.events]⟩
    | dropped => exact ⟨rfl, by simp [Received.events]⟩

theorem Complete.step {decoders : Decoders} {encode : FileEncoding} {text back : Bytes}
    (decodes : none ∉ payloadsOf decoders encode text) {s : FileReceiver} {reads : List FileRead}
    (undisturbed : Undisturbed decoders s reads) (complete : Complete decoders encode text back s) :
    Complete decoders encode text back (s.step decoders reads) := by
  obtain ⟨rfl, front, hands, balance⟩ := complete
  obtain ⟨source_eq, returned_eq⟩ := step_returned decoders s reads
  unfold Complete
  rw [source_eq, returned_eq, List.map_append]
  have front_decodes : none ∉ payloadsOf decoders s.source.encode front := by
    rw [← balance, List.mem_append, not_or] at decodes
    exact decodes.2
  by_cases dropped : (s.source.receive decoders reads).2 = .dropped
  · obtain ⟨rfl, empty⟩ := undisturbed.2 dropped
    obtain ⟨src', result, called, later, same, none_out⟩ :=
      FileSource.receive_untouched decoders hands empty
    rw [called]
    refine ⟨same, front, later, ?_⟩
    rw [none_out, List.map_nil, List.append_nil]
    exact balance
  · obtain ⟨same, -, taken⟩ := FileSource.receiveLoop_spec hands undisturbed.1 front_decodes
      (rfl : FileSource.receiveLoop decoders (max 1 s.source.batchLines) reads s.source [] 0 = _)
    obtain ⟨front', later, -, split⟩ := taken dropped
    refine ⟨same, front', later, ?_⟩
    rw [← balance, List.append_assoc]
    exact congrArg (s.returned.flatten.map payloadOf ++ ·) split

/-- In every run of undisturbed calls the returned batches and what is left in the file make up
    its event sequence. -/
theorem run_complete {decoders : Decoders} {encode : FileEncoding} {text back : Bytes}
    (decodes : none ∉ payloadsOf decoders encode text) {s : FileReceiver}
    (start : Complete decoders encode text back s) (calls : List (List FileRead))
    (undisturbed : Runs.AllSteps (step decoders) (Undisturbed decoders) s calls) :
    Complete decoders encode text back (Runs.run (step decoders) s calls) :=
  Runs.run_invariant_of_allSteps (Complete decoders encode text back)
    (fun _ _ ok complete => complete.step decodes ok) calls s start undisturbed

end FileReceiver

end File

end WarpMotor
