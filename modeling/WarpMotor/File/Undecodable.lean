import Mathlib.Data.List.Basic
import WarpMotor.File.Source
import WarpMotor.Lib.Fuel

/-!
A file source over a file with lines that cannot be decoded, called until it
answers that the file has ended. The error of such a line leaves `receive` and
takes the batch with it, so the lines that the call had read before are lost:
the file is delivered exactly when every such line is the first one of its call.
-/
namespace WarpMotor

open Framing

namespace File

namespace FileSource

/-- Calls of `receive` until it answers EOF, each with the reads that it is given. No result when
    a call is dropped. -/
def receiveAll (decoders : Decoders) : Nat → (Nat → List FileRead) → FileSource →
    Option (List Received)
  | 0, _, _ => none
  | fuel + 1, reads, src =>
    match src.receive decoders (reads 0) with
    | (_, .eof) => some []
    | (_, .dropped) => none
    | (src, result) =>
      (receiveAll decoders fuel (fun call => reads (call + 1)) src).map (result :: ·)

end FileSource

/-- A file that answers every read, as many as a call can make: read `i` of call `call` brings at
    most `sizes call i` bytes. -/
def answering (data : Bytes) (sizes : Nat → Nat → Nat) (call : Nat) : List FileRead :=
  ((List.range (data.length + 2)).map (sizes call)).map .upTo

def isFailed : Received → Bool
  | .failed => true
  | .batch _ => false
  | .eof => false
  | .dropped => false

/-! What one call and what all calls make of a list of lines. -/
section Lines

variable (decode : Bytes → Option Bytes) (batchLines budget : Nat)

/-- The batch ends behind so many rows and bytes. -/
def BatchFull (rows usedBytes : Nat) : Prop :=
  max 1 batchLines ≤ rows ∨ (0 < budget ∧ budget ≤ usedBytes)

instance (rows usedBytes : Nat) : Decidable (BatchFull batchLines budget rows usedBytes) :=
  inferInstanceAs (Decidable (max 1 batchLines ≤ rows ∨ (0 < budget ∧ budget ≤ usedBytes)))

/-- The payloads that reach the caller, from a call that holds `taken` on. -/
def delivered : Nat → Nat → List Bytes → List Bytes → List Bytes
  | _, _, taken, [] => taken
  | rows, usedBytes, taken, line :: rest =>
    match decode line with
    | none => delivered 0 0 [] rest
    | some payload =>
      let usedBytes := saturatingAdd usedBytes line.length
      if BatchFull batchLines budget (rows + 1) usedBytes then
        taken ++ payload :: delivered 0 0 [] rest
      else delivered (rows + 1) usedBytes (taken ++ [payload]) rest

/-- Every line that cannot be decoded is the first one of its call. -/
def BadLinesFirst : Nat → Nat → List Bytes → Prop
  | _, _, [] => True
  | rows, usedBytes, line :: rest =>
    if (decode line).isNone then rows = 0 ∧ BadLinesFirst 0 0 rest
    else
      let usedBytes := saturatingAdd usedBytes line.length
      if BatchFull batchLines budget (rows + 1) usedBytes then BadLinesFirst 0 0 rest
      else BadLinesFirst (rows + 1) usedBytes rest

def badLines (lines : List Bytes) : Nat := lines.countP (fun line => (decode line).isNone)

theorem count_none (lines : List Bytes) : (lines.map decode).count none = badLines decode lines := by
  rw [List.count, List.countP_map, badLines]
  congr 1
  funext line
  cases decoded : decode line <;> simp [decoded]

theorem filter_isSome_map (lines : List Bytes) :
    (lines.map decode).filter Option.isSome = (lines.filterMap decode).map some := by
  induction lines with
  | nil => rfl
  | cons line rest ih => cases decoded : decode line <;> simp [decoded, ih]

/-- How one call ends, with the lines it leaves. -/
inductive CallEnd (lines : List Bytes) (taken : List Bytes) (rows usedBytes : Nat) :
    Received → List Bytes → Prop where
  | eof {rest : List Bytes} (ended : lines = []) (nothing : taken = []) :
      CallEnd lines taken rows usedBytes .eof rest
  | failed {rest : List Bytes} (shorter : rest.length < lines.length)
      (same : delivered decode batchLines budget rows usedBytes taken lines =
        delivered decode batchLines budget 0 0 [] rest)
      (one : badLines decode lines = badLines decode rest + 1) :
      CallEnd lines taken rows usedBytes .failed rest
  | batch {events : SourceBatch} {payloads rest : List Bytes}
      (few : rest.length ≤ lines.length) (shorter : taken = [] → rest.length < lines.length)
      (sent : events.map payloadOf = payloads.map some)
      (same : delivered decode batchLines budget rows usedBytes taken lines =
        payloads ++ delivered decode batchLines budget 0 0 [] rest)
      (none_bad : badLines decode lines = badLines decode rest) :
      CallEnd lines taken rows usedBytes (.batch events) rest

/-- A line that leaves its batch open goes in front of the rest of the call. -/
theorem CallEnd.more {decode : Bytes → Option Bytes} {batchLines budget rows usedBytes : Nat}
    {taken lines rest : List Bytes} {line payload : Bytes} {result : Received}
    (decoded : decode line = some payload)
    (notFull : ¬ BatchFull batchLines budget (rows + 1) (saturatingAdd usedBytes line.length))
    (ended : CallEnd decode batchLines budget lines (taken ++ [payload]) (rows + 1)
      (saturatingAdd usedBytes line.length) result rest) :
    CallEnd decode batchLines budget (line :: lines) taken rows usedBytes result rest := by
  have step : delivered decode batchLines budget rows usedBytes taken (line :: lines) =
      delivered decode batchLines budget (rows + 1) (saturatingAdd usedBytes line.length)
        (taken ++ [payload]) lines := by
    simp [delivered, decoded, notFull]
  have good : badLines decode (line :: lines) = badLines decode lines := by
    simp [badLines, decoded]
  cases ended with
  | eof ended nothing => simp at nothing
  | failed shorter same one =>
    exact .failed (Nat.lt_succ_of_lt shorter) (step.trans same) (good.trans one)
  | batch few _ sent same none_bad =>
    exact .batch (Nat.le_succ_of_le few) (fun _ => Nat.lt_succ_of_le few) sent
      (step.trans same) (good.trans none_bad)

theorem delivered_sublist (rows usedBytes : Nat) (taken lines : List Bytes) :
    (delivered decode batchLines budget rows usedBytes taken lines).Sublist
      (taken ++ lines.filterMap decode) := by
  induction lines generalizing rows usedBytes taken with
  | nil => simp [delivered]
  | cons line rest ih =>
    rw [delivered]
    cases decoded : decode line with
    | none =>
      rw [List.filterMap_cons_none decoded]
      exact (ih 0 0 []).trans (List.sublist_append_right taken _)
    | some payload =>
      rw [List.filterMap_cons_some decoded]
      dsimp only
      split
      · exact (List.Sublist.refl taken).append ((ih 0 0 []).cons_cons payload)
      · simpa using ih (rows + 1) _ (taken ++ [payload])

/-- Nothing is lost exactly when each bad line finds the call without a row. -/
theorem delivered_all_iff {rows : Nat} {taken : List Bytes} (held : taken.length = rows)
    (usedBytes : Nat) (lines : List Bytes) :
    delivered decode batchLines budget rows usedBytes taken lines =
        taken ++ lines.filterMap decode ↔
      BadLinesFirst decode batchLines budget rows usedBytes lines := by
  induction lines generalizing rows usedBytes taken with
  | nil => simp [delivered, BadLinesFirst]
  | cons line rest ih =>
    rw [delivered, BadLinesFirst]
    cases decoded : decode line with
    | none =>
      rw [List.filterMap_cons_none decoded]
      have later := @ih 0 [] rfl 0
      rw [List.nil_append] at later
      simp only [Option.isNone_none, if_true, ← later]
      constructor
      · intro whole
        -- what reaches the caller is part of what the rest holds, so nothing was taken before
        have kept := (delivered_sublist decode batchLines budget 0 0 [] rest).length_le
        rw [whole, List.length_append, List.nil_append] at kept
        have empty : taken = [] := List.eq_nil_of_length_eq_zero (by omega)
        subst empty
        exact ⟨held.symm, whole⟩
      · rintro ⟨none_taken, whole⟩
        have empty : taken = [] := List.eq_nil_of_length_eq_zero (held.trans none_taken)
        rw [empty, List.nil_append, whole]
    | some payload =>
      rw [List.filterMap_cons_some decoded]
      simp only [Option.isNone_some, Bool.false_eq_true, if_false]
      split
      · have later := @ih 0 [] rfl 0
        rw [List.nil_append] at later
        rw [← later]
        simp
      · have longer : (taken ++ [payload]).length = rows + 1 := by simp [held]
        rw [← ih longer]
        simp

end Lines

namespace FileSource

/-- One call over the lines that the reader still hands out. -/
theorem receiveLoop_ends (decoders : Decoders) {room rows : Nat} (usedBytes : Nat)
    {sizes : List Nat} {src : FileSource} {batch : SourceBatch} {taken : List Bytes}
    {front back : Bytes}
    (hands : src.reader.HandsOut front back)
    (enough : src.reader.file.length + 1 < sizes.length ∨
      src.reader.content = [] ∧ 0 < sizes.length)
    (left : room + rows = max 1 src.batchLines) (some_room : 0 < room)
    (held : batch.map payloadOf = taken.map some) :
    ∃ src' result front', receiveLoop decoders room (sizes.map .upTo) src batch usedBytes =
        (src', result) ∧ src'.reader.HandsOut front' back ∧ front'.length ≤ front.length ∧
      src'.encode = src.encode ∧ src'.batchLines = src.batchLines ∧
      src'.batchBytesBudget = src.batchBytesBudget ∧
      CallEnd (payloadFromLine decoders src.encode) src.batchLines src.batchBytesBudget
        ((lineChunks front).map trimCrlf) taken rows usedBytes result
        ((lineChunks front').map trimCrlf) := by
  induction room generalizing src sizes batch taken rows usedBytes front with
  | zero => cases some_room
  | succ room ih =>
    have reads : src.reader.file.length < sizes.length := by
      rcases enough with many | ⟨empty, one⟩
      · omega
      · have none_left : src.reader.file = [] := (List.append_eq_nil_iff.mp empty).2
        rw [none_left]
        exact one
    unfold receiveLoop
    rcases ChunkedLineReader.nextLine_of_handsOut hands reads with
      ⟨reader, others, rfl, answer⟩ |
        ⟨reader, others, line, front', rfl, some_line, chunks, answer, later, cost⟩
    · have spec := ChunkedLineReader.nextLine_spec hands answer
      rw [answer]
      dsimp only
      split
      · next empty =>
        have nothing : taken = [] := by simpa [empty] using held
        exact ⟨_, _, [], rfl, spec.2, Nat.le_refl 0, rfl, rfl, rfl, .eof rfl nothing⟩
      · next filled =>
        have some_taken : taken ≠ [] := by
          rintro rfl
          exact filled (by simpa using held)
        exact ⟨_, _, [], rfl, spec.2, Nat.le_refl 0, rfl, rfl, rfl,
          .batch (Nat.le_refl _) (fun nothing => absurd nothing some_taken) held
            (by simp [delivered, lineChunks]) rfl⟩
    · have spent : reader.file.length + 1 < others.length ∨
          reader.content = [] ∧ 0 < others.length := by
        rcases enough with many | ⟨empty, -⟩
        · rcases cost with paid | ⟨empty, paid⟩
          · exact .inl (by omega)
          · exact .inr ⟨empty, by omega⟩
        · have nothing := hands.whole.symm.trans empty
          simp only [List.append_eq_nil_iff] at nothing
          exact absurd nothing.1.1 some_line
      have shorter : front'.length ≤ (line ++ front').length := by simp
      rw [answer, chunks]
      dsimp only
      cases decoded : payloadFromLine decoders src.encode (trimCrlf line) with
      | none =>
        refine ⟨_, _, front', rfl, later, shorter, rfl, rfl, rfl, .failed (by simp) ?_ ?_⟩
        · simp [delivered, decoded]
        · simp [badLines, decoded]
      | some payload =>
        have made : payloadOf ({ src with reader }.makeEvent payload) = some payload := rfl
        have longer : (batch ++ [{ src with reader }.makeEvent payload]).map payloadOf =
            (taken ++ [payload]).map some := by simp [held, made]
        have full_iff : (room = 0 ∨ 0 < src.batchBytesBudget ∧
            src.batchBytesBudget ≤ saturatingAdd usedBytes (trimCrlf line).length) ↔
            BatchFull src.batchLines src.batchBytesBudget (rows + 1)
              (saturatingAdd usedBytes (trimCrlf line).length) := by
          unfold BatchFull
          omega
        dsimp only
        split
        · next full =>
          refine ⟨_, _, front', rfl, later, shorter, rfl, rfl, rfl,
            .batch (by simp) (fun _ => by simp) longer ?_ ?_⟩
          · simp [delivered, decoded, full_iff.mp full]
          · simp [badLines, decoded]
        · next more =>
          have open_batch := mt full_iff.mpr more
          have goes_on : ({ src with reader, nextEventId := src.nextEventId + 1 } :
              FileSource).reader.HandsOut front' back := later
          have room_left : room + (rows + 1) = max 1 src.batchLines := by omega
          obtain ⟨src', result, front₂, ran, hands₂, less, encode, lines, budget, ended⟩ :=
            ih (saturatingAdd usedBytes (trimCrlf line).length) goes_on spent room_left
              (Nat.pos_of_ne_zero (fun none_left => more (.inl none_left))) longer
          refine ⟨src', result, front₂, ran, hands₂, less.trans shorter, encode, lines, budget,
            .more decoded open_batch ended⟩

/-- One call at the head of the calls until EOF. -/
theorem receiveAll_succ {decoders : Decoders} (reads : Nat → List FileRead) {src src' : FileSource}
    {result : Received} (called : src.receive decoders (reads 0) = (src', result))
    (goes_on : result ≠ .eof) (kept : result ≠ .dropped) (fuel : Nat) :
    receiveAll decoders (fuel + 1) reads src =
      (receiveAll decoders fuel (fun call => reads (call + 1)) src').map (result :: ·) := by
  rw [receiveAll, called]
  cases result with
  | eof => exact absurd rfl goes_on
  | dropped => exact absurd rfl kept
  | failed => rfl
  | batch events => rfl

/-- The calls return, with an error for each bad line and the payloads of `delivered`. -/
theorem receiveAll_yields (decoders : Decoders) {src : FileSource} {text : Bytes}
    {reads : Nat → List Nat} (hands : src.reader.HandsOut text [])
    (enough : ∀ call, text.length + 1 < (reads call).length) :
    ∃ results, Fuel.Yields
        (fun fuel => receiveAll decoders fuel (fun call => (reads call).map .upTo) src) results ∧
      (results.flatMap Received.events).map payloadOf =
        (delivered (payloadFromLine decoders src.encode) src.batchLines src.batchBytesBudget 0 0 []
          ((lineChunks text).map trimCrlf)).map some ∧
      results.countP isFailed =
        badLines (payloadFromLine decoders src.encode) ((lineChunks text).map trimCrlf) := by
  -- every call but the last one takes a line
  induction count : ((lineChunks text).map trimCrlf).length using Nat.strong_induction_on
    generalizing src text reads with
  | _ lines ih =>
    have held : src.reader.file.length ≤ text.length := by
      have whole := congrArg List.length hands.whole
      simp only [ChunkedLineReader.content, List.length_append, List.length_nil] at whole
      omega
    have first := enough 0
    have plenty : src.reader.file.length + 1 < (reads 0).length := by omega
    have some_room : 0 < max 1 src.batchLines := Nat.lt_of_lt_of_le Nat.one_pos (Nat.le_max_left ..)
    have nothing : ([] : SourceBatch).map payloadOf = ([] : List Bytes).map some := rfl
    obtain ⟨src', result, front', called, later, less, encode, batchLines, budget, ended⟩ :=
      receiveLoop_ends decoders 0 hands (.inl plenty) (Nat.add_zero _) some_room nothing
    have received : src.receive decoders ((reads 0).map .upTo) = (src', result) := called
    have more : ∀ call, front'.length + 1 < (reads (call + 1)).length := by
      intro call
      have plenty := enough (call + 1)
      omega
    cases ended with
    | eof ended _ =>
      refine ⟨[], Fuel.Yields.const ?_, ?_, ?_⟩
      · intro fuel
        rw [receiveAll, received]
      · rw [ended]
        rfl
      · rw [ended]
        rfl
    | failed shorter same one =>
      obtain ⟨results, yields, sent, failures⟩ := ih _ (count ▸ shorter) later more rfl
      rw [encode, batchLines, budget] at sent
      rw [encode] at failures
      refine ⟨.failed :: results, Fuel.Yields.step
        (receiveAll_succ (fun call => (reads call).map .upTo) received (by simp) (by simp))
        (yields.map _), ?_, ?_⟩
      · rw [same, ← sent]
        rfl
      · rw [one, ← failures]
        exact List.countP_cons_of_pos rfl
    | @batch events payloads _ few shorter taken same none_bad =>
      obtain ⟨results, yields, sent, failures⟩ := ih _ (count ▸ shorter rfl) later more rfl
      rw [encode, batchLines, budget] at sent
      rw [encode] at failures
      refine ⟨.batch events :: results, Fuel.Yields.step
        (receiveAll_succ (fun call => (reads call).map .upTo) received (by simp) (by simp))
        (yields.map _), ?_, ?_⟩
      · rw [same, List.map_append, ← sent, ← taken]
        simp [Received.events]
      · rw [none_bad, ← failures]
        exact List.countP_cons_of_neg Bool.false_ne_true

end FileSource

/-- The payloads that reach the caller are those of the lines that can be decoded, in order,
    exactly when every line that cannot is the first one of its call; such a line is one error. -/
theorem good_lines_survive_iff (decoders : Decoders) (key : String) (data : Bytes)
    (encode : FileEncoding) (tags : List (String × String)) (limits : Nat × Nat × Nat)
    (sizes : Nat → Nat → Nat) :
    ∃ results, Fuel.Yields (fun fuel =>
        (FileSource.new key data encode tags limits (0, none)).receiveAll decoders fuel
          (answering data sizes)) results ∧
      results.countP isFailed = (payloadsOf decoders encode data).count none ∧
      ((results.flatMap Received.events).map payloadOf =
          (payloadsOf decoders encode data).filter Option.isSome ↔
        BadLinesFirst (FileSource.payloadFromLine decoders encode) limits.1 limits.2.1 0 0
          ((lineChunks data).map trimCrlf)) := by
  have hands := wholeReader_handsOut data (max minChunkBytes (min limits.2.2 maxChunkBytes)) 0
  rw [List.drop_zero] at hands
  have start : (FileSource.new key data encode tags limits (0, none)).reader.HandsOut data [] := hands
  obtain ⟨results, yields, sent, failures⟩ := FileSource.receiveAll_yields decoders start
    (fun call => by simp : ∀ call, data.length + 1 <
      ((List.range (data.length + 2)).map (sizes call)).length)
  have payloads : payloadsOf decoders encode data =
      ((lineChunks data).map trimCrlf).map (FileSource.payloadFromLine decoders encode) := by
    simp [payloadsOf]
  refine ⟨results, yields, ?_, ?_⟩
  · rw [failures, payloads, count_none]
    rfl
  · rw [sent, payloads, filter_isSome_map, List.map_inj_right (fun _ _ => Option.some.inj)]
    exact delivered_all_iff (FileSource.payloadFromLine decoders encode) limits.1 limits.2.1
      (List.length_nil (α := Bytes)) 0 _

/-- Decoders that take every line but `!` as it stands. -/
def plainDecoders : Decoders :=
  ⟨fun line => if line = [33] then none else some line,
    fun line => if line = [33] then none else some line⟩

/-- The lines `a`, `!` and `b` in batches of two: `a` is lost with the error of `!`. -/
theorem line_before_a_bad_one_is_lost :
    ((FileSource.new "f" [97, 10, 33, 10, 98, 10] .base64 [] (2, 0, 4096) (0, none)).receiveAll
        plainDecoders 4 (answering [97, 10, 33, 10, 98, 10] (fun _ _ => 8))).map
        (fun results => (results.flatMap Received.events).map payloadOf) = some [some [98]] ∧
      (payloadsOf plainDecoders .base64 [97, 10, 33, 10, 98, 10]).filter Option.isSome =
        [some [97], some [98]] := by
  decide

end File

end WarpMotor
