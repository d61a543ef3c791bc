import WarpMotor.Tcp.Framing

/-!
Frames of a TCP connection and how the stream is cut into reads. A chunk is
appended to the buffer and `extractMessage` is drained. Lines and
length-prefixed messages are the same for every cut. In auto mode the
extractor falls back to a line as soon as the length-prefixed message is not
complete, so a newline inside a payload is a frame boundary for some cuts.
-/
namespace WarpMotor

open Framing

namespace Tcp

def extractMessage (framing : FramingMode) (buffer : Bytes) : Option (Bytes × Bytes) :=
  match framing with
  | .line => extractLineMessage buffer
  | .len => extractLengthPrefixedMessage buffer
  | .auto => (extractLengthPrefixedMessage buffer).or (extractLineMessage buffer)

/-- The frames of a connection that reads these chunks. -/
def framesOf (framing : FramingMode) (chunks : List Bytes) : List Bytes :=
  (StreamFraming.feed (extractMessage framing) [] chunks).1

/-- The stream starts with a length, a space and a payload of that length. -/
def StartsWithFrame (stream payload rest : Bytes) : Prop :=
  ∃ digits, IsLength digits ∧ payload.length = lengthValue digits ∧
    stream = digits ++ space :: (payload ++ rest)

/-- Read as one buffer, the stream has no length-prefixed payload with a newline before its last
    byte. -/
inductive NewlineSafe : Bytes → Prop where
  | len {stream payload rest : Bytes} (frame : StartsWithFrame stream payload rest)
      (clean : newline ∉ payload.dropLast) (tail : NewlineSafe rest) : NewlineSafe stream
  | line {stream line rest : Bytes} (no_frame : ∀ payload rest, ¬ StartsWithFrame stream payload rest)
      (cut : stream = line ++ newline :: rest) (first : newline ∉ line) (tail : NewlineSafe rest) :
      NewlineSafe stream
  | rest {stream : Bytes} (no_frame : ∀ payload rest, ¬ StartsWithFrame stream payload rest)
      (no_line : newline ∉ stream) : NewlineSafe stream

theorem startsWithFrame_iff {stream payload rest : Bytes} :
    StartsWithFrame stream payload rest ↔
      extractLengthPrefixedMessage stream = some (payload, rest) := by
  rw [extractLengthPrefixedMessage_eq_some, lengthPrefix_eq_some]
  rfl

theorem no_frame_iff {stream : Bytes} :
    (∀ payload rest, ¬ StartsWithFrame stream payload rest) ↔
      extractLengthPrefixedMessage stream = none := by
  rw [Option.eq_none_iff_forall_ne_some]
  constructor
  · intro no_frame found taken
    exact no_frame found.1 found.2 (startsWithFrame_iff.mpr taken)
  · intro untaken payload rest frame
    exact untaken (payload, rest) (startsWithFrame_iff.mp frame)

theorem extractMessage_shrinks (framing : FramingMode) :
    StreamFraming.Shrinks (extractMessage framing) := by
  cases framing with
  | line => exact extractLineMessage_shrinks
  | len => exact extractLengthPrefixedMessage_shrinks
  | auto =>
    intro buf frame rest taken
    rcases Option.or_eq_some_iff.mp taken with counted | ⟨-, line⟩
    · exact extractLengthPrefixedMessage_shrinks buf frame rest counted
    · exact extractLineMessage_shrinks buf frame rest line

/-- Only auto mode can take back a frame when more bytes arrive. -/
theorem extractMessage_stable {framing : FramingMode} (modes : framing ≠ .auto) :
    StreamFraming.Stable (extractMessage framing) := by
  cases framing with
  | line => exact extractLineMessage_stable
  | len => exact extractLengthPrefixedMessage_stable
  | auto => exact absurd rfl modes

theorem framesOf_eq_drain {framing : FramingMode} {chunks : List Bytes}
    (uniform : StreamFraming.Uniform (extractMessage framing) chunks.flatten) :
    framesOf framing chunks =
      (StreamFraming.drain (extractMessage framing) chunks.flatten).1 := by
  have shrinks := extractMessage_shrinks framing
  unfold framesOf
  rw [StreamFraming.Uniform.feed_eq shrinks chunks [] shrinks.nil uniform]
  rfl

section Safe

/-- Where the length-prefixed message is missing or free of newlines, no front of the stream
    shows another frame. -/
theorem settled_of_lines {stream : Bytes}
    (waits : ∀ front more, stream = front ++ more → newline ∈ front →
      extractLengthPrefixedMessage front = none → extractLengthPrefixedMessage stream = none) :
    StreamFraming.Settled (extractMessage .auto) stream := by
  intro front more cut frame rest taken
  rcases Option.or_eq_some_iff.mp taken with counted | ⟨uncounted, line⟩
  · have whole := extractLengthPrefixedMessage_stable front frame rest more counted
    rw [← cut] at whole
    simp [extractMessage, whole]
  · have ended : newline ∈ front := by
      obtain ⟨split, found, -⟩ := Option.map_eq_some_iff.mp line
      rw [(splitNewline_eq_some.mp found).1]
      simp
    have whole := extractLineMessage_stable front frame rest more line
    rw [← cut] at whole
    simp [extractMessage, waits front more cut ended uncounted, whole]

/-- A front that ends inside a payload without early newlines holds no newline at all. -/
theorem no_newline_inside {stream payload rest front more : Bytes}
    (frame : StartsWithFrame stream payload rest) (clean : newline ∉ payload.dropLast)
    (cut : stream = front ++ more) (untaken : extractLengthPrefixedMessage front = none) :
    newline ∉ front := by
  intro ended
  obtain ⟨digits, valid, size, whole⟩ := frame
  have read : lengthPrefix stream = some (payload.length, payload ++ rest) :=
    lengthPrefix_eq_some.mpr ⟨digits, valid, size, whole⟩
  rw [cut] at read
  obtain ⟨begun, early, split⟩ := lengthPrefix_of_append ended read
  have short := (extractLengthPrefixedMessage_eq_none early).mp untaken
  have inside : newline ∈ begun := by
    obtain ⟨digits', valid', -, form⟩ := lengthPrefix_eq_some.mp early
    rw [form, List.mem_append, List.mem_cons] at ended
    rcases ended with digit | blank | body
    · exact absurd digit (newline_not_mem_length valid')
    · exact absurd blank (by decide)
    · exact body
  -- `begun` is a proper front of the payload.
  have front_of : begun <+: payload := by
    have prefixes : begun <+: payload ++ rest := ⟨more, split.symm⟩
    exact List.prefix_of_prefix_length_le prefixes (List.prefix_append payload rest) (by omega)
  obtain ⟨missing, parts⟩ := front_of
  have some_missing : missing ≠ [] := by
    rintro rfl
    rw [List.append_nil] at parts
    rw [parts] at short
    omega
  apply clean
  rw [← parts, List.dropLast_append_of_ne_nil some_missing]
  exact List.mem_append_left _ inside

theorem extractMessage_of_frame {stream payload rest : Bytes}
    (frame : StartsWithFrame stream payload rest) :
    extractMessage .auto stream = some (payload, rest) := by
  simp [extractMessage, startsWithFrame_iff.mp frame]

theorem extractMessage_of_line {stream line rest : Bytes}
    (untaken : extractLengthPrefixedMessage stream = none)
    (cut : stream = line ++ newline :: rest) (first : newline ∉ line) :
    extractMessage .auto stream = some (line.filter (· ≠ carriageReturn), rest) := by
  have split := splitNewline_eq_some.mpr ⟨cut, first⟩
  simp [extractMessage, untaken, extractLineMessage, split]

theorem NewlineSafe.uniform {stream : Bytes} (safe : NewlineSafe stream) :
    StreamFraming.Uniform (extractMessage .auto) stream := by
  induction safe with
  | len frame clean tail ih =>
    refine .frame (settled_of_lines ?_) (extractMessage_of_frame frame) ih
    intro front more cut ended untaken
    exact absurd ended (no_newline_inside frame clean cut untaken)
  | line no_frame cut first tail ih =>
    have untaken := no_frame_iff.mp no_frame
    refine .frame (settled_of_lines ?_) (extractMessage_of_line untaken cut first) ih
    intro _ _ _ _ _
    exact untaken
  | rest no_frame no_line =>
    have untaken := no_frame_iff.mp no_frame
    refine .stop (settled_of_lines ?_) ?_
    · intro _ _ _ _ _
      exact untaken
    · simp [extractMessage, untaken, extractLineMessage, splitNewline_eq_none.mpr no_line]

end Safe

section Cut

/-- A first chunk that is one frame adds that frame to those of the other chunks. -/
theorem framesOf_cons {framing : FramingMode} {front frame : Bytes} (chunks : List Bytes)
    (taken : extractMessage framing front = some (frame, [])) :
    framesOf framing (front :: chunks) = frame :: framesOf framing chunks := by
  have shrinks := extractMessage_shrinks framing
  have drained : StreamFraming.drain (extractMessage framing) front = ([frame], []) := by
    rw [StreamFraming.drain_some shrinks taken, StreamFraming.drain_none shrinks.nil]
  unfold framesOf
  simp [StreamFraming.feed, drained]

theorem framesOf_single (framing : FramingMode) (stream : Bytes) :
    framesOf framing [stream] = (StreamFraming.drain (extractMessage framing) stream).1 := by
  simp [framesOf, StreamFraming.feed]

/-- A line holds no newline, so it is not a payload that does. -/
theorem newline_not_mem_line {buffer frame rest : Bytes}
    (line : extractLineMessage buffer = some (frame, rest)) : newline ∉ frame := by
  obtain ⟨cut, split, same⟩ := Option.map_eq_some_iff.mp line
  cases same
  intro member
  exact (splitNewline_eq_some.mp split).2 (List.mem_of_mem_filter member)

/-- A read that ends at a newline inside a payload takes a line there. -/
theorem cut_payload_differs {stream payload rest : Bytes}
    (frame : StartsWithFrame stream payload rest) (early : newline ∈ payload.dropLast) :
    ∃ chunks : List Bytes, chunks.flatten = stream ∧
      framesOf .auto chunks ≠ framesOf .auto [stream] := by
  obtain ⟨before, after, split⟩ := List.append_of_mem early
  have nonempty : payload ≠ [] := by
    rintro rfl
    cases early
  obtain ⟨last, whole⟩ : ∃ last, payload = before ++ newline :: (after ++ [last]) := by
    have parts := List.dropLast_append_getLast nonempty
    rw [split] at parts
    exact ⟨payload.getLast nonempty, by simpa using parts.symm⟩
  obtain ⟨digits, valid, size, form⟩ := id frame
  let front := digits ++ space :: (before ++ [newline])
  let later := after ++ [last] ++ rest
  have chunks : [front, later].flatten = stream := by
    rw [form, whole]
    simp [front, later]
  have read : lengthPrefix front = some (payload.length, before ++ [newline]) :=
    lengthPrefix_eq_some.mpr ⟨digits, valid, size, rfl⟩
  have untaken : extractLengthPrefixedMessage front = none := by
    rw [extractLengthPrefixedMessage_eq_none read]
    have lengths := congrArg List.length whole
    simp only [List.length_append, List.length_cons, List.length_nil] at lengths ⊢
    omega
  refine ⟨[front, later], chunks, ?_⟩
  have shrinks := extractMessage_shrinks .auto
  cases line : extractLineMessage front with
  | none =>
    have missing : newline ∉ front := by
      apply splitNewline_eq_none.mp
      simpa [extractLineMessage] using line
    exact absurd (by simp [front]) missing
  | some found =>
    obtain ⟨text, left⟩ := found
    have taken : extractMessage .auto front = some (text, left) := by
      simp [extractMessage, untaken, line]
    intro same
    rw [framesOf_single, StreamFraming.drain_some shrinks (extractMessage_of_frame frame)] at same
    simp only [framesOf, StreamFraming.feed, List.nil_append,
      StreamFraming.drain_some shrinks taken, List.cons_append, List.cons.injEq] at same
    have inside : newline ∈ payload := List.mem_of_mem_dropLast early
    rw [← same.1] at inside
    exact newline_not_mem_line line inside

/-- What holds for every cut of a stream holds for every cut of what follows its first frame. -/
theorem independent_tail {front frame rest : Bytes}
    (taken : extractMessage .auto front = some (frame, []))
    (independent : ∀ chunks : List Bytes, chunks.flatten = front ++ rest →
      framesOf .auto chunks = framesOf .auto [front ++ rest])
    (chunks : List Bytes) (whole : chunks.flatten = rest) :
    framesOf .auto chunks = framesOf .auto [rest] := by
  have one := independent (front :: chunks) (by simp [whole])
  have other := independent (front :: [rest]) (by simp)
  rw [framesOf_cons _ taken] at one other
  exact List.cons.inj (one.trans other.symm) |>.2

theorem newlineSafe_of_independent (stream : Bytes)
    (independent : ∀ chunks : List Bytes, chunks.flatten = stream →
      framesOf .auto chunks = framesOf .auto [stream]) : NewlineSafe stream := by
  have shrinks := extractMessage_shrinks .auto
  induction stream using StreamFraming.drain_induction shrinks with
  | stop stream waits =>
    obtain ⟨untaken, no_line⟩ := Option.or_eq_none_iff.mp waits
    refine .rest (no_frame_iff.mpr untaken) (splitNewline_eq_none.mp ?_)
    simpa [extractLineMessage] using no_line
  | frame stream frame rest taken ih =>
    rcases Option.or_eq_some_iff.mp taken with counted | ⟨untaken, line⟩
    · have starts := startsWithFrame_iff.mpr counted
      have clean : newline ∉ frame.dropLast := by
        intro early
        obtain ⟨chunks, whole, differs⟩ := cut_payload_differs starts early
        exact differs (independent chunks whole)
      refine .len starts clean (ih ?_)
      obtain ⟨digits, valid, size, form⟩ := starts
      have alone : StartsWithFrame (digits ++ space :: frame) frame [] :=
        ⟨digits, valid, size, by simp⟩
      apply independent_tail (extractMessage_of_frame alone)
      intro chunks whole
      have same : digits ++ space :: frame ++ rest = stream := by simp [form]
      rw [same] at whole ⊢
      exact independent chunks whole
    · obtain ⟨⟨text, left⟩, split, same⟩ := Option.map_eq_some_iff.mp line
      cases same
      obtain ⟨form, first⟩ := splitNewline_eq_some.mp split
      refine .line (no_frame_iff.mpr untaken) form first (ih ?_)
      have whole_line : (text ++ [newline]) ++ left = stream := by simp [form]
      have untaken_line : extractLengthPrefixedMessage (text ++ [newline]) = none := by
        cases early : extractLengthPrefixedMessage (text ++ [newline]) with
        | none => rfl
        | some found =>
          have later := extractLengthPrefixedMessage_stable _ found.1 found.2 left early
          rw [whole_line, untaken] at later
          cases later
      apply independent_tail (extractMessage_of_line untaken_line rfl first)
      intro chunks whole
      rw [whole_line] at whole ⊢
      exact independent chunks whole

end Cut

/-- Lines and length-prefixed messages do not depend on the cuts; in auto mode the frames are
    independent of them exactly when no payload has a newline before its last byte. -/
theorem framing_ignores_cuts_iff (framing : FramingMode) (stream : Bytes) :
    (∀ one other : List Bytes, one.flatten = stream → other.flatten = stream →
      framesOf framing one = framesOf framing other) ↔
      (framing = .auto → NewlineSafe stream) := by
  constructor
  · rintro independent rfl
    apply newlineSafe_of_independent
    intro chunks whole
    exact independent chunks [stream] whole (by simp)
  · intro safe one other whole whole'
    have uniform : StreamFraming.Uniform (extractMessage framing) stream := by
      by_cases mode : framing = .auto
      · rw [mode]
        exact (safe mode).uniform
      · exact (extractMessage_stable mode).uniform (extractMessage_shrinks framing) stream
    rw [framesOf_eq_drain (whole ▸ uniform), framesOf_eq_drain (whole' ▸ uniform), whole, whole']

/-- `10 hello\nabcd` is one frame in one read and two frames when the first read ends after the
    newline. -/
theorem cut_payload_is_split :
    let first : Bytes := [49, 48, 32, 104, 101, 108, 108, 111, 10]
    let second : Bytes := [97, 98, 99, 100]
    framesOf .auto [first ++ second] = [[104, 101, 108, 108, 111, 10, 97, 98, 99, 100]] ∧
      framesOf .auto [first, second] = [[49, 48, 32, 104, 101, 108, 108, 111]] := by
  decide +kernel

end Tcp

end WarpMotor
