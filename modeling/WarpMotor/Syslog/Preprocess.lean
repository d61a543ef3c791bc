import WarpMotor.Syslog.Header

/-!
The preprocessing hooks of the two syslog sources. A hook cuts the header off
the payload, and in tag mode it writes priority, facility and severity into the
tags. With `fast` the UDP hook first tries the strict parsers, and the TCP hook
three lighter rules. `none` is a panic. How a tag is set is a parameter.
-/
namespace WarpMotor

open Framing

namespace Syslog

open Cursor Utf8 Indexed

abbrev Tags := List (String × String)

/-- The payload as text, when it is one. -/
def payloadText : RawData → Option Bytes
  | .string text => some (encode text.toList)
  | .bytes data => if (ByteArray.mk data.toArray).IsValidUTF8 then some data else none
  | .arcBytes data => if (ByteArray.mk data.toArray).IsValidUTF8 then some data else none

def span (data : Bytes) (start stop : Nat) : Bytes := (data.take stop).drop start

def sliceString (text : String) (start stop : Nat) : Option RawData :=
  (sliceText text.toList start stop).map fun inner => .string (String.ofList inner)

/-- The inner `none` is a span out of order. -/
def slicePayload (payload : RawData) (start stop : Nat) : Option (Option RawData) :=
  if stop < start then some none
  else
    match payload with
    | .bytes data => some (some (.bytes (span data start stop)))
    | .string text =>
      let len := (encode text.toList).length
      (sliceString text (min start len) (min stop len)).map some
    | .arcBytes data => some (some (.bytes (span data start stop)))

/-- The cut of the TCP hook; only a string is cut without a look at the order of the span. -/
def cutPayload (payload : RawData) (start stop : Nat) : Option RawData :=
  match payload with
  | .bytes data => some (.bytes (if start ≤ stop then span data start stop else data))
  | .string text => sliceString text start stop
  | .arcBytes data => some (if start ≤ stop then .bytes (span data start stop) else .arcBytes data)

section Hooks
variable (set : Tags → String → String → Tags)

def attachMeta (info : SyslogMeta) (tags : Tags) : Tags :=
  let tags := info.pri.elim tags fun pri => set tags "syslog.pri" (toString pri)
  let tags := info.facility.elim tags (set tags "syslog.facility")
  info.severity.elim tags (set tags "syslog.severity")

/-- The full parser; `cut` is the source's way of slicing a payload. -/
def fullPreproc (cut : RawData → Nat → Nat → Option RawData) (strip attach : Bool) (s : Bytes)
    (event : SourceEvent) : Option SourceEvent :=
  (Indexed.normalizeSlice s).bind fun ns =>
    let tagged :=
      if attach then { event with tags := attachMeta set ns.info event.tags } else event
    if strip then
      (cut event.payload (min ns.msgStart s.length) (min ns.msgEnd s.length)).map fun payload =>
        { tagged with payload }
    else some tagged

namespace Udp

def cut (payload : RawData) (start stop : Nat) : Option RawData :=
  (slicePayload payload start stop).map fun sliced => sliced.getD payload

/-- The event cut at the message that a strict parser found. -/
def fastCut (s : Bytes) (event : SourceEvent) (parsed : Option (Option (Nat × Option UInt8))) :
    Option (Option SourceEvent) :=
  match parsed with
  | none => none
  | some none => some none
  | some (some (start, _)) =>
    (slicePayload event.payload start s.length).map fun sliced =>
      sliced.map fun payload => { event with payload }

def preproc (strip attach fast : Bool) (event : SourceEvent) : Option SourceEvent :=
  match payloadText event.payload with
  | none => some event
  | some s =>
    if fast = true ∧ strip = true ∧ attach = false then
      orElse (fastCut s event (tryFastRfc5424 s))
        (orElse (fastCut s event (tryFastRfc3164 s)) (fullPreproc set cut strip attach s event))
    else fullPreproc set cut strip attach s event

def buildPreprocHook (strip attach fast : Bool) : Option (SourceEvent → Option SourceEvent) :=
  if strip = false ∧ attach = false then none else some (preproc set strip attach fast)

end Udp

namespace Tcp

/-- Behind the first `>`: version, five tokens and structured data. -/
def fast5424 (s : Bytes) : Option (Option Nat) :=
  match find [greaterThan] s with
  | none => some none
  | some gt => behindPri5424 false s (gt + 1)

/-- Behind the first `": "`, when it stands behind the first `>`. -/
def fastColon (s : Bytes) : Option Nat := do
  let col ← find [colon, space] s
  let gt ← find [greaterThan] s
  if gt < col then some (col + 2) else none

def fastWpgen (s : Bytes) : Option Nat := (find (ascii " wpgen: ") s).map (· + 8)

def fastStart (s : Bytes) : Option (Option Nat) :=
  orElse ((fast5424 s).map (·.map some)) (some ((fastColon s).or (fastWpgen s)))

def fastCut (s : Bytes) (event : SourceEvent) (start : Nat) : Option SourceEvent :=
  if start ≤ s.length then
    (cutPayload event.payload start s.length).map fun payload => { event with payload }
  else some event

def preproc (strip attach fast : Bool) (event : SourceEvent) : Option SourceEvent :=
  match payloadText event.payload with
  | none => some event
  | some s =>
    if fast = true ∧ strip = true ∧ attach = false then
      match fastStart s with
      | none => none
      | some (some start) => fastCut s event start
      | some none => fullPreproc set cutPayload strip attach s event
    else fullPreproc set cutPayload strip attach s event

def buildPreprocHook (strip attach fast : Bool) : Option (SourceEvent → Option SourceEvent) :=
  if strip = true ∨ attach = true then some (preproc set strip attach fast) else none

end Tcp

end Hooks

theorem payloadText_shape {payload : RawData} {s : Bytes} (read : payloadText payload = some s) :
    ∃ text, s = encode text := by
  cases payload with
  | string text =>
    cases read
    exact ⟨_, rfl⟩
  | bytes data =>
    simp only [payloadText, Option.ite_none_right_eq_some, isValidUTF8_iff] at read
    obtain ⟨valid, same⟩ := read
    cases same
    exact valid
  | arcBytes data =>
    simp only [payloadText, Option.ite_none_right_eq_some, isValidUTF8_iff] at read
    obtain ⟨valid, same⟩ := read
    cases same
    exact valid

theorem payloadText_bytes {s : Bytes} (valid : ∃ text, s = encode text) :
    payloadText (.bytes s) = some s := if_pos ((isValidUTF8_iff s).mpr valid)

theorem drop_text {text : List Char} {start : Nat}
    (boundary : isBoundary (encode text) start = true) :
    ∃ rest, (encode text).drop start = encode rest := by
  obtain ⟨inner, -, same⟩ := sliceText_eq boundary
  exact ⟨inner, same.symm⟩

/-- From a boundary on, both sources slice a text payload to the same. -/
theorem slice_text {payload : RawData} {s : Bytes} {start : Nat}
    (read : payloadText payload = some s) (boundary : isBoundary s start = true) :
    ∃ left, slicePayload payload start s.length = some (some left) ∧
      cutPayload payload start s.length = some left ∧ payloadText left = some (s.drop start) := by
  have inside := le_of_isBoundary boundary
  have order : ¬ s.length < start := by omega
  have whole : span s start s.length = s.drop start := by rw [span, List.take_length]
  have sliced : payloadText (.bytes (s.drop start)) = some (s.drop start) := by
    obtain ⟨text, rfl⟩ := payloadText_shape read
    exact payloadText_bytes (drop_text boundary)
  cases payload with
  | string given =>
    cases read
    obtain ⟨inner, cut, same⟩ := sliceText_eq boundary
    refine ⟨.string (String.ofList inner), ?_, ?_, ?_⟩
    · simp only [slicePayload, order, if_false, Nat.min_eq_left inside, Nat.min_self, sliceString,
        cut, Option.map_some]
    · simp only [cutPayload, sliceString, cut, Option.map_some]
    · simp only [payloadText, String.toList_ofList, same]
  | bytes data =>
    simp only [payloadText, Option.ite_none_right_eq_some, Option.some.injEq] at read
    obtain ⟨-, rfl⟩ := read
    refine ⟨.bytes (data.drop start), ?_, ?_, sliced⟩
    · simp only [slicePayload, order, if_false, whole]
    · simp only [cutPayload, inside, if_true, whole]
  | arcBytes data =>
    simp only [payloadText, Option.ite_none_right_eq_some, Option.some.injEq] at read
    obtain ⟨-, rfl⟩ := read
    refine ⟨.bytes (data.drop start), ?_, ?_, sliced⟩
    · simp only [slicePayload, order, if_false, whole]
    · simp only [cutPayload, inside, if_true, whole]

theorem boundary_of_find {text : List Char} {pattern : Bytes} {found k : Nat} {b : UInt8}
    (here : find pattern (encode text) = some found) (byte : pattern[k]? = some b)
    (low : b.toNat < 128) : isBoundary (encode text) (found + k + 1) = true := by
  rw [← List.drop_zero (l := encode text)] at here
  have inside := byte_of_find here byte
  rw [Nat.zero_add] at inside
  exact isBoundary_after_ascii inside low

/-- Where the TCP source's rules cut, a character begins; the rules never panic. -/
theorem fastStart_returns (text : List Char) :
    ∃ found, Tcp.fastStart (encode text) = some found ∧
      ∀ start, found = some start → isBoundary (encode text) start = true := by
  have colons : ∀ start, Tcp.fastColon (encode text) = some start →
      isBoundary (encode text) start = true := by
    intro start found
    simp only [Tcp.fastColon, bind, Option.bind_eq_some_iff] at found
    obtain ⟨col, here, gt, -, later⟩ := found
    split at later
    · cases later
      exact boundary_of_find here (k := 1) rfl (by decide)
    · cases later
  have wpgen : ∀ start, Tcp.fastWpgen (encode text) = some start →
      isBoundary (encode text) start = true := by
    intro start found
    obtain ⟨pos, here, rfl⟩ := Option.map_eq_some_iff.mp found
    exact boundary_of_find here (k := 7) (b := space) (by decide) (by decide)
  have lighter : ∀ start, (Tcp.fastColon (encode text)).or (Tcp.fastWpgen (encode text)) =
      some start → isBoundary (encode text) start = true := by
    intro start found
    obtain first | ⟨-, second⟩ := Option.or_eq_some_iff.mp found
    · exact colons start first
    · exact wpgen start second
  unfold Tcp.fastStart Tcp.fast5424
  cases first : find [greaterThan] (encode text) with
  | none => exact ⟨_, rfl, lighter⟩
  | some gt =>
    have boundary := boundary_of_find first (k := 0) rfl (by decide)
    have returned := behindPri5424_eq text (le_of_isBoundary boundary)
    cases parsed : header5424 ((encode text).drop (gt + 1)) with
    | none =>
      rw [parsed, Option.map_none] at returned
      exact ⟨_, by simp only [returned]; rfl, lighter⟩
    | some left =>
      rw [parsed, Option.map_some] at returned
      refine ⟨_, by simp only [returned]; rfl, ?_⟩
      rintro start ⟨⟩
      exact behindPri5424_boundary returned

section
variable (set : Tags → String → String → Tags)

/-- The cut of either source. -/
def IsCut (cut : RawData → Nat → Nat → Option RawData) : Prop :=
  ∀ payload s start, payloadText payload = some s → isBoundary s start = true →
    ∃ left, cut payload start s.length = some left ∧ cutPayload payload start s.length = some left ∧
      payloadText left = some (s.drop start)

theorem udp_isCut : IsCut Udp.cut := by
  intro payload s start read boundary
  obtain ⟨left, sliced, cut, text⟩ := slice_text read boundary
  exact ⟨left, by rw [Udp.cut, sliced]; rfl, cut, text⟩

theorem tcp_isCut : IsCut cutPayload := by
  intro payload s start read boundary
  obtain ⟨left, -, cut, text⟩ := slice_text read boundary
  exact ⟨left, cut, cut, text⟩

theorem fullPreproc_returns {cut : RawData → Nat → Nat → Option RawData} (cuts : IsCut cut)
    {strip attach : Bool} {text : List Char} {event : SourceEvent} {ns : NormalizedSlice}
    (read : payloadText event.payload = some (encode text))
    (parsed : Indexed.normalizeSlice (encode text) = some ns) :
    ∃ left, fullPreproc set cut strip attach (encode text) event = some left ∧
      (strip = true → payloadText left.payload = some ((encode text).drop ns.msgStart)) := by
  obtain ⟨last, boundary⟩ := normalizeSlice_span text parsed
  obtain ⟨payload, sliced, -, rest⟩ := cuts _ _ _ read boundary
  have start : min ns.msgStart (encode text).length = ns.msgStart :=
    Nat.min_eq_left (le_of_isBoundary boundary)
  rw [fullPreproc, parsed, Option.bind_some]
  cases strip with
  | false => exact ⟨_, rfl, by rintro ⟨⟩⟩
  | true =>
    simp only [if_true, start, last, Nat.min_self, sliced, Option.map_some]
    exact ⟨_, rfl, fun _ => rest⟩

theorem udp_fastCut_returns {text : List Char} {event : SourceEvent}
    (read : payloadText event.payload = some (encode text)) {found : Option (Nat × Option UInt8)}
    (boundaries : ∀ start pri, found = some (start, pri) →
      isBoundary (encode text) start = true) :
    ∃ left, Udp.fastCut (encode text) event (some found) = some left := by
  cases found with
  | none => exact ⟨none, rfl⟩
  | some found =>
    obtain ⟨start, pri⟩ := found
    obtain ⟨payload, sliced, -, -⟩ := slice_text read (boundaries start pri rfl)
    exact ⟨some { event with payload }, by simp only [Udp.fastCut, sliced, Option.map_some]⟩

theorem orElse_returns {A : Type} {first : Option (Option A)} {second : Option A}
    (tried : ∃ found, first = some found) (later : ∃ a, second = some a) :
    ∃ a, orElse first second = some a := by
  obtain ⟨found, rfl⟩ := tried
  cases found with
  | none => exact later
  | some a => exact ⟨a, rfl⟩

/-- Every parser returns, and every message it finds begins between two characters and ends with
    the text. -/
structure HeaderHandled (s : Bytes) : Prop where
  slice : ∃ ns, Indexed.normalizeSlice s = some ns ∧ ns.msgStart ≤ ns.msgEnd ∧
    ns.msgEnd = s.length ∧ isBoundary s ns.msgStart = true
  copy : ∃ n, normalize s = some n
  fast5424 : ∃ found, tryFastRfc5424 s = some found ∧ ∀ start pri, found = some (start, pri) →
    start ≤ s.length ∧ isBoundary s start = true
  fast3164 : ∃ found, tryFastRfc3164 s = some found ∧ ∀ start pri, found = some (start, pri) →
    start ≤ s.length ∧ isBoundary s start = true

/-- In every mode the hooks of both sources return on a payload with this text. -/
def HooksReturn (s : Bytes) : Prop :=
  ∀ strip attach fast event, payloadText event.payload = some s →
    (∃ left, Udp.preproc set strip attach fast event = some left) ∧
      ∃ left, Tcp.preproc set strip attach fast event = some left

theorem hooksReturn {text : List Char} (handled : HeaderHandled (encode text)) :
    HooksReturn set (encode text) := by
  intro strip attach fast event read
  obtain ⟨ns, parsed, -⟩ := handled.slice
  have full : ∀ {cut}, IsCut cut →
      ∃ left, fullPreproc set cut strip attach (encode text) event = some left := by
    intro cut cuts
    obtain ⟨left, returned, -⟩ := fullPreproc_returns set cuts read parsed
    exact ⟨left, returned⟩
  constructor
  · obtain ⟨found, strict, boundaries⟩ := handled.fast5424
    obtain ⟨found', strict', boundaries'⟩ := handled.fast3164
    simp only [Udp.preproc, read]
    split
    · rw [strict, strict']
      exact orElse_returns
        (udp_fastCut_returns read fun start pri same => (boundaries start pri same).2)
        (orElse_returns
          (udp_fastCut_returns read fun start pri same => (boundaries' start pri same).2)
          (full udp_isCut))
    · exact full udp_isCut
  · simp only [Tcp.preproc, read]
    split
    · obtain ⟨found, started, boundaries⟩ := fastStart_returns text
      rw [started]
      cases found with
      | none => exact full tcp_isCut
      | some start =>
        have boundary := boundaries start rfl
        obtain ⟨payload, sliced, -, -⟩ := tcp_isCut _ _ _ read boundary
        exact ⟨{ event with payload }, by
          simp only [Tcp.fastCut, le_of_isBoundary boundary, if_true, sliced, Option.map_some]⟩
    · exact full tcp_isCut

/-- A priority, and behind it a character that begins within three bytes and ends later. With an
    empty priority only the full parser looks at the month, when the text is no header of
    RFC 5424. -/
def CutsMonth (s : Bytes) : Prop :=
  ∃ digits rest, splitPri s = some (digits, rest) ∧ cutsMonth rest = true ∧
    (digits ≠ [] ∨ ¬ IsHeader5424 rest)

theorem tryFastRfc3164_none {text : List Char} {digits rest : Bytes}
    (cut : splitPri (encode text) = some (digits, rest)) (cuts : cutsMonth rest = true)
    (nonempty : digits ≠ []) : tryFastRfc3164 (encode text) = none := by
  rw [tryFastRfc3164, Option.map_eq_none_iff, rfc3164Header_none_iff]
  exact ⟨digits, rest, cut, fun empty => nonempty empty.2, cuts⟩

theorem fast_span {text : List Char} {parsed : Option (Bytes × Nat)}
    (boundaries : ∀ found, parsed = some found → isBoundary (encode text) found.2 = true) :
    ∀ start pri, parsed.map fastAt = some (start, pri) →
      start ≤ (encode text).length ∧ isBoundary (encode text) start = true := by
  intro start pri found
  obtain ⟨pair, parsed, same⟩ := Option.map_eq_some_iff.mp found
  cases same
  have boundary := boundaries pair parsed
  exact ⟨le_of_isBoundary boundary, boundary⟩

theorem headerHandled_iff (text : List Char) :
    HeaderHandled (encode text) ↔ ¬ CutsMonth (encode text) := by
  constructor
  · rintro handled ⟨digits, rest, cut, cuts, reached⟩
    by_cases nonempty : digits = []
    · obtain ⟨ns, parsed, -⟩ := handled.slice
      have incomplete := reached.resolve_left (not_not_intro nonempty)
      rw [(normalizeSlice_none_iff text).mpr ⟨digits, rest, cut, cuts, incomplete⟩] at parsed
      cases parsed
    · obtain ⟨found, parsed, -⟩ := handled.fast3164
      rw [tryFastRfc3164_none cut cuts nonempty] at parsed
      cases parsed
  · intro whole
    obtain ⟨ns, parsed⟩ : ∃ ns, Indexed.normalizeSlice (encode text) = some ns := by
      rw [← Option.ne_none_iff_exists', Ne, normalizeSlice_none_iff]
      rintro ⟨digits, rest, cut, cuts, incomplete⟩
      exact whole ⟨digits, rest, cut, cuts, .inr incomplete⟩
    obtain ⟨last, boundary⟩ := normalizeSlice_span text parsed
    obtain ⟨strict, first⟩ := rfc5424Header_returns text true
    obtain ⟨strict', second⟩ : ∃ found, rfc3164Header true (encode text) = some found := by
      rw [← Option.ne_none_iff_exists', Ne, rfc3164Header_none_iff]
      rintro ⟨digits, rest, cut, taken, cuts⟩
      exact whole ⟨digits, rest, cut, cuts, .inl fun empty => taken ⟨rfl, empty⟩⟩
    refine ⟨⟨ns, parsed, ?_, last, boundary⟩, ?_, ⟨strict.map fastAt, ?_, ?_⟩,
      ⟨strict'.map fastAt, ?_, ?_⟩⟩
    · rw [last]
      exact le_of_isBoundary boundary
    · have same := normalize_eq text
      rw [parsed, Option.map_some, Option.map_eq_some_iff] at same
      obtain ⟨n, copied, -⟩ := same
      exact ⟨n, copied⟩
    · rw [tryFastRfc5424, first]
      rfl
    · exact fast_span fun found same => rfc5424Header_boundary (same ▸ first)
    · rw [tryFastRfc3164, second]
      rfl
    · exact fast_span fun found same => rfc3164Header_boundary (same ▸ second)

/-- Parsers and hooks return on every text, except when the slice of the month ends inside a
    character. -/
theorem header_handling_returns_iff (text : List Char) :
    HeaderHandled (encode text) ∧ HooksReturn set (encode text) ↔ ¬ CutsMonth (encode text) := by
  rw [← headerHandled_iff]
  exact ⟨And.left, fun handled => ⟨handled, hooksReturn set handled⟩⟩

end

/-- The month's slice of `<34>aaé: x` ends inside the `é`. -/
theorem header_handling_panics :
    Indexed.normalizeSlice (encode "<34>aaé: x".toList) = none ∧
      normalize (encode "<34>aaé: x".toList) = none ∧
      tryFastRfc3164 (encode "<34>aaé: x".toList) = none ∧
      Udp.preproc (fun tags _ _ => tags) true false true
        ⟨1, "syslog", .string "<34>aaé: x", [], none⟩ = none ∧
      Tcp.preproc (fun tags _ _ => tags) true true false
        ⟨1, "syslog", .string "<34>aaé: x", [], none⟩ = none := by
  decide

end Syslog

end WarpMotor
