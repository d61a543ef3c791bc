import WarpMotor.Syslog.Preprocess

/-!
Fast strip against the full parser. The UDP source's strict parsers accept only
what the full one reads in the same way. The TCP source's rules look at less than
a header: a `": "` anywhere behind the first `>` is enough for them. Which texts
they cut like the full parser is told by the grammar of the two headers.
-/
namespace WarpMotor

open Framing

namespace Syslog

open Cursor Utf8 Indexed

theorem month_no_version {rest : Bytes} (valid : isValidMonth (rest.take 3) = true) :
    header5424 rest = none := by
  obtain ⟨a, b, c, month, letter⟩ := month_starts_with_letter (List.contains_iff_mem.mp valid)
  cases rest with
  | nil => cases month
  | cons d rest =>
    have head : d = a := (List.cons.inj month).1
    have first : isAsciiDigit d = false := by
      rw [head]
      exact letter
    rw [header5424, versionAndTokens, if_pos (List.takeWhile_cons_of_neg (by simp [first]))]
    rfl

section
variable (text : List Char)

/-- The parts of a header that the strict parser of RFC 5424 takes. -/
theorem rfc5424Header_strict {found : Bytes × Nat}
    (parsed : rfc5424Header true (encode text) = some (some found)) :
    rfc5424Header false (encode text) = some (some found) := by
  rw [rfc5424Header, withPri_eq] at parsed ⊢
  cases cut : splitPri (encode text) with
  | none => simp [cut] at parsed
  | some parts =>
    simp only [cut, Option.elim_some, Bool.false_eq_true, false_and, if_false] at parsed ⊢
    split at parsed
    · cases parsed
    · obtain nothing | same := behindPri5424_strict text (parts.1.length + 2)
      · rw [nothing] at parsed
        cases parsed
      · rw [← same]
        exact parsed

theorem rfc3164Header_strict {found : Bytes × Nat}
    (parsed : rfc3164Header true (encode text) = some (some found)) :
    rfc5424Header false (encode text) = some none ∧
      rfc3164Header false (encode text) = some (some found) := by
  rw [rfc3164Header, withPri_eq] at parsed ⊢
  rw [rfc5424Header, withPri_eq]
  cases cut : splitPri (encode text) with
  | none => simp [cut] at parsed
  | some parts =>
    obtain ⟨digits, rest⟩ := parts
    obtain ⟨-, boundary, tail, bound⟩ := pri_offsets text cut
    simp only [cut, Option.elim_some, Bool.false_eq_true, false_and, if_false,
      behindPri3164_eq text _ bound boundary, behindPri5424_eq text bound, tail] at parsed ⊢
    split at parsed
    · cases parsed
    · split at parsed
      · cases parsed
      · rename_i whole
        rw [if_neg whole]
        refine ⟨?_, parsed⟩
        split at parsed
        · rename_i valid
          rw [month_no_version valid]
          rfl
        · cases parsed

/-- What a strict parser accepts the full one reads from the same byte on. -/
theorem tryFastRfc5424_agrees {start : Nat} {pri : Option UInt8}
    (accepted : tryFastRfc5424 (encode text) = some (some (start, pri))) :
    ∃ ns, Indexed.normalizeSlice (encode text) = some ns ∧ ns.msgStart = start := by
  simp only [tryFastRfc5424, Option.map_eq_some_iff] at accepted
  obtain ⟨_, parsed, found, rfl, same⟩ := accepted
  cases same
  refine ⟨sliceAt (encode text) found, ?_, rfl⟩
  rw [Indexed.normalizeSlice, Indexed.parseRfc5424Slice, rfc5424Header_strict text parsed]
  rfl

theorem tryFastRfc3164_agrees {start : Nat} {pri : Option UInt8}
    (accepted : tryFastRfc3164 (encode text) = some (some (start, pri))) :
    ∃ ns, Indexed.normalizeSlice (encode text) = some ns ∧ ns.msgStart = start := by
  simp only [tryFastRfc3164, Option.map_eq_some_iff] at accepted
  obtain ⟨_, parsed, found, rfl, same⟩ := accepted
  cases same
  obtain ⟨other, full⟩ := rfc3164Header_strict text parsed
  refine ⟨sliceAt (encode text) found, ?_, rfl⟩
  rw [Indexed.normalizeSlice, Indexed.parseRfc5424Slice, Indexed.parseRfc3164Slice, other, full]
  rfl

end

section
variable (set : Tags → String → String → Tags)

theorem udp_full_of_fastCut {text : List Char} {event left : SourceEvent}
    {parsed : Option (Option (Nat × Option UInt8))}
    (read : payloadText event.payload = some (encode text))
    (agrees : ∀ start pri, parsed = some (some (start, pri)) →
      ∃ ns, Indexed.normalizeSlice (encode text) = some ns ∧ ns.msgStart = start)
    (cut : Udp.fastCut (encode text) event parsed = some (some left)) :
    fullPreproc set Udp.cut true false (encode text) event = some left := by
  cases parsed with
  | none => cases cut
  | some found =>
    cases found with
    | none => cases cut
    | some found =>
      obtain ⟨start, pri⟩ := found
      obtain ⟨ns, full, same⟩ := agrees start pri rfl
      obtain ⟨last, boundary⟩ := normalizeSlice_span text full
      rw [same] at boundary
      obtain ⟨payload, sliced, -, -⟩ := slice_text read boundary
      simp only [Udp.fastCut, sliced, Option.map_some, Option.some.injEq] at cut
      have inside := Nat.min_eq_left (le_of_isBoundary boundary)
      simp [fullPreproc, full, same, last, inside, Udp.cut, sliced, ← cut]

/-- When the fast hook returns, the full one returns the same event. -/
theorem udp_fast_strip_agrees {event left : SourceEvent}
    (returned : Udp.preproc set true false true event = some left) :
    Udp.preproc set true false false event = some left ∧
      ∀ text, payloadText event.payload = some (encode text) →
        (∀ start pri, tryFastRfc5424 (encode text) = some (some (start, pri)) →
          ∃ ns, Indexed.normalizeSlice (encode text) = some ns ∧ ns.msgStart = start) ∧
        ∀ start pri, tryFastRfc3164 (encode text) = some (some (start, pri)) →
          ∃ ns, Indexed.normalizeSlice (encode text) = some ns ∧ ns.msgStart = start := by
  refine ⟨?_, fun text _ => ⟨fun _ _ => tryFastRfc5424_agrees text,
    fun _ _ => tryFastRfc3164_agrees text⟩⟩
  unfold Udp.preproc at returned ⊢
  cases read : payloadText event.payload with
  | none => simpa [read] using returned
  | some s =>
    obtain ⟨text, rfl⟩ := payloadText_shape read
    simp only [read, true_and, if_true, Bool.false_eq_true, false_and, if_false] at returned ⊢
    obtain cut | ⟨-, later⟩ := orElse_some returned
    · exact udp_full_of_fastCut set read (fun _ _ => tryFastRfc5424_agrees text) cut
    · obtain cut | ⟨-, full⟩ := orElse_some later
      · exact udp_full_of_fastCut set read (fun _ _ => tryFastRfc3164_agrees text) cut
      · exact full

end

theorem udp_fast_strip_su : Udp.preproc (fun tags _ _ => tags) true false false
    ⟨1, "syslog", .string "<34>Oct 11 22:14:15 mymachine su: test", [], none⟩ =
      some ⟨1, "syslog", .string "test", [], none⟩ :=
  (udp_fast_strip_agrees (fun tags _ _ => tags) (by decide)).1

/-! The grammar of RFC 3164 behind the priority. -/

def IsDay (day : Bytes) : Prop :=
  (day.length = 1 ∨ day.length = 2) ∧ ∀ b ∈ day, isAsciiDigit b = true

def IsClock (clock : Bytes) : Prop :=
  ∃ h₁ h₂ m₁ m₂ s₁ s₂, (∀ b ∈ [h₁, h₂, m₁, m₂, s₁, s₂], isAsciiDigit b = true) ∧
    clock = [h₁, h₂, colon, m₁, m₂, colon, s₁, s₂]

/-- Month, day, time and host, each with the space behind it, and then the tag and the message. -/
def IsHeader3164 (rest host tagged : Bytes) : Prop :=
  ∃ month blank day clock, month ∈ months ∧ (blank = [] ∨ blank = [space]) ∧ IsDay day ∧
    IsClock clock ∧ host ≠ [] ∧ space ∉ host ∧
    rest = month ++ space :: (blank ++ (day ++ space :: (clock ++ space :: (host ++ space :: tagged))))

theorem expect_iff {byte : UInt8} {rest after : Bytes} :
    Syslog.expect byte rest = some after ↔ rest = byte :: after := by
  cases rest with
  | nil => simp [Syslog.expect]
  | cons b rest => simp [Syslog.expect]

theorem skipSpace_shape (rest : Bytes) :
    ∃ blank, (blank = [] ∨ blank = [space]) ∧ rest = blank ++ Syslog.skipSpace rest := by
  cases rest with
  | nil => exact ⟨[], .inl rfl, rfl⟩
  | cons b rest =>
    by_cases same : b = space
    · exact ⟨[space], .inr rfl, by simp [Syslog.skipSpace, same]⟩
    · exact ⟨[], .inl rfl, by simp [Syslog.skipSpace, same]⟩

theorem skipDay_shape {rest after : Bytes} (skipped : Syslog.skipDay rest = some after) :
    ∃ day, IsDay day ∧ rest = day ++ after := by
  cases rest with
  | nil => cases skipped
  | cons b rest =>
    unfold Syslog.skipDay at skipped
    dsimp only at skipped
    split at skipped
    · rename_i digit
      cases rest with
      | nil =>
        cases skipped
        exact ⟨[b], ⟨.inl rfl, by simpa using digit⟩, rfl⟩
      | cons c rest =>
        dsimp only at skipped
        split at skipped
        · rename_i second
          cases skipped
          exact ⟨[b, c], ⟨.inr rfl, by simpa using ⟨digit, second⟩⟩, rfl⟩
        · cases skipped
          exact ⟨[b], ⟨.inl rfl, by simpa using digit⟩, rfl⟩
    · cases skipped

theorem skipClock_shape {rest after : Bytes} (skipped : Syslog.skipClock rest = some after) :
    ∃ clock, IsClock clock ∧ rest = clock ++ after := by
  unfold Syslog.skipClock at skipped
  split at skipped
  · rename_i h₁ h₂ c₁ m₁ m₂ c₂ s₁ s₂ rest
    split at skipped
    · rename_i printed
      cases skipped
      obtain ⟨h₁_digit, h₂_digit, rfl, m₁_digit, m₂_digit, rfl, s₁_digit, s₂_digit⟩ := printed
      refine ⟨[h₁, h₂, colon, m₁, m₂, colon, s₁, s₂], ⟨h₁, h₂, m₁, m₂, s₁, s₂, ?_, rfl⟩, rfl⟩
      simp [h₁_digit, h₂_digit, m₁_digit, m₂_digit, s₁_digit, s₂_digit]
    · cases skipped
  · cases skipped

theorem skipHostname_shape {rest tagged : Bytes}
    (skipped : Syslog.skipHostname rest = some tagged) :
    ∃ host, host ≠ [] ∧ space ∉ host ∧ rest = host ++ space :: tagged := by
  unfold Syslog.skipHostname at skipped
  cases scanned : rest.dropWhile (· ≠ space) with
  | nil => simp only [scanned, reduceCtorEq] at skipped
  | cons b after =>
    simp only [scanned] at skipped
    obtain ⟨shape, inside, stops⟩ := dropWhile_stop scanned
    obtain rfl : b = space := by simpa using stops
    split at skipped
    · cases skipped
    · rename_i nonempty
      cases skipped
      exact ⟨_, nonempty, not_space.mp inside, shape⟩

theorem header3164_shape {rest tagged : Bytes} (valid : isValidMonth (rest.take 3) = true)
    (skipped : Syslog.timeAndHost (rest.drop 3) = some tagged) :
    ∃ host, IsHeader3164 rest host tagged := by
  simp only [Syslog.timeAndHost, bind, Option.bind_eq_some_iff] at skipped
  obtain ⟨r₁, behind_month, r₂, behind_day, r₃, behind_blank, r₄, behind_clock, r₅, behind_space,
    behind_host⟩ := skipped
  obtain ⟨blank, blank_ok, shape₁⟩ := skipSpace_shape r₁
  obtain ⟨day, day_ok, shape₂⟩ := skipDay_shape behind_day
  obtain ⟨clock, clock_ok, shape₃⟩ := skipClock_shape behind_clock
  obtain ⟨host, nonempty, spaceless, shape₄⟩ := skipHostname_shape behind_host
  rw [expect_iff] at behind_month behind_blank behind_space
  refine ⟨host, rest.take 3, blank, day, clock, List.contains_iff_mem.mp valid, blank_ok, day_ok,
    clock_ok, nonempty, spaceless, ?_⟩
  rw [← shape₄, ← behind_space, ← shape₃, ← behind_blank, ← shape₂, ← shape₁, ← behind_month,
    List.take_append_drop]

theorem digit_ne {b c : UInt8} (digit : isAsciiDigit b = true) (other : isAsciiDigit c = false) :
    b ≠ c := by
  rintro rfl
  rw [digit] at other
  cases other

theorem skipSpace_append {blank day after : Bytes} (blank_ok : blank = [] ∨ blank = [space])
    (day_ok : IsDay day) : Syslog.skipSpace (blank ++ (day ++ after)) = day ++ after := by
  obtain ⟨lengths, decimal⟩ := day_ok
  cases day with
  | nil => simp at lengths
  | cons b day =>
    have first : b ≠ space := digit_ne (decimal b (by simp)) (by decide)
    obtain rfl | rfl := blank_ok
    · simp [Syslog.skipSpace, first]
    · simp [Syslog.skipSpace]

theorem skipDay_append {day : Bytes} (day_ok : IsDay day) (after : Bytes) :
    Syslog.skipDay (day ++ space :: after) = some (space :: after) := by
  have stops : isAsciiDigit space = false := by decide
  obtain ⟨one | two, decimal⟩ := day_ok
  · obtain ⟨b, rfl⟩ := List.length_eq_one_iff.mp one
    simp [Syslog.skipDay, decimal, stops]
  · obtain ⟨b, c, rfl⟩ := List.length_eq_two.mp two
    simp [Syslog.skipDay, decimal]

theorem skipClock_append {clock : Bytes} (clock_ok : IsClock clock) (after : Bytes) :
    Syslog.skipClock (clock ++ after) = some after := by
  obtain ⟨h₁, h₂, m₁, m₂, s₁, s₂, decimal, rfl⟩ := clock_ok
  simp only [List.mem_cons, List.not_mem_nil, or_false, forall_eq_or_imp, forall_eq] at decimal
  simp [Syslog.skipClock, decimal]

theorem header3164_parses {rest host tagged : Bytes} (header : IsHeader3164 rest host tagged) :
    cutsMonth rest = false ∧ isValidMonth (rest.take 3) = true ∧
      Syslog.timeAndHost (rest.drop 3) = some tagged := by
  obtain ⟨month, blank, day, clock, valid, blank_ok, day_ok, clock_ok, nonempty, spaceless, rfl⟩ :=
    header
  obtain ⟨a, b, c, rfl, -⟩ := month_starts_with_letter valid
  refine ⟨rfl, List.contains_iff_mem.mpr valid, ?_⟩
  have host_read := skipHostname_printed nonempty spaceless tagged
  simp [Syslog.timeAndHost, Syslog.expect, skipSpace_append blank_ok day_ok, skipDay_append day_ok,
    skipClock_append clock_ok, host_read]

/-! The first `": "` of a line. -/

theorem afterColonSpace_append {field : Bytes} (colonless : colon ∉ field) (rest : Bytes) :
    afterColonSpace (field ++ rest) = afterColonSpace rest := by
  induction field with
  | nil => rfl
  | cons b field ih =>
    have other : b ≠ colon := fun same => colonless (by simp [same])
    rw [List.cons_append, afterColonSpace, if_neg (fun both => other both.1)]
    exact ih fun member => colonless (List.mem_cons_of_mem b member)

theorem afterColonSpace_clock {clock : Bytes} (clock_ok : IsClock clock) (rest : Bytes) :
    afterColonSpace (clock ++ rest) = afterColonSpace rest := by
  obtain ⟨h₁, h₂, m₁, m₂, s₁, s₂, decimal, rfl⟩ := clock_ok
  simp only [List.mem_cons, List.not_mem_nil, or_false, forall_eq_or_imp, forall_eq] at decimal
  obtain ⟨h₁_digit, h₂_digit, m₁_digit, m₂_digit, s₁_digit, s₂_digit⟩ := decimal
  have no_colon : ∀ b, isAsciiDigit b = true → b ≠ colon := fun b digit =>
    digit_ne digit (by decide)
  have no_space : ∀ b, isAsciiDigit b = true → b ≠ space := fun b digit =>
    digit_ne digit (by decide)
  simp [afterColonSpace, no_colon _ h₁_digit, no_colon _ h₂_digit, no_colon _ m₁_digit,
    no_colon _ m₂_digit, no_colon _ s₁_digit, no_colon _ s₂_digit, no_space _ m₁_digit,
    no_space _ s₁_digit]

/-- A host that ends with a colon ends the search. -/
theorem afterColonSpace_host {host : Bytes} (spaceless : space ∉ host) (tagged : Bytes) :
    afterColonSpace (host ++ space :: tagged) =
      if host.getLast? = some colon then some tagged else afterColonSpace tagged := by
  induction host with
  | nil => simp [afterColonSpace, colon, space]
  | cons b host ih =>
    have later := ih fun member => spaceless (List.mem_cons_of_mem b member)
    cases host with
    | nil =>
      by_cases same : b = colon
      · simp [afterColonSpace, same]
      · simp [afterColonSpace, colon, space]
    | cons c host =>
      have other : c ≠ space := fun same => spaceless (by simp [same])
      rw [List.cons_append, afterColonSpace, if_neg (by simp [other]), later,
        List.getLast?_cons_cons]

theorem months_colonless : months.any (fun month => month.contains colon) = false := by decide

theorem header3164_colon {rest host tagged : Bytes} (header : IsHeader3164 rest host tagged) :
    afterColonSpace rest =
      if host.getLast? = some colon then some tagged else afterColonSpace tagged := by
  obtain ⟨month, blank, day, clock, valid, blank_ok, day_ok, clock_ok, nonempty, spaceless, rfl⟩ :=
    header
  have month_colonless : colon ∉ month := by
    have none_inside := List.any_eq_false.mp months_colonless month valid
    simpa using none_inside
  have blank_colonless : colon ∉ blank := by
    obtain rfl | rfl := blank_ok <;> decide
  have day_colonless : colon ∉ day := fun member =>
    absurd (day_ok.2 colon member) (by decide)
  have blank_before : ∀ rest, afterColonSpace (space :: rest) = afterColonSpace rest := fun rest =>
    @afterColonSpace_append [space] (by decide) rest
  rw [afterColonSpace_append month_colonless, blank_before, afterColonSpace_append blank_colonless,
    afterColonSpace_append day_colonless, blank_before, afterColonSpace_clock clock_ok,
    blank_before, afterColonSpace_host spaceless]

/-! What the rules of the TCP source find. -/

section
variable {text : List Char}

theorem infix_of_colon {s : Bytes} (found : ascii " wpgen: " <:+: s) : [colon, space] <:+: s := by
  have inside : [colon, space] <:+: ascii " wpgen: " := ⟨ascii " wpgen", [], by decide⟩
  exact inside.trans found

/-- Behind a priority, the rules cut at the header of RFC 5424 and else behind the first `": "`. -/
theorem fastStart_pri {digits rest : Bytes} (cut : splitPri (encode text) = some (digits, rest)) :
    Tcp.fastStart (encode text) =
      some (((header5424 rest).or (afterColonSpace rest)).map
        fun left => (encode text).length - left.length) := by
  obtain ⟨shape, decimal⟩ := splitPri_shape cut
  obtain ⟨-, -, tail, bound⟩ := pri_offsets text cut
  have outside : ∀ b, isAsciiDigit b = false → b ≠ lessThan → b ∉ lessThan :: digits := by
    intro b other first member
    obtain same | inside := List.mem_cons.mp member
    · exact first same
    · rw [decimal b inside] at other
      cases other
  have whole : encode text = (lessThan :: digits) ++ greaterThan :: rest := shape
  have closes : find [greaterThan] (encode text) = some (digits.length + 1) := by
    rw [whole, find_singleton_first (outside _ (by decide) (by decide))]
    rfl
  have separates : find [colon, space] (encode text) =
      (find [colon, space] rest).map (· + (digits.length + 2)) := by
    have before : find [colon, space] (lessThan :: digits) = none := by
      rw [find_none_iff]
      intro inside
      exact outside colon (by decide) (by decide) (inside.subset (by simp))
    rw [whole, find_append (by simp) (by decide), before]
    rfl
  have parsed := behindPri5424_eq text bound
  rw [tail] at parsed
  unfold Tcp.fastStart Tcp.fast5424
  simp only [closes, Nat.add_assoc, Nat.reduceAdd, parsed, Option.map_some]
  cases complete : header5424 rest with
  | some left => rfl
  | none =>
    simp only [Option.map_none, Option.none_or, orElse, Option.some.injEq]
    have colons : Tcp.fastColon (encode text) =
        (afterColonSpace rest).map fun left => (encode text).length - left.length := by
      rw [afterColonSpace_eq, Tcp.fastColon, separates, closes]
      cases found : find [colon, space] rest with
      | none => rfl
      | some col =>
        have short := (prefix_of_find found).length_le
        simp only [List.length_drop, List.length_cons, List.length_nil] at short
        have lengths := congrArg List.length whole
        simp only [List.length_append, List.length_cons] at lengths
        simp
        omega
    rw [colons]
    cases found : afterColonSpace rest with
    | some left => rfl
    | none =>
      have nowhere : ¬ [colon, space] <:+: encode text := by
        rw [← find_none_iff, separates, Option.map_eq_none_iff]
        rw [afterColonSpace_eq, Option.map_eq_none_iff] at found
        exact found
      have no_wpgen : find (ascii " wpgen: ") (encode text) = none := by
        rw [find_none_iff]
        exact fun inside => nowhere (infix_of_colon inside)
      simp [Tcp.fastWpgen, no_wpgen]

theorem normalizeSlice_header {digits rest left : Bytes}
    (cut : splitPri (encode text) = some (digits, rest)) (complete : header5424 rest = some left) :
    Indexed.normalizeSlice (encode text) = some (sliceFrom (encode text) digits left) := by
  rw [Indexed.normalizeSlice, Indexed.parseRfc5424Slice_eq, Syslog.parseRfc5424Slice_eq, cut,
    Option.bind_some, complete]
  rfl

theorem normalizeSlice_month {digits rest : Bytes}
    (cut : splitPri (encode text) = some (digits, rest)) (incomplete : header5424 rest = none)
    (whole : cutsMonth rest = false) :
    Indexed.normalizeSlice (encode text) =
      some ((((if isValidMonth (rest.take 3) then parseAfterMonth (rest.drop 3) else none).map
        (sliceFrom (encode text) digits))).getD ⟨0, (encode text).length, ⟨none, none, none⟩⟩) := by
  obtain ⟨-, boundary, tail, bound⟩ := pri_offsets text cut
  have month : Indexed.parseRfc3164Slice (encode text) =
      some ((if isValidMonth (rest.take 3) then parseAfterMonth (rest.drop 3) else none).map
        (sliceFrom (encode text) digits)) := by
    rw [Indexed.parseRfc3164Slice, rfc3164Header, withPri_eq, cut]
    simp only [Option.elim_some, Bool.false_eq_true, false_and, if_false,
      behindPri3164_eq text false bound boundary, tail, whole, Option.map_some, Option.map_map]
    rfl
  rw [Indexed.normalizeSlice, Indexed.parseRfc5424Slice_eq, Syslog.parseRfc5424Slice_eq, cut,
    Option.bind_some, incomplete, month]
  cases (if isValidMonth (rest.take 3) then parseAfterMonth (rest.drop 3) else none) <;> rfl

theorem normalizeSlice_plain (no_pri : splitPri (encode text) = none) :
    Indexed.normalizeSlice (encode text) = some ⟨0, (encode text).length, ⟨none, none, none⟩⟩ := by
  rw [normalizeSlice_eq, Syslog.normalizeSlice, Syslog.parseRfc5424Slice_eq,
    Syslog.parseRfc3164Slice, no_pri]
  rfl

/-- One of the three rules fires: a header of RFC 5424 behind the first `>`, a first `": "` behind
    it, or ` wpgen: ` anywhere. -/
def FastRule (s : Bytes) : Prop :=
  (∃ before rest, s = before ++ greaterThan :: rest ∧ greaterThan ∉ before ∧
    (IsHeader5424 rest ∨ (¬ [colon, space] <:+: before ∧ [colon, space] <:+: rest))) ∨
  ascii " wpgen: " <:+: s

theorem find_isSome_iff {pattern s : Bytes} : (∃ i, find pattern s = some i) ↔ pattern <:+: s := by
  rw [← Option.ne_none_iff_exists', Ne, find_none_iff, not_not]

theorem fastColon_isSome {s before rest : Bytes} (shape : s = before ++ greaterThan :: rest)
    (fresh : greaterThan ∉ before) :
    (∃ start, Tcp.fastColon s = some start) ↔
      ¬ [colon, space] <:+: before ∧ [colon, space] <:+: rest := by
  have closes : find [greaterThan] s = some before.length := by
    rw [shape, find_singleton_first fresh]
  have separates : find [colon, space] s = (find [colon, space] before).or
      ((find [colon, space] rest).map (· + (before.length + 1))) := by
    rw [shape, find_append (by simp) (by decide)]
  rw [← find_none_iff, ← find_isSome_iff]
  unfold Tcp.fastColon
  cases early : find [colon, space] before with
  | some col =>
    have short := (prefix_of_find early).length_le
    simp only [List.length_drop, List.length_cons, List.length_nil] at short
    have ahead : ¬ before.length < col := by omega
    simp [separates, early, closes, ahead]
  | none =>
    cases found : find [colon, space] rest with
    | none => simp [separates, early, found]
    | some col =>
      have behind : before.length < col + (before.length + 1) := by omega
      simp [separates, early, found, closes, behind]

theorem fast5424_at {before rest : Bytes} (shape : encode text = before ++ greaterThan :: rest)
    (fresh : greaterThan ∉ before) :
    Tcp.fast5424 (encode text) =
      some ((header5424 rest).map fun left => (encode text).length - left.length) := by
  have closes : find [greaterThan] (encode text) = some before.length := by
    rw [shape, find_singleton_first fresh]
  have tail : (encode text).drop (before.length + 1) = rest := by
    rw [shape]
    simp
  have bound : before.length + 1 ≤ (encode text).length := by
    rw [shape]
    simp
  have parsed := behindPri5424_eq text bound
  rw [tail] at parsed
  simp only [Tcp.fast5424, closes, parsed]

theorem fast5424_nowhere (absent : greaterThan ∉ encode text) :
    Tcp.fast5424 (encode text) = some none ∧ Tcp.fastColon (encode text) = none := by
  have closes : find [greaterThan] (encode text) = none := by
    rw [find_singleton, if_neg absent]
  refine ⟨by simp only [Tcp.fast5424, closes], ?_⟩
  unfold Tcp.fastColon
  cases find [colon, space] (encode text) <;> simp [closes]

theorem fastStart_of_fast5424 {found : Option Nat}
    (first : Tcp.fast5424 (encode text) = some found) :
    Tcp.fastStart (encode text) =
      some (found.or ((Tcp.fastColon (encode text)).or (Tcp.fastWpgen (encode text)))) := by
  rw [Tcp.fastStart, first]
  cases found <;> rfl

theorem fastWpgen_isSome {s : Bytes} :
    (∃ start, Tcp.fastWpgen s = some start) ↔ ascii " wpgen: " <:+: s := by
  rw [← find_isSome_iff]
  constructor
  · rintro ⟨start, found⟩
    obtain ⟨i, here, -⟩ := Option.map_eq_some_iff.mp found
    exact ⟨i, here⟩
  · rintro ⟨i, here⟩
    exact ⟨i + 8, by rw [Tcp.fastWpgen, here]; rfl⟩

theorem fastStart_isSome :
    (∃ start, Tcp.fastStart (encode text) = some (some start)) ↔ FastRule (encode text) := by
  by_cases inside : greaterThan ∈ encode text
  · obtain ⟨before, rest, shape, fresh⟩ := List.eq_append_cons_of_mem inside
    have unique : ∀ before' rest', encode text = before' ++ greaterThan :: rest' →
        greaterThan ∉ before' → before' = before ∧ rest' = rest := by
      intro before' rest' shape' fresh'
      have first := find_singleton_first fresh' rest'
      rw [← shape', shape, find_singleton_first fresh, Option.some.injEq] at first
      have both := List.append_inj (shape'.symm.trans shape) first.symm
      exact ⟨both.1, (List.cons.inj both.2).2⟩
    have rule : FastRule (encode text) ↔ (IsHeader5424 rest ∨
        (¬ [colon, space] <:+: before ∧ [colon, space] <:+: rest)) ∨
          ascii " wpgen: " <:+: encode text := by
      constructor
      · rintro (⟨before', rest', shape', fresh', fires⟩ | fires)
        · obtain ⟨rfl, rfl⟩ := unique before' rest' shape' fresh'
          exact .inl fires
        · exact .inr fires
      · rintro (fires | fires)
        · exact .inl ⟨before, rest, shape, fresh, fires⟩
        · exact .inr fires
    rw [rule, fastStart_of_fast5424 (fast5424_at shape fresh), ← header5424_isSome,
      ← fastColon_isSome shape fresh, ← fastWpgen_isSome]
    cases header5424 rest with
    | some left => simp
    | none => cases Tcp.fastColon (encode text) <;> simp
  · obtain ⟨first, colons⟩ := fast5424_nowhere inside
    have rule : FastRule (encode text) ↔ ascii " wpgen: " <:+: encode text := by
      constructor
      · rintro (⟨before, rest, shape, -⟩ | fires)
        · exact absurd (by rw [shape]; simp) inside
        · exact fires
      · exact .inr
    rw [rule, fastStart_of_fast5424 first, colons, ← fastWpgen_isSome]
    simp

theorem structuredData_pos {s : Bytes} {j start : Nat}
    (found : structuredData s j = some (some start)) : 0 < start := by
  have onward : ∀ i, i ≤ Indexed.skipSpace s i := by
    intro i
    unfold Indexed.skipSpace
    split <;> omega
  unfold structuredData at found
  split at found
  · cases found
    have later := onward (j + 1)
    omega
  · split at found
    · obtain ⟨rest, -, closed⟩ := Option.map_eq_some_iff.mp found
      obtain ⟨close, -, rfl⟩ := Option.map_eq_some_iff.mp closed
      have later := onward (j + 1 + close + 1)
      omega
    · cases found

theorem fastStart_pos {s : Bytes} {start : Nat} (found : Tcp.fastStart s = some (some start)) :
    0 < start := by
  obtain first | ⟨-, later⟩ := orElse_some found
  · rw [Option.map_eq_some_iff] at first
    obtain ⟨parsed, fast, wrapped⟩ := first
    obtain ⟨_, rfl, same⟩ := Option.map_eq_some_iff.mp wrapped
    cases same
    unfold Tcp.fast5424 at fast
    cases closes : find [greaterThan] s with
    | none => simp [closes] at fast
    | some gt =>
      simp only [closes, behindPri5424] at fast
      split at fast
      · cases fast
      · exact structuredData_pos fast
  · rw [Option.some.injEq, Option.or_eq_some_iff] at later
    obtain colons | ⟨-, wpgen⟩ := later
    · simp only [Tcp.fastColon, bind, Option.bind_eq_some_iff] at colons
      obtain ⟨col, -, gt, -, behind⟩ := colons
      split at behind
      · cases behind
        omega
      · cases behind
    · obtain ⟨pos, -, rfl⟩ := Option.map_eq_some_iff.mp wpgen
      omega

/-- Where fast strip and the full parser leave the same text. Behind a priority: a complete header
    of RFC 5424; or one of RFC 3164 whose host does not end with a colon; or no `": "` at all.
    Without a priority: no rule fires. -/
def FastAgrees (s : Bytes) : Prop :=
  (∃ digits rest, splitPri s = some (digits, rest) ∧
    (IsHeader5424 rest ∨
      (∃ host tagged, IsHeader3164 rest host tagged ∧ host.getLast? ≠ some colon ∧
        [colon, space] <:+: tagged) ∨
      (cutsMonth rest = false ∧ ¬ [colon, space] <:+: rest))) ∨
  (splitPri s = none ∧ ¬ FastRule s)

/-- Both parsers return, and every cut of the rules is at the message of the full parser. -/
def SameStart (s : Bytes) : Prop :=
  ∃ ns, Indexed.normalizeSlice s = some ns ∧
    ∀ start, Tcp.fastStart s = some (some start) → start = ns.msgStart

theorem afterColonSpace_none {rest : Bytes} :
    afterColonSpace rest = none ↔ ¬ [colon, space] <:+: rest := by
  rw [afterColonSpace_eq, Option.map_eq_none_iff, find_none_iff]

theorem afterColonSpace_shorter {text found : Bytes} (scanned : afterColonSpace text = some found) :
    found.length < text.length := by
  rw [afterColonSpace_eq, Option.map_eq_some_iff] at scanned
  obtain ⟨col, here, rfl⟩ := scanned
  have short := (prefix_of_find here).length_le
  simp only [List.length_drop, List.length_cons, List.length_nil] at short ⊢
  omega

theorem sameStart_plain (no_pri : splitPri (encode text) = none) :
    SameStart (encode text) ↔ ¬ FastRule (encode text) := by
  rw [← fastStart_isSome]
  constructor
  · rintro ⟨ns, full, same⟩ ⟨start, found⟩
    rw [normalizeSlice_plain no_pri, Option.some.injEq] at full
    have positive := fastStart_pos found
    have zero := same start found
    rw [← full] at zero
    dsimp only at zero
    omega
  · intro silent
    exact ⟨_, normalizeSlice_plain no_pri, fun start found => absurd ⟨start, found⟩ silent⟩

/-- Behind a priority and without a header of RFC 5424: the first `": "` against the full parser. -/
theorem sameStart_month {digits rest : Bytes}
    (cut : splitPri (encode text) = some (digits, rest)) (incomplete : header5424 rest = none)
    (whole : cutsMonth rest = false) :
    SameStart (encode text) ↔
      (∃ host tagged, IsHeader3164 rest host tagged ∧ host.getLast? ≠ some colon ∧
        [colon, space] <:+: tagged) ∨ ¬ [colon, space] <:+: rest := by
  have full := normalizeSlice_month cut incomplete whole
  have rules := fastStart_pri cut
  rw [incomplete, Option.none_or] at rules
  have bound : rest.length ≤ (encode text).length := by
    rw [(splitPri_shape cut).1]
    simp
    omega
  cases found : afterColonSpace rest with
  | none =>
    rw [found] at rules
    have silent := afterColonSpace_none.mp found
    refine ⟨fun _ => .inr silent, fun _ => ⟨_, full, ?_⟩⟩
    intro start fires
    rw [rules] at fires
    cases fires
  | some left =>
    rw [found, Option.map_some] at rules
    have shorter := afterColonSpace_shorter found
    constructor
    · rintro ⟨ns, parsed, same⟩
      have start := same _ rules
      rw [full, Option.some.injEq] at parsed
      left
      by_cases valid : isValidMonth (rest.take 3) = true
      · rw [if_pos valid, parseAfterMonth_eq] at parsed
        cases skipped : Syslog.timeAndHost (rest.drop 3) with
        | none =>
          simp [skipped] at parsed
          rw [← parsed] at start
          dsimp only at start
          omega
        | some tagged =>
          cases scanned : afterColonSpace tagged with
          | none =>
            simp [skipped, scanned] at parsed
            rw [← parsed] at start
            dsimp only at start
            omega
          | some left' =>
            simp only [skipped, scanned, Option.bind_some, Option.map_some, Option.getD_some]
              at parsed
            rw [← parsed] at start
            obtain ⟨host, header⟩ := header3164_shape valid skipped
            have first := header3164_colon header
            have shorter' := afterColonSpace_shorter scanned
            simp only [sliceFrom] at start
            refine ⟨host, tagged, header, ?_, ?_⟩
            · intro ends
              rw [found, if_pos ends, Option.some.injEq] at first
              subst first
              omega
            · by_contra absent
              rw [afterColonSpace_none.mpr absent] at scanned
              cases scanned
      · rw [if_neg valid] at parsed
        rw [← parsed] at start
        simp at start
        omega
    · rintro (⟨host, tagged, header, ends, -⟩ | absent)
      · obtain ⟨-, valid, skipped⟩ := header3164_parses header
        have first := header3164_colon header
        rw [found, if_neg ends] at first
        refine ⟨_, full, ?_⟩
        intro start fires
        rw [rules, Option.some.injEq, Option.some.injEq] at fires
        rw [if_pos valid, parseAfterMonth_eq, skipped, Option.bind_some, ← first]
        exact fires.symm
      · rw [afterColonSpace_none.mpr absent] at found
        cases found

theorem sameStart_iff : SameStart (encode text) ↔ FastAgrees (encode text) := by
  unfold FastAgrees
  cases cut : splitPri (encode text) with
  | none => simpa using sameStart_plain cut
  | some parts =>
    obtain ⟨digits, rest⟩ := parts
    have only : (∃ digits' rest', some (digits, rest) = some (digits', rest') ∧
        (IsHeader5424 rest' ∨ (∃ host tagged, IsHeader3164 rest' host tagged ∧
          host.getLast? ≠ some colon ∧ [colon, space] <:+: tagged) ∨
          (cutsMonth rest' = false ∧ ¬ [colon, space] <:+: rest'))) ↔
        (IsHeader5424 rest ∨ (∃ host tagged, IsHeader3164 rest host tagged ∧
          host.getLast? ≠ some colon ∧ [colon, space] <:+: tagged) ∨
          (cutsMonth rest = false ∧ ¬ [colon, space] <:+: rest)) := by
      constructor
      · rintro ⟨_, _, same, agrees⟩
        cases same
        exact agrees
      · exact fun agrees => ⟨digits, rest, rfl, agrees⟩
    simp only [reduceCtorEq, false_and, or_false]
    rw [only, ← header5424_isSome]
    cases complete : header5424 rest with
    | some left =>
      simp only [Option.isSome_some, true_or, iff_true]
      refine ⟨_, normalizeSlice_header cut complete, ?_⟩
      intro start fires
      rw [fastStart_pri cut, complete] at fires
      cases fires
      rfl
    | none =>
      simp only [Option.isSome_none, Bool.false_eq_true, false_or]
      cases cuts : cutsMonth rest with
      | true =>
        have incomplete : ¬ IsHeader5424 rest := by
          rw [← header5424_isSome, complete]
          simp
        have panics := (normalizeSlice_none_iff text).mpr ⟨digits, rest, cut, cuts, incomplete⟩
        constructor
        · rintro ⟨ns, parsed, -⟩
          rw [panics] at parsed
          cases parsed
        · rintro (⟨host, tagged, header, -⟩ | ⟨⟨⟩, -⟩)
          rw [(header3164_parses header).1] at cuts
          cases cuts
      | false => simpa using sameStart_month cut complete cuts

end

section
variable (set : Tags → String → String → Tags)

/-- With and without fast strip the hook returns, and leaves the same text. -/
def SameText (event : SourceEvent) : Prop :=
  ∃ fast full, Tcp.preproc set true false true event = some fast ∧
    Tcp.preproc set true false false event = some full ∧
    payloadText fast.payload = payloadText full.payload

theorem drop_inj {s : Bytes} {i j : Nat} (first : i ≤ s.length) (second : j ≤ s.length)
    (same : s.drop i = s.drop j) : i = j := by
  have lengths := congrArg List.length same
  rw [List.length_drop, List.length_drop] at lengths
  omega

theorem sameText_iff_sameStart {event : SourceEvent} {text : List Char}
    (read : payloadText event.payload = some (encode text)) :
    SameText set event ↔ SameStart (encode text) := by
  obtain ⟨found, started, boundaries⟩ := fastStart_returns text
  have slow : Tcp.preproc set true false false event =
      fullPreproc set cutPayload true false (encode text) event := by
    simp [Tcp.preproc, read]
  cases full : Indexed.normalizeSlice (encode text) with
  | none =>
    constructor
    · rintro ⟨_, _, -, returned, -⟩
      rw [slow, fullPreproc, full] at returned
      cases returned
    · rintro ⟨ns, parsed, -⟩
      rw [full] at parsed
      cases parsed
  | some ns =>
    obtain ⟨left, returned, rest⟩ :=
      @fullPreproc_returns set cutPayload tcp_isCut true false text event ns read full
    have boundary := (normalizeSlice_span text full).2
    cases found with
    | none =>
      have quick : Tcp.preproc set true false true event = some left := by
        simp [Tcp.preproc, read, started, returned]
      refine ⟨fun _ => ⟨ns, full, ?_⟩, fun _ => ⟨left, left, quick, slow.trans returned, rfl⟩⟩
      intro start fires
      rw [started] at fires
      cases fires
    | some start =>
      have inside := boundaries start rfl
      obtain ⟨payload, sliced, -, cut⟩ := tcp_isCut _ _ _ read inside
      have quick : Tcp.preproc set true false true event = some { event with payload } := by
        simp [Tcp.preproc, read, started, Tcp.fastCut, le_of_isBoundary inside, sliced]
      constructor
      · rintro ⟨fast, slower, returned₁, returned₂, same⟩
        rw [quick] at returned₁
        rw [slow, returned] at returned₂
        cases returned₁
        cases returned₂
        rw [cut, rest rfl, Option.some.injEq] at same
        refine ⟨ns, full, ?_⟩
        intro start' fires
        rw [started] at fires
        cases fires
        exact drop_inj (le_of_isBoundary inside) (le_of_isBoundary boundary) same
      · rintro ⟨ns', parsed, same⟩
        rw [full] at parsed
        cases parsed
        refine ⟨_, left, quick, slow.trans returned, ?_⟩
        rw [cut, rest rfl, same start started]

/-- Fast strip leaves what the full parser leaves exactly on the texts of `FastAgrees`. -/
theorem tcp_fast_strip_iff {event : SourceEvent} {text : List Char}
    (read : payloadText event.payload = some (encode text)) :
    SameText set event ↔ FastAgrees (encode text) :=
  (sameText_iff_sameStart set read).trans sameStart_iff

end

theorem tcp_fast_strip_su : SameText (fun tags _ _ => tags)
    ⟨1, "syslog", .string "<34>Oct 11 22:14:15 mymachine su: test", [], none⟩ := by
  refine (@tcp_fast_strip_iff (fun tags _ _ => tags) _
    "<34>Oct 11 22:14:15 mymachine su: test".toList rfl).mpr (.inl ⟨ascii "34",
      ascii "Oct 11 22:14:15 mymachine su: test", by decide, .inr (.inl ⟨ascii "mymachine",
        ascii "su: test", ?_, by decide, by decide⟩)⟩)
  exact ⟨ascii "Oct", [], [49, 49], ascii "22:14:15", by decide, .inl rfl,
    ⟨.inr rfl, by simp [isAsciiDigit]⟩, ⟨50, 50, 49, 52, 49, 53, by simp [isAsciiDigit], rfl⟩,
    by decide, by decide, rfl⟩

/-- `Xyz` is no month: the full parser keeps the line, fast strip cuts it behind `su: `. -/
theorem tcp_fast_strip_no_month :
    (Tcp.preproc (fun tags _ _ => tags) true false true
      ⟨1, "syslog", .string "<34>Xyz 11 22:14:15 mymachine su: test", [], none⟩).map (·.payload) =
        some (.string "test") ∧
    (Tcp.preproc (fun tags _ _ => tags) true false false
      ⟨1, "syslog", .string "<34>Xyz 11 22:14:15 mymachine su: test", [], none⟩).map (·.payload) =
        some (.string "<34>Xyz 11 22:14:15 mymachine su: test") := by
  decide

end Syslog

end WarpMotor
