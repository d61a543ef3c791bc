import WarpMotor.Lib.Cursor
import WarpMotor.Lib.Utf8
import WarpMotor.Syslog.RoundTrip

/-!
The header parsers with their indices and their slices. A slice that falls
inside a character is a panic, the outer `none`; the inner `none` is a text that
is no such header. The full parsers of `normalize` and the strict ones of the
UDP source read one grammar: the strict ones also refuse an empty priority and
empty tokens. On a text they are the scanners of suffixes.
-/
namespace WarpMotor

open Framing

namespace Syslog

/-- Version and five tokens, each with the space behind it. -/
def versionAndTokens (rest : Bytes) : Option Bytes :=
  if rest.takeWhile isAsciiDigit = [] then none
  else (expect space (rest.dropWhile isAsciiDigit)).bind (skipTokens 5)

def header5424 (rest : Bytes) : Option Bytes := (versionAndTokens rest).bind skipStructuredData

def timeAndHost (rest : Bytes) : Option Bytes := do
  let rest ← expect space rest
  let rest ← skipDay (skipSpace rest)
  let rest ← expect space rest
  let rest ← skipClock rest
  let rest ← expect space rest
  skipHostname rest

theorem parseRfc5424Slice_eq (input : Bytes) :
    parseRfc5424Slice input =
      (splitPri input).bind fun cut => (header5424 cut.2).map (sliceFrom input cut.1) := by
  unfold parseRfc5424Slice header5424 versionAndTokens
  cases splitPri input with
  | none => rfl
  | some cut =>
    by_cases version : cut.2.takeWhile isAsciiDigit = []
    · simp only [bind, Option.bind_some, version, if_true, Option.bind_none, Option.map_none]
    · simp only [bind, Option.bind_some, version, if_false, Option.map_eq_bind, Option.bind_assoc,
        Function.comp_def]

/-- A version, five tokens that may be empty, and structured data. -/
def IsHeader5424 (rest : Bytes) : Prop :=
  ∃ (version : Bytes) (tokens : List Bytes) (after : Bytes),
    version ≠ [] ∧ (∀ b ∈ version, isAsciiDigit b = true) ∧
    tokens.length = 5 ∧ (∀ token ∈ tokens, space ∉ token) ∧
    rest = version ++ space :: (tokens.flatMap (· ++ [space]) ++ after) ∧
    (after.head? = some hyphen ∨
      ∃ inside message, after = openBracket :: (inside ++ closeBracket :: message))

theorem dropWhile_stop {p : UInt8 → Bool} {rest after : Bytes} {b : UInt8}
    (scanned : rest.dropWhile p = b :: after) :
    rest = rest.takeWhile p ++ b :: after ∧ (∀ c ∈ rest.takeWhile p, p c = true) ∧ p b = false := by
  refine ⟨?_, fun c member => List.mem_takeWhile_imp member, ?_⟩
  · rw [← scanned, List.takeWhile_append_dropWhile]
  · have stops := List.head?_dropWhile_not p rest
    rw [scanned] at stops
    simpa using stops

theorem dropWhile_append {p : UInt8 → Bool} {before : Bytes} {b : UInt8} (after : Bytes)
    (inside : ∀ c ∈ before, p c = true) (stops : p b = false) :
    (before ++ b :: after).dropWhile p = b :: after ∧
      (before ++ b :: after).takeWhile p = before := by
  rw [List.dropWhile_append_of_pos inside, List.takeWhile_append_of_pos inside,
    List.dropWhile_cons_of_neg (by simp [stops]), List.takeWhile_cons_of_neg (by simp [stops])]
  exact ⟨rfl, List.append_nil before⟩

theorem not_space {token : Bytes} : (∀ c ∈ token, decide (c ≠ space) = true) ↔ space ∉ token := by
  simp only [decide_eq_true_eq]
  exact ⟨fun others member => others space member rfl, fun spaceless c member same =>
    spaceless (same ▸ member)⟩

theorem skipTokens_iff {count : Nat} {rest after : Bytes} :
    skipTokens count rest = some after ↔
      ∃ tokens : List Bytes, tokens.length = count ∧ (∀ token ∈ tokens, space ∉ token) ∧
        rest = tokens.flatMap (· ++ [space]) ++ after := by
  induction count generalizing rest with
  | zero =>
    constructor
    · rintro ⟨⟩
      exact ⟨[], rfl, by simp, rfl⟩
    · rintro ⟨tokens, none_left, -, rfl⟩
      rw [List.length_eq_zero_iff.mp none_left]
      rfl
  | succ count ih =>
    constructor
    · intro skipped
      rw [skipTokens] at skipped
      cases scanned : rest.dropWhile (· ≠ space) with
      | nil => simp only [scanned, reduceCtorEq] at skipped
      | cons b later =>
        simp only [scanned] at skipped
        obtain ⟨tokens, five, spaceless, rfl⟩ := ih.mp skipped
        obtain ⟨shape, inside, stops⟩ := dropWhile_stop scanned
        obtain rfl : b = space := by simpa using stops
        refine ⟨rest.takeWhile (· ≠ space) :: tokens, by simp [five], ?_, ?_⟩
        · intro token member
          obtain rfl | member := List.mem_cons.mp member
          · exact not_space.mp inside
          · exact spaceless token member
        · rw [List.flatMap_cons]
          simpa using shape
    · rintro ⟨tokens, five, spaceless, rfl⟩
      cases tokens with
      | nil => cases five
      | cons token tokens =>
        have first := dropWhile_append (tokens.flatMap (· ++ [space]) ++ after)
          (not_space.mpr (spaceless token (by simp))) (b := space) (by simp)
        rw [skipTokens, List.flatMap_cons]
        simp only [List.append_assoc, List.cons_append, List.nil_append, first.1]
        exact ih.mpr ⟨tokens, Nat.succ_injective five,
          fun other member => spaceless other (List.mem_cons_of_mem _ member), rfl⟩

theorem skipStructuredData_isSome {after : Bytes} :
    (skipStructuredData after).isSome = true ↔ after.head? = some hyphen ∨
      ∃ inside message, after = openBracket :: (inside ++ closeBracket :: message) := by
  cases after with
  | nil => simp [skipStructuredData]
  | cons b rest =>
    by_cases minus : b = hyphen
    · simp [skipStructuredData, minus]
    · by_cases bracket : b = openBracket
      · have other : ¬ openBracket = hyphen := by decide
        simp only [skipStructuredData, bracket, other, if_false, if_true, List.head?_cons,
          Option.some.injEq, false_or, List.cons.injEq, true_and]
        cases scanned : rest.dropWhile (· ≠ closeBracket) with
        | nil =>
          simp only [Option.isSome_none, Bool.false_eq_true, false_iff, not_exists]
          rintro inside message rfl
          rw [List.dropWhile_eq_nil_iff] at scanned
          simpa using scanned closeBracket (by simp)
        | cons c later =>
          obtain ⟨shape, -, stops⟩ := dropWhile_stop scanned
          obtain rfl : c = closeBracket := by simpa using stops
          simp only [Option.isSome_some, true_iff]
          exact ⟨_, later, shape⟩
      · simp [skipStructuredData, minus, bracket]

theorem versionAndTokens_iff {rest after : Bytes} :
    versionAndTokens rest = some after ↔
      ∃ (version : Bytes) (tokens : List Bytes),
        version ≠ [] ∧ (∀ b ∈ version, isAsciiDigit b = true) ∧
        tokens.length = 5 ∧ (∀ token ∈ tokens, space ∉ token) ∧
        rest = version ++ space :: (tokens.flatMap (· ++ [space]) ++ after) := by
  constructor
  · intro skipped
    rw [versionAndTokens] at skipped
    split at skipped
    · cases skipped
    · rename_i nonempty
      cases scanned : rest.dropWhile isAsciiDigit with
      | nil => simp [scanned, expect] at skipped
      | cons b later =>
        rw [scanned, expect] at skipped
        split at skipped
        · rename_i blank
          obtain ⟨tokens, five, spaceless, rfl⟩ := skipTokens_iff.mp skipped
          obtain ⟨shape, decimal, -⟩ := dropWhile_stop scanned
          subst blank
          exact ⟨_, tokens, nonempty, decimal, five, spaceless, shape⟩
        · cases skipped
  · rintro ⟨version, tokens, nonempty, decimal, five, spaceless, rfl⟩
    obtain ⟨left, digits⟩ := dropWhile_append
      (tokens.flatMap (· ++ [space]) ++ after) decimal (b := space) (by decide)
    rw [versionAndTokens, left, digits, if_neg nonempty, expect, if_pos rfl, Option.bind_some]
    exact skipTokens_iff.mpr ⟨tokens, five, spaceless, rfl⟩

theorem header5424_isSome {rest : Bytes} :
    (header5424 rest).isSome = true ↔ IsHeader5424 rest := by
  rw [header5424, Option.isSome_bind]
  constructor
  · intro complete
    cases skipped : versionAndTokens rest with
    | none => simp [skipped] at complete
    | some after =>
      obtain ⟨version, tokens, shape⟩ := versionAndTokens_iff.mp skipped
      simp only [skipped, Option.any_some, skipStructuredData_isSome] at complete
      obtain ⟨nonempty, decimal, five, spaceless, whole⟩ := shape
      exact ⟨version, tokens, after, nonempty, decimal, five, spaceless, whole, complete⟩
  · rintro ⟨version, tokens, after, nonempty, decimal, five, spaceless, whole, complete⟩
    rw [versionAndTokens_iff.mpr ⟨version, tokens, nonempty, decimal, five, spaceless, whole⟩]
    simp only [Option.any_some, skipStructuredData_isSome]
    exact complete

theorem parseAfterMonth_eq (rest : Bytes) :
    parseAfterMonth rest = (timeAndHost rest).bind afterColonSpace := by
  simp only [parseAfterMonth, timeAndHost, bind, Option.bind_assoc]

end Syslog

namespace Syslog.Indexed

open Cursor Utf8

structure Normalized where
  header : Option Bytes
  message : Bytes
  info : SyslogMeta
  deriving DecidableEq, Repr

def expect (byte : UInt8) (s : Bytes) (i : Nat) : Option Nat :=
  if s[i]? = some byte then some (i + 1) else none

def skipSpace (s : Bytes) (i : Nat) : Nat := if s[i]? = some space then i + 1 else i

def digitAt (s : Bytes) (i : Nat) : Bool := (s[i]?.map isAsciiDigit).getD false

/-- Where the priority ends: the index of its `>`. -/
def scanPri (s : Bytes) : Option Nat :=
  if s[0]? = some lessThan then
    let i := scanWhile isAsciiDigit s 1
    if s[i]? = some greaterThan then some i else none
  else none

def skipTokens (strict : Bool) (s : Bytes) : Nat → Nat → Option Nat
  | 0, j => some j
  | tokens + 1, j =>
    let stop := scanWhile (· ≠ space) s j
    if s.length ≤ stop ∨ (strict = true ∧ stop = j) then none
    else skipTokens strict s tokens (stop + 1)

def versionAndTokens (strict : Bool) (s : Bytes) (i : Nat) : Option Nat :=
  let j := scanWhile isAsciiDigit s i
  if j = i then none else (expect space s j).bind (skipTokens strict s 5)

def structuredData (s : Bytes) (j : Nat) : Option (Option Nat) :=
  if s[j]? = some hyphen then some (some (skipSpace s (j + 1)))
  else if s[j]? = some openBracket then
    (slice s (j + 1) s.length).map fun rest =>
      (find [closeBracket] rest).map fun close => skipSpace s (j + 1 + close + 1)
  else some none

/-- From the version on: where the message begins. -/
def behindPri5424 (strict : Bool) (s : Bytes) (i : Nat) : Option (Option Nat) :=
  match versionAndTokens strict s i with
  | none => some none
  | some j => structuredData s j

/-- One or two digits. -/
def skipDay (s : Bytes) (i : Nat) : Option Nat :=
  if digitAt s i then some (if digitAt s (i + 1) then i + 2 else i + 1) else none

/-- `HH:MM:SS`. -/
def skipClock (s : Bytes) (i : Nat) : Option Nat :=
  if inside : i + 8 ≤ s.length then
    if isAsciiDigit s[i] ∧ isAsciiDigit s[i + 1] ∧ s[i + 2] = colon ∧ isAsciiDigit s[i + 3] ∧
        isAsciiDigit s[i + 4] ∧ s[i + 5] = colon ∧ isAsciiDigit s[i + 6] ∧
        isAsciiDigit s[i + 7] then some (i + 8)
    else none
  else none

def skipHostname (s : Bytes) (i : Nat) : Option Nat :=
  let stop := scanWhile (· ≠ space) s i
  if stop = i ∨ s.length ≤ stop then none else some (stop + 1)

def timeAndHost (s : Bytes) (i : Nat) : Option Nat := do
  let i ← expect space s i
  let i ← skipDay s (skipSpace s i)
  let i ← expect space s i
  let i ← skipClock s i
  let i ← expect space s i
  skipHostname s i

def behindMonth (s : Bytes) (i : Nat) : Option (Option Nat) :=
  match timeAndHost s i with
  | none => some none
  | some j =>
    (slice s j s.length).map fun tagged => (find [colon, space] tagged).map fun col => j + col + 2

/-- From the month on. Only the strict parser takes a text that ends behind its month further. -/
def behindPri3164 (strict : Bool) (s : Bytes) (i : Nat) : Option (Option Nat) :=
  if s.length < i + 3 ∨ (strict = false ∧ s.length = i + 3) then some none
  else
    (slice s i (i + 3)).bind fun month =>
      if isValidMonth month then behindMonth s (i + 3) else some none

/-- The digits of the priority and the index of the message. -/
def withPri (strict : Bool) (behindPri : Bytes → Nat → Option (Option Nat)) (s : Bytes) :
    Option (Option (Bytes × Nat)) :=
  match scanPri s with
  | none => some none
  | some gt =>
    if strict = true ∧ gt = 1 then some none
    else
      (slice s 1 gt).bind fun pri =>
        (behindPri s (gt + 1)).map fun found => found.map fun start => (pri, start)

def rfc5424Header (strict : Bool) (s : Bytes) : Option (Option (Bytes × Nat)) :=
  withPri strict (behindPri5424 strict) s

def rfc3164Header (strict : Bool) (s : Bytes) : Option (Option (Bytes × Nat)) :=
  withPri strict (behindPri3164 strict) s

def sliceAt (s : Bytes) (found : Bytes × Nat) : NormalizedSlice :=
  ⟨found.2, s.length, parsePriFromHeader found.1⟩

def parseRfc5424Slice (s : Bytes) : Option (Option NormalizedSlice) :=
  (rfc5424Header false s).map fun found => found.map (sliceAt s)

def parseRfc3164Slice (s : Bytes) : Option (Option NormalizedSlice) :=
  (rfc3164Header false s).map fun found => found.map (sliceAt s)

/-- Before the blanks stands the end of a header, an ASCII character that is no blank. -/
def trimEnd (header : Bytes) : Bytes :=
  header.rdropWhile fun b => b = space || (9 ≤ b && b ≤ 13)

def normalizedAt (s : Bytes) (found : Bytes × Nat) : Option Normalized := do
  let message ← slice s found.2 s.length
  let header ← slice s 0 found.2
  some ⟨some (trimEnd header), message, parsePriFromHeader found.1⟩

/-- The header that a parser found, cut off. -/
def cutHeader (s : Bytes) (parsed : Option (Option (Bytes × Nat))) : Option (Option Normalized) :=
  match parsed with
  | none => none
  | some none => some none
  | some (some found) => (normalizedAt s found).map some

def parseRfc5424 (s : Bytes) : Option (Option Normalized) := cutHeader s (rfc5424Header false s)

def parseRfc3164 (s : Bytes) : Option (Option Normalized) := cutHeader s (rfc3164Header false s)

/-- The second parser is tried when the first finds nothing. -/
def orElse {A : Type} (first : Option (Option A)) (second : Option A) : Option A :=
  match first with
  | none => none
  | some none => second
  | some (some a) => some a

def normalizeSlice (s : Bytes) : Option NormalizedSlice :=
  orElse (parseRfc5424Slice s)
    (orElse (parseRfc3164Slice s) (some ⟨0, s.length, ⟨none, none, none⟩⟩))

def normalize (s : Bytes) : Option Normalized :=
  orElse (parseRfc5424 s) (orElse (parseRfc3164 s) (some ⟨none, s, ⟨none, none, none⟩⟩))

/-- The start of the message and the priority, as the UDP source's strict parsers return them. -/
def fastAt (found : Bytes × Nat) : Nat × Option UInt8 := (found.2, (parsePriFromHeader found.1).pri)

def tryFastRfc5424 (s : Bytes) : Option (Option (Nat × Option UInt8)) :=
  (rfc5424Header true s).map fun found => found.map fastAt

def tryFastRfc3164 (s : Bytes) : Option (Option (Nat × Option UInt8)) :=
  (rfc3164Header true s).map fun found => found.map fastAt

section
variable {s : Bytes}

theorem expect_moves (byte : UInt8) : Moves s (expect byte s) (Syslog.expect byte) := by
  apply Moves.of_cut
  rintro front rest rfl
  cases rest with
  | nil => simp [expect, Syslog.expect]
  | cons b rest =>
    by_cases same : b = byte
    · simp [expect, Syslog.expect, same]
      omega
    · simp [expect, Syslog.expect, same]

theorem skipSpace_moves :
    Moves s (fun i => some (skipSpace s i)) (fun rest => some (Syslog.skipSpace rest)) := by
  apply Moves.of_cut
  rintro front rest rfl
  cases rest with
  | nil => simp [skipSpace, Syslog.skipSpace]
  | cons b rest =>
    by_cases same : b = space
    · simp [skipSpace, Syslog.skipSpace, same]
      omega
    · simp [skipSpace, Syslog.skipSpace, same]

theorem skipDay_moves : Moves s (skipDay s) Syslog.skipDay := by
  apply Moves.of_cut
  rintro front rest rfl
  cases rest with
  | nil => simp [skipDay, digitAt, Syslog.skipDay]
  | cons b rest =>
    by_cases digit : isAsciiDigit b = true
    · cases rest with
      | nil => simp [skipDay, digitAt, Syslog.skipDay, digit]
      | cons c rest =>
        by_cases second : isAsciiDigit c = true
        · simp [skipDay, digitAt, Syslog.skipDay, digit, second]
          exact ⟨by omega, ⟨[b, c], rfl⟩⟩
        · simp [skipDay, digitAt, Syslog.skipDay, digit, second]
          omega
    · simp [skipDay, digitAt, Syslog.skipDay, digit]

theorem skipClock_moves : Moves s (skipClock s) Syslog.skipClock := by
  apply Moves.of_cut
  rintro front rest rfl
  by_cases long : 8 ≤ rest.length
  · obtain ⟨clock, rest, rfl, eight⟩ : ∃ clock left, rest = clock ++ left ∧ clock.length = 8 :=
      ⟨rest.take 8, rest.drop 8, (List.take_append_drop 8 rest).symm, by simp; omega⟩
    match clock, eight with
    | [h₁, h₂, c₁, m₁, m₂, c₂, s₁, s₂], _ =>
      simp [skipClock, Syslog.skipClock]
      constructor
      · split
        · simp
          omega
        · rfl
      · rintro left - - - - - - - - rfl
        exact ⟨[h₁, h₂, c₁, m₁, m₂, c₂, s₁, s₂], rfl⟩
  · have short : ¬ front.length + 8 ≤ (front ++ rest).length := by simp; omega
    have refused : Syslog.skipClock rest = none := by
      unfold Syslog.skipClock
      split
      · simp at long
      · rfl
    rw [skipClock, dif_neg short, refused]
    exact ⟨rfl, by rintro left ⟨⟩⟩

theorem skipHostname_moves : Moves s (skipHostname s) Syslog.skipHostname := by
  intro i inside
  by_cases empty : (s.drop i).takeWhile (· ≠ space) = []
  · have first : skipHostname s i = none := if_pos (.inl ((scanWhile_eq_iff _ _ _).mpr empty))
    have second : Syslog.skipHostname (s.drop i) = none := by
      rw [Syslog.skipHostname, empty]
      cases (s.drop i).dropWhile (· ≠ space) <;> rfl
    rw [first, second]
    exact ⟨rfl, by rintro j ⟨⟩⟩
  · have first : skipHostname s i = skipPast (· ≠ space) s i := by
      simp only [skipHostname, skipPast, scanWhile_eq_iff, empty, false_or]
    have second : Syslog.skipHostname (s.drop i) = dropPast (· ≠ space) (s.drop i) := by
      simp only [Syslog.skipHostname, dropPast, empty, if_false]
      cases (s.drop i).dropWhile (· ≠ space) <;> rfl
    rw [first, second]
    exact skipPast_moves (· ≠ space) s i inside

theorem timeAndHost_moves : Moves s (timeAndHost s) Syslog.timeAndHost :=
  (expect_moves space).bind <| (skipSpace_moves.bind skipDay_moves).bind <|
    (expect_moves space).bind <| skipClock_moves.bind <|
      (expect_moves space).bind skipHostname_moves

theorem skipTokens_moves (tokens : Nat) :
    Moves s (skipTokens false s tokens) (Syslog.skipTokens tokens) := by
  induction tokens with
  | zero =>
    apply Moves.of_cut
    rintro front rest rfl
    simp [skipTokens, Syslog.skipTokens]
  | succ tokens ih =>
    have both := (skipPast_moves (· ≠ space) s).bind ih
    intro i inside
    have step := both i inside
    have first : skipTokens false s (tokens + 1) i =
        (skipPast (· ≠ space) s i).bind (skipTokens false s tokens) := by
      simp only [skipTokens, skipPast, Bool.false_eq_true, false_and, or_false]
      split <;> rfl
    have second : Syslog.skipTokens (tokens + 1) (s.drop i) =
        (dropPast (· ≠ space) (s.drop i)).bind (Syslog.skipTokens tokens) := by
      simp only [Syslog.skipTokens, dropPast]
      cases (s.drop i).dropWhile (· ≠ space) <;> rfl
    rw [first, second]
    exact step

theorem versionAndTokens_moves : Moves s (versionAndTokens false s) Syslog.versionAndTokens := by
  intro i inside
  obtain ⟨forward, bound⟩ := scanWhile_le isAsciiDigit s inside
  have later := ((expect_moves (s := s) space).bind (skipTokens_moves 5)) _ bound
  rw [drop_scanWhile] at later
  simp only [versionAndTokens, Syslog.versionAndTokens, scanWhile_eq_iff]
  by_cases version : (s.drop i).takeWhile isAsciiDigit = []
  · simp only [version, if_true, Option.map_none, true_and]
    rintro j ⟨⟩
  · simp only [version, if_false]
    refine ⟨later.1, ?_⟩
    intro j moved
    have onward := later.2 j moved
    omega

end

theorem slice_eq {s : Bytes} {i j : Nat} (order : i ≤ j) (first : isBoundary s i = true)
    (last : isBoundary s j = true) : slice s i j = some ((s.take j).drop i) :=
  if_pos ⟨order, first, last⟩

theorem slice_to_end {s : Bytes} {i : Nat} (inside : i ≤ s.length)
    (boundary : isBoundary s i = true) : slice s i s.length = some (s.drop i) := by
  rw [slice_eq inside boundary (isBoundary_length s), List.take_length]

theorem byte_of_drop {s rest : Bytes} {i : Nat} {b : UInt8} (here : s.drop i = b :: rest) :
    s[i]? = some b ∧ s.drop (i + 1) = rest ∧ i + 1 ≤ s.length := by
  refine ⟨?_, ?_, ?_⟩
  · rw [← List.head?_drop, here]
    rfl
  · rw [← List.drop_drop, here]
    rfl
  · have lengths := congrArg List.length here
    rw [List.length_drop, List.length_cons] at lengths
    omega

section
variable (text : List Char)

theorem structuredData_eq (j : Nat) :
    structuredData (encode text) j =
      some ((skipStructuredData ((encode text).drop j)).map
        fun left => (encode text).length - left.length) := by
  cases here : (encode text).drop j with
  | nil =>
    have byte : (encode text)[j]? = none := by
      rw [← List.head?_drop, here]
      rfl
    simp [structuredData, byte, skipStructuredData]
  | cons b after =>
    obtain ⟨byte, tail, bound⟩ := byte_of_drop here
    by_cases minus : b = hyphen
    · have stop := skipSpace_moves.index bound
      rw [tail] at stop
      simp only [structuredData, byte, minus, if_true, skipStructuredData, ← stop]
    · by_cases bracket : b = openBracket
      · have boundary : isBoundary (encode text) (j + 1) = true :=
          isBoundary_after_ascii byte (by rw [bracket]; decide)
        have stop := ((skipPast_moves (· ≠ closeBracket) (encode text)).bind
          skipSpace_moves).index bound
        rw [tail] at stop
        have other : ¬ openBracket = hyphen := by decide
        have found := find_skipPast closeBracket (encode text) (j + 1)
        rw [tail] at found
        rw [← found, Option.bind_map] at stop
        simp only [structuredData, byte, bracket, other, Option.some.injEq, if_false, if_true,
          slice_to_end bound boundary, tail, Option.map_some, skipStructuredData]
        rw [Option.map_eq_bind]
        refine stop.trans ?_
        unfold dropPast
        cases after.dropWhile (· ≠ closeBracket) <;> rfl
      · simp [structuredData, byte, minus, bracket, skipStructuredData]

theorem behindPri5424_eq {i : Nat} (inside : i ≤ (encode text).length) :
    behindPri5424 false (encode text) i =
      some ((header5424 ((encode text).drop i)).map
        fun left => (encode text).length - left.length) := by
  have same := (versionAndTokens_moves i inside).1
  unfold behindPri5424 header5424
  rw [← same]
  cases skipped : versionAndTokens false (encode text) i with
  | none => rfl
  | some j => exact structuredData_eq text j

/-- What the strict parser skips, the full one skips too. -/
theorem skipTokens_of_strict {s : Bytes} {tokens j k : Nat}
    (skipped : skipTokens true s tokens j = some k) : skipTokens false s tokens j = some k := by
  induction tokens generalizing j with
  | zero => exact skipped
  | succ tokens ih =>
    simp only [skipTokens] at skipped ⊢
    split at skipped
    · cases skipped
    · rename_i onward
      have full : ¬ (s.length ≤ scanWhile (· ≠ space) s j ∨
          (false = true ∧ scanWhile (· ≠ space) s j = j)) := by
        rintro (past | ⟨⟨⟩, -⟩)
        exact onward (.inl past)
      rw [if_neg full]
      exact ih skipped

theorem versionAndTokens_of_strict {s : Bytes} {i j : Nat}
    (skipped : versionAndTokens true s i = some j) : versionAndTokens false s i = some j := by
  simp only [versionAndTokens] at skipped ⊢
  split at skipped
  · cases skipped
  · rename_i version
    rw [if_neg version]
    obtain ⟨k, blank, later⟩ := Option.bind_eq_some_iff.mp skipped
    exact Option.bind_eq_some_iff.mpr ⟨k, blank, skipTokens_of_strict later⟩

/-- The strict parser returns, and with nothing or with the result of the full one. -/
theorem behindPri5424_strict (i : Nat) :
    behindPri5424 true (encode text) i = some none ∨
      behindPri5424 true (encode text) i = behindPri5424 false (encode text) i := by
  unfold behindPri5424
  cases skipped : versionAndTokens true (encode text) i with
  | none => exact .inl rfl
  | some j =>
    rw [versionAndTokens_of_strict skipped]
    exact .inr rfl

theorem splitPri_shape {s digits rest : Bytes} (cut : splitPri s = some (digits, rest)) :
    s = lessThan :: (digits ++ greaterThan :: rest) ∧ ∀ b ∈ digits, isAsciiDigit b = true := by
  cases s with
  | nil => cases cut
  | cons b tail =>
    rw [splitPri] at cut
    split at cut
    · rename_i opened
      cases behind : tail.dropWhile isAsciiDigit with
      | nil => simp [behind] at cut
      | cons c after =>
        simp only [behind] at cut
        split at cut
        · rename_i closed
          cases cut
          refine ⟨?_, fun b member => List.mem_takeWhile_imp member⟩
          rw [opened, ← closed, ← behind, List.takeWhile_append_dropWhile]
        · cases cut
    · cases cut

theorem scanPri_eq (s : Bytes) : scanPri s = (splitPri s).map fun cut => cut.1.length + 1 := by
  cases s with
  | nil => rfl
  | cons b tail =>
    by_cases opened : b = lessThan
    · subst opened
      have scanned := drop_scanWhile isAsciiDigit (lessThan :: tail) 1
      simp only [List.drop_one, List.tail_cons] at scanned
      have stop : scanWhile isAsciiDigit (lessThan :: tail) 1 =
          (tail.takeWhile isAsciiDigit).length + 1 := by
        rw [scanWhile, List.drop_one, List.tail_cons, Nat.add_comm]
      have byte : (lessThan :: tail)[scanWhile isAsciiDigit (lessThan :: tail) 1]? =
          (tail.dropWhile isAsciiDigit).head? := by
        rw [← List.head?_drop, scanned]
      simp only [scanPri, List.getElem?_cons_zero, if_true, byte, splitPri]
      cases tail.dropWhile isAsciiDigit with
      | nil => simp
      | cons c after =>
        by_cases closed : c = greaterThan
        · simp [closed, stop]
        · simp [closed]
    · simp [scanPri, splitPri, opened]

/-- The offsets around a priority are between characters. -/
theorem pri_offsets {digits rest : Bytes} (cut : splitPri (encode text) = some (digits, rest)) :
    slice (encode text) 1 (digits.length + 1) = some digits ∧
      isBoundary (encode text) (digits.length + 2) = true ∧
      (encode text).drop (digits.length + 2) = rest ∧
      digits.length + 2 ≤ (encode text).length := by
  obtain ⟨shape, decimal⟩ := splitPri_shape cut
  have opened : (encode text)[0]? = some lessThan := by rw [shape]; rfl
  have closed : (encode text)[digits.length + 1]? = some greaterThan := by
    rw [shape, List.getElem?_cons_succ, List.getElem?_append_right (Nat.le_refl _)]
    simp
  have first := isBoundary_after_ascii opened (by decide)
  have last := isBoundary_after_ascii closed (by decide)
  have middle : isBoundary (encode text) (digits.length + 1) = true :=
    isBoundary_iff.mpr (.inr (.inr ⟨greaterThan, closed, by decide⟩))
  refine ⟨?_, last, ?_, ?_⟩
  · rw [slice_eq (by omega) first middle, shape]
    simp
  · rw [shape]
    simp
  · rw [shape]
    simp

theorem withPri_eq (strict : Bool) (behindPri : Bytes → Nat → Option (Option Nat)) :
    withPri strict behindPri (encode text) =
      (splitPri (encode text)).elim (some none) fun cut =>
        if strict = true ∧ cut.1 = [] then some none
        else (behindPri (encode text) (cut.1.length + 2)).map fun found =>
          found.map fun start => (cut.1, start) := by
  unfold withPri
  rw [scanPri_eq]
  cases cut : splitPri (encode text) with
  | none => rfl
  | some parts =>
    obtain ⟨digits, rest⟩ := parts
    have pri := (pri_offsets text cut).1
    have empty : digits.length + 1 = 1 ↔ digits = [] := by simp
    simp only [Option.map_some, Option.elim_some, empty, pri, Option.bind_some]

theorem space_before_host {s : Bytes} {i j : Nat} (skipped : skipHostname s i = some j) :
    ∃ k, j = k + 1 ∧ s[k]? = some space := by
  have past : skipPast (· ≠ space) s i = some j := by
    rw [skipHostname] at skipped
    split at skipped
    · cases skipped
    · rename_i onward
      rw [skipPast, if_neg (fun past => onward (.inr past))]
      exact skipped
  obtain ⟨k, b, rfl, byte, stops⟩ := stop_of_skipPast past
  simp only [ne_eq, decide_not, Bool.not_eq_false', decide_eq_true_eq] at stops
  exact ⟨k, rfl, by rw [byte, stops]⟩

theorem afterColonSpace_eq (rest : Bytes) :
    afterColonSpace rest = (find [colon, space] rest).map fun col => rest.drop (col + 2) := by
  induction rest with
  | nil => rfl
  | cons b rest ih =>
    have starts : [colon, space] <+: b :: rest ↔ b = colon ∧ rest.head? = some space := by
      cases rest with
      | nil => simp
      | cons c rest => simp [List.cons_prefix_cons, eq_comm]
    by_cases separator : b = colon ∧ rest.head? = some space
    · rw [afterColonSpace, find, if_pos separator, if_pos (starts.mpr separator)]
      simp [List.drop_one]
    · rw [afterColonSpace, find, if_neg separator, if_neg (starts.not.mpr separator), ih]
      cases find [colon, space] rest <;> simp

theorem behindMonth_eq {i : Nat} (inside : i ≤ (encode text).length) :
    behindMonth (encode text) i =
      some ((parseAfterMonth ((encode text).drop i)).map
        fun left => (encode text).length - left.length) := by
  obtain ⟨same, bounds⟩ := timeAndHost_moves i inside
  rw [parseAfterMonth_eq, ← same]
  unfold behindMonth
  cases skipped : timeAndHost (encode text) i with
  | none => rfl
  | some j =>
    have bound := (bounds j skipped).2
    have boundary : isBoundary (encode text) j = true := by
      simp only [timeAndHost, bind, Option.bind_eq_some_iff] at skipped
      obtain ⟨_, -, _, -, _, -, _, -, _, -, host⟩ := skipped
      obtain ⟨k, rfl, byte⟩ := space_before_host host
      exact isBoundary_after_ascii byte (by decide)
    simp only [slice_to_end bound boundary, Option.map_some, Option.bind_some, afterColonSpace_eq,
      Option.map_map, Option.some.injEq]
    cases found : find [colon, space] ((encode text).drop j) with
    | none => rfl
    | some col =>
      have short := (prefix_of_find found).length_le
      simp only [List.length_drop, List.length_cons, List.length_nil] at short
      simp
      omega

theorem isValidMonth_length {month : Bytes} (valid : isValidMonth month = true) :
    month.length = 3 := by
  obtain ⟨a, b, c, rfl, -⟩ := month_starts_with_letter (List.contains_iff_mem.mp valid)
  rfl

/-- The slice of the month ends inside a character. -/
def cutsMonth (rest : Bytes) : Bool := (rest[3]?.map continuesChar).getD false

theorem behindPri3164_eq (strict : Bool) {i : Nat} (inside : i ≤ (encode text).length)
    (boundary : isBoundary (encode text) i = true) :
    behindPri3164 strict (encode text) i =
      if cutsMonth ((encode text).drop i) = true then none
      else some ((if isValidMonth (((encode text).drop i).take 3) then
        parseAfterMonth (((encode text).drop i).drop 3) else none).map
          fun left => (encode text).length - left.length) := by
  have fourth : cutsMonth ((encode text).drop i) =
      ((encode text)[i + 3]?.map continuesChar).getD false := by
    rw [cutsMonth, List.getElem?_drop]
  unfold behindPri3164
  split
  · rename_i short
    have ended : (encode text)[i + 3]? = none := by
      rw [List.getElem?_eq_none_iff]
      omega
    have nothing : (if isValidMonth (((encode text).drop i).take 3) then
        parseAfterMonth (((encode text).drop i).drop 3) else none) = none := by
      split
      · rename_i valid
        have three := isValidMonth_length valid
        rw [List.length_take, List.length_drop] at three
        rw [List.drop_eq_nil_of_le (by rw [List.length_drop]; omega)]
        rfl
      · rfl
    rw [fourth, ended, nothing]
    rfl
  · rename_i long
    have bound : i + 3 ≤ (encode text).length := by omega
    cases cuts : cutsMonth ((encode text).drop i) with
    | true =>
      have inner : isBoundary (encode text) (i + 3) = false := by
        rw [fourth] at cuts
        cases byte : (encode text)[i + 3]? with
        | none => simp [byte] at cuts
        | some b =>
          have continues : isContinuation b = true := by
            change continuesChar b = true
            simpa [byte] using cuts
          simp [isBoundary, byte, continues]
      simp [slice, inner]
    | false =>
      have stop : isBoundary (encode text) (i + 3) = true := by
        rw [isBoundary_iff]
        cases byte : (encode text)[i + 3]? with
        | none =>
          rw [List.getElem?_eq_none_iff] at byte
          exact .inr (.inl (by omega))
        | some b =>
          have first : isContinuation b = false := by
            change continuesChar b = false
            simpa [fourth, byte] using cuts
          exact .inr (.inr ⟨b, rfl, first⟩)
      have month : ((encode text).take (i + 3)).drop i = ((encode text).drop i).take 3 := by
        rw [List.drop_take, Nat.add_sub_cancel_left]
      rw [slice_eq (by omega) boundary stop, Option.bind_some, month, behindMonth_eq text bound,
        List.drop_drop]
      cases isValidMonth (((encode text).drop i).take 3) <;> rfl

/-- On a text the parsers with their slices are the scanners of suffixes. -/
theorem parseRfc5424Slice_eq :
    parseRfc5424Slice (encode text) = some (Syslog.parseRfc5424Slice (encode text)) := by
  rw [Syslog.parseRfc5424Slice_eq, parseRfc5424Slice, rfc5424Header, withPri_eq]
  cases cut : splitPri (encode text) with
  | none => rfl
  | some parts =>
    obtain ⟨digits, rest⟩ := parts
    obtain ⟨-, -, tail, bound⟩ := pri_offsets text cut
    simp only [Option.elim_some, Bool.false_eq_true, false_and, if_false,
      behindPri5424_eq text bound, tail, Option.map_some, Option.bind_some, Option.map_map]
    rfl

theorem parseRfc3164Slice_eq :
    parseRfc3164Slice (encode text) = Syslog.parseRfc3164Slice (encode text) := by
  rw [parseRfc3164Slice, rfc3164Header, withPri_eq, Syslog.parseRfc3164Slice]
  cases cut : splitPri (encode text) with
  | none => rfl
  | some parts =>
    obtain ⟨digits, rest⟩ := parts
    obtain ⟨-, boundary, tail, bound⟩ := pri_offsets text cut
    simp only [Option.elim_some, Bool.false_eq_true, false_and, if_false,
      behindPri3164_eq text false bound boundary, tail]
    cases later : rest.drop 3 with
    | nil =>
      have ended : rest[3]? = none := by
        rw [← List.head?_drop, later]
        rfl
      have nothing : parseAfterMonth [] = none := rfl
      simp [cutsMonth, ended, nothing]
    | cons b after =>
      have fourth : rest[3]? = some b := (byte_of_drop later).1
      by_cases cuts : continuesChar b = true
      · simp [cutsMonth, fourth, cuts]
      · by_cases valid : isValidMonth (rest.take 3) = true
        · simp [cutsMonth, fourth, cuts, valid]
          rfl
        · simp [cutsMonth, fourth, cuts, valid]

theorem normalizeSlice_eq : normalizeSlice (encode text) = Syslog.normalizeSlice (encode text) := by
  rw [normalizeSlice, parseRfc5424Slice_eq, parseRfc3164Slice_eq, Syslog.normalizeSlice]
  cases Syslog.parseRfc5424Slice (encode text) with
  | some found => rfl
  | none =>
    cases Syslog.parseRfc3164Slice (encode text) with
    | none => rfl
    | some parsed => cases parsed <;> rfl

/-! Every message begins between two characters. -/

theorem skipSpace_boundary {text} {i : Nat} (boundary : isBoundary (encode text) i = true) :
    isBoundary (encode text) (skipSpace (encode text) i) = true := by
  unfold skipSpace
  split
  · rename_i blank
    exact isBoundary_after_ascii blank (by decide)
  · exact boundary

theorem byte_of_find {s pattern : Bytes} {i found k : Nat} {b : UInt8}
    (here : find pattern (s.drop i) = some found) (byte : pattern[k]? = some b) :
    s[i + found + k]? = some b := by
  obtain ⟨tail, starts⟩ := prefix_of_find here
  have less : k < pattern.length := (List.getElem?_eq_some_iff.mp byte).1
  have whole : (pattern ++ tail)[k]? = some b := by rw [List.getElem?_append_left less, byte]
  rwa [starts, List.getElem?_drop, List.getElem?_drop, ← Nat.add_assoc] at whole

theorem structuredData_boundary {text} {j k : Nat}
    (found : structuredData (encode text) j = some (some k)) :
    isBoundary (encode text) k = true := by
  unfold structuredData at found
  split at found
  · rename_i minus
    cases found
    exact skipSpace_boundary (isBoundary_after_ascii minus (by decide))
  · split at found
    · rename_i bracket
      have boundary := isBoundary_after_ascii bracket (by decide)
      rw [slice_to_end (le_of_isBoundary boundary) boundary, Option.map_some,
        Option.some.injEq, Option.map_eq_some_iff] at found
      obtain ⟨close, here, rfl⟩ := found
      have closed := byte_of_find here (k := 0) rfl
      exact skipSpace_boundary (isBoundary_after_ascii closed (by decide))
    · cases found

theorem behindMonth_boundary {text} {i k : Nat}
    (found : behindMonth (encode text) i = some (some k)) :
    isBoundary (encode text) k = true := by
  unfold behindMonth at found
  cases skipped : timeAndHost (encode text) i with
  | none => simp [skipped] at found
  | some j =>
    simp only [skipped, Option.map_eq_some_iff] at found
    obtain ⟨tagged, cut, col, here, rfl⟩ := found
    unfold slice at cut
    split at cut
    · cases cut
      rw [List.take_length] at here
      have blank := byte_of_find here (k := 1) rfl
      exact isBoundary_after_ascii blank (by decide)
    · cases cut

theorem behindPri5424_boundary {text} {strict : Bool} {i k : Nat}
    (found : behindPri5424 strict (encode text) i = some (some k)) :
    isBoundary (encode text) k = true := by
  unfold behindPri5424 at found
  split at found
  · cases found
  · exact structuredData_boundary found

theorem behindPri3164_boundary {text} {strict : Bool} {i k : Nat}
    (found : behindPri3164 strict (encode text) i = some (some k)) :
    isBoundary (encode text) k = true := by
  unfold behindPri3164 at found
  split at found
  · cases found
  · obtain ⟨month, -, later⟩ := Option.bind_eq_some_iff.mp found
    split at later
    · exact behindMonth_boundary later
    · cases later

theorem withPri_boundary {text} {strict : Bool}
    {behindPri : Bytes → Nat → Option (Option Nat)}
    (inner : ∀ i k, behindPri (encode text) i = some (some k) → isBoundary (encode text) k = true)
    {found : Bytes × Nat} (parsed : withPri strict behindPri (encode text) = some (some found)) :
    isBoundary (encode text) found.2 = true := by
  rw [withPri_eq] at parsed
  cases cut : splitPri (encode text) with
  | none => simp [cut] at parsed
  | some parts =>
    simp only [cut, Option.elim_some] at parsed
    split at parsed
    · cases parsed
    · simp only [Option.map_eq_some_iff] at parsed
      obtain ⟨_, behind, start, rfl, rfl⟩ := parsed
      exact inner _ _ behind

theorem rfc5424Header_boundary {text} {strict : Bool} {found : Bytes × Nat}
    (parsed : rfc5424Header strict (encode text) = some (some found)) :
    isBoundary (encode text) found.2 = true :=
  withPri_boundary (fun _ _ => behindPri5424_boundary) parsed

theorem rfc3164Header_boundary {text} {strict : Bool} {found : Bytes × Nat}
    (parsed : rfc3164Header strict (encode text) = some (some found)) :
    isBoundary (encode text) found.2 = true :=
  withPri_boundary (fun _ _ => behindPri3164_boundary) parsed

/-! What panics: the slice of the month, and nothing else. -/

theorem rfc5424Header_returns (strict : Bool) :
    ∃ found, rfc5424Header strict (encode text) = some found := by
  rw [rfc5424Header, withPri_eq]
  cases cut : splitPri (encode text) with
  | none => exact ⟨none, rfl⟩
  | some parts =>
    simp only [Option.elim_some]
    split
    · exact ⟨none, rfl⟩
    · have bound := (pri_offsets text cut).2.2.2
      have full := behindPri5424_eq text bound
      cases strict with
      | false => exact ⟨_, by rw [full]; rfl⟩
      | true =>
        obtain nothing | same := behindPri5424_strict text (parts.1.length + 2)
        · exact ⟨none, by rw [nothing]; rfl⟩
        · exact ⟨_, by rw [same, full]; rfl⟩

theorem rfc3164Header_none_iff (strict : Bool) :
    rfc3164Header strict (encode text) = none ↔
      ∃ digits rest, splitPri (encode text) = some (digits, rest) ∧
        ¬ (strict = true ∧ digits = []) ∧ cutsMonth rest = true := by
  rw [rfc3164Header, withPri_eq]
  cases cut : splitPri (encode text) with
  | none => simp
  | some parts =>
    obtain ⟨digits, rest⟩ := parts
    obtain ⟨-, boundary, tail, bound⟩ := pri_offsets text cut
    simp only [Option.elim_some, behindPri3164_eq text strict bound boundary, tail,
      Option.some.injEq, Prod.mk.injEq]
    constructor
    · intro panics
      split at panics
      · cases panics
      · rename_i taken
        cases cuts : cutsMonth rest with
        | false => simp [cuts] at panics
        | true => exact ⟨digits, rest, ⟨rfl, rfl⟩, taken, cuts⟩
    · rintro ⟨_, _, ⟨rfl, rfl⟩, taken, cuts⟩
      rw [if_neg taken, if_pos cuts]
      rfl

theorem orElse_none_iff {A : Type} {first : Option (Option A)} {second : Option A} :
    orElse first second = none ↔ first = none ∨ (first = some none ∧ second = none) := by
  cases first with
  | none => simp [orElse]
  | some found => cases found <;> simp [orElse]

theorem normalizeSlice_none_iff :
    normalizeSlice (encode text) = none ↔
      ∃ digits rest, splitPri (encode text) = some (digits, rest) ∧
        cutsMonth rest = true ∧ ¬ IsHeader5424 rest := by
  have month := rfc3164Header_none_iff text false
  simp only [Bool.false_eq_true, false_and, not_false_eq_true, true_and] at month
  have full : normalizeSlice (encode text) = none ↔
      Syslog.parseRfc5424Slice (encode text) = none ∧ rfc3164Header false (encode text) = none := by
    simp only [normalizeSlice, parseRfc5424Slice_eq, parseRfc3164Slice, orElse_none_iff,
      Option.map_eq_none_iff, Option.some.injEq, reduceCtorEq, and_false, or_false, false_or]
  rw [full, Syslog.parseRfc5424Slice_eq, month]
  constructor
  · rintro ⟨incomplete, digits, rest, cut, cuts⟩
    refine ⟨digits, rest, cut, cuts, ?_⟩
    rw [← header5424_isSome, Option.not_isSome_iff_eq_none]
    simpa [cut] using incomplete
  · rintro ⟨digits, rest, cut, cuts, incomplete⟩
    rw [← header5424_isSome, Option.not_isSome_iff_eq_none] at incomplete
    exact ⟨by simp [cut, incomplete], digits, rest, cut, cuts⟩

theorem normalizedAt_eq {found : Bytes × Nat}
    (boundary : isBoundary (encode text) found.2 = true) :
    normalizedAt (encode text) found =
      some ⟨some (trimEnd ((encode text).take found.2)), (encode text).drop found.2,
        parsePriFromHeader found.1⟩ := by
  have front : slice (encode text) 0 found.2 = some ((encode text).take found.2) := by
    rw [slice_eq (Nat.zero_le _) rfl boundary, List.drop_zero]
  simp [normalizedAt, slice_to_end (le_of_isBoundary boundary) boundary, front]

/-- What `normalize` returns, up to the header that it cuts off. -/
def messageOf (n : Normalized) : Bytes × SyslogMeta := (n.message, n.info)

def spanOf (s : Bytes) (ns : NormalizedSlice) : Bytes × SyslogMeta := (ns.message s, ns.info)

theorem cutHeader_eq {parsed : Option (Option (Bytes × Nat))}
    (boundaries : ∀ found, parsed = some (some found) →
      isBoundary (encode text) found.2 = true) :
    (cutHeader (encode text) parsed).map (·.map messageOf) =
      parsed.map (·.map fun found => spanOf (encode text) (sliceAt (encode text) found)) := by
  cases parsed with
  | none => rfl
  | some parsed =>
    cases parsed with
    | none => rfl
    | some found =>
      simp [cutHeader, normalizedAt_eq text (boundaries found rfl), messageOf, spanOf, sliceAt,
        NormalizedSlice.message]

theorem map_orElse {A B : Type} (f : A → B) (first : Option (Option A)) (second : Option A) :
    (orElse first second).map f = orElse (first.map (·.map f)) (second.map f) := by
  cases first with
  | none => rfl
  | some found => cases found <;> rfl

/-- The copying parser finds the message and the metadata of the slicing one, or panics with it. -/
theorem normalize_eq : (normalize (encode text)).map messageOf =
    (normalizeSlice (encode text)).map (spanOf (encode text)) := by
  have first := @cutHeader_eq text (rfc5424Header false (encode text))
    fun _ parsed => rfc5424Header_boundary parsed
  have second := @cutHeader_eq text (rfc3164Header false (encode text))
    fun _ parsed => rfc3164Header_boundary parsed
  simp only [normalize, normalizeSlice, map_orElse, parseRfc5424, parseRfc3164, first, second,
    parseRfc5424Slice, parseRfc3164Slice, Option.map_map, Function.comp_def]
  simp [messageOf, spanOf, NormalizedSlice.message]

theorem orElse_some {A : Type} {first : Option (Option A)} {second : Option A} {a : A}
    (tried : orElse first second = some a) :
    first = some (some a) ∨ (first = some none ∧ second = some a) := by
  cases first with
  | none => cases tried
  | some found =>
    cases found with
    | none => exact .inr ⟨rfl, tried⟩
    | some b =>
      cases tried
      exact .inl rfl

theorem normalizeSlice_span {ns : NormalizedSlice} (read : normalizeSlice (encode text) = some ns) :
    ns.msgEnd = (encode text).length ∧ isBoundary (encode text) ns.msgStart = true := by
  obtain first | ⟨-, later⟩ := orElse_some read
  · simp only [parseRfc5424Slice, Option.map_eq_some_iff] at first
    obtain ⟨_, parsed, found, rfl, rfl⟩ := first
    exact ⟨rfl, rfc5424Header_boundary parsed⟩
  · obtain second | ⟨-, whole⟩ := orElse_some later
    · simp only [parseRfc3164Slice, Option.map_eq_some_iff] at second
      obtain ⟨_, parsed, found, rfl, rfl⟩ := second
      exact ⟨rfl, rfc3164Header_boundary parsed⟩
    · cases whole
      exact ⟨rfl, rfl⟩

end

end Syslog.Indexed

end WarpMotor
