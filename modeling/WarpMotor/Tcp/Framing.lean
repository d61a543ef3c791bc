import Mathlib.Data.List.Infix
import Mathlib.Data.List.TakeWhile
import Mathlib.Tactic.IntervalCases
import WarpMotor.Event
import WarpMotor.Lib.StreamFraming

/-!
The frame extractors of the TCP sources. A frame is a line, or a decimal
length of at most ten digits, one space and that many bytes. There are two
families with the same scan of the length: the connection's own extractor,
and the octet counting of the syslog source, which refuses a length of zero
and lengths from `maxFrameBytes` on. Ten digits stay below `usize`, so the
lengths are plain numbers.
-/
namespace WarpMotor

inductive FramingMode where
  | auto | line | len
  deriving DecidableEq, Repr

namespace Framing

abbrev Bytes := List UInt8

def newline : UInt8 := 10
def carriageReturn : UInt8 := 13
def space : UInt8 := 32
def tab : UInt8 := 9

def maxLenDigits : Nat := 10
def maxFrameBytes : Nat := 10000000

def isAsciiDigit (b : UInt8) : Bool := 48 ≤ b && b ≤ 57

/-- What the scan of a length passes over. -/
def lengthDigits (buf : Bytes) : Bytes := (buf.take maxLenDigits).takeWhile isAsciiDigit

def lengthValue (digits : Bytes) : Nat := digits.foldl (fun n b => n * 10 + (b - 48).toNat) 0

/-- The length at the front of a buffer and the bytes after its space. -/
def lengthPrefix (buf : Bytes) : Option (Nat × Bytes) :=
  let digits := lengthDigits buf
  if digits = [] then none
  else
    match buf.drop digits.length with
    | [] => none
    | b :: body => if b = space then some (lengthValue digits, body) else none

/-- The bytes before the first newline and those after it. -/
def splitNewline : Bytes → Option (Bytes × Bytes)
  | [] => none
  | b :: rest =>
    if b = newline then some ([], rest)
    else (splitNewline rest).map (fun cut => (b :: cut.1, cut.2))

/-- Drops the newline and every carriage return of the line. -/
def extractLineMessage (buf : Bytes) : Option (Bytes × Bytes) :=
  (splitNewline buf).map (fun cut => (cut.1.filter (· ≠ carriageReturn), cut.2))

def extractLengthPrefixedMessage (buf : Bytes) : Option (Bytes × Bytes) :=
  match lengthPrefix buf with
  | none => none
  | some (len, body) =>
    if body.length < len then none else some (body.take len, body.drop len)

/-- A length is announced and its payload has not arrived in full. -/
def octetInProgress (buf : Bytes) : Bool :=
  match lengthPrefix buf with
  | none => false
  | some (n, body) => if n = 0 ∨ maxFrameBytes ≤ n then false else body.length < n

/-- Drops the newline, and carriage returns, spaces and tabs before it. -/
def extractNewline (buf : Bytes) : Option (Bytes × Bytes) :=
  (splitNewline buf).map (fun cut =>
    ((cut.1.reverse.dropWhile (fun b => b = carriageReturn || b = space || b = tab)).reverse, cut.2))

def extractOctetCounted (buf : Bytes) : Option (Bytes × Bytes) :=
  match lengthPrefix buf with
  | none => none
  | some (n, body) =>
    if n = 0 ∨ maxFrameBytes ≤ n then none
    else if body.length < n then none
    else some (body.take n, body.drop n)

/-- One to ten digits. -/
structure IsLength (digits : Bytes) : Prop where
  some_digit : digits ≠ []
  short : digits.length ≤ maxLenDigits
  decimal : ∀ b ∈ digits, isAsciiDigit b = true

theorem lengthDigits_of_space {digits : Bytes} (valid : IsLength digits) (body : Bytes) :
    lengthDigits (digits ++ space :: body) = digits := by
  have short := valid.short
  unfold lengthDigits
  rw [List.take_append, List.take_of_length_le short, List.takeWhile_append_of_pos valid.decimal]
  -- The scan stops at the space, or it has reached its tenth digit.
  cases maxLenDigits - digits.length with
  | zero => simp
  | succ n => simp [show isAsciiDigit space = false by decide]

theorem lengthDigits_isLength {buf : Bytes} (some_digit : lengthDigits buf ≠ []) :
    IsLength (lengthDigits buf) := by
  constructor
  · exact some_digit
  · have scanned : (lengthDigits buf).length ≤ (buf.take maxLenDigits).length :=
      (List.takeWhile_prefix isAsciiDigit).length_le
    have taken := List.length_take_le maxLenDigits buf
    exact Nat.le_trans scanned taken
  · intro b member
    exact List.mem_takeWhile_imp member

theorem lengthDigits_append_drop (buf : Bytes) :
    lengthDigits buf ++ buf.drop (lengthDigits buf).length = buf := by
  have start : lengthDigits buf <+: buf :=
    (List.takeWhile_prefix isAsciiDigit).trans (List.take_prefix maxLenDigits buf)
  exact (List.prefix_append_drop start).symm

/-- What `lengthPrefix` reads, as a grammar. -/
theorem lengthPrefix_eq_some {buf body : Bytes} {n : Nat} :
    lengthPrefix buf = some (n, body) ↔
      ∃ digits, IsLength digits ∧ n = lengthValue digits ∧ buf = digits ++ space :: body := by
  constructor
  · intro read
    simp only [lengthPrefix] at read
    split at read
    · cases read
    · rename_i some_digit
      have whole := lengthDigits_append_drop buf
      split at read
      · cases read
      · rename_i b rest dropped
        split at read
        · rename_i blank
          cases read
          rw [dropped, blank] at whole
          exact ⟨lengthDigits buf, lengthDigits_isLength some_digit, rfl, whole.symm⟩
        · cases read
  · rintro ⟨digits, valid, rfl, rfl⟩
    simp only [lengthPrefix, lengthDigits_of_space valid body, List.drop_left, valid.some_digit]
    simp

theorem lengthPrefix_append {buf body : Bytes} {n : Nat} (more : Bytes)
    (read : lengthPrefix buf = some (n, body)) :
    lengthPrefix (buf ++ more) = some (n, body ++ more) := by
  obtain ⟨digits, valid, value, rfl⟩ := lengthPrefix_eq_some.mp read
  exact lengthPrefix_eq_some.mpr ⟨digits, valid, value, by simp⟩

theorem lengthPrefix_length {buf body : Bytes} {n : Nat}
    (read : lengthPrefix buf = some (n, body)) : body.length < buf.length := by
  obtain ⟨digits, -, -, rfl⟩ := lengthPrefix_eq_some.mp read
  simp only [List.length_append, List.length_cons]
  omega

theorem newline_not_mem_length {digits : Bytes} (valid : IsLength digits) : newline ∉ digits := by
  intro member
  have digit := valid.decimal newline member
  revert digit
  decide

/-- A newline ends the scan of the length: a buffer that holds one already shows the length. -/
theorem lengthPrefix_of_append {buf more body : Bytes} {n : Nat} (ended : newline ∈ buf)
    (read : lengthPrefix (buf ++ more) = some (n, body)) :
    ∃ front, lengthPrefix buf = some (n, front) ∧ body = front ++ more := by
  obtain ⟨digits, valid, value, whole⟩ := lengthPrefix_eq_some.mp read
  have split : digits ++ space :: body = (digits ++ [space]) ++ body := by simp
  rw [split] at whole
  rcases List.append_eq_append_iff.mp whole with ⟨cut, front, rest⟩ | ⟨cut, front, rest⟩
  · have early : newline ∈ digits ++ [space] := by
      rw [front]
      exact List.mem_append_left cut ended
    rcases List.mem_append.mp early with inside | last
    · exact absurd inside (newline_not_mem_length valid)
    · exact absurd (List.mem_singleton.mp last) (by decide)
  · refine ⟨cut, lengthPrefix_eq_some.mpr ⟨digits, valid, value, ?_⟩, rest⟩
    rw [front]
    simp

section Lines
attribute [local simp] splitNewline

theorem splitNewline_eq_some {buf line rest : Bytes} :
    splitNewline buf = some (line, rest) ↔ buf = line ++ newline :: rest ∧ newline ∉ line := by
  induction buf generalizing line with
  | nil => simp [splitNewline]
  | cons b buf ih =>
    unfold splitNewline
    by_cases ends : b = newline
    · rw [if_pos ends]
      cases line with
      | nil => simp [ends]
      | cons c line =>
        simp only [Option.some.injEq, Prod.mk.injEq, List.nil_eq, reduceCtorEq, false_and,
          List.cons_append, List.cons.injEq, List.mem_cons, not_or, false_iff, not_and]
        rintro ⟨rfl, -⟩ differs
        exact absurd ends.symm differs
    · rw [if_neg ends, Option.map_eq_some_iff]
      constructor
      · rintro ⟨⟨line', rest'⟩, cut, same⟩
        cases same
        obtain ⟨whole, clean⟩ := ih.mp cut
        refine ⟨by rw [whole]; rfl, ?_⟩
        rw [List.mem_cons, not_or]
        exact ⟨Ne.symm ends, clean⟩
      · rintro ⟨whole, clean⟩
        cases line with
        | nil =>
          cases whole
          exact absurd rfl ends
        | cons c line =>
          rw [List.cons_append, List.cons.injEq] at whole
          obtain ⟨rfl, whole⟩ := whole
          rw [List.mem_cons, not_or] at clean
          exact ⟨(line, rest), ih.mpr ⟨whole, clean.2⟩, rfl⟩

theorem splitNewline_append {buf line rest : Bytes} (more : Bytes)
    (cut : splitNewline buf = some (line, rest)) :
    splitNewline (buf ++ more) = some (line, rest ++ more) := by
  obtain ⟨rfl, clean⟩ := splitNewline_eq_some.mp cut
  exact splitNewline_eq_some.mpr ⟨by simp, clean⟩

theorem splitNewline_eq_none {buf : Bytes} : splitNewline buf = none ↔ newline ∉ buf := by
  induction buf with
  | nil => simp [splitNewline]
  | cons b buf ih =>
    unfold splitNewline
    by_cases ends : b = newline
    · simp [ends]
    · simp [ends, Ne.symm ends, ih]

theorem splitNewline_length {buf line rest : Bytes}
    (cut : splitNewline buf = some (line, rest)) : rest.length < buf.length := by
  obtain ⟨rfl, -⟩ := splitNewline_eq_some.mp cut
  simp only [List.length_append, List.length_cons]
  omega

end Lines

/-- `<len> <payload>`. -/
def encodeFrame (payload : Bytes) : Bytes :=
  (Nat.toDigits 10 payload.length).map Char.toUInt8 ++ space :: payload

/-- A digit keeps its value as a byte. -/
theorem digit_byte {c : Char} (digit : c.isDigit = true) :
    isAsciiDigit c.toUInt8 = true ∧ (c.toUInt8 - 48).toNat = c.toNat - 48 := by
  obtain ⟨low, high⟩ := Char.isDigit_iff_toNat.mp digit
  have byte : c.toUInt8 = UInt8.ofNat c.toNat := rfl
  rw [byte]
  generalize c.toNat = n at low high
  change 48 ≤ n at low
  change n ≤ 57 at high
  interval_cases n <;> decide

theorem lengthValue_digits (cs : List Char) (digits : ∀ c ∈ cs, c.isDigit = true) (start : Nat) :
    (cs.map Char.toUInt8).foldl (fun n b => n * 10 + (b - 48).toNat) start =
      Nat.ofDigitChars 10 cs start := by
  induction cs generalizing start with
  | nil => simp
  | cons c cs ih =>
    have value := (digit_byte (digits c (List.mem_cons_self ..))).2
    have tail := ih (fun d member => digits d (List.mem_cons_of_mem c member))
    rw [List.map_cons, List.foldl_cons, tail, Nat.ofDigitChars_cons, value, Nat.mul_comm]
    rfl

/-- A printed number is a length when its digits are few enough. -/
theorem printed_isLength {n : Nat} (small : n < 10 ^ maxLenDigits) :
    IsLength ((Nat.toDigits 10 n).map Char.toUInt8) := by
  constructor
  · simp
  · rw [List.length_map, Nat.length_toDigits_le_iff (by omega) (by decide)]
    exact small
  · intro b member
    obtain ⟨c, digit, rfl⟩ := List.mem_map.mp member
    exact (digit_byte (Nat.isDigit_of_mem_toDigits (by omega) (by omega) digit)).1

theorem lengthValue_printed (n : Nat) :
    lengthValue ((Nat.toDigits 10 n).map Char.toUInt8) = n := by
  have digits : ∀ c ∈ Nat.toDigits 10 n, c.isDigit = true := by
    intro c member
    exact Nat.isDigit_of_mem_toDigits (by omega) (by omega) member
  unfold lengthValue
  rw [lengthValue_digits _ digits, Nat.ofDigitChars_ten_toDigits]

theorem lengthPrefix_encodeFrame {payload : Bytes} (small : payload.length < 10 ^ maxLenDigits)
    (body : Bytes) :
    lengthPrefix ((Nat.toDigits 10 payload.length).map Char.toUInt8 ++ space :: body) =
      some (payload.length, body) :=
  lengthPrefix_eq_some.mpr ⟨_, printed_isLength small, (lengthValue_printed _).symm, rfl⟩

/-- What `extractLengthPrefixedMessage` accepts: a length, a space and a payload of that length. -/
theorem extractLengthPrefixedMessage_eq_some {buf payload rest : Bytes} :
    extractLengthPrefixedMessage buf = some (payload, rest) ↔
      lengthPrefix buf = some (payload.length, payload ++ rest) := by
  unfold extractLengthPrefixedMessage
  constructor
  · intro taken
    cases read : lengthPrefix buf with
    | none => simp [read] at taken
    | some found =>
      obtain ⟨len, body⟩ := found
      simp only [read] at taken
      split at taken
      · cases taken
      · rename_i complete
        cases taken
        rw [List.take_append_drop, List.length_take_of_le (by omega)]
  · intro read
    simp [read]

theorem extractLengthPrefixedMessage_eq_none {buf body : Bytes} {len : Nat}
    (read : lengthPrefix buf = some (len, body)) :
    extractLengthPrefixedMessage buf = none ↔ body.length < len := by
  simp [extractLengthPrefixedMessage, read]

theorem extractLengthPrefixedMessage_stable :
    StreamFraming.Stable extractLengthPrefixedMessage := by
  intro buf payload rest more taken
  have read := extractLengthPrefixedMessage_eq_some.mp taken
  have later := lengthPrefix_append more read
  rw [List.append_assoc] at later
  exact extractLengthPrefixedMessage_eq_some.mpr later

theorem extractLengthPrefixedMessage_shrinks :
    StreamFraming.Shrinks extractLengthPrefixedMessage := by
  intro buf payload rest taken
  have shorter := lengthPrefix_length (extractLengthPrefixedMessage_eq_some.mp taken)
  rw [List.length_append] at shorter
  omega

theorem extractLineMessage_stable : StreamFraming.Stable extractLineMessage := by
  intro buf line rest more taken
  obtain ⟨cut, split, same⟩ := Option.map_eq_some_iff.mp taken
  cases same
  have later := splitNewline_append more split
  unfold extractLineMessage
  rw [later]
  rfl

theorem extractLineMessage_shrinks : StreamFraming.Shrinks extractLineMessage := by
  intro buf line rest taken
  obtain ⟨cut, split, same⟩ := Option.map_eq_some_iff.mp taken
  cases same
  exact splitNewline_length split

theorem extractOctetCounted_eq_some {buf payload rest : Bytes} :
    extractOctetCounted buf = some (payload, rest) ↔
      (payload ≠ [] ∧ payload.length < maxFrameBytes) ∧
        lengthPrefix buf = some (payload.length, payload ++ rest) := by
  unfold extractOctetCounted
  constructor
  · intro taken
    cases read : lengthPrefix buf with
    | none => simp [read] at taken
    | some found =>
      obtain ⟨n, body⟩ := found
      simp only [read] at taken
      split at taken
      · cases taken
      · rename_i sized
        split at taken
        · cases taken
        · rename_i complete
          cases taken
          have size : (body.take n).length = n := List.length_take_of_le (by omega)
          rw [List.take_append_drop, size]
          refine ⟨⟨?_, by omega⟩, rfl⟩
          intro empty
          rw [empty, List.length_nil] at size
          omega
  · rintro ⟨⟨nonempty, small⟩, read⟩
    simpa [read] using ⟨nonempty, small⟩

theorem extractOctetCounted_append {buf payload rest : Bytes} (more : Bytes)
    (taken : extractOctetCounted buf = some (payload, rest)) :
    extractOctetCounted (buf ++ more) = some (payload, rest ++ more) := by
  obtain ⟨sized, read⟩ := extractOctetCounted_eq_some.mp taken
  have later := lengthPrefix_append more read
  rw [List.append_assoc] at later
  exact extractOctetCounted_eq_some.mpr ⟨sized, later⟩

theorem extractOctetCounted_length {buf payload rest : Bytes}
    (taken : extractOctetCounted buf = some (payload, rest)) : rest.length < buf.length := by
  obtain ⟨-, read⟩ := extractOctetCounted_eq_some.mp taken
  have shorter := lengthPrefix_length read
  rw [List.length_append] at shorter
  omega

theorem extractNewline_append {buf line rest : Bytes} (more : Bytes)
    (taken : extractNewline buf = some (line, rest)) :
    extractNewline (buf ++ more) = some (line, rest ++ more) := by
  obtain ⟨cut, split, same⟩ := Option.map_eq_some_iff.mp taken
  cases same
  have later := splitNewline_append more split
  unfold extractNewline
  rw [later]
  rfl

theorem extractNewline_length {buf line rest : Bytes}
    (taken : extractNewline buf = some (line, rest)) : rest.length < buf.length := by
  obtain ⟨cut, split, same⟩ := Option.map_eq_some_iff.mp taken
  cases same
  exact splitNewline_length split

end Framing

end WarpMotor
