import WarpMotor.Tcp.Framing

/-!
Syslog lines as the sink writes them and as the source reads them. The encoder
puts priority, local time, host and application before the message; the
normaliser tries the header of RFC 5424 and then that of RFC 3164, where the
message begins behind the first `": "` after the host. Texts are their UTF-8
bytes. How the local time is printed is a parameter.
-/
namespace WarpMotor

open Framing

namespace Syslog

def lessThan : UInt8 := 60
def greaterThan : UInt8 := 62
def colon : UInt8 := 58
def hyphen : UInt8 := 45
def openBracket : UInt8 := 91
def closeBracket : UInt8 := 93

/-- The text as bytes. -/
def ascii (text : String) : Bytes := text.toList.map Char.toUInt8

structure EmitMessage (Time : Type) where
  priority : UInt8
  hostname : Option Bytes
  appName : Option Bytes
  message : Bytes
  timestamp : Option Time
  appendNewline : Bool

/-- The calendar library: the current time, and a time printed with `%b %d %H:%M:%S` in the local
    zone. -/
structure Clock (Time : Type) where
  now : Time
  format : Time → Bytes

def encodeLine {Time : Type} (clock : Clock Time) (msg : EmitMessage Time) : Bytes :=
  let ts := clock.format (msg.timestamp.getD clock.now)
  let hostname := msg.hostname.getD (ascii "localhost")
  let appName := msg.appName.getD (ascii "wp-engine")
  lessThan :: ((Nat.toDigits 10 msg.priority.toNat).map Char.toUInt8 ++ greaterThan ::
    (ts ++ space :: (hostname ++ space :: (appName ++ colon :: space :: msg.message))))

/-- The newline that the encoder adds; a line that ends with one gets no second. -/
def addedNewline {Time : Type} (clock : Clock Time) (msg : EmitMessage Time) : Bytes :=
  if msg.appendNewline ∧ (encodeLine clock msg).getLast? ≠ some newline then [newline] else []

def encodeRfc3164 {Time : Type} (clock : Clock Time) (msg : EmitMessage Time) : Bytes :=
  encodeLine clock msg ++ addedNewline clock msg

structure SyslogMeta where
  pri : Option UInt8
  facility : Option String
  severity : Option String
  deriving DecidableEq, Repr

structure NormalizedSlice where
  msgStart : Nat
  msgEnd : Nat
  info : SyslogMeta
  deriving DecidableEq, Repr

def facilityName (code : Nat) : String :=
  match code with
  | 0 => "kern" | 1 => "user" | 2 => "mail" | 3 => "daemon" | 4 => "auth" | 5 => "syslog"
  | 6 => "lpr" | 7 => "news" | 8 => "uucp" | 9 => "clock" | 10 => "authpriv" | 11 => "ftp"
  | 12 => "ntp" | 13 => "audit" | 14 => "alert" | 15 => "cron" | 16 => "local0" | 17 => "local1"
  | 18 => "local2" | 19 => "local3" | 20 => "local4" | 21 => "local5" | 22 => "local6"
  | 23 => "local7" | _ => "unknown"

def severityName (code : Nat) : String :=
  match code with
  | 0 => "emerg" | 1 => "alert" | 2 => "crit" | 3 => "err" | 4 => "warn" | 5 => "notice"
  | 6 => "info" | 7 => "debug" | _ => "unknown"

/-- The span of the line that the slice names. -/
def NormalizedSlice.message (slice : NormalizedSlice) (line : Bytes) : Bytes :=
  (line.take slice.msgEnd).drop slice.msgStart

/-- The digits between the angle brackets; only a `u16` is a priority. -/
def parsePriFromHeader (digits : Bytes) : SyslogMeta :=
  if digits = [] ∨ 2 ^ 16 ≤ lengthValue digits then ⟨none, none, none⟩
  else
    let pri := lengthValue digits
    { pri := some (UInt8.ofNat (pri % 256))
      facility := some (facilityName (pri / 8 % 256))
      severity := some (severityName (pri % 8)) }

/-- `<`, digits, `>`: the digits and what follows. -/
def splitPri : Bytes → Option (Bytes × Bytes)
  | [] => none
  | b :: rest =>
    if b = lessThan then
      match rest.dropWhile isAsciiDigit with
      | [] => none
      | c :: after => if c = greaterThan then some (rest.takeWhile isAsciiDigit, after) else none
    else none

def skipTokens : Nat → Bytes → Option Bytes
  | 0, rest => some rest
  | tokens + 1, rest =>
    match rest.dropWhile (· ≠ space) with
    | [] => none
    | _ :: after => skipTokens tokens after

def skipSpace : Bytes → Bytes
  | [] => []
  | b :: rest => if b = space then rest else b :: rest

/-- Behind `-` or `[`..`]`, and one space. -/
def skipStructuredData : Bytes → Option Bytes
  | [] => none
  | b :: rest =>
    if b = hyphen then some (skipSpace rest)
    else if b = openBracket then
      match rest.dropWhile (· ≠ closeBracket) with
      | [] => none
      | _ :: after => some (skipSpace after)
    else none

def expect (byte : UInt8) : Bytes → Option Bytes
  | [] => none
  | b :: rest => if b = byte then some rest else none

/-- The slice of `input` from where `rest` begins to the end. -/
def sliceFrom (input digits rest : Bytes) : NormalizedSlice :=
  ⟨input.length - rest.length, input.length, parsePriFromHeader digits⟩

def parseRfc5424Slice (input : Bytes) : Option NormalizedSlice := do
  let (digits, rest) ← splitPri input
  let version := rest.takeWhile isAsciiDigit
  if version = [] then none
  else
    let rest ← expect space (rest.dropWhile isAsciiDigit)
    let rest ← skipTokens 5 rest
    let rest ← skipStructuredData rest
    some (sliceFrom input digits rest)

def months : List Bytes :=
  ["Jan", "Feb", "Mar", "Apr", "May", "Jun", "Jul", "Aug", "Sep", "Oct", "Nov", "Dec"].map ascii

def isValidMonth (month : Bytes) : Bool := months.contains month

/-- One or two digits. -/
def skipDay : Bytes → Option Bytes
  | [] => none
  | b :: rest =>
    if isAsciiDigit b then
      match rest with
      | [] => some []
      | c :: after => if isAsciiDigit c then some after else some (c :: after)
    else none

/-- `HH:MM:SS`. -/
def skipClock : Bytes → Option Bytes
  | h₁ :: h₂ :: c₁ :: m₁ :: m₂ :: c₂ :: s₁ :: s₂ :: rest =>
    if isAsciiDigit h₁ ∧ isAsciiDigit h₂ ∧ c₁ = colon ∧ isAsciiDigit m₁ ∧ isAsciiDigit m₂ ∧
        c₂ = colon ∧ isAsciiDigit s₁ ∧ isAsciiDigit s₂ then some rest
    else none
  | _ => none

def skipHostname (rest : Bytes) : Option Bytes :=
  match rest.dropWhile (· ≠ space) with
  | [] => none
  | _ :: after => if rest.takeWhile (· ≠ space) = [] then none else some after

/-- What follows the first `": "`. -/
def afterColonSpace : Bytes → Option Bytes
  | [] => none
  | b :: rest =>
    if b = colon ∧ rest.head? = some space then some rest.tail else afterColonSpace rest

/-- Behind the month: day, time, host and tag. -/
def parseAfterMonth (rest : Bytes) : Option Bytes := do
  let rest ← expect space rest
  let rest ← skipDay (skipSpace rest)
  let rest ← expect space rest
  let rest ← skipClock rest
  let rest ← expect space rest
  let rest ← skipHostname rest
  afterColonSpace rest

/-- The byte continues a character, so that no slice of a text may end before it. -/
def continuesChar (b : UInt8) : Bool := 128 ≤ b && b < 192

/-- `none` is a panic: the slice of the month ends inside a character. -/
def parseRfc3164Slice (input : Bytes) : Option (Option NormalizedSlice) :=
  match splitPri input with
  | none => some none
  | some (digits, rest) =>
    match rest.drop 3 with
    | [] => some none
    | b :: after =>
      if continuesChar b then none
      else if isValidMonth (rest.take 3) then
        some ((parseAfterMonth (b :: after)).map (sliceFrom input digits))
      else some none

def normalizeSlice (line : Bytes) : Option NormalizedSlice :=
  match parseRfc5424Slice line with
  | some slice => some slice
  | none =>
    match parseRfc3164Slice line with
    | none => none
    | some (some slice) => some slice
    | some none => some ⟨0, line.length, ⟨none, none, none⟩⟩

/-- How `%b %d %H:%M:%S` prints: month, day of two digits and time. -/
def IsPrintedTime (ts : Bytes) : Prop :=
  ∃ month ∈ months, ∃ d₁ d₂ h₁ h₂ m₁ m₂ s₁ s₂,
    (∀ b ∈ [d₁, d₂, h₁, h₂, m₁, m₂, s₁, s₂], isAsciiDigit b = true) ∧
      ts = month ++ [space, d₁, d₂, space, h₁, h₂, colon, m₁, m₂, colon, s₁, s₂]

theorem splitPri_printed (n : Nat) (after : Bytes) :
    splitPri (lessThan :: ((Nat.toDigits 10 n).map Char.toUInt8 ++ greaterThan :: after)) =
      some ((Nat.toDigits 10 n).map Char.toUInt8, after) := by
  have decimal : ∀ b ∈ (Nat.toDigits 10 n).map Char.toUInt8, isAsciiDigit b = true := by
    intro b member
    obtain ⟨c, digit, rfl⟩ := List.mem_map.mp member
    exact (digit_byte (Nat.isDigit_of_mem_toDigits (by omega) (by omega) digit)).1
  have stops : isAsciiDigit greaterThan = false := by decide
  have scanned := @List.takeWhile_append_of_pos _ isAsciiDigit _ (greaterThan :: after) decimal
  have left := @List.dropWhile_append_of_pos _ isAsciiDigit _ (greaterThan :: after) decimal
  rw [List.takeWhile_cons_of_neg (by simp [stops]), List.append_nil] at scanned
  rw [List.dropWhile_cons_of_neg (by simp [stops])] at left
  simp [splitPri, scanned, left]

theorem parsePriFromHeader_printed (priority : UInt8) :
    (parsePriFromHeader ((Nat.toDigits 10 priority.toNat).map Char.toUInt8)).pri =
      some priority := by
  have small := priority.toNat_lt
  have low : priority.toNat % 256 = priority.toNat := Nat.mod_eq_of_lt (by omega)
  unfold parsePriFromHeader
  rw [lengthValue_printed, if_neg (by simp; omega)]
  simp [low]

theorem month_starts_with_letter {month : Bytes} (valid : month ∈ months) :
    ∃ a b c, month = [a, b, c] ∧ isAsciiDigit a = false := by
  simp only [months, List.map_cons, List.map_nil, List.mem_cons, List.not_mem_nil, or_false]
    at valid
  rcases valid with rfl | rfl | rfl | rfl | rfl | rfl | rfl | rfl | rfl | rfl | rfl | rfl <;>
    exact ⟨_, _, _, rfl, by decide⟩

/-- A letter stands where the version of RFC 5424 has its digits. -/
theorem parseRfc5424Slice_printed (n : Nat) {ts : Bytes} (printed : IsPrintedTime ts)
    (after : Bytes) :
    parseRfc5424Slice
      (lessThan :: ((Nat.toDigits 10 n).map Char.toUInt8 ++ greaterThan :: (ts ++ after))) =
        none := by
  obtain ⟨month, valid, d₁, d₂, h₁, h₂, m₁, m₂, s₁, s₂, -, rfl⟩ := printed
  obtain ⟨a, b, c, rfl, letter⟩ := month_starts_with_letter valid
  simp [parseRfc5424Slice, splitPri_printed, letter]

theorem skipHostname_printed {hostname : Bytes} (nonempty : hostname ≠ [])
    (spaceless : space ∉ hostname) (after : Bytes) :
    skipHostname (hostname ++ space :: after) = some after := by
  have inside : ∀ b ∈ hostname, decide (b ≠ space) = true := by
    intro b member
    rw [decide_eq_true_eq]
    rintro rfl
    exact spaceless member
  have scanned := @List.takeWhile_append_of_pos _ _ _ (space :: after) inside
  have left := @List.dropWhile_append_of_pos _ _ _ (space :: after) inside
  rw [List.takeWhile_cons_of_neg (by simp), List.append_nil] at scanned
  rw [List.dropWhile_cons_of_neg (by simp)] at left
  simp only [skipHostname, scanned, left, nonempty, if_false]

theorem parseRfc3164Slice_printed (n : Nat) {ts : Bytes} (printed : IsPrintedTime ts)
    {hostname : Bytes} (nonempty : hostname ≠ []) (spaceless : space ∉ hostname) (tagged : Bytes) :
    let digits := (Nat.toDigits 10 n).map Char.toUInt8
    let line := lessThan :: (digits ++ greaterThan ::
      (ts ++ space :: (hostname ++ space :: tagged)))
    parseRfc3164Slice line =
      some ((afterColonSpace tagged).map (sliceFrom line digits)) := by
  intro digits line
  obtain ⟨month, valid, d₁, d₂, h₁, h₂, m₁, m₂, s₁, s₂, decimal, rfl⟩ := printed
  obtain ⟨a, b, c, rfl, -⟩ := month_starts_with_letter valid
  have isMonth : isValidMonth [a, b, c] = true := List.contains_iff_mem.mpr valid
  simp only [List.mem_cons, List.not_mem_nil, or_false, forall_eq_or_imp, forall_eq] at decimal
  obtain ⟨d₁_digit, d₂_digit, h₁_digit, h₂_digit, m₁_digit, m₂_digit, s₁_digit, s₂_digit⟩ := decimal
  have day_not_space : d₁ ≠ space := by
    rintro rfl
    exact absurd d₁_digit (by decide)
  have host := skipHostname_printed nonempty spaceless tagged
  have boundary : continuesChar space = false := by decide
  simp only [parseRfc3164Slice, line, digits, splitPri_printed]
  simp [boundary, isMonth, parseAfterMonth, expect, skipSpace, skipDay, skipClock, day_not_space,
    d₁_digit, d₂_digit, h₁_digit, h₂_digit, m₁_digit, m₂_digit, s₁_digit, s₂_digit, host]

/-- The scan ends at the latest at the separator behind the tag, and there exactly when the tag
    holds none. -/
theorem afterColonSpace_tag (tag message : Bytes) :
    ∃ found, afterColonSpace (tag ++ colon :: space :: message) = some found ∧
      message.length ≤ found.length ∧
      (found = message ↔ ¬ [colon, space] <:+: tag) := by
  induction tag with
  | nil => exact ⟨message, by simp [afterColonSpace], Nat.le_refl _, by simp⟩
  | cons b tag ih =>
    obtain ⟨found, rest_found, long, exact_found⟩ := ih
    by_cases separator : b = colon ∧ (tag ++ colon :: space :: message).head? = some space
    · -- The tag's own separator: more than the message is left.
      obtain ⟨rfl, blank⟩ := separator
      cases tag with
      | nil => simp [colon, space] at blank
      | cons c tag =>
        simp only [List.cons_append, List.head?_cons, Option.some.injEq] at blank
        subst blank
        refine ⟨tag ++ colon :: space :: message, by simp [afterColonSpace], by simp; omega, ?_⟩
        have longer : tag ++ colon :: space :: message ≠ message := by
          intro equal
          have lengths := congrArg List.length equal
          simp at lengths
          omega
        have inside : [colon, space] <:+: colon :: space :: tag := ⟨[], tag, rfl⟩
        simp only [longer, inside, not_true_eq_false]
    · refine ⟨found, ?_, long, ?_⟩
      · rw [List.cons_append, afterColonSpace, if_neg separator]
        exact rest_found
      · rw [exact_found, List.infix_cons_iff]
        have no_start : ¬ [colon, space] <+: b :: tag := by
          rintro ⟨rest, start⟩
          cases start
          exact separator ⟨rfl, by simp⟩
        simp only [no_start, false_or]

theorem afterColonSpace_suffix {text found : Bytes} (scanned : afterColonSpace text = some found) :
    found <:+ text := by
  induction text with
  | nil => cases scanned
  | cons b rest ih =>
    rw [afterColonSpace] at scanned
    split at scanned
    · cases scanned
      exact (List.tail_suffix rest).trans (List.suffix_cons b rest)
    · exact (ih scanned).trans (List.suffix_cons b rest)

theorem suffix_behind {found after : Bytes} (field : Bytes) (separator : UInt8)
    (ending : found <:+ after) : found <:+ field ++ separator :: after :=
  List.suffix_append_of_suffix (ending.trans (List.suffix_cons separator after))

theorem sliceFrom_message {line rest : Bytes} (ending : rest <:+ line) (digits : Bytes) :
    (sliceFrom line digits rest).message line = rest := by
  obtain ⟨before, rfl⟩ := ending
  have start : (before ++ rest).length - rest.length = before.length := by simp
  unfold sliceFrom NormalizedSlice.message
  rw [List.take_length, start, List.drop_left]

section

variable {Time : Type} (clock : Clock Time) (msg : EmitMessage Time)

theorem normalizeSlice_encodeRfc3164 (printed : ∀ time, IsPrintedTime (clock.format time))
    (host : ∀ hostname, msg.hostname = some hostname → hostname ≠ [] ∧ space ∉ hostname) :
    ∃ slice found, normalizeSlice (encodeRfc3164 clock msg) = some slice ∧
      slice.info.pri = some msg.priority ∧
      slice.message (encodeRfc3164 clock msg) = found ∧
      afterColonSpace (msg.appName.getD (ascii "wp-engine") ++
        colon :: space :: (msg.message ++ addedNewline clock msg)) = some found := by
  have host_ok : msg.hostname.getD (ascii "localhost") ≠ [] ∧
      space ∉ msg.hostname.getD (ascii "localhost") := by
    cases given : msg.hostname with
    | none => decide
    | some hostname => exact host hostname given
  have time_ok := printed (msg.timestamp.getD clock.now)
  obtain ⟨found, scanned, -, -⟩ := afterColonSpace_tag (msg.appName.getD (ascii "wp-engine"))
    (msg.message ++ addedNewline clock msg)
  have shape : encodeRfc3164 clock msg = lessThan ::
      ((Nat.toDigits 10 msg.priority.toNat).map Char.toUInt8 ++ greaterThan ::
        (clock.format (msg.timestamp.getD clock.now) ++ space ::
          (msg.hostname.getD (ascii "localhost") ++ space ::
            (msg.appName.getD (ascii "wp-engine") ++
              colon :: space :: (msg.message ++ addedNewline clock msg))))) := by
    simp [encodeRfc3164, encodeLine]
  have not_5424 := parseRfc5424Slice_printed msg.priority.toNat time_ok (space ::
    (msg.hostname.getD (ascii "localhost") ++ space ::
      (msg.appName.getD (ascii "wp-engine") ++
        colon :: space :: (msg.message ++ addedNewline clock msg))))
  have is_3164 := parseRfc3164Slice_printed msg.priority.toNat time_ok host_ok.1 host_ok.2
    (msg.appName.getD (ascii "wp-engine") ++
      colon :: space :: (msg.message ++ addedNewline clock msg))
  simp only [← shape, scanned, Option.map_some] at not_5424 is_3164
  have ending : found <:+ encodeRfc3164 clock msg := by
    rw [shape]
    have behind_host := suffix_behind (msg.hostname.getD (ascii "localhost")) space
      (afterColonSpace_suffix scanned)
    have behind_time :=
      suffix_behind (clock.format (msg.timestamp.getD clock.now)) space behind_host
    exact suffix_behind (lessThan :: (Nat.toDigits 10 msg.priority.toNat).map Char.toUInt8)
      greaterThan behind_time
  refine ⟨sliceFrom (encodeRfc3164 clock msg)
    ((Nat.toDigits 10 msg.priority.toNat).map Char.toUInt8) found, found, ?_, ?_, ?_, scanned⟩
  · simp only [normalizeSlice, not_5424, is_3164]
  · exact parsePriFromHeader_printed msg.priority
  · exact sliceFrom_message ending _

/-- What the sink writes is read back, its priority and its message, exactly when the name of the
    application holds no `": "`. -/
theorem encodeRfc3164_roundTrip (printed : ∀ time, IsPrintedTime (clock.format time))
    (host : ∀ hostname, msg.hostname = some hostname → hostname ≠ [] ∧ space ∉ hostname) :
    (∃ slice, normalizeSlice (encodeRfc3164 clock msg) = some slice ∧
      slice.message (encodeRfc3164 clock msg) = msg.message ++ addedNewline clock msg ∧
      slice.info.pri = some msg.priority) ↔
        ¬ [colon, space] <:+: msg.appName.getD (ascii "wp-engine") := by
  obtain ⟨slice, found, read, pri, span, scanned⟩ :=
    normalizeSlice_encodeRfc3164 clock msg printed host
  obtain ⟨found', scanned', -, separator⟩ := afterColonSpace_tag
    (msg.appName.getD (ascii "wp-engine")) (msg.message ++ addedNewline clock msg)
  rw [scanned] at scanned'
  cases scanned'
  rw [← separator]
  constructor
  · rintro ⟨slice', read', span', -⟩
    rw [read] at read'
    cases read'
    rw [← span, span']
  · intro whole
    exact ⟨slice, read, by rw [span, whole], pri⟩

end

/-- A clock that stands at one time. -/
def fixedClock : Clock Unit := ⟨(), fun _ => ascii "Oct 11 22:14:15"⟩

theorem fixedClock_printed (time : Unit) : IsPrintedTime (fixedClock.format time) :=
  ⟨ascii "Oct", by decide, 49, 49, 50, 50, 49, 52, 49, 53, by simp [isAsciiDigit], rfl⟩

theorem encodeRfc3164_roundTrip_su : ∃ slice, normalizeSlice (encodeRfc3164 fixedClock
    ⟨34, some (ascii "mymachine"), some (ascii "su"), ascii "'su root' failed: x", none, true⟩) =
      some slice ∧
    slice.message (encodeRfc3164 fixedClock
      ⟨34, some (ascii "mymachine"), some (ascii "su"), ascii "'su root' failed: x", none, true⟩) =
        ascii "'su root' failed: x" ++ [newline] ∧
    slice.info.pri = some 34 :=
  (encodeRfc3164_roundTrip fixedClock
    ⟨34, some (ascii "mymachine"), some (ascii "su"), ascii "'su root' failed: x", none, true⟩
    fixedClock_printed (by rintro hostname ⟨⟩; decide)).mpr (by decide)

/-- The application `a: b` is cut: its second half is read as part of the message. -/
theorem encodeRfc3164_colon_in_name : normalizeSlice (encodeRfc3164 fixedClock
    ⟨13, some (ascii "host"), some (ascii "a: b"), ascii "m", none, false⟩) =
      some ⟨28, 32, ⟨some 13, some "user", some "notice"⟩⟩ ∧
    NormalizedSlice.message ⟨28, 32, ⟨some 13, some "user", some "notice"⟩⟩
      (encodeRfc3164 fixedClock
        ⟨13, some (ascii "host"), some (ascii "a: b"), ascii "m", none, false⟩) = ascii "b: m" ∧
    ascii "b: m" ≠ ascii "m" := by
  decide

end Syslog

end WarpMotor
