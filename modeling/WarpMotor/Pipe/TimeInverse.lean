import WarpMotor.Pipe.Chain

/-!
Dates and timestamps of one zone. A timestamp made a date and a timestamp again
is itself, unless the calendar holds its date in universal time and not in the
zone: then there is a panic. A date made microseconds and a date again is itself
unless it is a leap second, which comes back as the second after it.
-/
namespace WarpMotor.Pipe

namespace TimeStampUnit

def perSecond : TimeStampUnit → Int
  | ss => 1
  | ms => 1000
  | us => 1000000

def toTs (zone : Option Int) : TimeStampUnit → PipeFun
  | ss => .timeToTs zone
  | ms => .timeToTsMs zone
  | us => .timeToTsUs zone

def fromTs (zone : Option Int) : TimeStampUnit → PipeFun
  | ss => .timeFromTs zone
  | ms => .timeFromTsMs zone
  | us => .timeFromTsUs zone

/-- What a date is converted with. -/
def stamp : TimeStampUnit → NaiveDateTime → Int
  | ss => NaiveDateTime.timestamp
  | ms => NaiveDateTime.timestampMillis
  | us => NaiveDateTime.timestampMicros

/-- The nanoseconds in the second of a timestamp. -/
def nanos (x : Int) : TimeStampUnit → Nat
  | ss => 0
  | ms => (x % 1000).toNat * 1000000
  | us => (x % 1000000).toNat * 1000

/-- The date of a timestamp in universal time. -/
def utc (unit : TimeStampUnit) (x : Int) : NaiveDateTime := ⟨x / unit.perSecond, unit.nanos x⟩

/-- What a timestamp is converted with. -/
def dated (cal : Calendar) : TimeStampUnit → Int → Option NaiveDateTime
  | ss => fun x => cal.fromTimestamp x 0
  | ms => cal.fromTimestampMillis
  | us => cal.fromTimestampMicros

theorem dated_eq (cal : Calendar) (unit : TimeStampUnit) (x : Int) :
    unit.dated cal x = if cal.Holds (x / unit.perSecond) then some (unit.utc x) else none := by
  cases unit with
  | ss =>
    have whole : x / perSecond ss = x := Int.ediv_one x
    rw [utc, whole]
    rfl
  | ms => rfl
  | us => rfl

theorem stamp_utc (unit : TimeStampUnit) (x : Int) : unit.stamp (unit.utc x) = x := by
  cases unit with
  | ss => exact Int.ediv_one x
  | ms =>
    change x / 1000 * 1000 + (((x % 1000).toNat * 1000000 : Nat) : Int) / 1000000 = x
    omega
  | us =>
    change x / 1000000 * 1000000 + (((x % 1000000).toNat * 1000 : Nat) : Int) / 1000 = x
    omega

end TimeStampUnit

/-- The date that a moment's microseconds stand for. -/
theorem utc_timestampMicros (moment : NaiveDateTime) (whole : moment.nanos % 1000 = 0) :
    TimeStampUnit.us.utc moment.timestampMicros = moment ↔ moment.nanos < 1000000000 := by
  obtain ⟨secs, nanos⟩ := moment
  simp only [NaiveDateTime.timestampMicros, TimeStampUnit.utc, TimeStampUnit.perSecond,
    TimeStampUnit.nanos, NaiveDateTime.mk.injEq] at whole ⊢
  omega

section

variable {env : Env} {zone : Option Int} (unit : TimeStampUnit)

/-- A zone of at most 23 hours; without one it is eight hours east. -/
def WholeHours (zone : Option Int) : Prop := ∀ hours ∈ zone, -23 ≤ hours ∧ hours ≤ 23

/-- How far a zone is from universal time, in seconds. -/
def zoneSecs (zone : Option Int) : Int := zone.getD 8 * 3600

theorem WholeHours.offset (whole : WholeHours zone) :
    ∃ tz, zoneOffset (zone.getD 8) = some tz ∧ tz.secs = zoneSecs zone := by
  have range : -23 ≤ zone.getD 8 ∧ zone.getD 8 ≤ 23 := by
    cases zone with
    | none => decide
    | some hours => exact whole hours rfl
  apply zoneOffset_some
  · omega
  · omega

theorem fromTs_int (whole : WholeHours zone) (info : DataType) (name : Oml.Text) (x : Int) :
    (unit.fromTs zone).valueCacu env ⟨info, name, .int x⟩ =
      if env.calendar.Holds (x / unit.perSecond) then
        (env.calendar.shifted (unit.utc x) (zoneSecs zone)).map (DataField.fromTime name)
      else some ⟨info, name, .int x⟩ := by
  obtain ⟨tz, offset, secs⟩ := whole.offset
  have runs : (unit.fromTs zone).valueCacu env ⟨info, name, .int x⟩ =
      (tsToTimeValue env ⟨info, name, .int x⟩ zone (unit.dated env.calendar)).map
        (·.getD ⟨info, name, .int x⟩) := by
    cases unit <;> rfl
  have dated := unit.dated_eq env.calendar x
  rw [runs, ← secs]
  split
  · next held =>
    rw [if_pos held] at dated
    simp [tsToTimeValue, dated, offset, Calendar.naiveLocal, Function.comp_def]
  · next lost =>
    rw [if_neg lost] at dated
    simp [tsToTimeValue, dated]

theorem toTs_time (whole : WholeHours zone) (info : DataType) (name : Oml.Text)
    (moment : NaiveDateTime) :
    (unit.toTs zone).valueCacu env ⟨info, name, .time moment⟩ =
      some (((env.calendar.shifted moment (-zoneSecs zone)).map
        (fun utc => DataField.fromInt name (unit.stamp utc))).getD ⟨info, name, .time moment⟩) := by
  obtain ⟨tz, offset, secs⟩ := whole.offset
  have runs : (unit.toTs zone).valueCacu env ⟨info, name, .time moment⟩ =
      some ((timeToTsValue env ⟨info, name, .time moment⟩ zone unit.stamp).getD
        ⟨info, name, .time moment⟩) := by
    cases unit <;> rfl
  rw [runs, ← secs]
  simp [timeToTsValue, offset, Calendar.andLocalTimezone, Option.map_eq_bind]

/-- Only dates are made timestamps, and only integers dates. -/
theorem toTs_int (info : DataType) (name : Oml.Text) (x : Int) :
    (unit.toTs zone).valueCacu env ⟨info, name, .int x⟩ = some ⟨info, name, .int x⟩ := by
  cases unit <;> rfl

theorem fromTs_time (info : DataType) (name : Oml.Text) (moment : NaiveDateTime) :
    (unit.fromTs zone).valueCacu env ⟨info, name, .time moment⟩ =
      some ⟨info, name, .time moment⟩ := by
  cases unit <;> rfl

theorem Calendar.shifted_some {cal : Calendar} {moment there : NaiveDateTime} {secs : Int}
    (shift : cal.shifted moment secs = some there) :
    cal.Holds (moment.secs + secs) ∧ there = ⟨moment.secs + secs, moment.nanos⟩ := by
  unfold shifted at shift
  split at shift
  · next reaches => exact ⟨reaches, (Option.some.inj shift).symm⟩
  · cases shift

/-- A date shifted and shifted back is itself. -/
theorem Calendar.shifted_back {cal : Calendar} (moment : NaiveDateTime) {there : NaiveDateTime}
    {secs : Int} (held : cal.Holds moment.secs) (shift : cal.shifted moment secs = some there) :
    cal.shifted there (-secs) = some moment := by
  obtain ⟨-, rfl⟩ := shifted_some shift
  have same : moment.secs + secs + -secs = moment.secs := by omega
  simp only [shifted, same]
  rw [if_pos held]

/-- A field of that name and value is there. -/
def GivesBack (field : DataField) (out : Option DataField) : Prop :=
  ∃ back, out = some back ∧ back.name = field.name ∧ back.value = field.value

theorem timestamp_back_iff (whole : WholeHours zone) (info : DataType) (name : Oml.Text) (x : Int) :
    GivesBack ⟨info, name, .int x⟩ (((unit.fromTs zone).valueCacu env ⟨info, name, .int x⟩).bind
        ((unit.toTs zone).valueCacu env)) ↔
      (env.calendar.Holds (x / unit.perSecond) →
        env.calendar.Holds (x / unit.perSecond + zoneSecs zone)) := by
  rw [fromTs_int unit whole]
  split
  · next held =>
    cases there : env.calendar.shifted (unit.utc x) (zoneSecs zone) with
    | none =>
      have lost : ¬ env.calendar.Holds (x / unit.perSecond + zoneSecs zone) := by
        intro stays
        simp [Calendar.shifted, TimeStampUnit.utc, stays] at there
      simp [GivesBack, held, lost]
    | some moment =>
      have stays : env.calendar.Holds (x / unit.perSecond + zoneSecs zone) := by
        by_contra lost
        simp [Calendar.shifted, TimeStampUnit.utc, lost] at there
      have back := Calendar.shifted_back (unit.utc x) held there
      refine iff_of_true ⟨.fromInt name x, ?_, rfl, rfl⟩ (fun _ => stays)
      rw [Option.map_some, Option.bind_some, DataField.fromTime, toTs_time unit whole, back,
        Option.map_some, Option.getD_some, unit.stamp_utc]
  · next lost =>
    refine iff_of_true ⟨⟨info, name, .int x⟩, ?_, rfl, rfl⟩ (fun held => absurd held lost)
    rw [Option.bind_some, toTs_int]

/-- The nanoseconds of a date read from microseconds are those of a second. -/
theorem nanos_us_lt (x : Int) : TimeStampUnit.us.nanos x < 1000000000 := by
  change (x % 1000000).toNat * 1000 < 1000000000
  omega

theorem date_back_iff (whole : WholeHours zone) (info : DataType) (name : Oml.Text)
    {moment : NaiveDateTime} (held : env.calendar.Holds moment.secs)
    (micros : moment.nanos % 1000 = 0)
    (converted : ∃ x, (TimeStampUnit.us.toTs zone).valueCacu env ⟨info, name, .time moment⟩ =
      some (.fromInt name x)) :
    GivesBack ⟨info, name, .time moment⟩
        (((TimeStampUnit.us.toTs zone).valueCacu env ⟨info, name, .time moment⟩).bind
          ((TimeStampUnit.us.fromTs zone).valueCacu env)) ↔
      moment.nanos < 1000000000 := by
  obtain ⟨x, converted⟩ := converted
  rw [converted, Option.bind_some, DataField.fromInt, fromTs_int .us whole]
  rw [toTs_time .us whole] at converted
  cases there : env.calendar.shifted moment (-zoneSecs zone) with
  | none =>
    rw [there] at converted
    cases converted
  | some utc =>
    rw [there, Option.map_some, Option.getD_some] at converted
    have stamped : utc.timestampMicros = x := by
      cases converted
      rfl
    have back := Calendar.shifted_back moment held there
    rw [Int.neg_neg] at back
    obtain ⟨reaches, rfl⟩ := Calendar.shifted_some there
    constructor
    · rintro ⟨given, out, -, value⟩
      split at out
      · obtain ⟨read, shift, rfl⟩ := Option.map_eq_some_iff.mp out
        obtain ⟨-, rfl⟩ := Calendar.shifted_some shift
        cases value
        exact nanos_us_lt x
      · cases out
        cases value
    · intro plain
      have same : TimeStampUnit.us.utc x = ⟨moment.secs + -zoneSecs zone, moment.nanos⟩ := by
        rw [← stamped]
        exact (utc_timestampMicros ⟨moment.secs + -zoneSecs zone, moment.nanos⟩ micros).mpr plain
      have instant : x / TimeStampUnit.us.perSecond = moment.secs + -zoneSecs zone :=
        congrArg NaiveDateTime.secs same
      rw [if_pos (instant ▸ reaches), same, back]
      exact ⟨_, rfl, rfl, rfl⟩

end

/-- In one zone, a timestamp made a date comes back exactly when the calendar does not lose its date
    in the zone only, and a date made microseconds exactly when it is no leap second. What the
    calendar does not hold in universal time passes through both conversions. -/
theorem time_and_timestamp_inverse_iff (env : Env) (unit : TimeStampUnit) (zone : Option Int)
    (whole : WholeHours zone) (number time : DataField) {x : Int} {moment : NaiveDateTime}
    (timestamp : number.value = .int x) (date : time.value = .time moment)
    (held : env.calendar.Holds moment.secs) :
    (GivesBack number
        (((unit.fromTs zone).valueCacu env number).bind ((unit.toTs zone).valueCacu env)) ↔
      (env.calendar.Holds (x / unit.perSecond) →
        env.calendar.Holds (x / unit.perSecond + zoneSecs zone))) ∧
    (moment.nanos % 1000 = 0 →
      (∃ micros, (TimeStampUnit.us.toTs zone).valueCacu env time =
        some (.fromInt time.name micros)) →
      (GivesBack time (((TimeStampUnit.us.toTs zone).valueCacu env time).bind
          ((TimeStampUnit.us.fromTs zone).valueCacu env)) ↔
        moment.nanos < 1000000000)) ∧
    (¬ env.calendar.Holds (x / unit.perSecond) →
      (unit.fromTs zone).valueCacu env number = some number ∧
        (unit.toTs zone).valueCacu env number = some number) ∧
    (¬ env.calendar.Holds (moment.secs - zoneSecs zone) →
      (unit.toTs zone).valueCacu env time = some time ∧
        (unit.fromTs zone).valueCacu env time = some time) := by
  obtain ⟨numberInfo, numberName, numberValue⟩ := number
  obtain ⟨timeInfo, timeName, timeValue⟩ := time
  cases timestamp
  cases date
  refine ⟨timestamp_back_iff unit whole _ _ x,
    date_back_iff whole timeInfo timeName held, ?_, ?_⟩
  · intro outside
    rw [fromTs_int unit whole, if_neg outside]
    exact ⟨rfl, toTs_int unit numberInfo numberName x⟩
  · intro outside
    rw [toTs_time unit whole, Calendar.shifted, ← Int.sub_eq_add_neg, if_neg outside]
    exact ⟨rfl, fromTs_time unit timeInfo timeName moment⟩

/-- With milliseconds and eight hours east, at noon of the first day. -/
theorem noon_comes_back :
    GivesBack (.fromInt "t".toList 43200000)
        (((TimeStampUnit.ms.fromTs none).valueCacu plainEnv (.fromInt "t".toList 43200000)).bind
          ((TimeStampUnit.ms.toTs none).valueCacu plainEnv)) ∧
      GivesBack (.fromTime "x".toList ⟨43200, 5000⟩)
        (((TimeStampUnit.us.toTs none).valueCacu plainEnv
            (.fromTime "x".toList ⟨43200, 5000⟩)).bind
          ((TimeStampUnit.us.fromTs none).valueCacu plainEnv)) := by
  have inverse := time_and_timestamp_inverse_iff plainEnv .ms none
    (by intro hours none; cases none)
    (.fromInt "t".toList 43200000) (.fromTime "x".toList ⟨43200, 5000⟩) rfl rfl (by decide)
  exact ⟨inverse.1.mpr (by decide), (inverse.2.1 rfl ⟨14400000005, rfl⟩).mpr (by decide)⟩

/-- The last second that the calendar holds is lost eight hours east; and the last second of 2016
    comes back as the first one of 2017. -/
theorem last_second_and_leap_second_are_lost :
    (PipeFun.timeFromTs none).valueCacu plainEnv (.fromInt "t".toList 8210266876799) = none ∧
      ((PipeFun.timeToTsUs (some 0)).valueCacu plainEnv
          (.fromTime "x".toList ⟨1483228799, 1000000000⟩)).bind
        ((PipeFun.timeFromTsUs (some 0)).valueCacu plainEnv) =
          some (.fromTime "x".toList ⟨1483228800, 0⟩) :=
  ⟨rfl, rfl⟩

end WarpMotor.Pipe
