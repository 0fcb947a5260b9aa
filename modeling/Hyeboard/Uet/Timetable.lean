import Hyeboard.Lib.CivilDate
/-!
# The days of the UET timetable

`mapStudentHubClass` of `uet/mapper.ts` with the dates it picks, and the two notions
of today of `uet/adapter.ts`. A runtime is the instant its clock shows and the fixed
offset of its zone from UTC, in milliseconds.
-/

namespace Hyeboard.Uet

def msPerHour : Int := 3600000

def msPerDay : Int := 86400000

/-- The instants a `Date` can hold, in milliseconds from 1970. -/
def TimeValue := { t : Int // -8640000000000000 ≤ t ∧ t ≤ 8640000000000000 }

def timeClip (t : Int) : Option TimeValue :=
  if h : -8640000000000000 ≤ t ∧ t ≤ 8640000000000000 then some ⟨t, h⟩ else none

structure Runtime where
  now : TimeValue
  offset : Int

def day (t : Int) : Int := t / msPerDay

def timeWithinDay (t : Int) : Int := t % msPerDay

def Runtime.localTime (runtime : Runtime) (date : TimeValue) : Int := date.val + runtime.offset

/-- Sunday is 0. -/
def Runtime.getDay (runtime : Runtime) (date : TimeValue) : Int := (day (runtime.localTime date) + 4) % 7

/-- `date.setDate(date.getDate() + days)`, none for an invalid date. -/
def Runtime.addDays (runtime : Runtime) (date : TimeValue) (days : Int) : Option TimeValue :=
  timeClip ((day (runtime.localTime date) + days) * msPerDay + timeWithinDay (runtime.localTime date) - runtime.offset)

/-- The first ten characters of an ISO date. A year that does not have four digits is written with a sign and six,
and the day is cut off. -/
inductive DateText where
  | day (date : CivilDate)
  | month (year month : Int)
deriving DecidableEq

/-- `toISOString().slice(0, 10)`. -/
def isoDate (date : TimeValue) : DateText :=
  let civil := CivilDate.ofDays (day date.val)
  if 0 ≤ civil.year ∧ civil.year ≤ 9999 then .day civil else .month civil.year civil.month

/-- A month stands for its first day. -/
def DateText.civil (text : DateText) : CivilDate :=
  match text with
  | DateText.day date => date
  | DateText.month y m => { year := y, month := m, day := 1 }

structure ClockTime where
  hour : Int
  minute : Int
deriving DecidableEq

def ClockTime.ms (time : ClockTime) : Int := time.hour * msPerHour + time.minute * 60000

/-- `new Date(text)` of a date and a time, which is local, or of a date alone, which is in UTC. -/
def Runtime.parseDate (runtime : Runtime) (date : DateText) (time : Option ClockTime) : Option TimeValue :=
  if CivilDate.ofDays date.civil.toDays ≠ date.civil then none
  else
    match time with
    | some time => timeClip (date.civil.toDays * msPerDay + time.ms - runtime.offset)
    | none => timeClip (date.civil.toDays * msPerDay)

def invalidTime : String := "Invalid time value"

/-- The result is the instant of the text that is returned. -/
def Runtime.combineDateTime (runtime : Runtime) (date : Option DateText) (time : Option ClockTime) : Except String TimeValue :=
  match date, time with
  | none, none => .ok runtime.now
  | some date, none =>
    match runtime.parseDate date none with
    | none => .error invalidTime
    | some parsed => .ok parsed
  | date, some time => .ok ((runtime.parseDate (date.getD (isoDate runtime.now)) (some time)).getD runtime.now)

/-! ## The mapper -/

def Runtime.resolveSessionDate (runtime : Runtime) (weekday : Option Int) : Except String DateText :=
  let todayIso := (runtime.getDay runtime.now + 6) % 7 + 1
  let target :=
    match weekday with
    | some weekday => if 1 ≤ weekday ∧ weekday ≤ 7 then weekday else todayIso
    | none => todayIso
  match runtime.addDays runtime.now (target - todayIso) with
  | none => .error invalidTime
  | some date => .ok (isoDate date)

structure PeriodTimes where
  start : ClockTime
  finish : ClockTime
  label : String
deriving DecidableEq

def periodTimeRanges : List ((Int × Int) × PeriodTimes) :=
  [((1, 3), { start := ⟨7, 0⟩, finish := ⟨9, 40⟩, label := "07:00 - 09:40" }),
   ((4, 6), { start := ⟨9, 50⟩, finish := ⟨12, 30⟩, label := "09:50 - 12:30" }),
   ((7, 9), { start := ⟨13, 30⟩, finish := ⟨16, 10⟩, label := "13:30 - 16:10" }),
   ((10, 12), { start := ⟨16, 20⟩, finish := ⟨19, 0⟩, label := "16:20 - 19:00" })]

def periodRange (periodStart periodEnd : Option Int) : Option PeriodTimes :=
  match periodStart, periodEnd with
  | some periodStart, some periodEnd => periodTimeRanges.lookup (periodStart, periodEnd)
  | _, _ => none

def clampHour (hour : Int) : Int := min 23 (max 0 hour)

/-- The clock times of a session: those of the table, or whole hours that keep its order. -/
def sessionTimes (periodStart periodEnd : Option Int) : ClockTime × ClockTime :=
  let verifiedRange := periodRange periodStart periodEnd
  let sortStartHour := clampHour (6 + periodStart.getD 1)
  let sortEndHour := clampHour (max (sortStartHour + 1) (6 + periodEnd.getD (periodStart.getD 1 + 1)))
  ((verifiedRange.map (·.start)).getD ⟨sortStartHour, 0⟩, (verifiedRange.map (·.finish)).getD ⟨sortEndHour, 0⟩)

/-- The ordinals of a session, as `toNumber` reads them. -/
structure StudentHubClassSession where
  weekday : Option Int
  sessionStart : Option Int
  sessionEnd : Option Int
deriving DecidableEq

structure ClassSession where
  startTime : TimeValue
  endTime : TimeValue
  timeLabel : Option String
  weekday : Option Int
  periodStart : Option Int
  periodEnd : Option Int

def Runtime.mapStudentHubClass (runtime : Runtime) (input : StudentHubClassSession) : Except String ClassSession := do
  let date ← runtime.resolveSessionDate input.weekday
  let times := sessionTimes input.sessionStart input.sessionEnd
  let startTime ← runtime.combineDateTime (some date) (some times.1)
  let endTime ← runtime.combineDateTime (some date) (some times.2)
  return {
    startTime, endTime
    timeLabel := (periodRange input.sessionStart input.sessionEnd).map (·.label)
    weekday := input.weekday, periodStart := input.sessionStart, periodEnd := input.sessionEnd }

/-! ## The adapter -/

def Runtime.isoWeekdayToday (runtime : Runtime) : Int :=
  let day := runtime.getDay runtime.now
  if day = 0 then 7 else day

/-- Seven hours, the zone `Asia/Ho_Chi_Minh`. -/
def vietnamOffset : Int := 7 * msPerHour

/-- The day on a calendar in Vietnam. -/
def Runtime.dayInVietnam (runtime : Runtime) : Int := day (runtime.now.val + vietnamOffset)

def Runtime.todayInVietnam (runtime : Runtime) : CivilDate := CivilDate.ofDays runtime.dayInVietnam

end Hyeboard.Uet
