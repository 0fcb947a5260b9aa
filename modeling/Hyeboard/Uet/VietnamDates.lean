import Hyeboard.Uet.Timetable
/-!
# When the dates of the timetable are Vietnam dates

The mapper takes the weekday from the zone of the runtime, cuts the date from UTC
and reads the clock times in the zone of the runtime again. The three agree with
the calendar in Vietnam only in that zone, and there only from 07:00 on.
-/

namespace Hyeboard.Uet

open CivilDate (isoWeekday isoWeek)

/-! ## What the mapper computes -/

theorem timeClip_eq_some {t : Int} {time : TimeValue} : timeClip t = some time ↔ t = time.val := by
  unfold timeClip
  obtain ⟨u, hu⟩ := time
  constructor
  · intro h
    split at h
    · exact congrArg Subtype.val (Option.some.inj h)
    · cases h
  · rintro rfl
    rw [dif_pos hu]

section
variable {runtime : Runtime}

/-- The day it is where the server runs. -/
def Runtime.today (runtime : Runtime) : Int := day (runtime.localTime runtime.now)

theorem todayIso_eq : (runtime.getDay runtime.now + 6) % 7 + 1 = isoWeekday runtime.today := by
  unfold Runtime.getDay isoWeekday Runtime.today
  omega

theorem isoWeekdayToday_eq : runtime.isoWeekdayToday = isoWeekday runtime.today := by
  unfold Runtime.isoWeekdayToday Runtime.getDay isoWeekday Runtime.today
  simp only
  split <;> omega

theorem addDays_eq (date : TimeValue) (days : Int) : runtime.addDays date days = timeClip (date.val + days * msPerDay) := by
  unfold Runtime.addDays day timeWithinDay Runtime.localTime msPerDay
  congr 1
  omega

theorem isoDate_eq_day {date : TimeValue} {civil : CivilDate} :
    isoDate date = .day civil ↔ civil = CivilDate.ofDays (day date.val) ∧ 0 ≤ civil.year ∧ civil.year ≤ 9999 := by
  unfold isoDate
  simp only
  constructor
  · intro h
    split at h
    case isTrue hyear =>
      cases h
      exact ⟨rfl, hyear⟩
    case isFalse => cases h
  · rintro ⟨rfl, hyear⟩
    rw [if_pos hyear]

theorem resolveSessionDate_eq_day {weekday : Int} (hweekday : 1 ≤ weekday ∧ weekday ≤ 7) {civil : CivilDate} :
    runtime.resolveSessionDate (some weekday) = .ok (.day civil) ↔
      ∃ date : TimeValue, date.val = runtime.now.val + (weekday - isoWeekday runtime.today) * msPerDay ∧
        civil = CivilDate.ofDays (day date.val) ∧ 0 ≤ civil.year ∧ civil.year ≤ 9999 := by
  unfold Runtime.resolveSessionDate
  simp only [hweekday, and_self, if_true, todayIso_eq, addDays_eq]
  constructor
  · intro h
    split at h
    case h_1 => cases h
    case h_2 date hclip =>
      rw [Except.ok.injEq, isoDate_eq_day] at h
      exact ⟨date, (timeClip_eq_some.1 hclip).symm, h⟩
  · rintro ⟨date, hdate, hcivil⟩
    rw [timeClip_eq_some.2 hdate.symm]
    exact congrArg Except.ok (isoDate_eq_day.2 hcivil)

/-- Every session of the table, and every other, starts in the day and ends after it starts. -/
theorem sessionTimes_ordered {periodStart periodEnd : Int} (hstart : 1 ≤ periodStart) (hle : periodStart ≤ periodEnd)
    (hend : periodEnd ≤ 14) :
    0 ≤ (sessionTimes (some periodStart) (some periodEnd)).1.ms ∧
      (sessionTimes (some periodStart) (some periodEnd)).1.ms < (sessionTimes (some periodStart) (some periodEnd)).2.ms ∧
      (sessionTimes (some periodStart) (some periodEnd)).2.ms < msPerDay := by
  unfold sessionTimes
  cases hrange : periodRange (some periodStart) (some periodEnd) with
  | some range =>
    have htable : ∀ entry ∈ periodTimeRanges,
        0 ≤ entry.2.start.ms ∧ entry.2.start.ms < entry.2.finish.ms ∧ entry.2.finish.ms < msPerDay := by decide
    obtain ⟨before, after, hsplit, -⟩ := List.lookup_eq_some_iff.1 hrange
    exact htable ((periodStart, periodEnd), range) (hsplit ▸ List.mem_append_right _ List.mem_cons_self)
  | none =>
    simp only [Option.map_none, Option.getD_none, Option.getD_some, ClockTime.ms, clampHour, msPerHour, msPerDay]
    omega

/-- A full date and a time are read in the zone of the runtime. -/
theorem combineDateTime_day {days : Int} (hbounds : -1000000 ≤ days ∧ days ≤ 4000000) {time : ClockTime}
    (htime : 0 ≤ time.ms ∧ time.ms < msPerDay) (hoffset : -12 * msPerHour ≤ runtime.offset ∧ runtime.offset ≤ 14 * msPerHour) :
    ∃ result, runtime.combineDateTime (some (.day (CivilDate.ofDays days))) (some time) = .ok result ∧
      result.val = days * msPerDay + time.ms - runtime.offset := by
  have hparse : runtime.parseDate (.day (CivilDate.ofDays days)) (some time) =
      timeClip (days * msPerDay + time.ms - runtime.offset) := by
    simp only [Runtime.parseDate, DateText.civil, CivilDate.toDays_ofDays, ne_eq, not_true_eq_false, if_false]
  have hrange : -8640000000000000 ≤ days * msPerDay + time.ms - runtime.offset ∧
      days * msPerDay + time.ms - runtime.offset ≤ 8640000000000000 := by
    unfold msPerDay at htime ⊢
    unfold msPerHour at hoffset
    omega
  obtain ⟨result, hresult⟩ : ∃ result : TimeValue, result.val = days * msPerDay + time.ms - runtime.offset := ⟨⟨_, hrange⟩, rfl⟩
  refine ⟨result, ?_, hresult⟩
  have hclip := timeClip_eq_some.2 hresult.symm
  change Except.ok ((runtime.parseDate (.day (CivilDate.ofDays days)) (some time)).getD runtime.now) = Except.ok result
  rw [hparse, hclip, Option.getD_some]

/-! ## The dates of Vietnam -/

/-- A session that was put on `days`, as a student in Vietnam reads it. -/
structure InVietnam (runtime : Runtime) (input : StudentHubClassSession) (days : Int) (session : ClassSession) : Prop where
  mapped : runtime.mapStudentHubClass input = .ok session
  date : runtime.resolveSessionDate input.weekday = .ok (.day (CivilDate.ofDays days))
  weekday : input.weekday = some (isoWeekday days)
  week : isoWeek days = isoWeek runtime.todayInVietnam.toDays
  today : runtime.isoWeekdayToday = isoWeekday runtime.todayInVietnam.toDays
  startTime : session.startTime.val + vietnamOffset = days * msPerDay + (sessionTimes input.sessionStart input.sessionEnd).1.ms
  endTime : session.endTime.val + vietnamOffset = days * msPerDay + (sessionTimes input.sessionStart input.sessionEnd).2.ms
  ordered : session.startTime.val < session.endTime.val

/-- The day of the current week in Vietnam that has a weekday. -/
def Runtime.sessionDay (runtime : Runtime) (weekday : Int) : Int :=
  runtime.dayInVietnam + (weekday - isoWeekday runtime.dayInVietnam)

/-- The server keeps the time of Vietnam, where it is past 07:00, and the session is in a year of four digits. -/
structure KeepsVietnamTime (runtime : Runtime) (weekday : Int) : Prop where
  offset : runtime.offset = vietnamOffset
  morning : 7 * msPerHour ≤ timeWithinDay (runtime.now.val + vietnamOffset)
  year : 0 ≤ (CivilDate.ofDays (runtime.sessionDay weekday)).year ∧ (CivilDate.ofDays (runtime.sessionDay weekday)).year ≤ 9999

variable {weekday periodStart periodEnd : Int}

/-- The session of the ordinals. -/
def sessionOf (weekday periodStart periodEnd : Int) : StudentHubClassSession :=
  { weekday := some weekday, sessionStart := some periodStart, sessionEnd := some periodEnd }

/-- What is returned for a session that was put on a day. -/
theorem mapStudentHubClass_eq {days : Int} (hbounds : -1000000 ≤ days ∧ days ≤ 4000000)
    (hstart : 1 ≤ periodStart) (hle : periodStart ≤ periodEnd) (hend : periodEnd ≤ 14)
    (hoffset : -12 * msPerHour ≤ runtime.offset ∧ runtime.offset ≤ 14 * msPerHour)
    (hdate : runtime.resolveSessionDate (some weekday) = .ok (.day (CivilDate.ofDays days))) :
    ∃ session, runtime.mapStudentHubClass (sessionOf weekday periodStart periodEnd) = .ok session ∧
      session.startTime.val = days * msPerDay + (sessionTimes (some periodStart) (some periodEnd)).1.ms - runtime.offset ∧
      session.endTime.val = days * msPerDay + (sessionTimes (some periodStart) (some periodEnd)).2.ms - runtime.offset := by
  obtain ⟨h0, hlt, hday⟩ := sessionTimes_ordered hstart hle hend
  obtain ⟨startTime, hstartTime, hstartVal⟩ := combineDateTime_day hbounds ⟨h0, Int.lt_trans hlt hday⟩ hoffset
  obtain ⟨endTime, hendTime, hendVal⟩ := combineDateTime_day hbounds ⟨Int.le_of_lt (Int.lt_of_le_of_lt h0 hlt), hday⟩ hoffset
  unfold Runtime.mapStudentHubClass sessionOf
  simp only [hdate, hstartTime, hendTime, bind, Except.bind, pure, Except.pure]
  exact ⟨_, rfl, hstartVal, hendVal⟩

/-- The zone in which the clock times are read decides. -/
theorem InVietnam.offset {days : Int} {session : ClassSession} (hstart : 1 ≤ periodStart) (hle : periodStart ≤ periodEnd)
    (hend : periodEnd ≤ 14) (hoffset : -12 * msPerHour ≤ runtime.offset ∧ runtime.offset ≤ 14 * msPerHour)
    (h : InVietnam runtime (sessionOf weekday periodStart periodEnd) days session)
    (hbounds : -1000000 ≤ days ∧ days ≤ 4000000) : runtime.offset = vietnamOffset := by
  obtain ⟨session', hmapped, hstartTime, -⟩ := mapStudentHubClass_eq hbounds hstart hle hend hoffset h.date
  rw [h.mapped, Except.ok.injEq] at hmapped
  subst hmapped
  have hclock := h.startTime
  rw [hstartTime] at hclock
  change _ = days * msPerDay + (sessionTimes (some periodStart) (some periodEnd)).1.ms at hclock
  omega

theorem day_bounds_of_date {days : Int} (hweekday : 1 ≤ weekday ∧ weekday ≤ 7)
    (h : runtime.resolveSessionDate (some weekday) = .ok (.day (CivilDate.ofDays days))) :
    -1000000 ≤ days ∧ days ≤ 4000000 := by
  obtain ⟨_, -, -, h0, h9999⟩ := (resolveSessionDate_eq_day hweekday).1 h
  exact CivilDate.days_bounds h0 h9999

theorem KeepsVietnamTime.of_inVietnam {days : Int} {session : ClassSession} (hweekday : 1 ≤ weekday ∧ weekday ≤ 7)
    (h : InVietnam runtime (sessionOf weekday periodStart periodEnd) days session) (hoffset : runtime.offset = vietnamOffset) :
    KeepsVietnamTime runtime weekday := by
  obtain ⟨date, hdate, hcivil, hyear⟩ := (resolveSessionDate_eq_day hweekday).1 h.date
  have hdays : days = day date.val := by
    rw [← CivilDate.toDays_ofDays days, hcivil, CivilDate.toDays_ofDays]
  have hsame : weekday = isoWeekday days := Option.some.inj h.weekday
  have htoday : runtime.today = runtime.dayInVietnam := by
    rw [Runtime.today, Runtime.localTime, hoffset]
    rfl
  rw [htoday] at hdate
  -- the date was cut from UTC: its weekday is right only if it is the same day there
  have hutc : day runtime.now.val = runtime.dayInVietnam := by
    unfold isoWeekday Runtime.dayInVietnam day vietnamOffset msPerDay msPerHour at *
    omega
  have hsession : runtime.sessionDay weekday = days := by
    rw [Runtime.sessionDay, ← hutc, hdays, hdate, hutc]
    unfold day msPerDay at *
    omega
  refine { offset := hoffset, morning := ?_, year := hsession ▸ hyear }
  unfold timeWithinDay Runtime.dayInVietnam day vietnamOffset msPerDay msPerHour at *
  omega

theorem KeepsVietnamTime.inVietnam (hweekday : 1 ≤ weekday ∧ weekday ≤ 7) (hstart : 1 ≤ periodStart)
    (hle : periodStart ≤ periodEnd) (hend : periodEnd ≤ 14) (h : KeepsVietnamTime runtime weekday) :
    ∃ session, InVietnam runtime (sessionOf weekday periodStart periodEnd) (runtime.sessionDay weekday) session := by
  have hbounds := CivilDate.days_bounds h.year.1 h.year.2
  have hoffset : -12 * msPerHour ≤ runtime.offset ∧ runtime.offset ≤ 14 * msPerHour := by
    rw [h.offset]
    decide
  have htoday : runtime.today = runtime.dayInVietnam := by
    rw [Runtime.today, Runtime.localTime, h.offset]
    rfl
  have hutc : day runtime.now.val = runtime.dayInVietnam := by
    have hmorning := h.morning
    unfold timeWithinDay at hmorning
    unfold Runtime.dayInVietnam day vietnamOffset msPerDay msPerHour at *
    omega
  have hshift : runtime.sessionDay weekday =
      day (runtime.now.val + (weekday - isoWeekday runtime.dayInVietnam) * msPerDay) := by
    rw [Runtime.sessionDay, ← hutc]
    unfold day msPerDay
    omega
  have hrange : -8640000000000000 ≤ runtime.now.val + (weekday - isoWeekday runtime.dayInVietnam) * msPerDay ∧
      runtime.now.val + (weekday - isoWeekday runtime.dayInVietnam) * msPerDay ≤ 8640000000000000 := by
    rw [hshift] at hbounds
    unfold day msPerDay at hbounds
    unfold msPerDay
    omega
  have hdate : runtime.resolveSessionDate (some weekday) = .ok (.day (CivilDate.ofDays (runtime.sessionDay weekday))) :=
    (resolveSessionDate_eq_day hweekday).2 ⟨⟨_, hrange⟩, by rw [htoday], by rw [hshift], h.year⟩
  obtain ⟨session, hmapped, hstartTime, hendTime⟩ := mapStudentHubClass_eq hbounds hstart hle hend hoffset hdate
  have hordered := (sessionTimes_ordered hstart hle hend).2.1
  refine ⟨session, {
    mapped := hmapped, date := hdate, weekday := ?_, week := ?_, today := ?_, startTime := ?_, endTime := ?_, ordered := ?_ }⟩
  · refine congrArg some ?_
    unfold Runtime.sessionDay isoWeekday
    omega
  · rw [Runtime.todayInVietnam, CivilDate.toDays_ofDays]
    unfold Runtime.sessionDay isoWeekday isoWeek
    omega
  · rw [isoWeekdayToday_eq, htoday, Runtime.todayInVietnam, CivilDate.toDays_ofDays]
  · rw [hstartTime, h.offset, Int.sub_add_cancel]
    rfl
  · rw [hendTime, h.offset, Int.sub_add_cancel]
    rfl
  · omega

end

/-- For every instant and every zone from twelve hours behind UTC to fourteen ahead of it, the sessions have their
dates and times in Vietnam exactly while the server keeps the time of Vietnam and it is past 07:00 there. -/
theorem in_vietnam_iff (runtime : Runtime) (hoffset : -12 * msPerHour ≤ runtime.offset ∧ runtime.offset ≤ 14 * msPerHour)
    (weekday periodStart periodEnd : Int) (hweekday : 1 ≤ weekday ∧ weekday ≤ 7) (hstart : 1 ≤ periodStart)
    (hle : periodStart ≤ periodEnd) (hend : periodEnd ≤ 14) :
    (∃ days session, InVietnam runtime (sessionOf weekday periodStart periodEnd) days session) ↔
      KeepsVietnamTime runtime weekday := by
  constructor
  · rintro ⟨days, session, h⟩
    have hbounds := day_bounds_of_date hweekday h.date
    exact .of_inVietnam hweekday h (h.offset hstart hle hend hoffset hbounds)
  · intro h
    exact ⟨_, h.inVietnam hweekday hstart hle hend⟩

/-- 2026-03-02, a Monday, at 05:00 UTC, when it is noon in Vietnam. -/
def sampleNow : TimeValue := ⟨1772427600000, by decide⟩

theorem in_vietnam_iff_sample : ∃ days session,
    InVietnam { now := sampleNow, offset := vietnamOffset } (sessionOf 1 1 3) days session :=
  (in_vietnam_iff { now := sampleNow, offset := vietnamOffset } (by decide) 1 1 3 (by decide) (by decide) (by decide) (by decide)).2
    { offset := rfl, morning := by decide, year := by decide }

/-- On a server that keeps UTC the same session starts seven hours late. -/
theorem utc_not_in_vietnam : ¬ ∃ days session,
    InVietnam { now := sampleNow, offset := 0 } (sessionOf 1 1 3) days session := by
  rintro ⟨days, session, h⟩
  have hbounds := day_bounds_of_date (by decide) h.date
  have hoffset := h.offset (by decide) (by decide) (by decide) (by decide) hbounds
  exact absurd hoffset (by decide)

end Hyeboard.Uet
