import LumenCopilot.Construction.Python.Numerals

namespace LumenCopilot.Python

variable {time other : DateTime}

/-- This is the number of days of the year. -/
def daysInYear (year : Nat) : Nat := if isLeap year then 366 else 365

/-- This is `toordinal` of the date. -/
def DateTime.dayNumber (time : DateTime) : Nat := ymdToOrdinal time.year time.month time.day

/-- This is the number of minutes from the first day of the calendar. -/
def DateTime.number (time : DateTime) : Nat :=
  ymdToOrdinal time.year time.month time.day * 1440 + time.hour * 60 + time.minute

variable {year : Nat}

theorem daysBeforeYear_succ (positive : 1 ≤ year) :
    daysBeforeYear (year + 1) = daysBeforeYear year + daysInYear year := by
  obtain ⟨before, rfl⟩ := Nat.exists_eq_add_of_le' positive
  have fourth : (before + 1) / 4 = before / 4 + if (before + 1) % 4 = 0 then 1 else 0 := by
    split <;> omega
  have hundredth : (before + 1) / 100 = before / 100 + if (before + 1) % 100 = 0 then 1 else 0 := by
    split <;> omega
  have last : (before + 1) / 400 = before / 400 + if (before + 1) % 400 = 0 then 1 else 0 := by
    split <;> omega
  have leap : daysInYear (before + 1) + (if (before + 1) % 100 = 0 then 1 else 0) =
      365 + (if (before + 1) % 4 = 0 then 1 else 0) + if (before + 1) % 400 = 0 then 1 else 0 := by
    unfold daysInYear isLeap
    by_cases quarter : (before + 1) % 4 = 0
    · by_cases century : (before + 1) % 100 = 0
      · by_cases cycle : (before + 1) % 400 = 0 <;> simp [quarter, century, cycle]
      · have cycle : (before + 1) % 400 ≠ 0 := by omega
        simp [quarter, century, cycle]
    · have century : (before + 1) % 100 ≠ 0 := by omega
      have cycle : (before + 1) % 400 ≠ 0 := by omega
      simp [quarter, century, cycle]
  have above : before / 100 ≤ before / 4 := by omega
  simp only [daysBeforeYear, Nat.add_sub_cancel]
  rw [fourth, hundredth, last]
  omega

variable {month : Nat}

theorem daysBeforeMonth_succ (positive : 1 ≤ month) :
    daysBeforeMonth year (month + 1) = daysBeforeMonth year month + daysInMonth year month := by
  obtain ⟨before, rfl⟩ := Nat.exists_eq_add_of_le' positive
  unfold daysBeforeMonth
  rw [Nat.add_sub_cancel, Nat.add_sub_cancel, List.range_succ, List.map_append, List.sum_append]
  simp

theorem daysBeforeMonth_end (year : Nat) : daysBeforeMonth year 13 = daysInYear year := by
  unfold daysInYear
  cases leap : isLeap year <;> simp [daysBeforeMonth, List.range_succ, daysInMonth, leap]

variable {later : Nat}

/-- A later month begins after the end of an earlier one. -/
theorem daysBeforeMonth_le (positive : 1 ≤ month) (before : month < later) :
    daysBeforeMonth year month + daysInMonth year month ≤ daysBeforeMonth year later := by
  induction later, before using Nat.le_induction with
  | base => exact (daysBeforeMonth_succ positive).ge
  | succ later before ih =>
      rw [daysBeforeMonth_succ (by omega)]
      omega

/-- A later year begins after the end of an earlier one. -/
theorem daysBeforeYear_le (positive : 1 ≤ year) (before : year < later) :
    daysBeforeYear year + daysInYear year ≤ daysBeforeYear later := by
  induction later, before using Nat.le_induction with
  | base => exact (daysBeforeYear_succ positive).ge
  | succ later before ih =>
      rw [daysBeforeYear_succ (by omega)]
      omega

/-- A date lies within its year. -/
theorem DateTime.day_within (time : DateTime) :
    daysBeforeMonth time.year time.month + time.day ≤ daysInYear time.year := by
  have days := time.dayBounds
  have months := time.monthBounds
  rw [← daysBeforeMonth_end]
  have ends := @daysBeforeMonth_le time.year time.month 13 months.1 (by omega)
  omega

theorem DateTime.ordinal_bounds (time : DateTime) :
    daysBeforeYear time.year < ymdToOrdinal time.year time.month time.day ∧
      ymdToOrdinal time.year time.month time.day ≤
        daysBeforeYear time.year + daysInYear time.year := by
  have days := time.dayBounds
  have within := time.day_within
  unfold ymdToOrdinal
  omega

theorem DateTime.year_eq
    (same : ymdToOrdinal time.year time.month time.day =
      ymdToOrdinal other.year other.month other.day) : time.year = other.year := by
  have first := time.ordinal_bounds
  have second := other.ordinal_bounds
  rcases Nat.lt_trichotomy time.year other.year with before | equal | after
  · have years := daysBeforeYear_le time.yearBounds.1 before
    omega
  · exact equal
  · have years := daysBeforeYear_le other.yearBounds.1 after
    omega

/-- The ordinal of a date tells the date. -/
theorem DateTime.date_eq
    (same : ymdToOrdinal time.year time.month time.day =
      ymdToOrdinal other.year other.month other.day) :
    time.year = other.year ∧ time.month = other.month ∧ time.day = other.day := by
  have years := DateTime.year_eq same
  have first := time.dayBounds
  have second := other.dayBounds
  unfold ymdToOrdinal at same
  rw [years] at same first
  rcases Nat.lt_trichotomy time.month other.month with before | equal | after
  · have months := @daysBeforeMonth_le other.year _ _ time.monthBounds.1 before
    omega
  · rw [equal] at same
    exact ⟨years, equal, by omega⟩
  · have months := @daysBeforeMonth_le other.year _ _ other.monthBounds.1 after
    omega

/-- The number of a minute tells the minute. -/
theorem DateTime.number_injective : Function.Injective DateTime.number := by
  intro time other same
  have hours := time.hourBound
  have otherHours := other.hourBound
  have minutes := time.minuteBound
  have otherMinutes := other.minuteBound
  unfold DateTime.number at same
  obtain ⟨years, months, days⟩ := @DateTime.date_eq time other (by omega)
  obtain ⟨year, month, day, hour, minute, _, _, _, _, _⟩ := time
  obtain ⟨year', month', day', hour', minute', _, _, _, _, _⟩ := other
  simp only at years months days
  subst years months days
  dsimp only at same hours otherHours minutes otherMinutes
  have sameHour : hour = hour' := by omega
  have sameMinute : minute = minute' := by omega
  subst sameHour sameMinute
  rfl

variable {day hour minute : Nat}

theorem DateTime.make_eq_some (made : DateTime.make year month day hour minute = some time) :
    time.year = year ∧ time.month = month ∧ time.day = day ∧ time.hour = hour ∧
      time.minute = minute := by
  unfold DateTime.make at made
  split at made
  · obtain rfl := Option.some.inj made
    exact ⟨rfl, rfl, rfl, rfl, rfl⟩
  · contradiction

theorem DateTime.number_of_make (made : DateTime.make year month day hour minute = some time) :
    time.number = ymdToOrdinal year month day * 1440 + hour * 60 + minute := by
  obtain ⟨rfl, rfl, rfl, rfl, rfl⟩ := DateTime.make_eq_some made
  rfl

/-- The next minute has the next number. -/
theorem DateTime.nextMinute_number (next : time.nextMinute = some other) :
    other.number = time.number + 1 := by
  have hours := time.hourBound
  have minutes := time.minuteBound
  have days := time.dayBounds
  have months := time.monthBounds
  unfold DateTime.nextMinute at next
  split at next
  · rw [DateTime.number_of_make next, DateTime.number]
    omega
  · split at next
    · rw [DateTime.number_of_make next, DateTime.number]
      omega
    · split at next
      · rw [DateTime.number_of_make next, DateTime.number]
        unfold ymdToOrdinal
        omega
      · split at next
        · rw [DateTime.number_of_make next, DateTime.number]
          unfold ymdToOrdinal
          rw [daysBeforeMonth_succ months.1]
          omega
        · next _ lastHour lastDay _ =>
          rw [DateTime.number_of_make next, DateTime.number]
          have last : time.month = 12 := by omega
          have first : daysBeforeMonth (time.year + 1) 1 = 0 := by simp [daysBeforeMonth]
          have ends := @daysBeforeMonth_succ time.year time.month months.1
          rw [last, daysBeforeMonth_end] at ends
          unfold ymdToOrdinal
          rw [daysBeforeYear_succ time.yearBounds.1, first, last, ends]
          rw [last] at days lastDay
          omega

theorem DateTime.make_isSome (years : 1 ≤ year ∧ year ≤ 9999) (months : 1 ≤ month ∧ month ≤ 12)
    (days : 1 ≤ day ∧ day ≤ daysInMonth year month) (hours : hour < 24) (minutes : minute < 60) :
    DateTime.make year month day hour minute ≠ none := by
  unfold DateTime.make
  rw [dif_pos ⟨years, months, days, hours, minutes⟩]
  exact Option.some_ne_none _

theorem daysInMonth_pos (year month : Nat) : 28 ≤ daysInMonth year month := by
  unfold daysInMonth
  split
  · split <;> omega
  · split <;> omega

/-- Only the last minute of the year 9999 has no next one. -/
theorem DateTime.le_of_nextMinute_none (last : time.nextMinute = none) (other : DateTime) :
    other.number ≤ time.number := by
  have hours := time.hourBound
  have minutes := time.minuteBound
  have days := time.dayBounds
  have months := time.monthBounds
  have years := time.yearBounds
  unfold DateTime.nextMinute at last
  split at last
  · exact absurd last (DateTime.make_isSome years months days hours (by omega))
  · split at last
    · exact absurd last (DateTime.make_isSome years months days (by omega) (by omega))
    · split at last
      · exact absurd last (DateTime.make_isSome years months (by omega) (by omega) (by omega))
      · split at last
        · have first := daysInMonth_pos time.year (time.month + 1)
          exact absurd last
            (DateTime.make_isSome years (by omega) (by omega) (by omega) (by omega))
        · next _ _ lastDay _ =>
          have first := daysInMonth_pos (time.year + 1) 1
          have finalYear : time.year = 9999 := by
            by_contra early
            exact DateTime.make_isSome (by omega) (by omega) (by omega) (by omega) (by omega) last
          have finalMonth : time.month = 12 := by omega
          have bounds := other.ordinal_bounds
          have otherYears := other.yearBounds
          have otherHours := other.hourBound
          have otherMinutes := other.minuteBound
          have ends : ymdToOrdinal time.year time.month time.day =
              daysBeforeYear 9999 + daysInYear 9999 := by
            have sum := @daysBeforeMonth_succ time.year time.month months.1
            rw [finalMonth, daysBeforeMonth_end] at sum
            unfold ymdToOrdinal
            rw [finalMonth] at days lastDay ⊢
            rw [finalYear] at sum days lastDay ⊢
            omega
          have upper : daysBeforeYear other.year + daysInYear other.year ≤
              daysBeforeYear 9999 + daysInYear 9999 := by
            rcases Nat.lt_or_ge other.year 9999 with before | same
            · have le := daysBeforeYear_le otherYears.1 before
              omega
            · rw [show other.year = 9999 by omega]
          unfold DateTime.number
          omega

end LumenCopilot.Python
