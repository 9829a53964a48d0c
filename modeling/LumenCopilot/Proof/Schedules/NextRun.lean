import LumenCopilot.Proof.Python.Calendar
import LumenCopilot.Proof.Schedules.Alignment

namespace LumenCopilot.Schedules

open Python

variable {table : Char → Option Nat} {fields : CronFields} {zone : Zone} {after found time : DateTime}

/-- The minute is the first one from the candidate whose local time matches. -/
structure CronFields.First (fields : CronFields) (zone : Zone) (start found : DateTime) : Prop where
  selected : fields.matchesTime (zone found) = true
  reached : start.number ≤ found.number
  least : ∀ time : DateTime, start.number ≤ time.number → time.number < found.number →
    fields.matchesTime (zone time) = false

/-- A first minute from the next one is the first one from here when this one does not match. -/
theorem CronFields.First.of_next {start next : DateTime} (first : fields.First zone next found)
    (numbers : next.number = start.number + 1)
    (unselected : fields.matchesTime (zone start) = false) : fields.First zone start found where
  selected := first.selected
  reached := by
    have reached := first.reached
    omega
  least := by
    intro time reached before
    rcases Nat.eq_or_lt_of_le reached with same | later
    · obtain rfl := DateTime.number_injective same
      exact unselected
    · exact first.least time (by omega) before

/-- A scan ends at the first matching minute within its length. -/
theorem scan_first {count : Nat} {start : DateTime}
    (scans : fields.scan zone count (some start) = some found) :
    fields.First zone start found ∧ found.number < start.number + count := by
  induction count generalizing start with
  | zero => contradiction
  | succ count ih =>
      unfold CronFields.scan at scans
      split at scans
      · next selected =>
          obtain rfl := Option.some.inj scans
          refine ⟨⟨selected, le_rfl, ?_⟩, by omega⟩
          intro time reached before
          omega
      · next unselected =>
          cases next : start.nextMinute with
          | none =>
              rw [next] at scans
              cases count <;> contradiction
          | some later =>
              rw [next] at scans
              obtain ⟨first, within⟩ := ih scans
              have numbers := DateTime.nextMinute_number next
              exact ⟨first.of_next numbers (by simpa using unselected), by omega⟩

/-- A scan that is long enough for one matching minute ends. -/
theorem scan_finds {count : Nat} {start : DateTime} (selected : fields.matchesTime (zone time) = true)
    (reached : start.number ≤ time.number) (within : time.number < start.number + count) :
    ∃ found, fields.scan zone count (some start) = some found := by
  induction count generalizing start with
  | zero => omega
  | succ count ih =>
      unfold CronFields.scan
      split
      · exact ⟨start, rfl⟩
      · next unselected =>
          have later : start.number < time.number := by
            rcases Nat.eq_or_lt_of_le reached with same | later
            · obtain rfl := DateTime.number_injective same
              exact absurd selected unselected
            · exact later
          cases next : start.nextMinute with
          | none =>
              have last := DateTime.le_of_nextMinute_none next time
              omega
          | some next_ =>
              have numbers := DateTime.nextMinute_number next
              exact ih (by omega) (by omega)

/-- The instant is the least whole minute after the other one whose local time matches. -/
structure CronFields.Next (fields : CronFields) (zone : Zone) (after found : DateTime) : Prop where
  selected : fields.matchesTime (zone found) = true
  later : after.number < found.number
  least : ∀ time : DateTime, after.number < time.number → time.number < found.number →
    fields.matchesTime (zone time) = false

variable {zones : Text → Option Zone} {timezone : Text} {cadence : Cadence}

section

variable (valid : validateTimezone zones timezone = some zone)
  (parses : cronFields table cadence.cron = .ok fields)
include valid parses

/-- An accepted cadence in a known zone is scanned from the next minute. -/
theorem computeNextRun_eq :
    computeNextRun table zones cadence timezone after =
      fields.scan zone maxLookaheadMinutes after.nextMinute := by
  simp [computeNextRun, valid, parses, Except.toOption]

/-- A computed next run is the least matching minute, and lies within the lookahead. -/
theorem computeNextRun_next
    (computed : computeNextRun table zones cadence timezone after = some found) :
    fields.Next zone after found ∧ found.number ≤ after.number + maxLookaheadMinutes := by
  rw [computeNextRun_eq valid parses] at computed
  cases next : after.nextMinute with
  | none =>
      rw [next] at computed
      contradiction
  | some start =>
      rw [next] at computed
      obtain ⟨first, within⟩ := scan_first computed
      have numbers := DateTime.nextMinute_number next
      have reached := first.reached
      refine ⟨⟨first.selected, by omega, ?_⟩, by omega⟩
      intro time later before
      exact first.least time (by omega) before

/-- A matching minute within the lookahead is enough for a next run. -/
theorem computeNextRun_finds (selected : fields.matchesTime (zone time) = true)
    (later : after.number < time.number) (within : time.number ≤ after.number + maxLookaheadMinutes)
    :
    ∃ found, computeNextRun table zones cadence timezone after = some found := by
  rw [computeNextRun_eq valid parses]
  cases next : after.nextMinute with
  | none =>
      have last := DateTime.le_of_nextMinute_none next time
      omega
  | some start =>
      have numbers := DateTime.nextMinute_number next
      exact scan_finds selected (by omega) (by omega)

end

/-- Some minute of the calendar matches. -/
def CronFields.Satisfiable (fields : CronFields) : Prop :=
  ∃ time : DateTime, fields.matchesTime time = true

/-- The next run of a satisfiable expression is the least matching minute, and only an expression
that no minute satisfies has none. -/
def LeastNextRun (table : Char → Option Nat) (zones : Text → Option Zone) (cadence : Cadence)
    (timezone : Text) (zone : Zone) (fields : CronFields) (after : DateTime) : Prop :=
  (fields.Satisfiable → ∃ found, computeNextRun table zones cadence timezone after = some found ∧
    fields.Next zone after found) ∧
  (computeNextRun table zones cadence timezone after = none → ¬ fields.Satisfiable)

/-- The next run of an accepted cron expression is the least match exactly when no minute satisfies
the expression, or a minute within the lookahead does in the zone. -/
theorem computeNextRun_least {cron : Text} (accepted : cadenceFromCron table cron = .ok cadence)
    (valid : validateTimezone zones timezone = some zone) (after : DateTime) :
    ∃ fields, cronFields table cadence.cron = .ok fields ∧
      (LeastNextRun table zones cadence timezone zone fields after ↔
        (fields.Satisfiable → ∃ time : DateTime, fields.matchesTime (zone time) = true ∧
          after.number < time.number ∧ time.number ≤ after.number + maxLookaheadMinutes)) := by
  obtain ⟨minute, hour, dayOfMonth, month, dayOfWeek, fields, five⟩ :=
    Accepted.five (Or.inl ⟨cron, accepted⟩)
  have parses := five.cronFields_ok
  refine ⟨fields, parses, ?_⟩
  constructor
  · intro least satisfiable
    obtain ⟨found, computed, next⟩ := least.1 satisfiable
    have within := (computeNextRun_next valid parses computed).2
    exact ⟨found, next.selected, next.later, within⟩
  · intro covered
    constructor
    · intro satisfiable
      obtain ⟨time, selected, later, within⟩ := covered satisfiable
      obtain ⟨found, computed⟩ := computeNextRun_finds valid parses selected later within
      exact ⟨found, computed, (computeNextRun_next valid parses computed).1⟩
    · intro none satisfiable
      obtain ⟨time, selected, later, within⟩ := covered satisfiable
      obtain ⟨found, computed⟩ := computeNextRun_finds valid parses selected later within
      exact Option.some_ne_none found (computed.symm.trans none)

/-- This expression matches the leap days. -/
def leapDays : Cadence := ⟨"0 0 29 2 *".toList, none⟩

/-- This is the midnight of a leap day. -/
def leapMidnight : DateTime :=
  (DateTime.make 2024 2 29 0 0).get (by decide)

def leapFields : CronFields := ⟨{0}, {0}, {29}, {2}, rangeSet 0 7 1⟩

theorem leapDays_fields : cronFields (fun _ => none) leapDays.cron = .ok leapFields := by
  decide

theorem leapFields_matches {time : DateTime} (selected : leapFields.matchesTime time = true) :
    time.month = 2 ∧ time.day = 29 ∧ time.hour = 0 ∧ time.minute = 0 := by
  have single : ¬ (leapFields.domRestricted ∧ leapFields.dowRestricted) := by decide
  rw [CronFields.matches_conjunction single] at selected
  simp only [CronFields.conjunction, leapFields, Finset.mem_singleton, Bool.and_eq_true,
    decide_eq_true_eq] at selected
  omega

/-- A leap day after the one of 2024 comes more than two years later. -/
theorem leapMidnight_next {time : DateTime} (selected : leapFields.matchesTime time = true)
    (later : leapMidnight.number < time.number) :
    leapMidnight.number + maxLookaheadMinutes < time.number := by
  obtain ⟨month, day, hour, minute⟩ := leapFields_matches selected
  have days := time.dayBounds
  have leap : time.year % 4 = 0 := by
    by_contra common
    simp [month, day, daysInMonth, isLeap, common] at days
  have start : leapMidnight.number = (daysBeforeYear 2024 + 60) * 1440 := by decide
  have number : time.number = (daysBeforeYear time.year + 60) * 1440 := by
    have january : daysBeforeMonth time.year 2 = 31 := by simp [daysBeforeMonth, daysInMonth]
    simp only [DateTime.number, ymdToOrdinal, month, day, hour, minute, january]
    omega
  have fourYears : daysBeforeYear 2028 = daysBeforeYear 2024 + 1461 := by decide
  have lookahead : maxLookaheadMinutes = 732 * 1440 := by decide
  have after : 2024 < time.year := by
    by_contra before
    rcases Nat.eq_or_lt_of_le (Nat.le_of_not_lt before) with same | earlier
    · rw [same] at number
      omega
    · have years := daysBeforeYear_le time.yearBounds.1 earlier
      omega
  have years : daysBeforeYear 2028 ≤ daysBeforeYear time.year := by
    rcases Nat.eq_or_lt_of_le (show 2028 ≤ time.year by omega) with same | beyond
    · rw [← same]
    · have le := daysBeforeYear_le (by omega) beyond
      omega
  omega

theorem leapDays_accepted :
    cadenceFromCron (fun _ => none) "0 0 29 2 *".toList = .ok leapDays := by
  decide

/-- After a leap day the next one has no run, though it is a calendar minute. -/
theorem computeNextRun_misses :
    cadenceFromCron (fun _ => none) "0 0 29 2 *".toList = .ok leapDays ∧
      leapFields.Satisfiable ∧
      computeNextRun (fun _ => none) utcZones leapDays "UTC".toList leapMidnight = none ∧
      ¬ LeastNextRun (fun _ => none) utcZones leapDays "UTC".toList id leapFields leapMidnight := by
  have satisfiable : leapFields.Satisfiable := ⟨leapMidnight, by decide⟩
  have valid : validateTimezone utcZones "UTC".toList = some id := rfl
  have none : computeNextRun (fun _ => none) utcZones leapDays "UTC".toList leapMidnight = none := by
    by_contra found
    obtain ⟨found, computed⟩ := Option.ne_none_iff_exists'.mp found
    obtain ⟨next, within⟩ := computeNextRun_next valid leapDays_fields computed
    exact absurd within (Nat.not_le.mpr (leapMidnight_next next.selected next.later))
  exact ⟨leapDays_accepted, satisfiable, none, fun least => least.2 none satisfiable⟩

/-- The day before, the next run is the leap day. -/
def beforeLeapDay : DateTime :=
  (DateTime.make 2024 2 28 12 0).get (by decide)

theorem computeNextRun_least_leapDays :
    LeastNextRun (fun _ => none) utcZones leapDays "UTC".toList id leapFields beforeLeapDay := by
  obtain ⟨fields, parses, least⟩ := computeNextRun_least leapDays_accepted
    (show validateTimezone utcZones "UTC".toList = some id from rfl) beforeLeapDay
  obtain rfl := Except.ok.inj (parses.symm.trans leapDays_fields)
  apply least.mpr
  intro _
  exact ⟨leapMidnight, by decide, by decide, by decide⟩

end LumenCopilot.Schedules
