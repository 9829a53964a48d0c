import LumenCopilot.Proof.Schedules.NextRun

namespace LumenCopilot.Schedules

open Python

/-- A local clock is less than a day from UTC, as `utcoffset` has to be. -/
structure LocalClock where
  toLocal : Zone
  near : ∀ time, (toLocal time).number < time.number + 1440 ∧
    time.number < (toLocal time).number + 1440

variable {table : Char → Option Nat} {zones : Text → Option Zone} {cadence : Cadence}
  {timezone : Text} {clock : LocalClock} {fields : CronFields}
  {start first second time : DateTime} {n k : Nat}

/-- These are the runs from a start, each computed from the one before. -/
def runs (table : Char → Option Nat) (zones : Text → Option Zone) (cadence : Cadence)
    (timezone : Text) (start : DateTime) : Nat → Option DateTime
  | 0 => some start
  | n + 1 => (runs table zones cadence timezone start n).bind
      (computeNextRun table zones cadence timezone)

/-- The schedule fires at the instant after the start. -/
def Fires (table : Char → Option Nat) (zones : Text → Option Zone) (cadence : Cadence)
    (timezone : Text) (start time : DateTime) : Prop :=
  ∃ n, runs table zones cadence timezone start (n + 1) = some time

/-- Exactly one run falls on each local day after that of the start up to the horizon. -/
def FiresDaily (table : Char → Option Nat) (zones : Text → Option Zone) (cadence : Cadence)
    (timezone : Text) (clock : LocalClock) (start : DateTime) (horizon : Nat) : Prop :=
  ∀ day, (clock.toLocal start).dayNumber < day → day ≤ horizon →
    ∃! time, Fires table zones cadence timezone start time ∧ (clock.toLocal time).dayNumber = day

/-- The local clock shows the time of day at exactly one minute of each of these days. -/
def ShowsDaily (clock : LocalClock) (hour minute : Nat) (start : DateTime) (horizon : Nat) : Prop :=
  ∀ day, (clock.toLocal start).dayNumber < day → day ≤ horizon →
    ∃! time : DateTime, start.number < time.number ∧ (clock.toLocal time).dayNumber = day ∧
      (clock.toLocal time).hour = hour ∧ (clock.toLocal time).minute = minute

theorem number_eq (time : DateTime) :
    time.number = time.dayNumber * 1440 + time.hour * 60 + time.minute := rfl

section Orbit

variable (valid : validateTimezone zones timezone = some clock.toLocal)
  (parses : cronFields table cadence.cron = .ok fields)

/-- A run is the next one after the run before it. -/
theorem runs_succ (run : runs table zones cadence timezone start (n + 1) = some second) :
    ∃ first, runs table zones cadence timezone start n = some first ∧
      computeNextRun table zones cadence timezone first = some second :=
  Option.bind_eq_some_iff.mp run

include valid parses in
/-- The runs come in order, and an earlier place has a run. -/
theorem runs_lt (early : runs table zones cadence timezone start n = some first) (before : n < k)
    (late : runs table zones cadence timezone start k = some second) :
    first.number < second.number ∧
      ∃ next, runs table zones cadence timezone start (n + 1) = some next := by
  induction k, before using Nat.le_induction generalizing second with
  | base =>
      obtain ⟨last, run, computed⟩ := runs_succ late
      obtain rfl := Option.some.inj (early.symm.trans run)
      exact ⟨(computeNextRun_next valid parses computed).1.later, second, late⟩
  | succ k before ih =>
      obtain ⟨last, run, computed⟩ := runs_succ late
      obtain ⟨earlier, next⟩ := ih run
      have later := (computeNextRun_next valid parses computed).1.later
      exact ⟨by omega, next⟩

include valid parses in
/-- A run behind another one has a later place, and so the other one has a next run. -/
theorem runs_continue (early : runs table zones cadence timezone start n = some first)
    (late : runs table zones cadence timezone start k = some second)
    (after : first.number < second.number) :
    ∃ next, runs table zones cadence timezone start (n + 1) = some next := by
  rcases Nat.lt_trichotomy n k with before | same | behind
  · exact (runs_lt valid parses early before late).2
  · subst same
    obtain rfl := Option.some.inj (early.symm.trans late)
    omega
  · have contrary := (runs_lt valid parses late behind early).1
    omega

include valid parses in
/-- A matching minute after a run is a run, or the runs end more than a lookahead before it. -/
theorem fires_or_ends (selected : fields.matchesTime (clock.toLocal time) = true)
    (run : runs table zones cadence timezone start n = some first)
    (after : first.number < time.number) :
    Fires table zones cadence timezone start time ∨
      ∃ k last, runs table zones cadence timezone start k = some last ∧
        runs table zones cadence timezone start (k + 1) = none ∧
        last.number + maxLookaheadMinutes < time.number := by
  generalize distance : time.number - first.number = gap
  induction gap using Nat.strong_induction_on generalizing n first with
  | _ gap ih =>
      cases next : computeNextRun table zones cadence timezone first with
      | none =>
          apply Or.inr
          refine ⟨n, first, run, by simp [runs, run, next], ?_⟩
          by_contra within
          obtain ⟨found, computed⟩ := computeNextRun_finds valid parses selected after
            (Nat.le_of_not_lt within)
          exact Option.some_ne_none found (computed.symm.trans next)
      | some second =>
          have step := (computeNextRun_next valid parses next).1
          have later := step.later
          have later_run : runs table zones cadence timezone start (n + 1) = some second := by
            simp [runs, run, next]
          rcases Nat.lt_trichotomy second.number time.number with before | same | beyond
          · exact ih (time.number - second.number) (by omega) later_run before rfl
          · obtain rfl := DateTime.number_injective same
            exact Or.inl ⟨n, later_run⟩
          · exact absurd selected (by simp [step.least time after beyond])

include valid parses in
/-- A run matches and comes after the start. -/
theorem Fires.selected (fires : Fires table zones cadence timezone start time) :
    fields.matchesTime (clock.toLocal time) = true ∧ start.number < time.number := by
  obtain ⟨n, run⟩ := fires
  obtain ⟨last, earlier, computed⟩ := runs_succ run
  exact ⟨(computeNextRun_next valid parses computed).1.selected,
    (runs_lt valid parses rfl (Nat.succ_pos n) run).1⟩

end Orbit

/-- The expression of a daily cadence matches its time on every day. -/
theorem daily_matches (hour minute : Nat) (time : DateTime) :
    (CronFields.mk {(minute : Int)} {(hour : Int)} (rangeSet 1 32 1) (rangeSet 1 13 1)
        (rangeSet 0 7 1)).matchesTime time = true ↔ time.hour = hour ∧ time.minute = minute := by
  have months := time.monthBounds
  have month : (time.month : Int) ∈ rangeSet 1 13 1 := mem_rangeSet_one.mpr (by omega)
  by_cases sameMinute : time.minute = minute
  · by_cases sameHour : time.hour = hour
    · simp [CronFields.matchesTime, CronFields.domRestricted, CronFields.dowRestricted, month,
        sameMinute, sameHour]
    · simp [CronFields.matchesTime, sameMinute, sameHour]
  · simp [CronFields.matchesTime, sameMinute]

/-- A daily cadence has a time of day and fires where the local clock shows it. -/
theorem daily_fields {structured : StructuredCadence} (daily : structured.every = .day)
    (accepted : cadenceFromStructured table structured = .ok cadence) :
    ∃ hour minute fields, validateHhMm table structured.time = .ok (hour, minute) ∧
      cronFields table cadence.cron = .ok fields ∧
      ∀ time : DateTime, fields.matchesTime time = true ↔
        time.hour = hour.toNat ∧ time.minute = minute.toNat := by
  unfold cadenceFromStructured structuredToCron at accepted
  cases valid : validateHhMm table structured.time with
  | error error =>
      rw [valid] at accepted
      cases accepted
  | ok pair =>
      obtain ⟨hour, minute⟩ := pair
      obtain ⟨hours, minutes⟩ := validateHhMm_bounds valid
      rw [valid] at accepted
      simp only [daily] at accepted
      obtain rfl := Except.ok.inj accepted
      have doms : parseField table ['*'] 1 31 = .ok (rangeSet 1 32 1) := star_field 1 31 (by omega)
      have dows : parseField table ['*'] 0 6 = .ok (rangeSet 0 7 1) := star_field 0 6 (by omega)
      have five := fun cadence text => @timed_five table hour minute hours minutes ['*'] ['*'] _ _
        star_word star_word doms dows cadence text
      exact ⟨hour, minute, _, rfl, (five _ rfl).cronFields_ok, daily_matches hour.toNat minute.toNat⟩

section Daily

variable {hour minute : Nat}
  (shows : ∀ time : DateTime, fields.matchesTime time = true ↔ time.hour = hour ∧ time.minute = minute)
  (valid : validateTimezone zones timezone = some clock.toLocal)
  (parses : cronFields table cadence.cron = .ok fields)

include shows valid parses in
/-- A minute that shows the time of day is a run unless the runs have ended long before it. -/
theorem fires_of_shown (later : start.number < time.number)
    (atHour : (clock.toLocal time).hour = hour) (atMinute : (clock.toLocal time).minute = minute) :
    Fires table zones cadence timezone start time ∨
      ∃ k last, runs table zones cadence timezone start k = some last ∧
        runs table zones cadence timezone start (k + 1) = none ∧
        last.number + maxLookaheadMinutes < time.number ∧ start.number ≤ last.number := by
  have first : runs table zones cadence timezone start 0 = some start := rfl
  rcases fires_or_ends valid parses ((shows _).mpr ⟨atHour, atMinute⟩) first later with fires | ends
  · exact Or.inl fires
  · obtain ⟨k, last, run, none, beyond⟩ := ends
    refine Or.inr ⟨k, last, run, none, beyond, ?_⟩
    cases k with
    | zero =>
        obtain rfl := Option.some.inj run
        exact le_rfl
    | succ k => exact (runs_lt valid parses rfl (Nat.succ_pos k) run).1.le

include shows valid parses in
/-- When the time of day is shown once a day, no lookahead passes without a run. -/
theorem firesDaily_of_shows {horizon : Nat} (once : ShowsDaily clock hour minute start horizon) :
    FiresDaily table zones cadence timezone clock start horizon := by
  have lookahead : maxLookaheadMinutes = 1054080 := by decide
  have fired : ∀ day, (clock.toLocal start).dayNumber < day → day ≤ horizon →
      ∀ time : DateTime, start.number < time.number → (clock.toLocal time).dayNumber = day →
        (clock.toLocal time).hour = hour → (clock.toLocal time).minute = minute →
          Fires table zones cadence timezone start time := by
    intro day
    induction day using Nat.strong_induction_on with
    | _ day ih =>
        intro after within time later onDay atHour atMinute
        rcases fires_of_shown shows valid parses later atHour atMinute with fires | ends
        · exact fires
        · obtain ⟨k, last, run, none, beyond, fromStart⟩ := ends
          have nearTime := clock.near time
          have nearStart := clock.near start
          have local_ := number_eq (clock.toLocal time)
          have startLocal := number_eq (clock.toLocal start)
          rw [onDay, atHour, atMinute] at local_
          have hours := (clock.toLocal time).hourBound
          have minutes := (clock.toLocal time).minuteBound
          have startHours := (clock.toLocal start).hourBound
          have startMinutes := (clock.toLocal start).minuteBound
          obtain ⟨earlier, ⟨earlierLater, earlierDay, earlierHour, earlierMinute⟩, -⟩ :=
            once (day - 3) (by omega) (by omega)
          have nearEarlier := clock.near earlier
          have earlierLocal := number_eq (clock.toLocal earlier)
          rw [earlierDay, earlierHour, earlierMinute] at earlierLocal
          obtain ⟨j, ran⟩ := ih (day - 3) (by omega) (by omega) (by omega) earlier earlierLater
            earlierDay earlierHour earlierMinute
          obtain ⟨next, continues⟩ := runs_continue valid parses run ran (by omega)
          exact absurd continues (by simp [none])
  intro day after within
  obtain ⟨time, ⟨later, onDay, atHour, atMinute⟩, unique⟩ := once day after within
  refine ⟨time, ⟨fired day after within time later onDay atHour atMinute, onDay⟩, ?_⟩
  rintro other ⟨fires, otherDay⟩
  obtain ⟨selected, otherLater⟩ := fires.selected valid parses
  obtain ⟨otherHour, otherMinute⟩ := (shows _).mp selected
  exact unique other ⟨otherLater, otherDay, otherHour, otherMinute⟩

include shows valid parses in
/-- When the schedule fires once a day, the time of day is shown once a day. -/
theorem shows_of_firesDaily {horizon : Nat}
    (once : FiresDaily table zones cadence timezone clock start horizon) :
    ShowsDaily clock hour minute start horizon := by
  have lookahead : maxLookaheadMinutes = 1054080 := by decide
  intro day after within
  obtain ⟨run, ⟨fires, onDay⟩, unique⟩ := once day after within
  obtain ⟨selected, later⟩ := fires.selected valid parses
  obtain ⟨atHour, atMinute⟩ := (shows _).mp selected
  refine ⟨run, ⟨later, onDay, atHour, atMinute⟩, ?_⟩
  rintro other ⟨otherLater, otherDay, otherHour, otherMinute⟩
  apply unique
  refine ⟨?_, otherDay⟩
  rcases fires_of_shown shows valid parses otherLater otherHour otherMinute with otherFires | ends
  · exact otherFires
  · obtain ⟨k, last, ended, none, beyond, -⟩ := ends
    have nearRun := clock.near run
    have nearOther := clock.near other
    have runLocal := number_eq (clock.toLocal run)
    have otherLocal := number_eq (clock.toLocal other)
    rw [onDay, atHour, atMinute] at runLocal
    rw [otherDay, otherHour, otherMinute] at otherLocal
    obtain ⟨j, ran⟩ := fires
    obtain ⟨next, continues⟩ := runs_continue valid parses ended ran (by omega)
    exact absurd continues (by simp [none])

end Daily

/-- A daily cadence fires exactly once on each local day up to a horizon just when its time of day is
shown exactly once on each of these days. -/
theorem computeNextRun_daily {structured : StructuredCadence} (daily : structured.every = .day)
    (accepted : cadenceFromStructured table structured = .ok cadence)
    (valid : validateTimezone zones timezone = some clock.toLocal) (start : DateTime) :
    ∃ hour minute, validateHhMm table structured.time = .ok (hour, minute) ∧ ∀ horizon,
      (FiresDaily table zones cadence timezone clock start horizon ↔
        ShowsDaily clock hour.toNat minute.toNat start horizon) := by
  obtain ⟨hour, minute, fields, time, parses, shows⟩ := daily_fields daily accepted
  exact ⟨hour, minute, time, fun horizon =>
    ⟨shows_of_firesDaily shows valid parses, firesDaily_of_shows shows valid parses⟩⟩

/-- This cadence fires every day at half past midnight. -/
def midnightCadence : StructuredCadence := ⟨.day, "00:30".toList, none, none⟩

def midnightCron : Cadence := ⟨"30 0 * * *".toList, some midnightCadence⟩

theorem midnightCron_accepted :
    cadenceFromStructured (fun _ => none) midnightCadence = .ok midnightCron := by
  decide

def utcClock : LocalClock := ⟨id, fun time => by simp⟩

/-- This is half past midnight on a leap day. -/
def leapHalfHour : DateTime :=
  (DateTime.make 2024 2 29 0 30).get (by decide)

/-- In UTC the cadence fires once on the day after the start. -/
theorem computeNextRun_daily_utc : FiresDaily (fun _ => none) utcZones midnightCron "UTC".toList
    utcClock beforeLeapDay leapHalfHour.dayNumber := by
  obtain ⟨hour, minute, time, daily⟩ := computeNextRun_daily rfl midnightCron_accepted
    (show validateTimezone utcZones "UTC".toList = some utcClock.toLocal from rfl) beforeLeapDay
  obtain ⟨rfl, rfl⟩ : hour = 0 ∧ minute = 30 := by
    have zero : validateHhMm (fun _ => none) midnightCadence.time = .ok (0, 30) := by decide
    exact Prod.mk.inj (Except.ok.inj (time.symm.trans zero))
  apply (daily leapHalfHour.dayNumber).mpr
  intro day after within
  have start : (utcClock.toLocal beforeLeapDay).dayNumber + 1 = leapHalfHour.dayNumber := by
    decide
  obtain rfl : day = leapHalfHour.dayNumber := by omega
  refine ⟨leapHalfHour, ⟨by decide, rfl, rfl, rfl⟩, ?_⟩
  rintro other ⟨-, onDay, atHour, atMinute⟩
  apply DateTime.number_injective
  have shown := number_eq other
  have onDay : other.dayNumber = leapHalfHour.dayNumber := onDay
  have atHour : other.hour = 0 := atHour
  have atMinute : other.minute = 30 := atMinute
  rw [shown, onDay, atHour, atMinute]
  rfl

/-- This is so many minutes later, as far as the calendar goes. -/
def minutesLater : Nat → DateTime → DateTime
  | 0, time => time
  | count + 1, time => minutesLater count (time.nextMinute.getD time)

theorem minutesLater_near (count : Nat) (time : DateTime) :
    time.number ≤ (minutesLater count time).number ∧
      (minutesLater count time).number ≤ time.number + count := by
  induction count generalizing time with
  | zero =>
      simp only [minutesLater]
      omega
  | succ count ih =>
      have later := ih (time.nextMinute.getD time)
      cases next : time.nextMinute with
      | none =>
          rw [next] at later
          simp only [minutesLater, next]
          dsimp only [Option.getD_none] at later ⊢
          omega
      | some following =>
          have numbers := DateTime.nextMinute_number next
          rw [next] at later
          simp only [minutesLater, next]
          dsimp only [Option.getD_some] at later ⊢
          omega

/-- This is the instant at which summer time ends: the local clock goes from one to midnight. -/
def summerEnd : DateTime :=
  (DateTime.make 2024 11 3 0 0).get (by decide)

/-- This local clock is an hour ahead of UTC in summer. -/
def summerClock : LocalClock where
  toLocal time := if time.number < summerEnd.number then minutesLater 60 time else time
  near time := by
    have later := minutesLater_near 60 time
    split <;> omega

def summerZones (name : Text) : Option Zone :=
  if name = "Summer".toList then some summerClock.toLocal else none

/-- This is an hour before the first of two half hours past midnight. -/
def beforeRepeat : DateTime :=
  (DateTime.make 2024 11 2 22 30).get (by decide)

def firstHalfHour : DateTime :=
  (DateTime.make 2024 11 2 23 30).get (by decide)

def secondHalfHour : DateTime :=
  (DateTime.make 2024 11 3 0 30).get (by decide)

theorem repeated_runs :
    computeNextRun (fun _ => none) summerZones midnightCron "Summer".toList beforeRepeat =
        some firstHalfHour ∧
      computeNextRun (fun _ => none) summerZones midnightCron "Summer".toList firstHalfHour =
        some secondHalfHour := by
  constructor
  · decide +kernel
  · decide +kernel

/-- On the day with a repeated hour the cadence fires twice. -/
theorem computeNextRun_fires_twice :
    ¬ FiresDaily (fun _ => none) summerZones midnightCron "Summer".toList summerClock beforeRepeat
      secondHalfHour.dayNumber := by
  intro once
  obtain ⟨time, -, unique⟩ := once secondHalfHour.dayNumber (by decide +kernel) le_rfl
  have first : runs (fun _ => none) summerZones midnightCron "Summer".toList beforeRepeat 1 =
      some firstHalfHour := by
    simp only [runs, Option.bind_some]
    exact repeated_runs.1
  have second : runs (fun _ => none) summerZones midnightCron "Summer".toList beforeRepeat 2 =
      some secondHalfHour := by
    rw [runs, first, Option.bind_some]
    exact repeated_runs.2
  have one := unique firstHalfHour ⟨⟨0, first⟩, by decide +kernel⟩
  have two := unique secondHalfHour ⟨⟨1, second⟩, by decide⟩
  have same : firstHalfHour.day = secondHalfHour.day := by rw [one, two]
  exact absurd same (by decide)

end LumenCopilot.Schedules
