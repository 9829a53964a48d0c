import LumenCopilot.Construction.Python.Numerals

namespace LumenCopilot.Schedules

open Python

/-- This is `CadenceUnit`. -/
inductive CadenceUnit where
  | day
  | week
  | month
  deriving DecidableEq

/-- This is `StructuredCadence`; the time is its field `at`. -/
structure StructuredCadence where
  every : CadenceUnit
  time : Text
  dayOfWeek : Option Int
  dayOfMonth : Option Int
  deriving DecidableEq

/-- This is `Cadence`. -/
structure Cadence where
  cron : Text
  structured : Option StructuredCadence
  deriving DecidableEq

/-- These are the causes of an `InvalidCronError`, with what its message quotes. -/
inductive InvalidCronError where
  | timeForm (time : Text)
  | timeRange (time : Text)
  | dayOfWeek (day : Int)
  | dayOfMonth (day : Int)
  | step (part : Text)
  | stepSign (part : Text)
  | range (part : Text)
  | value (part : Text)
  | bounds (low high : Int) (part : Text)
  | nothing (spec : Text)
  | fieldCount (count : Nat)
  | lookahead (cron : Text)
  deriving DecidableEq

variable (table : Char → Option Nat)

/-- This is `_validate_hh_mm`. -/
def validateHhMm (time : Text) : Except InvalidCronError (Int × Int) :=
  match time.splitOn ':' with
  | [first, second] =>
      match pyInt table first, pyInt table second with
      | some hour, some minute =>
          if (0 ≤ hour ∧ hour ≤ 23) ∧ 0 ≤ minute ∧ minute ≤ 59 then .ok (hour, minute)
          else .error (.timeRange time)
      | _, _ => .error (.timeForm time)
  | _ => .error (.timeForm time)

/-- This is the text of five fields. -/
def cronText (minute hour dayOfMonth month dayOfWeek : Text) : Text :=
  join [' '] [minute, hour, dayOfMonth, month, dayOfWeek]

/-- This is `_structured_to_cron`. -/
def structuredToCron (cadence : StructuredCadence) : Except InvalidCronError Text := do
  let (hour, minute) ← validateHhMm table cadence.time
  let minute := natText minute.toNat
  let hour := natText hour.toNat
  match cadence.every with
  | .day => pure (cronText minute hour ['*'] ['*'] ['*'])
  | .week =>
      let day := cadence.dayOfWeek.getD 1
      if 0 ≤ day ∧ day ≤ 6 then pure (cronText minute hour ['*'] ['*'] (natText day.toNat))
      else .error (.dayOfWeek day)
  | .month =>
      let day := cadence.dayOfMonth.getD 1
      if 1 ≤ day ∧ day ≤ 31 then pure (cronText minute hour (natText day.toNat) ['*'] ['*'])
      else .error (.dayOfMonth day)

/-- This is the step of a part of a field, with the text before it. -/
def parseStep (part : Text) : Except InvalidCronError (Text × Int) :=
  if '/' ∈ part then
    match pyInt table (partition '/' part).2 with
    | none => .error (.step part)
    | some step => if step ≤ 0 then .error (.stepSign part) else .ok ((partition '/' part).1, step)
  else .ok (part, 1)

/-- These are the first and the last value of a part. -/
def parseBounds (part body : Text) (low high : Int) : Except InvalidCronError (Int × Int) :=
  if body = ['*'] then .ok (low, high)
  else if '-' ∈ body then
    match pyInt table (partition '-' body).1, pyInt table (partition '-' body).2 with
    | some start, some last => .ok (start, last)
    | _, _ => .error (.range part)
  else
    match pyInt table body with
    | some value => .ok (value, value)
    | none => .error (.value part)

/-- This is one pass of the loop of `_parse_field`. -/
def parsePart (part : Text) (low high : Int) : Except InvalidCronError (Finset Int) := do
  let (body, step) ← parseStep table part
  let (start, last) ← parseBounds table part body low high
  if start < low ∨ high < last ∨ last < start then .error (.bounds low high part)
  else pure (rangeSet start (last + 1) step)

def parseParts (low high : Int) : List Text → Finset Int → Except InvalidCronError (Finset Int)
  | [], values => pure values
  | part :: rest, values => do
      let added ← parsePart table part low high
      parseParts low high rest (values ∪ added)

/-- This is `_parse_field`. -/
def parseField (spec : Text) (low high : Int) : Except InvalidCronError (Finset Int) := do
  let values ← parseParts table low high (spec.splitOn ',') ∅
  if values = ∅ then .error (.nothing spec) else pure values

/-- This is `_CronFields`. -/
structure CronFields where
  minutes : Finset Int
  hours : Finset Int
  daysOfMonth : Finset Int
  months : Finset Int
  daysOfWeek : Finset Int
  deriving DecidableEq

/-- These are the sets of five fields with their bounds. -/
def fieldSets (minute hour dayOfMonth month dayOfWeek : Text) :
    Except InvalidCronError CronFields := do
  let minutes ← parseField table minute 0 59
  let hours ← parseField table hour 0 23
  let daysOfMonth ← parseField table dayOfMonth 1 31
  let months ← parseField table month 1 12
  let daysOfWeek ← parseField table dayOfWeek 0 6
  pure ⟨minutes, hours, daysOfMonth, months, daysOfWeek⟩

/-- This is `_parse_cron`. -/
def parseCron (cron : Text) : Except InvalidCronError Text :=
  match splitBlank (strip cron) with
  | [minute, hour, dayOfMonth, month, dayOfWeek] => do
      let _ ← fieldSets table minute hour dayOfMonth month dayOfWeek
      pure (cronText minute hour dayOfMonth month dayOfWeek)
  | fields => .error (.fieldCount fields.length)

/-- This is `_cron_fields`; it is called with a cron text of five fields. -/
def cronFields (cron : Text) : Except InvalidCronError CronFields :=
  match splitBlank (strip cron) with
  | minute :: hour :: dayOfMonth :: month :: dayOfWeek :: _ =>
      fieldSets table minute hour dayOfMonth month dayOfWeek
  | fields => .error (.fieldCount fields.length)

/-- This is `cadence_from_structured`. -/
def cadenceFromStructured (structured : StructuredCadence) : Except InvalidCronError Cadence := do
  let cron ← structuredToCron table structured
  pure ⟨cron, some structured⟩

/-- This is `cadence_from_cron`. -/
def cadenceFromCron (cron : Text) : Except InvalidCronError Cadence := do
  let normalized ← parseCron table cron
  pure ⟨normalized, none⟩

/-- This is the day of the week as cron counts it: Sunday is 0. -/
def cronDow (time : DateTime) : Nat := (time.weekday + 1) % 7

/-- The field restricts the day of the month. -/
def CronFields.domRestricted (fields : CronFields) : Prop := fields.daysOfMonth ≠ rangeSet 1 32 1

/-- The field restricts the day of the week. -/
def CronFields.dowRestricted (fields : CronFields) : Prop := fields.daysOfWeek ≠ rangeSet 0 7 1

instance (fields : CronFields) : Decidable fields.domRestricted := inferInstanceAs (Decidable (_ ≠ _))

instance (fields : CronFields) : Decidable fields.dowRestricted := inferInstanceAs (Decidable (_ ≠ _))

/-- This is `_matches`. -/
def CronFields.matchesTime (fields : CronFields) (time : DateTime) : Bool :=
  let domOk := decide ((time.day : Int) ∈ fields.daysOfMonth)
  let dowOk := decide ((cronDow time : Int) ∈ fields.daysOfWeek)
  if (time.minute : Int) ∉ fields.minutes then false
  else if (time.hour : Int) ∉ fields.hours then false
  else if (time.month : Int) ∉ fields.months then false
  else if fields.domRestricted ∧ fields.dowRestricted then domOk || dowOk
  else if fields.domRestricted then domOk
  else if fields.dowRestricted then dowOk
  else true

/-- The local time of a zone at an instant of UTC. -/
abbrev Zone : Type := DateTime → DateTime

/-- This is `validate_timezone` with the zones of the time zone database. -/
def validateTimezone (zones : Text → Option Zone) (name : Text) : Option Zone :=
  if isBlank name then none else zones name

/-- This is `_MAX_LOOKAHEAD_MINUTES`. -/
def maxLookaheadMinutes : Nat := 366 * 2 * 24 * 60

/-- This is the scan of `compute_next_run` over so many minutes. -/
def CronFields.scan (fields : CronFields) (zone : Zone) : Nat → Option DateTime → Option DateTime
  | 0, _ => none
  | _ + 1, none => none
  | count + 1, some candidate =>
      if fields.matchesTime (zone candidate) then some candidate
      else fields.scan zone count candidate.nextMinute

/-- This is `compute_next_run` after a whole minute of UTC. -/
def computeNextRun (zones : Text → Option Zone) (cadence : Cadence) (timezone : Text)
    (after : DateTime) : Option DateTime := do
  let zone ← validateTimezone zones timezone
  let fields ← (cronFields table cadence.cron).toOption
  fields.scan zone maxLookaheadMinutes after.nextMinute

end LumenCopilot.Schedules

namespace LumenCopilot.Schedules

open Python

/-- These are the fields of a `Schedule` that the projector reads. -/
structure Schedule where
  enabled : Bool
  cadence : Cadence
  timezone : Text

/-- The parser of the crontab expands one part of a field within the bounds of the field. -/
abbrev Expander : Type := Text → Int → Int → Option (Finset Int)

variable (expand : Expander)

/-- The parser of the crontab joins the sets of the parts of a field. -/
def crontabParts (low high : Int) : List Text → Option (Finset Int)
  | [] => some ∅
  | part :: rest => do
      let first ← expand part low high
      let others ← crontabParts low high rest
      pure (first ∪ others)

def crontabField (spec : Text) (low high : Int) : Option (Finset Int) :=
  crontabParts expand low high (spec.splitOn ',')

/-- This is the entry of a schedule: its crontab with its parsed sets and its zone. -/
structure RedBeatEntry where
  minute : Finset Int
  hour : Finset Int
  dayOfMonth : Finset Int
  monthOfYear : Finset Int
  dayOfWeek : Finset Int
  zone : Zone

/-- This is the entry of `RedBeatScheduleProjector.sync`; an exception leaves no entry. -/
def sync (zones : Text → Option Zone) (schedule : Schedule) : Option RedBeatEntry :=
  if !schedule.enabled then none
  else match splitBlank schedule.cadence.cron with
    | [minute, hour, dom, month, dow] => do
        let zone ← zones schedule.timezone
        let minute ← crontabField expand minute 0 59
        let hour ← crontabField expand hour 0 23
        let dom ← crontabField expand dom 1 31
        let month ← crontabField expand month 1 12
        let dow ← crontabField expand dow 0 6
        pure ⟨minute, hour, dom, month, dow, zone⟩
    | _ => none

/-- The crontab is due at a local minute when each of its fields is in its parsed set. -/
def RedBeatEntry.due (entry : RedBeatEntry) (time : DateTime) : Bool :=
  (time.minute : Int) ∈ entry.minute && (time.hour : Int) ∈ entry.hour &&
    (time.day : Int) ∈ entry.dayOfMonth && (time.month : Int) ∈ entry.monthOfYear &&
    (cronDow time : Int) ∈ entry.dayOfWeek

/-- The entry of the schedule is due at the instant. -/
def dueAt (zones : Text → Option Zone) (schedule : Schedule) (instant : DateTime) : Bool :=
  match sync expand zones schedule with
  | none => false
  | some entry => entry.due (entry.zone instant)

/-- The predicate of `compute_next_run` selects the instant. -/
def selectedAt (table : Char → Option Nat) (cadence : Cadence) (zone : Zone) (instant : DateTime) :
    Bool :=
  match cronFields table cadence.cron with
  | .error _ => false
  | .ok fields => fields.matchesTime (zone instant)

end LumenCopilot.Schedules
