import LumenCopilot.Proof.Schedules.Notation

namespace LumenCopilot.Schedules

open Python

variable {table : Char → Option Nat} {expand : Expander}

/-- The cadence comes from `cadence_from_cron` or from `cadence_from_structured`. -/
def Accepted (table : Char → Option Nat) (cadence : Cadence) : Prop :=
  (∃ cron, cadenceFromCron table cron = .ok cadence) ∨
    ∃ structured, cadenceFromStructured table structured = .ok cadence

/-- These are the five fields of an accepted cadence, with their sets. -/
structure FiveFields (table : Char → Option Nat) (cadence : Cadence)
    (minute hour dayOfMonth month dayOfWeek : Text) (fields : CronFields) : Prop where
  splits : splitBlank cadence.cron = [minute, hour, dayOfMonth, month, dayOfWeek]
  minutes : parseField table minute 0 59 = .ok fields.minutes
  hours : parseField table hour 0 23 = .ok fields.hours
  daysOfMonth : parseField table dayOfMonth 1 31 = .ok fields.daysOfMonth
  months : parseField table month 1 12 = .ok fields.months
  daysOfWeek : parseField table dayOfWeek 0 6 = .ok fields.daysOfWeek

theorem fieldSets_ok {minute hour dayOfMonth month dayOfWeek : Text} {fields : CronFields}
    (sets : fieldSets table minute hour dayOfMonth month dayOfWeek = .ok fields) :
    parseField table minute 0 59 = .ok fields.minutes ∧
    parseField table hour 0 23 = .ok fields.hours ∧
    parseField table dayOfMonth 1 31 = .ok fields.daysOfMonth ∧
    parseField table month 1 12 = .ok fields.months ∧
    parseField table dayOfWeek 0 6 = .ok fields.daysOfWeek := by
  unfold fieldSets at sets
  cases minutes : parseField table minute 0 59 with
  | error error => simp [minutes, bind, Except.bind] at sets
  | ok minutes' =>
    cases hours : parseField table hour 0 23 with
    | error error => simp [minutes, hours, bind, Except.bind] at sets
    | ok hours' =>
      cases doms : parseField table dayOfMonth 1 31 with
      | error error => simp [minutes, hours, doms, bind, Except.bind] at sets
      | ok doms' =>
        cases months : parseField table month 1 12 with
        | error error => simp [minutes, hours, doms, months, bind, Except.bind] at sets
        | ok months' =>
          cases dows : parseField table dayOfWeek 0 6 with
          | error error => simp [minutes, hours, doms, months, dows, bind, Except.bind] at sets
          | ok dows' =>
            simp only [minutes, hours, doms, months, dows, bind, Except.bind, pure, Except.pure,
              Except.ok.injEq] at sets
            subst sets
            exact ⟨rfl, rfl, rfl, rfl, rfl⟩

theorem fieldSets_of_parts {minute hour dayOfMonth month dayOfWeek : Text} {fields : CronFields}
    (minutes : parseField table minute 0 59 = .ok fields.minutes)
    (hours : parseField table hour 0 23 = .ok fields.hours)
    (daysOfMonth : parseField table dayOfMonth 1 31 = .ok fields.daysOfMonth)
    (months : parseField table month 1 12 = .ok fields.months)
    (daysOfWeek : parseField table dayOfWeek 0 6 = .ok fields.daysOfWeek) :
    fieldSets table minute hour dayOfMonth month dayOfWeek = .ok fields := by
  simp only [fieldSets, minutes, hours, daysOfMonth, months, daysOfWeek, bind, Except.bind, pure,
    Except.pure]

/-- The five fields of a cron text are read back. -/
theorem FiveFields.of_text {minute hour dayOfMonth month dayOfWeek : Text} {fields : CronFields}
    {cadence : Cadence} (text : cadence.cron = cronText minute hour dayOfMonth month dayOfWeek)
    (words : ∀ word ∈ [minute, hour, dayOfMonth, month, dayOfWeek], IsWordText word)
    (sets : fieldSets table minute hour dayOfMonth month dayOfWeek = .ok fields) :
    FiveFields table cadence minute hour dayOfMonth month dayOfWeek fields := by
  obtain ⟨minutes, hours, daysOfMonth, months, daysOfWeek⟩ := fieldSets_ok sets
  exact ⟨by rw [text]; exact splitBlank_join words, minutes, hours, daysOfMonth, months, daysOfWeek⟩

/-- Both kinds of cadence have their sets. -/
theorem FiveFields.cronFields_ok {cadence : Cadence}
    {minute hour dayOfMonth month dayOfWeek : Text} {fields : CronFields}
    (five : FiveFields table cadence minute hour dayOfMonth month dayOfWeek fields) :
    cronFields table cadence.cron = .ok fields := by
  unfold cronFields
  rw [splitBlank_strip, five.splits]
  exact fieldSets_of_parts five.minutes five.hours five.daysOfMonth five.months five.daysOfWeek

theorem star_field (low high : Int) (ordered : low ≤ high) :
    parseField table ['*'] low high = .ok (rangeSet low (high + 1) 1) := by
  have member : low ∈ rangeSet low (high + 1) 1 := mem_rangeSet_one.mpr (by omega)
  have filled : rangeSet low (high + 1) 1 ≠ ∅ := Finset.ne_empty_of_mem member
  have part := parsePart_plain (by decide) (parseBounds_star ['*'] low high : parseBounds table ['*'] ['*'] low high = _)
  rw [if_neg (by omega)] at part
  unfold parseField
  rw [show (['*'] : Text).splitOn ',' = [['*']] from rfl]
  simp only [parseParts, part, bind, Except.bind, pure, Except.pure, Finset.empty_union]
  exact if_neg filled

theorem natText_unsigned (table : Char → Option Nat) (value : Nat) : IsUnsigned table (natText value) := by
  intro c member
  have digit := natText_digit member
  have bounds := digit_bounds digit
  have ascii : isAscii c = true := by
    simp only [isAscii, decide_eq_true_eq]
    omega
  simp [decimalValue, ascii, digit]

/-- A decimal numeral up to 59 is read back. -/
theorem natText_reads (table : Char → Option Nat) {value : Nat} (small : value < 60) :
    pyInt table (natText value) = some (value : Int) := by
  interval_cases value <;> rfl

theorem number_field {value : Nat} {low high : Int} (small : value < 60) (above : low ≤ value)
    (below : (value : Int) ≤ high) :
    parseField table (natText value) low high = .ok {(value : Int)} := by
  have reads := natText_reads table small
  have unsigned := natText_unsigned table value
  have bounds := parseBounds_number unsigned (natText value) low high
  rw [reads] at bounds
  have part := parsePart_plain unsigned.slash bounds
  rw [if_neg (by omega), rangeSet_single] at part
  unfold parseField
  have plain : ∀ c ∈ natText value, (c == ',') = false := by
    intro c member
    simp only [beq_eq_false_iff_ne, ne_eq]
    rintro rfl
    exact natText_not_mem rfl member
  rw [List.splitOn_eq_splitOnP, List.splitOnP_eq_singleton plain]
  simp only [parseParts, part, bind, Except.bind, pure, Except.pure, Finset.empty_union]
  exact if_neg (Finset.singleton_ne_empty _)

theorem validateHhMm_bounds {time : Text} {hour minute : Int}
    (valid : validateHhMm table time = .ok (hour, minute)) :
    (0 ≤ hour ∧ hour ≤ 23) ∧ 0 ≤ minute ∧ minute ≤ 59 := by
  unfold validateHhMm at valid
  split at valid
  · split at valid
    · split at valid
      · next bounds =>
          cases valid
          exact bounds
      · cases valid
    · cases valid
  · cases valid

theorem star_word : IsWordText ['*'] := by
  refine ⟨by decide, fun c member => ?_⟩
  obtain rfl := List.mem_singleton.mp member
  rfl

/-- A cadence of an hour, a minute and possibly a day has its five fields. -/
theorem timed_five {hour minute : Int} (hours : 0 ≤ hour ∧ hour ≤ 23)
    (minutes : 0 ≤ minute ∧ minute ≤ 59) {dom dow : Text} {doms dows : Finset Int}
    (domWord : IsWordText dom) (dowWord : IsWordText dow)
    (domField : parseField table dom 1 31 = .ok doms) (dowField : parseField table dow 0 6 = .ok dows)
    {cadence : Cadence}
    (text : cadence.cron = cronText (natText minute.toNat) (natText hour.toNat) dom ['*'] dow) :
    FiveFields table cadence (natText minute.toNat) (natText hour.toNat) dom ['*'] dow
      ⟨{(minute.toNat : Int)}, {(hour.toNat : Int)}, doms, rangeSet 1 13 1, dows⟩ := by
  apply FiveFields.of_text text
  · intro word member
    simp only [List.mem_cons, List.not_mem_nil, or_false] at member
    rcases member with rfl | rfl | rfl | rfl | rfl
    · exact natText_word _
    · exact natText_word _
    · exact domWord
    · exact star_word
    · exact dowWord
  · exact fieldSets_of_parts (number_field (by omega) (by omega) (by omega))
      (number_field (by omega) (by omega) (by omega)) domField (star_field 1 12 (by omega)) dowField

/-- Every accepted cadence has five fields with their sets. -/
theorem Accepted.five {cadence : Cadence} (accepted : Accepted table cadence) :
    ∃ minute hour dayOfMonth month dayOfWeek fields,
      FiveFields table cadence minute hour dayOfMonth month dayOfWeek fields := by
  rcases accepted with ⟨cron, made⟩ | ⟨structured, made⟩
  · unfold cadenceFromCron parseCron at made
    split at made
    · next minute hour dayOfMonth month dayOfWeek splits =>
        cases sets : fieldSets table minute hour dayOfMonth month dayOfWeek with
        | error error =>
            rw [sets] at made
            cases made
        | ok fields =>
            rw [sets] at made
            obtain rfl := Except.ok.inj made
            refine ⟨minute, hour, dayOfMonth, month, dayOfWeek, fields, .of_text rfl ?_ sets⟩
            intro word member
            exact splitBlank_words (splits ▸ member)
    · cases made
  · unfold cadenceFromStructured structuredToCron at made
    cases valid : validateHhMm table structured.time with
    | error error =>
        rw [valid] at made
        cases made
    | ok pair =>
        obtain ⟨hour, minute⟩ := pair
        obtain ⟨hours, minutes⟩ := validateHhMm_bounds valid
        rw [valid] at made
        cases every : structured.every with
        | day =>
            simp only [every] at made
            obtain rfl := Except.ok.inj made
            exact ⟨_, _, _, _, _, _, timed_five hours minutes star_word star_word
              (star_field 1 31 (by omega)) (star_field 0 6 (by omega)) rfl⟩
        | week =>
            simp only [every] at made
            change (Except.bind (if _ then _ else _) _) = _ at made
            split at made
            · next bounds =>
                obtain rfl := Except.ok.inj made
                exact ⟨_, _, _, _, _, _, timed_five hours minutes star_word (natText_word _)
                  (star_field 1 31 (by omega)) (number_field (by omega) (by omega) (by omega)) rfl⟩
            · cases made
        | month =>
            simp only [every] at made
            change (Except.bind (if _ then _ else _) _) = _ at made
            split at made
            · next bounds =>
                obtain rfl := Except.ok.inj made
                exact ⟨_, _, _, _, _, _, timed_five hours minutes (natText_word _) star_word
                  (number_field (by omega) (by omega) (by omega)) (star_field 0 6 (by omega)) rfl⟩
            · cases made

/-- The cadence is written in the forms that both parsers know. -/
def SharedNotation (table : Char → Option Nat) (cadence : Cadence) : Prop :=
  ∀ spec ∈ splitBlank cadence.cron, SharedField table spec

variable {zones : Text → Option Zone} {timezone : Text} {zone : Zone}

/-- The entry of a shared notation has the sets of the cadence. -/
theorem FiveFields.sync_entry {cadence : Cadence} {minute hour dayOfMonth month dayOfWeek : Text}
    {fields : CronFields}
    (five : FiveFields table cadence minute hour dayOfMonth month dayOfWeek fields)
    (documented : Documented table expand) (shared : SharedNotation table cadence)
    (known : zones timezone = some zone) :
    sync expand zones ⟨true, cadence, timezone⟩ = some
      ⟨fields.minutes, fields.hours, fields.daysOfMonth, fields.months, fields.daysOfWeek, zone⟩ := by
  unfold SharedNotation at shared
  rw [five.splits] at shared
  have minutes := (shared minute (by simp)).expands documented five.minutes
  have hours := (shared hour (by simp)).expands documented five.hours
  have doms := (shared dayOfMonth (by simp)).expands documented five.daysOfMonth
  have months := (shared month (by simp)).expands documented five.months
  have dows := (shared dayOfWeek (by simp)).expands documented five.daysOfWeek
  unfold sync
  simp only [five.splits, known, minutes, hours, doms, months, dows, Bool.not_true,
    Bool.false_eq_true, if_false]
  rfl

/-- The scheduler fires at the minutes that the domain selects. -/
def Aligned (table : Char → Option Nat) (expand : Expander) (zones : Text → Option Zone)
    (cadence : Cadence) : Prop :=
  ∀ timezone zone, validateTimezone zones timezone = some zone → ∀ instant,
    (selectedAt table cadence zone instant = true ↔
      dueAt expand zones ⟨true, cadence, timezone⟩ instant = true)

/-- The cadence restricts the day of the month and the day of the week. -/
def RestrictsBoth (table : Char → Option Nat) (cadence : Cadence) : Prop :=
  ∀ fields, cronFields table cadence.cron = .ok fields → fields.domRestricted ∧ fields.dowRestricted

/-- This is the conjunction that the crontab computes. -/
def CronFields.conjunction (fields : CronFields) (time : DateTime) : Bool :=
  (time.minute : Int) ∈ fields.minutes && (time.hour : Int) ∈ fields.hours &&
    (time.day : Int) ∈ fields.daysOfMonth && (time.month : Int) ∈ fields.months &&
    (cronDow time : Int) ∈ fields.daysOfWeek

theorem daysInMonth_le (year month : Nat) : daysInMonth year month ≤ 31 := by
  unfold daysInMonth
  split
  · split <;> omega
  · split <;> omega

theorem day_in_full (time : DateTime) : (time.day : Int) ∈ rangeSet 1 32 1 := by
  have bounds := time.dayBounds
  have long := daysInMonth_le time.year time.month
  exact mem_rangeSet_one.mpr (by omega)

theorem dow_in_full (time : DateTime) : (cronDow time : Int) ∈ rangeSet 0 7 1 := by
  have below : cronDow time < 7 := Nat.mod_lt _ (by omega)
  exact mem_rangeSet_one.mpr (by omega)

/-- Where one of the two days is unrestricted, the union is the conjunction. -/
theorem CronFields.matches_conjunction {fields : CronFields}
    (single : ¬ (fields.domRestricted ∧ fields.dowRestricted)) (time : DateTime) :
    fields.matchesTime time = fields.conjunction time := by
  simp only [CronFields.matchesTime, CronFields.conjunction, if_neg single]
  by_cases minute : (time.minute : Int) ∈ fields.minutes
  · by_cases hour : (time.hour : Int) ∈ fields.hours
    · by_cases month : (time.month : Int) ∈ fields.months
      · by_cases dom : fields.domRestricted
        · have full : fields.daysOfWeek = rangeSet 0 7 1 := by
            by_contra restricted
            exact single ⟨dom, restricted⟩
          simp [minute, hour, month, dom, full, dow_in_full time]
        · have full : fields.daysOfMonth = rangeSet 1 32 1 := by
            by_contra restricted
            exact dom restricted
          by_cases dow : fields.dowRestricted
          · simp [minute, hour, month, dom, dow, full, day_in_full time]
          · have whole : fields.daysOfWeek = rangeSet 0 7 1 := by
              by_contra restricted
              exact dow restricted
            simp [minute, hour, month, dom, dow, full, whole, day_in_full time, dow_in_full time]
      · simp [minute, hour, month]
    · simp [minute, hour]
  · simp [minute]

/-- This is the number of days of the month in a leap year. -/
def longestMonth (month : Nat) : Nat := daysInMonth 2000 month

/-- The date exists and falls on the day of the week in one of 28 years. -/
def fallsOn (month day weekday : Nat) : Bool :=
  (List.range 28).any fun offset => day ≤ daysInMonth (2000 + offset) month &&
    (weekdayOf (2000 + offset) month day + 1) % 7 = weekday

theorem falls_on_all : ((List.range 13).all fun month => (List.range 32).all fun day =>
    (List.range 7).all fun weekday => month = 0 || day = 0 || longestMonth month < day ||
      fallsOn month day weekday) = true := by
  decide +kernel

/-- Every day of a month falls on every day of the week in some year. -/
theorem falls_on {month day weekday : Nat} (months : 1 ≤ month ∧ month ≤ 12)
    (days : 1 ≤ day ∧ day ≤ longestMonth month) (weekdays : weekday < 7) :
    fallsOn month day weekday = true := by
  have long := daysInMonth_le 2000 month
  have falls := falls_on_all
  simp only [List.all_eq_true, List.mem_range] at falls
  have falls := falls month (by omega) day (by unfold longestMonth at days; omega) weekday weekdays
  rw [Bool.or_eq_true, Bool.or_eq_true, Bool.or_eq_true, decide_eq_true_eq, decide_eq_true_eq,
    decide_eq_true_eq] at falls
  rcases falls with ((none | none) | short) | falls
  · omega
  · omega
  · omega
  · exact falls

theorem longestMonth_long (month : Nat) : 28 ≤ longestMonth month := by
  unfold longestMonth daysInMonth
  split
  · decide
  · split <;> omega

/-- There is a time with these fields on a day of the week. -/
theorem exists_time (month day weekday hour minute : Nat) (months : 1 ≤ month ∧ month ≤ 12)
    (days : 1 ≤ day ∧ day ≤ longestMonth month) (weekdays : weekday < 7) (hours : hour < 24)
    (minutes : minute < 60) : ∃ time : DateTime, time.month = month ∧ time.day = day ∧
      time.hour = hour ∧ time.minute = minute ∧ cronDow time = weekday := by
  obtain ⟨offset, near, known⟩ := List.any_eq_true.mp (falls_on months days weekdays)
  have near := List.mem_range.mp near
  rw [Bool.and_eq_true, decide_eq_true_eq, decide_eq_true_eq] at known
  exact ⟨⟨2000 + offset, month, day, hour, minute, ⟨by omega, by omega⟩, months,
    ⟨days.1, known.1⟩, hours, minutes⟩, rfl, rfl, rfl, rfl, known.2⟩

variable {cadence : Cadence} {minute hour dayOfMonth month dayOfWeek : Text} {fields : CronFields}

theorem FiveFields.selected
    (five : FiveFields table cadence minute hour dayOfMonth month dayOfWeek fields)
    (zone : Zone) (instant : DateTime) :
    selectedAt table cadence zone instant = fields.matchesTime (zone instant) := by
  unfold selectedAt
  rw [five.cronFields_ok]

theorem FiveFields.due
    (five : FiveFields table cadence minute hour dayOfMonth month dayOfWeek fields)
    (documented : Documented table expand) (shared : SharedNotation table cadence)
    (known : zones timezone = some zone) (instant : DateTime) :
    dueAt expand zones ⟨true, cadence, timezone⟩ instant = fields.conjunction (zone instant) := by
  unfold dueAt
  rw [five.sync_entry documented shared known]
  rfl

/-- A field with a proper set misses a value within its bounds. -/
theorem exists_missing {spec : Text} {values : Finset Int} {low high : Int}
    (parses : parseField table spec low high = .ok values)
    (proper : values ≠ rangeSet low (high + 1) 1) :
    ∃ value, low ≤ value ∧ value ≤ high ∧ value ∉ values := by
  by_contra complete
  push Not at complete
  apply proper
  ext value
  rw [mem_rangeSet_one]
  constructor
  · intro member
    have within := (parseField_within parses).2 value member
    omega
  · intro bounds
    exact complete value bounds.1 (by omega)

/-- Where both days are restricted, some minute is in the union and not in the conjunction. -/
theorem FiveFields.exists_divergence
    (five : FiveFields table cadence minute hour dayOfMonth month dayOfWeek fields)
    (dom : fields.domRestricted) (dow : fields.dowRestricted) :
    ∃ time, fields.matchesTime time = true ∧ fields.conjunction time = false := by
  obtain ⟨⟨m, inMinutes⟩, minuteBounds⟩ := parseField_within five.minutes
  obtain ⟨⟨h, inHours⟩, hourBounds⟩ := parseField_within five.hours
  obtain ⟨⟨o, inMonths⟩, monthBounds⟩ := parseField_within five.months
  obtain ⟨⟨w, inWeek⟩, weekBounds⟩ := parseField_within five.daysOfWeek
  have domBounds := (parseField_within five.daysOfMonth).2
  have minuteWithin := minuteBounds m inMinutes
  have hourWithin := hourBounds h inHours
  have monthWithin := monthBounds o inMonths
  have weekWithin := weekBounds w inWeek
  have months : 1 ≤ o.toNat ∧ o.toNat ≤ 12 := by omega
  have restricted : fields.domRestricted ∧ fields.dowRestricted := ⟨dom, dow⟩
  have union (time : DateTime) (sameMonth : time.month = o.toNat) (sameHour : time.hour = h.toNat)
      (sameMinute : time.minute = m.toNat) : fields.matchesTime time =
        (decide ((time.day : Int) ∈ fields.daysOfMonth) ||
          decide ((cronDow time : Int) ∈ fields.daysOfWeek)) := by
    have minuteIn : (time.minute : Int) ∈ fields.minutes := by
      rw [sameMinute, Int.toNat_of_nonneg minuteWithin.1]
      exact inMinutes
    have hourIn : (time.hour : Int) ∈ fields.hours := by
      rw [sameHour, Int.toNat_of_nonneg hourWithin.1]
      exact inHours
    have monthIn : (time.month : Int) ∈ fields.months := by
      rw [sameMonth, Int.toNat_of_nonneg (by omega)]
      exact inMonths
    simp only [CronFields.matchesTime, minuteIn, hourIn, monthIn, restricted, not_true_eq_false,
      if_false, and_self, if_true]
  by_cases reachable : ∃ d ∈ fields.daysOfMonth, d ≤ longestMonth o.toNat
  · obtain ⟨d, inDays, short⟩ := reachable
    have dayWithin := domBounds d inDays
    obtain ⟨missing, above, below, absent⟩ := exists_missing five.daysOfWeek dow
    obtain ⟨time, sameMonth, sameDay, sameHour, sameMinute, falls⟩ := exists_time
      o.toNat d.toNat missing.toNat h.toNat m.toNat months (by omega) (by omega) (by omega) (by omega)
    have dayIn : (time.day : Int) ∈ fields.daysOfMonth := by
      rw [sameDay, Int.toNat_of_nonneg (by omega)]
      exact inDays
    have dowOut : (cronDow time : Int) ∉ fields.daysOfWeek := by
      rw [falls, Int.toNat_of_nonneg above]
      exact absent
    refine ⟨time, ?_, ?_⟩
    · rw [union time sameMonth sameHour sameMinute]
      simp [dayIn]
    · simp [CronFields.conjunction, dowOut]
  · push Not at reachable
    have first : (1 : Int) ∉ fields.daysOfMonth := by
      intro member
      have long := longestMonth_long o.toNat
      have late := reachable 1 member
      omega
    have long := longestMonth_long o.toNat
    obtain ⟨time, sameMonth, sameDay, sameHour, sameMinute, falls⟩ := exists_time
      o.toNat 1 w.toNat h.toNat m.toNat months (by omega) (by omega) (by omega) (by omega)
    have dayOut : (time.day : Int) ∉ fields.daysOfMonth := by
      rw [sameDay]
      exact first
    have dowIn : (cronDow time : Int) ∈ fields.daysOfWeek := by
      rw [falls, Int.toNat_of_nonneg weekWithin.1]
      exact inWeek
    refine ⟨time, ?_, ?_⟩
    · rw [union time sameMonth sameHour sameMinute]
      simp [dowIn]
    · simp [CronFields.conjunction, dayOut]

theorem validateTimezone_known (valid : validateTimezone zones timezone = some zone) :
    zones timezone = some zone := by
  unfold validateTimezone at valid
  split at valid
  · contradiction
  · exact valid

/-- The scheduler fires at exactly the selected minutes just when the cadence does not restrict both
the day of the month and the day of the week. -/
theorem aligned_iff (documented : Documented table expand) {zones : Text → Option Zone}
    (utc : zones "UTC".toList = some id) (accepted : Accepted table cadence)
    (shared : SharedNotation table cadence) :
    Aligned table expand zones cadence ↔ ¬ RestrictsBoth table cadence := by
  obtain ⟨minute, hour, dayOfMonth, month, dayOfWeek, fields, five⟩ := accepted.five
  have both : RestrictsBoth table cadence ↔ fields.domRestricted ∧ fields.dowRestricted := by
    constructor
    · exact fun restricts => restricts fields five.cronFields_ok
    · intro restricted other parses
      rw [five.cronFields_ok] at parses
      obtain rfl := Except.ok.inj parses
      exact restricted
  rw [both]
  constructor
  · intro aligned restricted
    obtain ⟨time, selected, undue⟩ := five.exists_divergence restricted.1 restricted.2
    have fires := (aligned "UTC".toList id utc time).mp
      (by rw [five.selected]; exact selected)
    rw [five.due documented shared utc] at fires
    exact Bool.false_ne_true (undue.symm.trans fires)
  · intro single timezone zone valid instant
    rw [five.selected, five.due documented shared (validateTimezone_known valid),
      CronFields.matches_conjunction single]

/-- These zones are UTC alone. -/
def utcZones (name : Text) : Option Zone := if name = "UTC".toList then some id else none

/-- This parser of the crontab expands a part as the domain does. -/
def partExpander : Expander := fun part low high => (parsePart (fun _ => none) part low high).toOption

/-- This cadence fires four times an hour on working days. -/
def workdayCadence : Cadence := ⟨"*/15 9-17 * * 1-5".toList, none⟩

theorem workdayCadence_shared : SharedNotation (fun _ => none) workdayCadence := by
  have splits : splitBlank workdayCadence.cron =
      ["*/15".toList, "9-17".toList, ['*'], ['*'], "1-5".toList] := by decide +kernel
  unfold SharedNotation
  rw [splits]
  intro spec member
  simp only [List.mem_cons, List.not_mem_nil, or_false] at member
  rcases member with rfl | rfl | rfl | rfl | rfl
  · intro part known
    obtain rfl := List.mem_singleton.mp known
    exact .starStep (natText 15) (natText_unsigned _ 15)
  · intro part known
    obtain rfl := List.mem_singleton.mp known
    exact .range (natText 9) (natText 17) (natText_unsigned _ 9) (natText_unsigned _ 17)
  · intro part known
    obtain rfl := List.mem_singleton.mp known
    exact .star
  · intro part known
    obtain rfl := List.mem_singleton.mp known
    exact .star
  · intro part known
    obtain rfl := List.mem_singleton.mp known
    exact .range (natText 1) (natText 5) (natText_unsigned _ 1) (natText_unsigned _ 5)

/-- A cadence of working days is aligned. -/
theorem aligned_iff_workdays :
    Aligned (fun _ => none) partExpander utcZones workdayCadence := by
  have accepted : Accepted (fun _ => none) workdayCadence :=
    .inl ⟨"*/15  9-17 * * 1-5".toList, rfl⟩
  refine (aligned_iff (parsePart_documented _) rfl accepted workdayCadence_shared).mpr fun both => ?_
  exact (both _ rfl).1 rfl

/-- This cadence restricts the day of the month and the day of the week. -/
def fridayThirteenth : Cadence := ⟨"0 0 13 * 5".toList, none⟩

/-- This is the midnight of a Friday that is not the 13th. -/
def otherFriday : DateTime :=
  (DateTime.make 2026 2 20 0 0).get (by decide)

/-- On a Friday that is not the 13th the domain selects midnight and the entry is not due. -/
theorem fridayThirteenth_unaligned :
    Accepted (fun _ => none) fridayThirteenth ∧
    selectedAt (fun _ => none) fridayThirteenth id otherFriday = true ∧
    dueAt partExpander utcZones ⟨true, fridayThirteenth, "UTC".toList⟩ otherFriday = false ∧
    ¬ Aligned (fun _ => none) partExpander utcZones fridayThirteenth := by
  have selected : selectedAt (fun _ => none) fridayThirteenth id otherFriday = true := by
    decide
  have undue : dueAt partExpander utcZones ⟨true, fridayThirteenth, "UTC".toList⟩ otherFriday = false := by
    decide
  refine ⟨.inl ⟨"0 0 13 * 5".toList, rfl⟩, selected, undue, fun aligned => ?_⟩
  have fires := (aligned "UTC".toList id rfl otherFriday).mp selected
  exact Bool.false_ne_true (undue.symm.trans fires)

/-- A scan ends at a selected minute. -/
theorem scan_selected {count : Nat} {candidate : Option DateTime} {found : DateTime}
    (scans : fields.scan zone count candidate = some found) :
    fields.matchesTime (zone found) = true := by
  induction count generalizing candidate with
  | zero => contradiction
  | succ count ih =>
      cases candidate with
      | none => contradiction
      | some time =>
          unfold CronFields.scan at scans
          split at scans
          · next selected =>
              obtain rfl := Option.some.inj scans
              exact selected
          · exact ih scans

/-- The stored next run of an aligned cadence is an instant at which the scheduler fires. -/
theorem computeNextRun_due (aligned : Aligned table expand zones cadence) {after found : DateTime}
    (next : computeNextRun table zones cadence timezone after = some found) :
    dueAt expand zones ⟨true, cadence, timezone⟩ found = true := by
  obtain ⟨zone, valid, scans⟩ := Option.bind_eq_some_iff.mp next
  obtain ⟨fields, parses, scans⟩ := Option.bind_eq_some_iff.mp scans
  apply (aligned timezone zone valid found).mp
  unfold selectedAt
  cases sets : cronFields table cadence.cron with
  | error error =>
      rw [sets] at parses
      contradiction
  | ok other =>
      rw [sets] at parses
      obtain rfl := Option.some.inj parses
      exact scan_selected scans

end LumenCopilot.Schedules
