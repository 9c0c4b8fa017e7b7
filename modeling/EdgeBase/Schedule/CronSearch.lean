import EdgeBase.Lib.Audit
import EdgeBase.Schedule.Cron

/-!
# The search for the minutes of a schedule

The search goes through the minutes of a schedule in their order, and 400 years are enough.

* `parseCron_parsed` : what a schedule is like that comes from an expression.
* `times`, `find_times` : the candidates, one after the other.
* `pairwise_times`, `mem_times` : they are in order, and they are the minutes of the schedule.
* `fireTimes` : the next and the last minute of a schedule are found, if it has a day at all.
-/

namespace EdgeBase.Cron

open List Calendar Direction

/-! ### Schedules -/

structure Values (min max : ℕ) (values : List ℕ) : Prop where
  nodup : values.Nodup
  nonempty : values ≠ []
  bounded : ∀ value ∈ values, min ≤ value ∧ value ≤ max

structure Parsed (schedule : CronSchedule) : Prop where
  minutes : Values 0 59 schedule.minutes
  hours : Values 0 23 schedule.hours
  daysOfMonth : Values 1 31 schedule.daysOfMonth
  months : Values 1 12 schedule.months

theorem mem_addAll {values added : List ℕ} {value : ℕ} :
    value ∈ addAll values added ↔ value ∈ values ∨ value ∈ added := by
  induction added generalizing values with
  | nil => simp [addAll]
  | cons first added ih =>
    rw [addAll, foldl_cons, ← addAll, ih]
    split_ifs with hmem
    · constructor
      · rintro (h | h)
        · exact .inl h
        · exact .inr (mem_cons_of_mem _ h)
      · rintro (h | h)
        · exact .inl h
        · rcases mem_cons.1 h with rfl | h
          · exact .inl hmem
          · exact .inr h
    · rw [mem_append, mem_singleton, mem_cons, or_assoc]

theorem nodup_addAll {values added : List ℕ} (h : values.Nodup) : (addAll values added).Nodup := by
  induction added generalizing values with
  | nil => exact h
  | cons first added ih =>
    rw [addAll, foldl_cons, ← addAll]
    refine ih ?_
    split_ifs with hmem
    · exact h
    · refine nodup_append.2
        ⟨h, nodup_singleton _, fun value hvalue value' hvalue' heq => ?_⟩
      exact hmem (mem_singleton.1 hvalue' ▸ heq ▸ hvalue)

theorem assertCronValue_ok {min max value : ℕ} {raw : List Char}
    (h : assertCronValue min max raw = .ok value) : min ≤ value ∧ value ≤ max := by
  unfold assertCronValue at h
  split_ifs at h with hout
  obtain rfl := Except.ok.inj h
  omega

theorem bounds_ok {min max first last : ℕ} {base : Base} {stepped : Bool} (hle : min ≤ max)
    (h : bounds min max base stepped = .ok (first, last)) :
    min ≤ first ∧ first ≤ last ∧ last ≤ max := by
  cases base with
  | all =>
    obtain ⟨rfl, rfl⟩ := Prod.mk.inj (Except.ok.inj h)
    exact ⟨le_rfl, hle, le_rfl⟩
  | value raw =>
    obtain ⟨value, hvalue, h⟩ := Except.bind_eq_ok.1 h
    obtain ⟨rfl, rfl⟩ := Prod.mk.inj (Except.ok.inj h)
    obtain ⟨hlow, hhigh⟩ := assertCronValue_ok hvalue
    cases stepped
    · exact ⟨hlow, le_rfl, hhigh⟩
    · exact ⟨hlow, hhigh, le_rfl⟩
  | range rawStart rawEnd =>
    obtain ⟨value, hvalue, h⟩ := Except.bind_eq_ok.1 h
    obtain ⟨value', hvalue', h⟩ := Except.bind_eq_ok.1 h
    split_ifs at h with hlt
    obtain ⟨rfl, rfl⟩ := Prod.mk.inj (Except.ok.inj h)
    exact ⟨(assertCronValue_ok hvalue).1, not_lt.1 hlt, (assertCronValue_ok hvalue').2⟩

theorem parsePart_ok {min max : ℕ} {rawPart : List Char} {added : List ℕ} (hle : min ≤ max)
    (h : parsePart min max rawPart = .ok added) :
    added ≠ [] ∧ ∀ value ∈ added, min ≤ value ∧ value ≤ max := by
  unfold parsePart at h
  dsimp only at h
  split_ifs at h with hempty
  split at h
  · cases h
  · next base rawStep _ =>
    split_ifs at h with hstep
    obtain ⟨⟨first, last⟩, hbounds, h⟩ := Except.bind_eq_ok.1 h
    obtain rfl := Except.ok.inj h
    obtain ⟨hlow, hmid, hhigh⟩ := bounds_ok hle hbounds
    refine ⟨cons_ne_nil _ _, fun value hvalue => ?_⟩
    obtain ⟨k, hk, rfl⟩ := mem_range'.1 hvalue
    dsimp only at hk
    have hmul := Nat.mul_div_le (last - first) ((rawStep.map number).getD 1)
    have hle' := Nat.mul_le_mul_left ((rawStep.map number).getD 1) (Nat.le_of_lt_succ hk)
    omega

theorem parseParts_ok {min max : ℕ} {values values' : List ℕ} {parts : List (List Char)}
    (hle : min ≤ max) (hnodup : values.Nodup) (hsome : values ≠ [] ∨ parts ≠ [])
    (hbounded : ∀ value ∈ values, min ≤ value ∧ value ≤ max)
    (h : parseParts min max values parts = .ok values') : Values min max values' := by
  induction parts generalizing values with
  | nil =>
    obtain rfl := Except.ok.inj h
    exact ⟨hnodup, hsome.resolve_right (not_not.2 rfl), hbounded⟩
  | cons part parts ih =>
    obtain ⟨added, hadd, h⟩ := Except.bind_eq_ok.1 h
    obtain ⟨hadded, hvalues⟩ := parsePart_ok hle hadd
    refine ih (nodup_addAll hnodup) (.inl ?_) (fun value hvalue => ?_) h
    · obtain ⟨value, hvalue⟩ := exists_mem_of_ne_nil _ hadded
      exact ne_nil_of_mem (mem_addAll.2 (.inr hvalue))
    · rcases mem_addAll.1 hvalue with hvalue | hvalue
      · exact hbounded value hvalue
      · exact hvalues value hvalue

theorem parseCronField_ok {field : List Char} {min max : ℕ} {values : List ℕ} (hle : min ≤ max)
    (h : parseCronField field min max = .ok values) : Values min max values :=
  parseParts_ok hle nodup_nil (.inr (splitOn_ne_nil _ _)) (forall_mem_nil _) h

theorem parseCron_parsed {expression : String} {schedule : CronSchedule}
    (h : parseCron expression = .ok schedule) : Parsed schedule := by
  unfold parseCron at h
  split at h
  · obtain ⟨daysOfWeek, -, h⟩ := Except.bind_eq_ok.1 h
    obtain ⟨minutes, hminutes, h⟩ := Except.bind_eq_ok.1 h
    obtain ⟨hours, hhours, h⟩ := Except.bind_eq_ok.1 h
    obtain ⟨daysOfMonth, hdays, h⟩ := Except.bind_eq_ok.1 h
    obtain ⟨months, hmonths, h⟩ := Except.bind_eq_ok.1 h
    obtain rfl := Except.ok.inj h
    exact ⟨parseCronField_ok (by decide) hminutes, parseCronField_ok (by decide) hhours,
      parseCronField_ok (by decide) hdays, parseCronField_ok (by decide) hmonths⟩
  · cases h

/-! ### Candidates -/

/-- The order in which a search goes through times. -/
def Direction.lt (direction : Direction) (a b : ℤ) : Prop := direction.sign * a < direction.sign * b

theorem Direction.lt_iff (direction : Direction) (a b : ℤ) :
    direction.lt a b ↔ direction = .forward ∧ a < b ∨ direction = .backward ∧ b < a := by
  cases direction <;> simp [Direction.lt, sign]

section Candidates

variable (schedule : CronSchedule) (direction : Direction)

def timeOf (day : ℤ) (hour minute : ℕ) : ℤ := day * msPerDay + (hour * 3600000 + minute * 60000)

def dayTimes (day : ℤ) : List ℤ :=
  (sortedCronValues schedule.hours direction).flatMap fun hour =>
    (sortedCronValues schedule.minutes direction).map fun minute => timeOf day hour minute

/-- Whether a date is one of the calendar, on a weekday of the schedule. -/
def onCalendar (year : ℤ) (month day : ℕ) : Bool :=
  let n := dayNumber year (month - 1) day
  yearOf n = year ∧ monthOf n + 1 = month ∧ (Calendar.dateOf n).toNat = day ∧
    (weekdayOf n).toNat ∈ schedule.daysOfWeek

def yearTimes (year : ℤ) : List ℤ :=
  (sortedCronValues schedule.months direction).flatMap fun month =>
    (sortedCronValues schedule.daysOfMonth direction).flatMap fun day =>
      if onCalendar schedule year month day then
        dayTimes schedule direction (dayNumber year (month - 1) day)
      else []

def times (startYear : ℤ) : List ℤ :=
  (years startYear direction).flatMap (yearTimes schedule direction)

def hits (fromTime time : ℤ) : Bool :=
  -maxTime ≤ time ∧ time ≤ maxTime ∧ direction.reaches fromTime time

variable {schedule direction} {fromTime : ℤ}

theorem findSome?_if {α β : Type*} (f : α → β) (p : β → Bool) (xs : List α) :
    (xs.findSome? fun x => if p (f x) then some (f x) else none) = (xs.map f).find? p := by
  induction xs with
  | nil => rfl
  | cons x xs ih =>
    rw [List.findSome?_cons, map_cons, List.find?_cons, ih]
    cases p (f x) <;> rfl

theorem candidate_eq (day : ℤ) (hour minute : ℕ) :
    (match setUTCHours (day * msPerDay) hour minute with
    | some candidateTime =>
      if direction.reaches fromTime candidateTime then some candidateTime else none
    | none => none) =
    if hits direction fromTime (timeOf day hour minute) then some (timeOf day hour minute)
    else none := by
  have hday : day * msPerDay / msPerDay = day := Int.mul_ediv_cancel _ (by decide)
  rw [setUTCHours, hday, ← timeOf, timeClip, hits]
  by_cases hclip : -maxTime ≤ timeOf day hour minute ∧ timeOf day hour minute ≤ maxTime
  · simp [hclip]
  · rw [if_neg hclip, if_neg]
    exact fun h => hclip ⟨(of_decide_eq_true h).1, (of_decide_eq_true h).2.1⟩

theorem searchDay_eq (day : ℤ) : searchDay schedule direction fromTime (day * msPerDay) =
      (dayTimes schedule direction day).find? (hits direction fromTime) := by
  unfold searchDay dayTimes
  rw [List.find?_flatMap]
  refine congrArg (List.findSome? · _) (funext fun hour => ?_)
  rw [← findSome?_if]
  exact congrArg (List.findSome? · _) (funext fun minute => candidate_eq day hour minute)

/-- A day that no `Date` can be on has no candidate that counts. -/
theorem find_dayTimes_of_clip (hhours : ∀ hour ∈ schedule.hours, hour ≤ 23)
    (hminutes : ∀ minute ∈ schedule.minutes, minute ≤ 59) {day : ℤ}
    (hclip : timeClip (day * msPerDay) = none) :
    (dayTimes schedule direction day).find? (hits direction fromTime) = none := by
  rw [List.find?_eq_none]
  intro time htime hhits
  obtain ⟨hlow, hhigh, -⟩ := of_decide_eq_true hhits
  obtain ⟨hour, hhour, htime⟩ := mem_flatMap.1 htime
  obtain ⟨minute, hminute, rfl⟩ := mem_map.1 htime
  have hhour := hhours hour (mem_mergeSort.1 hhour)
  have hminute := hminutes minute (mem_mergeSort.1 hminute)
  have hout : ¬(-maxTime ≤ day * msPerDay ∧ day * msPerDay ≤ maxTime) := by
    intro hin
    rw [timeClip, if_pos hin] at hclip
    cases hclip
  unfold timeOf maxTime msPerDay at *
  omega

theorem searchYear_eq (hparsed : Parsed schedule) (year : ℤ) :
    searchYear schedule direction fromTime year =
      (yearTimes schedule direction year).find? (hits direction fromTime) := by
  unfold searchYear yearTimes
  rw [List.find?_flatMap]
  refine congrArg (List.findSome? · _) (funext fun month => ?_)
  rw [List.find?_flatMap]
  refine congrArg (List.findSome? · _) (funext fun day => ?_)
  cases hday : utcCalendarDay year month day with
  | none =>
    split_ifs
    · exact (find_dayTimes_of_clip (fun hour hhour => (hparsed.hours.bounded hour hhour).2)
        (fun minute hminute => (hparsed.minutes.bounded minute hminute).2) hday).symm
    · rfl
  | some calendarDay =>
    have hcalendar : calendarDay = dayNumber year (month - 1) day * msPerDay := by
      rw [utcCalendarDay, timeClip] at hday
      split_ifs at hday
      exact (Option.some.inj hday).symm
    have hdiv : calendarDay / msPerDay = dayNumber year (month - 1) day := by
      rw [hcalendar]
      exact Int.mul_ediv_cancel _ (by decide)
    dsimp only
    rw [getUTCFullYear, getUTCMonth, getUTCDate, getUTCDay, hdiv, hcalendar, searchDay_eq]
    by_cases hon : onCalendar schedule year month day
    · obtain ⟨hyear, hmonth, hdate, hweek⟩ := of_decide_eq_true hon
      rw [if_pos hon, if_neg]
      rintro (h | h | h | h)
      · exact h hyear
      · exact h hmonth
      · exact h hdate
      · exact h hweek
    · rw [if_neg hon, if_pos, List.find?_nil]
      rw [onCalendar, decide_eq_true_eq] at hon
      tauto

theorem findCalendarFireTime_eq (hparsed : Parsed schedule) :
    findCalendarFireTime schedule (some fromTime) direction =
      match (times schedule direction (getUTCFullYear fromTime)).find?
        (hits direction fromTime) with
      | some time => .ok time
      | none => .error "Could not find fire time within one 400-year Gregorian calendar cycle" := by
  have hsearch : searchYear schedule direction fromTime =
      fun year => (yearTimes schedule direction year).find? (hits direction fromTime) :=
    funext fun year => searchYear_eq hparsed year
  have hfind : (times schedule direction (getUTCFullYear fromTime)).find? (hits direction fromTime) =
      (years (getUTCFullYear fromTime) direction).findSome?
        (searchYear schedule direction fromTime) := by
    rw [times, List.find?_flatMap, hsearch]
  rw [hfind]
  rfl

/-! ### The order of the candidates -/

theorem pairwise_sortedCronValues {values : List ℕ} (h : values.Nodup) :
    (sortedCronValues values direction).Pairwise fun (a b : ℕ) => direction.lt a b := by
  have htrans : ∀ a b c : ℕ, decide (direction.sign * (a - b : ℤ) ≤ 0) →
      decide (direction.sign * (b - c : ℤ) ≤ 0) → decide (direction.sign * (a - c : ℤ) ≤ 0) := by
    intro a b c hab hbc
    rw [decide_eq_true_eq] at *
    cases direction <;> simp only [sign] at * <;> omega
  have htotal : ∀ a b : ℕ, (decide (direction.sign * (a - b : ℤ) ≤ 0) ||
      decide (direction.sign * (b - a : ℤ) ≤ 0)) = true := by
    intro a b
    rw [Bool.or_eq_true, decide_eq_true_eq, decide_eq_true_eq]
    cases direction <;> simp only [sign] <;> omega
  have hsorted := pairwise_mergeSort htrans htotal values
  have hnodup : (sortedCronValues values direction).Nodup :=
    (mergeSort_perm values _).nodup_iff.2 h
  refine hsorted.imp₂ (fun a b hle hne => ?_) hnodup
  rw [decide_eq_true_eq] at hle
  rw [Direction.lt]
  cases direction <;> simp only [sign] at * <;> omega

theorem pairwise_years (startYear : ℤ) :
    (years startYear direction).Pairwise fun a b => direction.lt a b := by
  rw [years, pairwise_map]
  refine pairwise_lt_range.imp fun h => ?_
  rw [Direction.lt]
  cases direction <;> simp only [sign] <;> omega

theorem mem_years {startYear year : ℤ} : year ∈ years startYear direction ↔
    ∃ offset : ℕ, offset ≤ 400 ∧ year = startYear + direction.sign * offset := by
  simp only [years, GREGORIAN_CALENDAR_CYCLE_YEARS, mem_map, mem_range]
  constructor
  · rintro ⟨offset, hoffset, rfl⟩
    exact ⟨offset, Nat.le_of_lt_succ hoffset, rfl⟩
  · rintro ⟨offset, hoffset, rfl⟩
    exact ⟨offset, Nat.lt_succ_of_le hoffset, rfl⟩

theorem lt_of_dates {n n' : ℤ} (h : direction.lt (yearOf n) (yearOf n') ∨
      yearOf n = yearOf n' ∧
        (direction.lt (monthOf n) (monthOf n') ∨
          monthOf n = monthOf n' ∧
            direction.lt (Calendar.dateOf n) (Calendar.dateOf n'))) : direction.lt n n' := by
  simp only [lt_iff] at *
  cases direction with
  | forward =>
    refine .inl ⟨rfl, lt_of_civil_lt ?_⟩
    simpa using h
  | backward =>
    refine .inr ⟨rfl, lt_of_civil_lt ?_⟩
    simp only [reduceCtorEq, false_and, true_and, false_or, Nat.cast_lt] at h
    rwa [eq_comm (a := yearOf n'), eq_comm (a := monthOf n')]

structure MinuteOf (day time : ℤ) : Prop where
  le : day * msPerDay ≤ time
  lt : time < (day + 1) * msPerDay

theorem minuteOf_timeOf (day : ℤ) {hour minute : ℕ} (hhour : hour ≤ 23) (hminute : minute ≤ 59) :
    MinuteOf day (timeOf day hour minute) := by
  constructor <;> unfold timeOf msPerDay <;> omega

theorem lt_of_days {day day' time time' : ℤ} (h : direction.lt day day') (htime : MinuteOf day time)
    (htime' : MinuteOf day' time') : direction.lt time time' := by
  obtain ⟨hle, hlt⟩ := htime
  obtain ⟨hle', hlt'⟩ := htime'
  rw [lt_iff] at h ⊢
  unfold msPerDay at *
  rcases h with ⟨hdirection, h⟩ | ⟨hdirection, h⟩
  · exact .inl ⟨hdirection, by omega⟩
  · exact .inr ⟨hdirection, by omega⟩

theorem mem_yearTimes {year time : ℤ} : time ∈ yearTimes schedule direction year ↔
    ∃ month ∈ schedule.months, ∃ day ∈ schedule.daysOfMonth, onCalendar schedule year month day ∧
      ∃ hour ∈ schedule.hours, ∃ minute ∈ schedule.minutes,
        time = timeOf (dayNumber year (month - 1) day) hour minute := by
  simp only [yearTimes, dayTimes, sortedCronValues, mem_flatMap, mem_mergeSort]
  refine exists_congr fun month => and_congr_right fun _ => exists_congr fun day =>
    and_congr_right fun _ => ?_
  split_ifs with hon
  · simp only [mem_flatMap, mem_map, mem_mergeSort, hon, true_and, eq_comm]
  · simp [hon]

variable (hparsed : Parsed schedule)
include hparsed

theorem pairwise_dayTimes (day : ℤ) : (dayTimes schedule direction day).Pairwise direction.lt := by
  rw [dayTimes, pairwise_flatMap]
  constructor
  · intro hour _
    rw [pairwise_map]
    refine (pairwise_sortedCronValues hparsed.minutes.nodup).imp fun h => ?_
    rw [lt_iff] at h ⊢
    unfold timeOf
    rcases h with ⟨hdirection, h⟩ | ⟨hdirection, h⟩
    · exact .inl ⟨hdirection, by omega⟩
    · exact .inr ⟨hdirection, by omega⟩
  · refine (pairwise_sortedCronValues hparsed.hours.nodup).imp fun {hour hour'} h time htime time'
      htime' => ?_
    obtain ⟨minute, hminute, rfl⟩ := mem_map.1 htime
    obtain ⟨minute', hminute', rfl⟩ := mem_map.1 htime'
    have hle := (hparsed.minutes.bounded minute (mem_mergeSort.1 hminute)).2
    have hle' := (hparsed.minutes.bounded minute' (mem_mergeSort.1 hminute')).2
    rw [lt_iff] at h ⊢
    unfold timeOf
    rcases h with ⟨hdirection, h⟩ | ⟨hdirection, h⟩
    · exact .inl ⟨hdirection, by omega⟩
    · exact .inr ⟨hdirection, by omega⟩

theorem minuteOf_of_mem {day time : ℤ}
    (h : time ∈ dayTimes schedule direction day) : MinuteOf day time := by
  obtain ⟨hour, hhour, h⟩ := mem_flatMap.1 h
  obtain ⟨minute, hminute, rfl⟩ := mem_map.1 h
  exact minuteOf_timeOf day (hparsed.hours.bounded hour (mem_mergeSort.1 hhour)).2
    (hparsed.minutes.bounded minute (mem_mergeSort.1 hminute)).2

theorem exists_day {year time : ℤ} {month day : ℕ}
    (h : time ∈ if onCalendar schedule year month day then
      dayTimes schedule direction (dayNumber year (month - 1) day) else []) :
    ∃ n, MinuteOf n time ∧ yearOf n = year ∧ monthOf n + 1 = month ∧
      Calendar.dateOf n = day := by
  split_ifs at h with hon
  · obtain ⟨hyear, hmonth, hday, -⟩ := of_decide_eq_true hon
    refine ⟨_, minuteOf_of_mem hparsed h, hyear, hmonth, ?_⟩
    have hpos := (valid_civil (dayNumber year (month - 1) day)).2.1
    omega
  · cases h

theorem pairwise_times (startYear : ℤ) :
    (times schedule direction startYear).Pairwise direction.lt := by
  rw [times, pairwise_flatMap]
  refine ⟨fun year _ => ?_, (pairwise_years startYear).imp fun {year year'} h time htime time'
    htime' => ?_⟩
  · rw [yearTimes, pairwise_flatMap]
    refine ⟨fun month _ => ?_, (pairwise_sortedCronValues hparsed.months.nodup).imp
      fun {month month'} h time htime time' htime' => ?_⟩
    · rw [pairwise_flatMap]
      refine ⟨fun day _ => ?_, (pairwise_sortedCronValues hparsed.daysOfMonth.nodup).imp
        fun {day day'} h time htime time' htime' => ?_⟩
      · split_ifs
        · exact pairwise_dayTimes hparsed _
        · exact List.Pairwise.nil
      · obtain ⟨n, hn, hyear, hmonth, hday⟩ := exists_day hparsed htime
        obtain ⟨n', hn', hyear', hmonth', hday'⟩ := exists_day hparsed htime'
        refine lt_of_days (lt_of_dates (.inr ⟨hyear.trans hyear'.symm, .inr ⟨?_, ?_⟩⟩)) hn hn'
        · omega
        · rwa [hday, hday']
    · obtain ⟨day, -, htime⟩ := mem_flatMap.1 htime
      obtain ⟨day', -, htime'⟩ := mem_flatMap.1 htime'
      obtain ⟨n, hn, hyear, hmonth, -⟩ := exists_day hparsed htime
      obtain ⟨n', hn', hyear', hmonth', -⟩ := exists_day hparsed htime'
      refine lt_of_days (lt_of_dates (.inr ⟨hyear.trans hyear'.symm, .inl ?_⟩)) hn hn'
      rw [lt_iff] at h ⊢
      rcases h with ⟨hdirection, h⟩ | ⟨hdirection, h⟩
      · exact .inl ⟨hdirection, by omega⟩
      · exact .inr ⟨hdirection, by omega⟩
  · obtain ⟨month, -, htime⟩ := mem_flatMap.1 htime
    obtain ⟨month', -, htime'⟩ := mem_flatMap.1 htime'
    obtain ⟨day, -, htime⟩ := mem_flatMap.1 htime
    obtain ⟨day', -, htime'⟩ := mem_flatMap.1 htime'
    obtain ⟨n, hn, hyear, -⟩ := exists_day hparsed htime
    obtain ⟨n', hn', hyear', -⟩ := exists_day hparsed htime'
    exact lt_of_days (lt_of_dates (.inl (by rwa [hyear, hyear']))) hn hn'

omit hparsed

/-! ### The minutes of a schedule -/

def Fires (schedule : CronSchedule) (time : ℤ) : Prop :=
  time % 60000 = 0 ∧ matchesCron time schedule

def HasDay (schedule : CronSchedule) (day : ℤ) : Prop :=
  (Calendar.dateOf day).toNat ∈ schedule.daysOfMonth ∧
    monthOf day + 1 ∈ schedule.months ∧
      (weekdayOf day).toNat ∈ schedule.daysOfWeek

theorem fires_timeOf_iff {day : ℤ} {hour minute : ℕ} (hhour : hour ≤ 23) (hminute : minute ≤ 59) :
    Fires schedule (timeOf day hour minute) ↔
      hour ∈ schedule.hours ∧ minute ∈ schedule.minutes ∧ HasDay schedule day := by
  have hday : timeOf day hour minute / msPerDay = day := by
    unfold timeOf msPerDay
    omega
  have hhours : getUTCHours (timeOf day hour minute) = hour := by
    unfold getUTCHours timeOf msPerDay
    omega
  have hminutes : getUTCMinutes (timeOf day hour minute) = minute := by
    unfold getUTCMinutes timeOf msPerDay
    omega
  have haligned : timeOf day hour minute % 60000 = 0 := by
    unfold timeOf msPerDay
    omega
  rw [Fires, matchesCron, decide_eq_true_eq, hhours, hminutes, getUTCDate, getUTCMonth, getUTCDay,
    hday]
  unfold HasDay
  tauto

theorem exists_timeOf {time : ℤ} (h : time % 60000 = 0) :
    ∃ hour minute : ℕ, hour ≤ 23 ∧ minute ≤ 59 ∧ time = timeOf (time / msPerDay) hour minute := by
  refine ⟨(time / 3600000 % 24).toNat, (time / 60000 % 60).toNat, ?_, ?_, ?_⟩
  · omega
  · omega
  · unfold timeOf msPerDay
    omega

theorem mem_yearTimes_iff (hparsed : Parsed schedule) {year time : ℤ} :
    time ∈ yearTimes schedule direction year ↔
      Fires schedule time ∧ yearOf (time / msPerDay) = year := by
  rw [mem_yearTimes]
  constructor
  · rintro ⟨month, hmonth, day, hday, hon, hour, hhour, minute, hminute, rfl⟩
    obtain ⟨hyear, hmonth', hday', hweek⟩ := of_decide_eq_true hon
    have hhour' := (hparsed.hours.bounded hour hhour).2
    have hminute' := (hparsed.minutes.bounded minute hminute).2
    rw [fires_timeOf_iff hhour' hminute']
    have hdiv : timeOf (dayNumber year (month - 1) day) hour minute / msPerDay =
        dayNumber year (month - 1) day := by
      unfold timeOf msPerDay
      omega
    rw [hdiv]
    refine ⟨⟨hhour, hminute, ?_, ?_, hweek⟩, hyear⟩
    · rwa [hday']
    · rwa [hmonth']
  · rintro ⟨hfires, rfl⟩
    obtain ⟨hour, minute, hhour, hminute, htime⟩ := exists_timeOf hfires.1
    rw [htime, fires_timeOf_iff hhour hminute] at hfires
    obtain ⟨hhour', hminute', hdate, hmonth, hweek⟩ := hfires
    have hnumber : dayNumber (yearOf (time / msPerDay))
        (monthOf (time / msPerDay) + 1 - 1)
        ((Calendar.dateOf (time / msPerDay)).toNat : ℕ) = time / msPerDay := by
      have hpos := (valid_civil (time / msPerDay)).2.1
      rw [Nat.add_sub_cancel, Int.toNat_of_nonneg (by omega), dayNumber_civil]
    refine ⟨_, hmonth, _, hdate, ?_, hour, hhour', minute, hminute', ?_⟩
    · rw [onCalendar, hnumber]
      simpa using hweek
    · rw [hnumber]
      exact htime

/-! ### The cycle -/

def cycle : ℤ := 146097 * msPerDay

theorem fires_add_cycle {time : ℤ} (h : Fires schedule time) (k : ℤ) :
    Fires schedule (time + cycle * k) := by
  obtain ⟨hour, minute, hhour, hminute, htime⟩ := exists_timeOf h.1
  have hadd : time + cycle * k = timeOf (time / msPerDay + 146097 * k) hour minute := by
    unfold cycle timeOf msPerDay at *
    omega
  rw [htime, fires_timeOf_iff hhour hminute] at h
  rw [hadd, fires_timeOf_iff hhour hminute]
  obtain ⟨hhour', hminute', hday⟩ := h
  obtain ⟨-, hmonth, hdate⟩ := civil_add_cycle (time / msPerDay) k
  refine ⟨hhour', hminute', ?_⟩
  rwa [HasDay, hdate, hmonth, weekdayOf_add_cycle]

theorem exists_fires (hparsed : Parsed schedule) {day : ℤ} (hday : HasDay schedule day)
    (direction : Direction) (fromTime : ℤ) : ∃ time, Fires schedule time ∧
      direction.reaches fromTime time ∧ fromTime - cycle ≤ time ∧ time ≤ fromTime + cycle := by
  obtain ⟨hour, hhour⟩ := exists_mem_of_ne_nil _ hparsed.hours.nonempty
  obtain ⟨minute, hminute⟩ := exists_mem_of_ne_nil _ hparsed.minutes.nonempty
  have hfires : Fires schedule (timeOf day hour minute) :=
    (fires_timeOf_iff (hparsed.hours.bounded hour hhour).2
      (hparsed.minutes.bounded minute hminute).2).2 ⟨hhour, hminute, hday⟩
  generalize timeOf day hour minute = time at hfires
  cases direction with
  | forward =>
    refine ⟨_, fires_add_cycle hfires ((fromTime - time) / cycle + 1), ?_⟩
    rw [Direction.reaches, decide_eq_true_eq]
    unfold cycle msPerDay
    omega
  | backward =>
    refine ⟨_, fires_add_cycle hfires ((fromTime - time) / cycle), ?_⟩
    rw [Direction.reaches, decide_eq_true_eq]
    unfold cycle msPerDay
    omega

theorem lt_of_find {α : Type*} {R : α → α → Prop} {l : List α} {p : α → Bool} {x : α}
    (hl : l.Pairwise R) (h : l.find? p = some x) : ∀ y ∈ l, p y → y = x ∨ R x y := by
  induction l with
  | nil => exact fun _ hy => absurd hy not_mem_nil
  | cons a l ih =>
    obtain ⟨ha, hl⟩ := pairwise_cons.1 hl
    intro y hy hp
    rw [List.find?_cons] at h
    cases hpa : p a with
    | true =>
      rw [hpa] at h
      obtain rfl := Option.some.inj h
      exact (mem_cons.1 hy).imp_right (ha y)
    | false =>
      rw [hpa] at h
      rcases mem_cons.1 hy with rfl | hy
      · rw [hpa] at hp
        cases hp
      · exact ih hl h y hy hp

theorem mem_years_of_cycle {time : ℤ} (hreaches : direction.reaches fromTime time)
    (hlow : fromTime - cycle ≤ time) (hhigh : time ≤ fromTime + cycle) :
    yearOf (time / msPerDay) ∈ years (getUTCFullYear fromTime) direction := by
  have hcycle := (civil_add_cycle (fromTime / msPerDay) 1).1
  have hcycle' := (civil_add_cycle (fromTime / msPerDay) (-1)).1
  rw [mem_years, getUTCFullYear]
  cases direction with
  | forward =>
    have hlt : fromTime < time := of_decide_eq_true hreaches
    have hle : fromTime / msPerDay ≤ time / msPerDay ∧
        time / msPerDay ≤ fromTime / msPerDay + 146097 * 1 := by
      unfold cycle msPerDay at *
      omega
    have hmono := yearOf_mono hle.1
    have hmono' := yearOf_mono hle.2
    refine ⟨(yearOf (time / msPerDay) - yearOf (fromTime / msPerDay)).toNat,
      by omega, ?_⟩
    rw [sign]
    omega
  | backward =>
    have hge : time ≤ fromTime := of_decide_eq_true hreaches
    have hle : time / msPerDay ≤ fromTime / msPerDay ∧
        fromTime / msPerDay + 146097 * -1 ≤ time / msPerDay := by
      unfold cycle msPerDay at *
      omega
    have hmono := yearOf_mono hle.1
    have hmono' := yearOf_mono hle.2
    refine ⟨(yearOf (fromTime / msPerDay) - yearOf (time / msPerDay)).toNat,
      by omega, ?_⟩
    rw [sign]
    omega

variable (hparsed : Parsed schedule)
include hparsed

theorem mem_times_iff {startYear time : ℤ} : time ∈ times schedule direction startYear ↔
      Fires schedule time ∧ yearOf (time / msPerDay) ∈ years startYear direction := by
  rw [times, mem_flatMap]
  constructor
  · rintro ⟨year, hyear, htime⟩
    obtain ⟨hfires, rfl⟩ := (mem_yearTimes_iff hparsed).1 htime
    exact ⟨hfires, hyear⟩
  · rintro ⟨hfires, hyear⟩
    exact ⟨_, hyear, (mem_yearTimes_iff hparsed).2 ⟨hfires, rfl⟩⟩

theorem findCalendarFireTime_first
    (hlow : -maxTime ≤ fromTime - cycle) (hhigh : fromTime + cycle ≤ maxTime) {day : ℤ}
    (hday : HasDay schedule day) (direction : Direction) :
    ∃ time, findCalendarFireTime schedule (some fromTime) direction = .ok time ∧
      Fires schedule time ∧ direction.reaches fromTime time ∧
        ∀ time', Fires schedule time' → direction.reaches fromTime time' →
          time' = time ∨ direction.lt time time' := by
  obtain ⟨near, hfires, hreaches, hnear, hnear'⟩ :=
    exists_fires hparsed hday direction fromTime
  have hmem : near ∈ times schedule direction (getUTCFullYear fromTime) :=
    (mem_times_iff hparsed).2 ⟨hfires, mem_years_of_cycle hreaches hnear hnear'⟩
  have hhits : hits direction fromTime near :=
    decide_eq_true ⟨hlow.trans hnear, hnear'.trans hhigh, hreaches⟩
  rw [findCalendarFireTime_eq hparsed]
  cases hfind : (times schedule direction (getUTCFullYear fromTime)).find?
      (hits direction fromTime) with
  | none => exact absurd hhits (by simpa using List.find?_eq_none.1 hfind near hmem)
  | some time =>
    have hfirst := lt_of_find (pairwise_times hparsed _) hfind
    have hhit : hits direction fromTime time = true := List.find?_some hfind
    obtain ⟨-, -, hout⟩ := of_decide_eq_true hhit
    have htime := ((mem_times_iff hparsed).1 (List.mem_of_find?_eq_some hfind)).1
    refine ⟨time, rfl, htime, hout, fun time' hfires' hreaches' => ?_⟩
    -- what is farther away than 400 years comes after what is near
    by_cases hcycle : fromTime - cycle ≤ time' ∧ time' ≤ fromTime + cycle
    · refine hfirst time' ((mem_times_iff hparsed).2
        ⟨hfires', mem_years_of_cycle hreaches' hcycle.1 hcycle.2⟩) ?_
      exact decide_eq_true ⟨hlow.trans hcycle.1, hcycle.2.trans hhigh, hreaches'⟩
    · refine .inr ?_
      have hnearer := hfirst near hmem hhits
      rw [lt_iff] at *
      cases direction with
      | forward =>
        have hlt : fromTime < time' := of_decide_eq_true hreaches'
        refine .inl ⟨rfl, ?_⟩
        simp only [true_and, reduceCtorEq, false_and, or_false] at hnearer
        unfold cycle msPerDay at *
        omega
      | backward =>
        have hge : time' ≤ fromTime := of_decide_eq_true hreaches'
        refine .inr ⟨rfl, ?_⟩
        simp only [true_and, reduceCtorEq, false_and, false_or] at hnearer
        unfold cycle msPerDay at *
        omega

theorem findCalendarFireTime_error
    (hnone : ¬∃ day, HasDay schedule day) (fromTime : ℤ) (direction : Direction) :
    ∃ error, findCalendarFireTime schedule (some fromTime) direction = .error error := by
  have hnil : times schedule direction (getUTCFullYear fromTime) = [] := by
    refine eq_nil_iff_forall_not_mem.2 fun time htime => hnone ?_
    have hfires := ((mem_times_iff hparsed).1 htime).1
    obtain ⟨hour, minute, hhour, hminute, heq⟩ := exists_timeOf hfires.1
    rw [heq, fires_timeOf_iff hhour hminute] at hfires
    exact ⟨_, hfires.2.2⟩
  rw [findCalendarFireTime_eq hparsed, hnil, List.find?_nil]
  exact ⟨_, rfl⟩

end Candidates

/-- The next minute of a schedule and the last one are found, and nothing is found only if the
schedule has no day. -/
theorem fireTimes {expression : String} {schedule : CronSchedule} {t : ℤ}
    (hparse : parseCron expression = .ok schedule) (hlow : -maxTime ≤ t - cycle)
    (hhigh : t + cycle ≤ maxTime) : (∀ next, getNextFireTime schedule (some t) = .ok next →
      IsLeast {time | Fires schedule time ∧ t < time} next) ∧
    (∀ last, getPreviousFireTime schedule (some t) = .ok last →
      IsGreatest {time | Fires schedule time ∧ time ≤ t} last) ∧
    ((∃ error, getNextFireTime schedule (some t) = .error error) ↔ ¬∃ day, HasDay schedule day) ∧
    ((∃ error, getPreviousFireTime schedule (some t) = .error error) ↔
      ¬∃ day, HasDay schedule day) := by
  have hparsed := parseCron_parsed hparse
  unfold getNextFireTime getPreviousFireTime
  by_cases hday : ∃ day, HasDay schedule day
  · obtain ⟨day, hday⟩ := hday
    obtain ⟨next, hnext, hfires, hlt, hleast⟩ :=
      findCalendarFireTime_first hparsed hlow hhigh hday .forward
    obtain ⟨last, hlast, hfires', hle, hgreatest⟩ :=
      findCalendarFireTime_first hparsed hlow hhigh hday .backward
    rw [hnext, hlast]
    refine ⟨?_, ?_, ?_, ?_⟩
    · rintro _ ⟨⟩
      refine ⟨⟨hfires, of_decide_eq_true hlt⟩, fun time htime => ?_⟩
      rcases hleast time htime.1 (decide_eq_true htime.2) with rfl | h
      · exact le_rfl
      · rw [lt_iff] at h
        simp only [true_and, reduceCtorEq, false_and, or_false] at h
        exact h.le
    · rintro _ ⟨⟩
      refine ⟨⟨hfires', of_decide_eq_true hle⟩, fun time htime => ?_⟩
      rcases hgreatest time htime.1 (decide_eq_true htime.2) with rfl | h
      · exact le_rfl
      · rw [lt_iff] at h
        simp only [true_and, reduceCtorEq, false_and, false_or] at h
        exact h.le
    · exact iff_of_false (fun ⟨_, h⟩ => nomatch h) (not_not.2 ⟨day, hday⟩)
    · exact iff_of_false (fun ⟨_, h⟩ => nomatch h) (not_not.2 ⟨day, hday⟩)
  · obtain ⟨error, herror⟩ := findCalendarFireTime_error hparsed hday t .forward
    obtain ⟨error', herror'⟩ := findCalendarFireTime_error hparsed hday t .backward
    rw [herror, herror']
    refine ⟨fun _ h => ?_, fun _ h => ?_, ?_, ?_⟩
    · cases h
    · cases h
    · exact iff_of_true ⟨error, rfl⟩ hday
    · exact iff_of_true ⟨error', rfl⟩ hday

/-- The schedule of the system's maintenance, from the first time value on. -/
theorem fireTimes_maintenance : ∃ schedule, parseCron "0 3 * * *" = .ok schedule ∧
    (∀ next, getNextFireTime schedule (some 0) = .ok next →
      IsLeast {time | Fires schedule time ∧ 0 < time} next) ∧
    ∀ last, getPreviousFireTime schedule (some 0) = .ok last →
      IsGreatest {time | Fires schedule time ∧ time ≤ 0} last := by
  have hparse : parseCron "0 3 * * *" =
      .ok ⟨[0], [3], List.range' 1 31, List.range' 1 12, List.range 7⟩ := by decide +kernel
  have hfires := fireTimes hparse (t := 0) (by decide) (by decide)
  exact ⟨_, hparse, hfires.1, hfires.2.1⟩

end EdgeBase.Cron
