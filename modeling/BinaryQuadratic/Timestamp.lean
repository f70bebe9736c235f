import BinaryQuadratic.Fault

/-!
Calendar dates and times, which configurations can hold and which only messages show.
-/

namespace BinaryQuadratic

/-- A time of day, in microseconds behind the second, and the minutes east of the meridian where
they are given. -/
structure ClockTime where
  hour : Nat
  minute : Nat
  second : Nat
  microsecond : Nat
  offset : Option Int
  deriving DecidableEq, Repr

structure Timestamp where
  year : Nat
  month : Nat
  day : Nat
  time : Option ClockTime
  deriving DecidableEq, Repr

namespace Timestamp

def isLeapYear (year : Nat) : Bool :=
  year % 4 = 0 && (year % 100 ≠ 0 || year % 400 = 0)

def daysInMonth (year month : Nat) : Nat :=
  if month = 2 then (if isLeapYear year then 29 else 28)
  else if month = 4 || month = 6 || month = 9 || month = 11 then 30
  else 31

def dayNumber (t : Timestamp) : Nat :=
  let year := t.year - 1
  let leapDays := year / 4 - year / 100 + year / 400
  let months := (List.range' 1 (t.month - 1)).foldl (fun days m => days + daysInMonth t.year m) 0
  365 * year + leapDays + months + t.day - 1

def localMicroseconds (t : Timestamp) (c : ClockTime) : Int :=
  (((t.dayNumber * 24 + c.hour) * 60 + c.minute) * 60 + c.second) * 1000000 + c.microsecond

def instant (t : Timestamp) (c : ClockTime) (offset : Int) : Int :=
  t.localMicroseconds c - offset * 60000000

/-- Dates are equal when they are the same day. Times with an offset are equal when they are the
same instant, and are never equal to times without one. -/
def equals (s t : Timestamp) : Bool :=
  match s.time, t.time with
  | some c, some d =>
    match c.offset, d.offset with
    | some m, some n => s.instant c m = t.instant d n
    | _, _ => s = t
  | _, _ => s = t

def spanText (seconds : Int) : String :=
  let days := seconds / 86400
  let rest := seconds % 86400
  let parts := (if days = 0 then [] else [s!"days={days}"]) ++
    (if rest = 0 then [] else [s!"seconds={rest}"])
  "datetime.timedelta(" ++ (if parts.isEmpty then "0" else ", ".intercalate parts) ++ ")"

def checkOffset (t : Timestamp) : Except Fault Unit :=
  match t.time.bind ClockTime.offset with
  | some minutes =>
    if minutes.natAbs < 1440 then .ok () else .error (.offsetRange (spanText (minutes * 60)))
  | none => .ok ()

def check (t : Timestamp) : Except Fault Timestamp := do
  t.checkOffset
  if t.year = 0 then throw (.yearRange t.year)
  if t.month = 0 || 12 < t.month then throw .monthRange
  if t.day = 0 || daysInMonth t.year t.month < t.day then throw .dayRange
  match t.time with
  | none => pure t
  | some c =>
    if 23 < c.hour then throw .hourRange
    if 59 < c.minute then throw .minuteRange
    if 59 < c.second then throw .secondRange
    pure t

def padded (width n : Nat) : String :=
  let digits := toString n
  String.ofList (List.replicate (width - digits.length) '0') ++ digits

def dateText (t : Timestamp) : String :=
  padded 4 t.year ++ "-" ++ padded 2 t.month ++ "-" ++ padded 2 t.day

def offsetText (minutes : Int) : String :=
  (if minutes < 0 then "-" else "+") ++ padded 2 (minutes.natAbs / 60) ++ ":" ++
    padded 2 (minutes.natAbs % 60)

def render (t : Timestamp) : String :=
  match t.time with
  | none => t.dateText
  | some c =>
    t.dateText ++ " " ++ padded 2 c.hour ++ ":" ++ padded 2 c.minute ++ ":" ++
      padded 2 c.second ++
      (if c.microsecond = 0 then "" else "." ++ padded 6 c.microsecond) ++
      (c.offset.map offsetText).getD ""

def quoted (t : Timestamp) : String :=
  match t.time with
  | none => s!"datetime.date({t.year}, {t.month}, {t.day})"
  | some c =>
    let seconds := if c.second = 0 && c.microsecond = 0 then [] else [toString c.second]
    let fraction := if c.microsecond = 0 then [] else [toString c.microsecond]
    let zone := match c.offset with
      | none => []
      | some 0 => ["tzinfo=datetime.timezone.utc"]
      | some minutes => ["tzinfo=datetime.timezone(" ++ spanText (minutes * 60) ++ ")"]
    "datetime.datetime(" ++ ", ".intercalate
      ([toString t.year, toString t.month, toString t.day, toString c.hour, toString c.minute] ++
        seconds ++ fraction ++ zone) ++ ")"

end Timestamp

end BinaryQuadratic
