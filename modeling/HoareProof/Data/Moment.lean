import HoareProof.Text.Split

namespace HoareProof

/-!
Dates and moments.  A date is a day of the calendar; a moment is a date with a
time of day, and with a distance from universal time if one is known.  What is
written as a date need not be one, so each part is checked against its range.
-/

/-- A number with zeros on its left to a width. -/
def padded (width n : Nat) : String :=
  let digits := Nat.toDigits 10 n
  String.ofList (List.replicate (width - digits.length) '0' ++ digits)

def signedText (n : Int) : String :=
  let digits := String.ofList (Nat.toDigits 10 n.natAbs)
  if n < 0 then "-" ++ digits else digits

/-- A span of minutes, as whole days and the seconds beyond them. -/
def spanText (minutes : Int) : String :=
  let days := minutes.fdiv 1440
  let seconds := 60 * minutes.fmod 1440
  let parts := (if days = 0 then [] else ["days=" ++ signedText days]) ++
    (if seconds = 0 then [] else ["seconds=" ++ signedText seconds])
  "datetime.timedelta(" ++ (if parts.isEmpty then "0" else Text.joinWith ", " parts) ++ ")"

/-- What is wrong with a date or a moment. -/
inductive DateFault where
  | year (value : Nat)
  | month
  | day
  | hour
  | minute
  | second
  | zone (minutes : Int)
deriving DecidableEq, Repr

def DateFault.message : DateFault -> String
  | .year value => "year " ++ toString value ++ " is out of range"
  | .month => "month must be in 1..12"
  | .day => "day is out of range for month"
  | .hour => "hour must be in 0..23"
  | .minute => "minute must be in 0..59"
  | .second => "second must be in 0..59"
  | .zone minutes =>
    "offset must be a timedelta strictly between -timedelta(hours=24) and timedelta(hours=24), not " ++
      spanText minutes ++ "."

def daysOf (year month : Nat) : Nat :=
  if month = 2 then
    if year % 4 = 0 && (year % 100 != 0 || year % 400 = 0) then 29 else 28
  else if month = 4 || month = 6 || month = 9 || month = 11 then 30
  else 31

structure Date where
  year : Nat
  month : Nat
  day : Nat
deriving DecidableEq, Repr

namespace Date

def fault? (date : Date) : Option DateFault :=
  if date.year = 0 || 9999 < date.year then some (.year date.year)
  else if date.month = 0 || 12 < date.month then some .month
  else if date.day = 0 || daysOf date.year date.month < date.day then some .day
  else none

/-- A date on its own. -/
def display (date : Date) : String :=
  padded 4 date.year ++ "-" ++ padded 2 date.month ++ "-" ++ padded 2 date.day

def parts (date : Date) : List Nat := [date.year, date.month, date.day]

/-- A date inside a list or a map. -/
def quoted (date : Date) : String :=
  "datetime.date(" ++ Text.joinWith ", " (date.parts.map toString) ++ ")"

end Date

/-- A date with a time of day.  The zone is a distance in minutes from
universal time. -/
structure Moment where
  date : Date
  hour : Nat
  minute : Nat
  second : Nat
  microsecond : Nat
  zone : Option Int
deriving DecidableEq, Repr

namespace Moment

/-- A zone lies less than a day from universal time. -/
def zoneFault? (zone : Option Int) : Option DateFault :=
  match zone with
  | some minutes => if 1440 ≤ minutes.natAbs then some (.zone minutes) else none
  | none => none

def timeFault? (moment : Moment) : Option DateFault :=
  if 23 < moment.hour then some .hour
  else if 59 < moment.minute then some .minute
  else if 59 < moment.second then some .second
  else none

/-- The first thing wrong with a moment, if anything is.  The zone comes
first. -/
def fault? (moment : Moment) : Option DateFault :=
  (zoneFault? moment.zone).orElse fun _ => moment.date.fault?.orElse fun _ => moment.timeFault?

def daysBefore (date : Date) : Nat :=
  let years := date.year - 1
  365 * years + years / 4 - years / 100 + years / 400 +
    (List.range (date.month - 1)).foldl (fun days month => days + daysOf date.year (month + 1)) 0 +
      date.day

/-- The microseconds up to a moment in its own zone. -/
def ownTime (moment : Moment) : Nat :=
  (((daysBefore moment.date * 24 + moment.hour) * 60 + moment.minute) * 60 + moment.second) *
    1000000 + moment.microsecond

/-- Whether two moments are the same point in time.  A moment without a zone is
never the same as one with a zone. -/
def sameInstant (a b : Moment) : Bool :=
  match a.zone, b.zone with
  | none, none => a.ownTime == b.ownTime
  | some m, some n => (a.ownTime : Int) - 60000000 * m == b.ownTime - 60000000 * n
  | _, _ => false

def zoneText (minutes : Int) : String :=
  (if minutes < 0 then "-" else "+") ++ padded 2 (minutes.natAbs / 60) ++ ":" ++
    padded 2 (minutes.natAbs % 60)

def display (moment : Moment) : String :=
  moment.date.display ++ " " ++ padded 2 moment.hour ++ ":" ++ padded 2 moment.minute ++ ":" ++
    padded 2 moment.second ++
    (if moment.microsecond = 0 then "" else "." ++ padded 6 moment.microsecond) ++
    ((moment.zone.map zoneText).getD "")

def quotedZone (minutes : Int) : String :=
  "tzinfo=datetime.timezone" ++
    (if minutes = 0 then ".utc" else "(" ++ spanText minutes ++ ")")

/-- A moment inside a list or a map.  Seconds are left out if they are zero with
everything below them. -/
def quoted (moment : Moment) : String :=
  let fine :=
    if moment.microsecond != 0 then [moment.second, moment.microsecond]
    else if moment.second != 0 then [moment.second]
    else []
  let parts := (moment.date.parts ++ [moment.hour, moment.minute] ++ fine).map toString
  "datetime.datetime(" ++ Text.joinWith ", " (parts ++ (moment.zone.map quotedZone).toList) ++ ")"

end Moment
end HoareProof
