/-!
# Dates and moments

A day of the calendar, and a moment of a day, which may say how far its clock is from the common
one. The calendar is that of today for all years from 1 on.
-/
namespace ScriptHost.Settings

/-- What can be wrong with a date or a moment. -/
inductive MomentFault where
  | year (year : Nat)
  | month
  | day
  | hour
  | minute
  | second
  /-- A clock that is a day or more away from the common one, by so many minutes. -/
  | offset (minutes : Int)
  deriving DecidableEq, Repr

/-- A day. -/
structure Date where
  year : Nat
  month : Nat
  day : Nat
  deriving DecidableEq, Repr

/-- A moment, in parts down to a millionth of a second. -/
structure Moment where
  date : Date
  hour : Nat
  minute : Nat
  second : Nat
  fraction : Nat
  /-- How many minutes the clock is ahead of the common one. -/
  offset : Option Int
  deriving DecidableEq, Repr

/-- A number in decimal digits, at least so many. -/
def padded (width n : Nat) : String :=
  let ds := Nat.toDigits 10 n
  String.ofList (List.replicate (width - ds.length) '0' ++ ds)

/-- A length of time of so many minutes as a quoted token. -/
def spellMinutes (minutes : Int) : String :=
  let days := minutes.fdiv 1440
  let seconds := minutes.fmod 1440 * 60
  let parts := (if days = 0 then [] else [s!"days={days}"])
    ++ if seconds = 0 then [] else [s!"seconds={seconds}"]
  let parts := if parts.isEmpty then ["0"] else parts
  "datetime.timedelta(" ++ ", ".intercalate parts ++ ")"

def MomentFault.message : MomentFault → String
  | year y => s!"year {y} is out of range"
  | month => "month must be in 1..12"
  | day => "day is out of range for month"
  | hour => "hour must be in 0..23"
  | minute => "minute must be in 0..59"
  | second => "second must be in 0..59"
  | offset m => "offset must be a timedelta strictly between -timedelta(hours=24) and "
    ++ s!"timedelta(hours=24), not {spellMinutes m}."

namespace Date

/-- Every fourth year is a leap year, but of the full centuries only every fourth. -/
def isLeap (year : Nat) : Bool :=
  year % 4 == 0 && (year % 100 != 0 || year % 400 == 0)

/-- How many days a month has. -/
def daysIn (year month : Nat) : Nat :=
  if month = 2 then if isLeap year then 29 else 28
  else if [4, 6, 9, 11].contains month then 30 else 31

/-- Refuses what is no day. -/
def check (d : Date) : Except MomentFault Unit := do
  if d.year < 1 then throw (.year d.year)
  if d.month < 1 || 12 < d.month then throw .month
  if d.day < 1 || daysIn d.year d.month < d.day then throw .day

def text (d : Date) : String :=
  s!"{padded 4 d.year}-{padded 2 d.month}-{padded 2 d.day}"

/-- A date as a quoted token. -/
def spelled (d : Date) : String :=
  s!"datetime.date({d.year}, {d.month}, {d.day})"

/-- How many days there are before a date, from the first day of the year 1 on. -/
def dayNumber (d : Date) : Nat :=
  let y := d.year - 1
  let months := (List.range (d.month - 1)).map fun m => daysIn d.year (m + 1)
  y * 365 + y / 4 - y / 100 + y / 400 + months.foldl (· + ·) 0 + (d.day - 1)

/-- Four centuries have as many days as the calendar says. -/
example : dayNumber ⟨401, 1, 1⟩ = 146097 := by decide

end Date

namespace Moment

/-- Refuses what is no moment. -/
def check (m : Moment) : Except MomentFault Unit := do
  match m.offset with
  | some o => if 1440 ≤ o.natAbs then throw (.offset o)
  | none => pure ()
  m.date.check
  if 23 < m.hour then throw .hour
  if 59 < m.minute then throw .minute
  if 59 < m.second then throw .second

/-- How far a clock is from the common one. -/
def offsetText (o : Int) : String :=
  let n := o.natAbs
  (if o < 0 then "-" else "+") ++ padded 2 (n / 60) ++ ":" ++ padded 2 (n % 60)

def text (m : Moment) : String :=
  let fraction := if m.fraction = 0 then "" else "." ++ padded 6 m.fraction
  s!"{m.date.text} {padded 2 m.hour}:{padded 2 m.minute}:{padded 2 m.second}{fraction}"
    ++ (m.offset.map offsetText).getD ""

/-- A moment as a quoted token. Seconds that are zero are left out at the end. -/
def spelled (m : Moment) : String :=
  let d := m.date
  let last := if m.fraction ≠ 0 then [m.second, m.fraction]
    else if m.second ≠ 0 then [m.second] else []
  let numbers := ([d.year, d.month, d.day, m.hour, m.minute] ++ last).map fun n => s!"{n}"
  let clock := match m.offset with
    | none => []
    | some 0 => ["tzinfo=datetime.timezone.utc"]
    | some o => [s!"tzinfo=datetime.timezone({spellMinutes o})"]
  "datetime.datetime(" ++ ", ".intercalate (numbers ++ clock) ++ ")"

/-- The millionths of a second before a moment. -/
def ticks (m : Moment) : Int :=
  let minutes : Int := (m.date.dayNumber * 24 + m.hour) * 60 + m.minute
  ((minutes - m.offset.getD 0) * 60 + m.second) * 1000000 + m.fraction

/-- Whether two moments are the same. One that tells its clock is never one that does not. -/
def same (m n : Moment) : Bool :=
  m.offset.isSome == n.offset.isSome && m.ticks == n.ticks

end Moment

/-! ### Reading -/

/-- The digits at the front, at most so many, and what follows. -/
def takeDigits (most : Nat) (cs : List Char) : List Char × List Char :=
  let ds := (cs.take most).takeWhile Char.isDigit
  (ds, cs.drop ds.length)

/-- The number some decimal digits make. -/
def digitsNumber (ds : List Char) : Nat :=
  ds.foldl (fun a c => a * 10 + (c.toNat - '0'.toNat)) 0

/-- A moment as it is written. -/
structure Written where
  date : Date
  /-- Whether month and day have two digits. -/
  isFull : Bool
  time : Option Moment

namespace Written

/-- Digits of a number of places, then a character. -/
def field? (least most : Nat) (cs : List Char) : Option (List Char × List Char) :=
  let (ds, rest) := takeDigits most cs
  if ds.length < least then none else some (ds, rest)

/-- What follows a character. -/
def after? (c : Char) : List Char → Option (List Char)
  | d :: rest => if d = c then some rest else none
  | [] => none

/-- The clock at the end: nothing, the common one, or one ahead of it or behind. -/
def clock? (cs : List Char) : Option (Option Int) := do
  match cs.dropWhile fun c => c = ' ' || c = '\t' with
  | [] => if cs.isEmpty then some none else none
  | ['Z'] => some (some 0)
  | sign :: rest =>
    if sign ≠ '+' && sign ≠ '-' then none
    else
      let (hours, rest) ← field? 1 2 rest
      let minutes ← match rest with
        | [] => some []
        | ':' :: rest =>
          match field? 2 2 rest with
          | some (ms, []) => some ms
          | _ => none
        | _ => none
      let size : Int := (digitsNumber hours * 60 + digitsNumber minutes : Nat)
      some (some (if sign = '-' then -size else size))

/-- The moment after a date: blanks or a mark, then hours, minutes and seconds. -/
def time? (date : Date) (cs : List Char) : Option Moment := do
  let rest ← match cs with
    | 'T' :: rest | 't' :: rest => some rest
    | cs =>
      let rest := cs.dropWhile fun c => c = ' ' || c = '\t'
      if rest.length < cs.length then some rest else none
  let (hour, rest) ← field? 1 2 rest
  let (minute, rest) ← field? 2 2 (← after? ':' rest)
  let (second, rest) ← field? 2 2 (← after? ':' rest)
  let (fraction, rest) := match rest with
    | '.' :: rest => (rest.takeWhile Char.isDigit, rest.dropWhile Char.isDigit)
    | rest => ([], rest)
  let fraction := (fraction ++ List.replicate 6 '0').take 6
  return {
    date, hour := digitsNumber hour, minute := digitsNumber minute, second := digitsNumber second
    fraction := digitsNumber fraction, offset := ← clock? rest }

/-- A date or a moment as it is written, if it is one. -/
def read? (cs : List Char) : Option Written := do
  let (year, rest) ← field? 4 4 cs
  let (month, rest) ← field? 1 2 (← after? '-' rest)
  let (day, rest) ← field? 1 2 (← after? '-' rest)
  let date : Date := ⟨digitsNumber year, digitsNumber month, digitsNumber day⟩
  let isFull := month.length = 2 && day.length = 2
  if rest.isEmpty then return ⟨date, isFull, none⟩
  return ⟨date, isFull, some (← time? date rest)⟩

end Written

end ScriptHost.Settings
