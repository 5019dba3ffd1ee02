import WireShapes.Scalar.Integer

/-!
# Timestamps

A point in time with the offset it was written in, read from the Internet date and time format:
`YYYY-MM-DD`, one ASCII character, `hh:mm:ss`, an optional fraction of which nine digits count, and
`Z` or a signed `hh:mm` offset.  A leap second is accepted at the end of a month in universal time
only, and is read as the last nanosecond before it.
-/

namespace WireShapes.Scalar

/-- Seconds since 1970 in universal time, a fraction in nanoseconds, and the offset it was written
in, in seconds to the east. -/
structure Timestamp where
  seconds : Int
  nanos : Nat
  offset : Int
deriving DecidableEq

namespace Timestamp

def isLeapYear (year : Nat) : Bool :=
  year % 4 == 0 && (year % 100 != 0 || year % 400 == 0)

def daysInMonth (year month : Nat) : Nat :=
  match month with
  | 2 => if isLeapYear year then 29 else 28
  | 4 | 6 | 9 | 11 => 30
  | _ => 31

/-- Days from the first of January of year 0 to the first of January of a year. -/
def daysBeforeYear (year : Nat) : Nat :=
  if year = 0 then 0
  else 365 * year + (year - 1) / 4 + 1 - (year - 1) / 100 + (year - 1) / 400

/-- Days from the start of a year to the start of a month. -/
def daysBeforeMonth (year month : Nat) : Nat :=
  ((List.range month).drop 1).foldl (fun days m => days + daysInMonth year m) 0

/-- Days from the first of January 1970 to a date. -/
def daysSinceEpoch (year month day : Nat) : Int :=
  (daysBeforeYear year + daysBeforeMonth year month + (day - 1) : Nat) - (daysBeforeYear 1970 : Nat)

/-- The next `count` digits as a number, and the rest. -/
def digits? : Nat → Nat → List Char → Option (Nat × List Char)
  | 0, n, cs => some (n, cs)
  | count + 1, n, c :: cs => (digit? c).bind fun d => digits? count (10 * n + d) cs
  | _ + 1, _, [] => none

/-- Two digits. -/
def two? (cs : List Char) : Option (Nat × List Char) :=
  digits? 2 0 cs

/-- The rest after an expected character. -/
def after? (c : Char) : List Char → Option (List Char)
  | [] => none
  | x :: rest => if x == c then some rest else none

/-- The digits of a fraction, each weighing a tenth of the one before. -/
def fractionFrom (weight nanos : Nat) : List Char → Nat × List Char
  | [] => (nanos, [])
  | c :: rest =>
    match digit? c with
    | some d => fractionFrom (weight / 10) (nanos + d * weight) rest
    | none => (nanos, c :: rest)

/-- An optional fraction of a second. -/
def fraction? : List Char → Option (Nat × List Char)
  | '.' :: c :: rest =>
    if (digit? c).isSome then some (fractionFrom 100000000 0 (c :: rest)) else none
  | ['.'] => none
  | cs => some (0, cs)

/-- The offset that ends a timestamp, in seconds to the east. -/
def offset? : List Char → Option Int
  | ['Z'] | ['z'] => some 0
  | sign :: rest => do
    let (hours, rest) ← two? rest
    let rest ← after? ':' rest
    let (minutes, rest) ← two? rest
    if rest.isEmpty && hours ≤ 23 && minutes ≤ 59 then
      let size : Int := (hours * 3600 + minutes * 60 : Nat)
      if sign == '+' then some size else if sign == '-' then some (-size) else none
    else none
  | [] => none

/-- The date and the character that separates it from the time. -/
def date? (cs : List Char) : Option ((Nat × Nat × Nat) × List Char) := do
  let (year, cs) ← digits? 4 0 cs
  let cs ← after? '-' cs
  let (month, cs) ← two? cs
  let cs ← after? '-' cs
  let (day, cs) ← two? cs
  match cs with
  | separator :: cs =>
    if separator.toNat < 128 && 1 ≤ month && month ≤ 12 && 1 ≤ day && day ≤ daysInMonth year month
    then some ((year, month, day), cs)
    else none
  | [] => none

/-- Whether the last minute of a month in universal time ends with the second that starts here. -/
def endsMonth (seconds : Int) : Bool :=
  let day := seconds / 86400
  seconds % 86400 == 86399 && isFirstOfMonth (day + 1)
where
  /-- Looks for the day among the first days of the months of the years that texts can name. -/
  isFirstOfMonth (day : Int) : Bool :=
    let year := yearOf day
    (List.range 13).any fun month => month != 0 && daysSinceEpoch year month 1 == day
  /-- The year, from 0 on, that a day lies in: at most one off the mean length of a year. -/
  yearOf (day : Int) : Nat :=
    let days := day + (daysBeforeYear 1970 : Nat)
    let guess := (days * 400 / 146097).toNat
    if days < (daysBeforeYear guess : Nat) then guess - 1
    else if (daysBeforeYear (guess + 1) : Nat) ≤ days then guess + 1
    else guess

/-- Puts a time of day on a date, a sixtieth second being the leap second. -/
def assemble? (date : Nat × Nat × Nat) (hour minute second nanos : Nat) (offset : Int) :
    Option Timestamp :=
  let (year, month, day) := date
  let clock (second : Nat) : Int :=
    daysSinceEpoch year month day * 86400 + (hour * 3600 + minute * 60 + second : Nat) - offset
  if hour ≤ 23 && minute ≤ 59 then
    if second ≤ 59 then some ⟨clock second, nanos, offset⟩
    else if second = 60 ∧ endsMonth (clock 59) then some ⟨clock 59, 999999999, offset⟩
    else none
  else none

/-- The timestamp that a text stands for. -/
def read? (cs : List Char) : Option Timestamp := do
  let (date, cs) ← date? cs
  let (hour, cs) ← two? cs
  let cs ← after? ':' cs
  let (minute, cs) ← two? cs
  let cs ← after? ':' cs
  let (second, cs) ← two? cs
  let (nanos, cs) ← fraction? cs
  let offset ← offset? cs
  assemble? date hour minute second nanos offset

/-- The timestamp that a text stands for, blanks around it aside. -/
def ofText? (text : String) : Option Timestamp :=
  read? (Text.trim text).toList

end Timestamp

end WireShapes.Scalar
