/-
Points in time.

A timestamp is a date, a time of day and the distance of its zone from that of
Greenwich. It is kept as it was written, so that it can be written again;
`instant` tells which point in time it is.

* `Timestamp.parse?`: reads `2025-01-31T23:59:59.5+02:00`. An hour may have
  one digit and a comma may stand before the fraction; digits after the ninth
  are dropped.
* `Timestamp.text`: the written form, with `Z` for the zone of Greenwich.
* `Timestamp.atGreenwich`: the same instant in that zone.
-/

namespace SolidityCanvas

/-- A day of the calendar. -/
structure Date where
  year : Int
  month : Nat
  day : Nat
  deriving DecidableEq, Inhabited

namespace Date

/-- Whether a year has a 29th of February. -/
def isLeapYear (year : Int) : Bool :=
  year % 4 == 0 && (year % 100 != 0 || year % 400 == 0)

/-- The number of days of a month. -/
def daysInMonth (year : Int) (month : Nat) : Nat :=
  if month == 2 then (if isLeapYear year then 29 else 28)
  else if [4, 6, 9, 11].contains month then 30
  else 31

/-- Whether the calendar has the day. -/
def isValid (d : Date) : Bool :=
  1 ≤ d.month && d.month ≤ 12 && 1 ≤ d.day && d.day ≤ daysInMonth d.year d.month

/-- The day after. -/
def next (d : Date) : Date :=
  if d.day < daysInMonth d.year d.month then { d with day := d.day + 1 }
  else if d.month < 12 then { d with month := d.month + 1, day := 1 }
  else ⟨d.year + 1, 1, 1⟩

/-- The day before. -/
def previous (d : Date) : Date :=
  if 1 < d.day then { d with day := d.day - 1 }
  else if 1 < d.month then
    { d with month := d.month - 1, day := daysInMonth d.year (d.month - 1) }
  else ⟨d.year - 1, 12, 31⟩

/-- The day some days later, or earlier. -/
def shift (d : Date) : Int → Date
  | .ofNat n => n.repeat next d
  | .negSucc n => (n + 1).repeat previous d

/-- The number of days since the first day of the year one. -/
def number (d : Date) : Int :=
  let years := d.year - 1
  let months := (List.range (d.month - 1)).map fun m => daysInMonth d.year (m + 1)
  let days : Nat := months.foldl (· + ·) d.day
  365 * years + years.fdiv 4 - years.fdiv 100 + years.fdiv 400 + days - 1

end Date

/-- A point in time. `offset` is the number of minutes by which the zone is
ahead of that of Greenwich. -/
structure Timestamp where
  date : Date
  hour : Nat
  minute : Nat
  second : Nat
  nanosecond : Nat
  offset : Int
  deriving DecidableEq, Inhabited

namespace Timestamp

/-- The seconds since the start of the year one at Greenwich. -/
def instant (t : Timestamp) : Int :=
  ((t.date.number * 24 + t.hour) * 60 + t.minute - t.offset) * 60 + t.second

/-- Whether it is the start of the year one, which stands for no time. -/
def isZero (t : Timestamp) : Bool := t.instant == 0 && t.nanosecond == 0

/-- The same instant at Greenwich. -/
def atGreenwich (t : Timestamp) : Timestamp :=
  let minutes : Int := t.hour * 60 + t.minute - t.offset
  let rest := (minutes.fmod 1440).toNat
  { t with date := t.date.shift (minutes.fdiv 1440), hour := rest / 60, minute := rest % 60
           offset := 0 }

/-! ### Writing -/

/-- A number with at least `width` digits. -/
def padded (width n : Nat) : List Char :=
  let digits := Nat.toDigits 10 n
  List.replicate (width - digits.length) '0' ++ digits

/-- The fraction of a second without zeros at its end. -/
def fractionText (nanosecond : Nat) : List Char :=
  if nanosecond == 0 then []
  else '.' :: ((padded 9 nanosecond).reverse.dropWhile (· == '0')).reverse

/-- The zone. -/
def zoneText (offset : Int) : List Char :=
  if offset == 0 then ['Z']
  else (if offset < 0 then '-' else '+') ::
    (padded 2 (offset.natAbs / 60) ++ ':' :: padded 2 (offset.natAbs % 60))

/-- The written form. -/
def text (t : Timestamp) : String :=
  String.ofList <| (if t.date.year < 0 then ['-'] else []) ++ padded 4 t.date.year.natAbs ++
    '-' :: padded 2 t.date.month ++ '-' :: padded 2 t.date.day ++
    'T' :: padded 2 t.hour ++ ':' :: padded 2 t.minute ++ ':' :: padded 2 t.second ++
    fractionText t.nanosecond ++ zoneText t.offset

/-- Whether the written form can be read by everyone: the zone is less than a
day away. -/
def isPortable (t : Timestamp) : Bool := t.offset.natAbs / 60 < 24

/-! ### Reading -/

/-- The value of a digit. -/
def digit? (c : Char) : Option Nat :=
  if '0' ≤ c && c ≤ '9' then some (c.toNat - '0'.toNat) else none

/-- Reads a number of exactly `count` digits. -/
def digits? : Nat → Nat → List Char → Option (Nat × List Char)
  | 0, value, cs => some (value, cs)
  | count + 1, value, c :: cs => do
    let d ← digit? c
    digits? count (value * 10 + d) cs
  | _ + 1, _, [] => none

/-- Reads one or two digits. -/
def oneOrTwoDigits? (cs : List Char) : Option (Nat × List Char) :=
  match digits? 2 0 cs with
  | some r => some r
  | none => digits? 1 0 cs

/-- Reads a character. -/
def char? (c : Char) : List Char → Option (List Char)
  | d :: cs => if d == c then some cs else none
  | [] => none

/-- Reads a fraction of a second, if there is one. -/
def fraction (cs : List Char) : Nat × List Char :=
  match cs with
  | mark :: d :: rest =>
    if (mark == '.' || mark == ',') && (digit? d).isSome then
      let all := (d :: rest).takeWhile fun c => (digit? c).isSome
      let nine := (all ++ List.replicate 9 '0').take 9
      (nine.foldl (fun n c => n * 10 + (c.toNat - '0'.toNat)) 0, (d :: rest).drop all.length)
    else (0, cs)
  | _ => (0, cs)

/-- Reads a zone at the end of the text. -/
def zone? (cs : List Char) : Option Int :=
  match cs with
  | ['Z'] => some 0
  | sign :: rest => do
    let (hours, rest) ← digits? 2 0 rest
    let rest ← char? ':' rest
    let (minutes, rest) ← digits? 2 0 rest
    if !rest.isEmpty || hours > 24 || minutes > 60 then none
    let offset : Int := hours * 60 + minutes
    if sign == '+' then some offset
    else if sign == '-' then some (-offset)
    else none
  | [] => none

/-- Reads a timestamp. -/
def parse? (s : String) : Option Timestamp := do
  let (year, cs) ← digits? 4 0 s.toList
  let (month, cs) ← digits? 2 0 (← char? '-' cs)
  let (day, cs) ← digits? 2 0 (← char? '-' cs)
  let (hour, cs) ← oneOrTwoDigits? (← char? 'T' cs)
  let (minute, cs) ← digits? 2 0 (← char? ':' cs)
  let (second, cs) ← digits? 2 0 (← char? ':' cs)
  let (nanosecond, cs) := fraction cs
  let offset ← zone? cs
  let date : Date := ⟨year, month, day⟩
  if date.isValid && hour < 24 && minute < 60 && second < 60 then
    some { date, hour, minute, second, nanosecond, offset }
  else none

end Timestamp

end SolidityCanvas
