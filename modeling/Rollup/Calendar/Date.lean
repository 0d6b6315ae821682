import Rollup.Text.Digits

/-
Dates of the proleptic Gregorian calendar, kept as days since 1 January 1970.

Years run from -262143 to 262142, with a year zero.  Conversion works in cycles of 400
years, each of which has 146097 days, and in years that begin on 1 March, which puts the
leap day last.
-/

namespace Rollup

structure Date where
  day : Int
  lower : -96465292 ≤ day
  upper : day ≤ 95026236
deriving DecidableEq

/-- Year, month and day of the month. -/
structure Civil where
  year : Int
  month : Nat
  day : Nat
deriving DecidableEq

namespace Civil

def isLeap (year : Int) : Bool := year % 4 == 0 && (year % 100 != 0 || year % 400 == 0)

def monthLength (year : Int) (month : Nat) : Nat :=
  if month == 2 then (if isLeap year then 29 else 28)
  else if month == 4 || month == 6 || month == 9 || month == 11 then 30
  else 31

def isValid (c : Civil) : Bool :=
  1 ≤ c.month && c.month ≤ 12 && 1 ≤ c.day && c.day ≤ monthLength c.year c.month

/-- Days since 1 January 1970. -/
def dayNumber (c : Civil) : Int :=
  let year := if c.month ≤ 2 then c.year - 1 else c.year
  let yearOfCycle := (year % 400).toNat
  let monthFromMarch := (c.month + 9) % 12
  let dayOfYear := (153 * monthFromMarch + 2) / 5 + c.day - 1
  let dayOfCycle := yearOfCycle * 365 + yearOfCycle / 4 - yearOfCycle / 100 + dayOfYear
  year / 400 * 146097 + dayOfCycle - 719468

def ofDayNumber (n : Int) : Civil :=
  let sinceMarch := n + 719468
  let dayOfCycle := (sinceMarch % 146097).toNat
  let yearOfCycle :=
    (dayOfCycle - dayOfCycle / 1460 + dayOfCycle / 36524 - dayOfCycle / 146096) / 365
  let dayOfYear := dayOfCycle - (365 * yearOfCycle + yearOfCycle / 4 - yearOfCycle / 100)
  let monthFromMarch := (5 * dayOfYear + 2) / 153
  let month := if monthFromMarch < 10 then monthFromMarch + 3 else monthFromMarch - 9
  let year := sinceMarch / 146097 * 400 + yearOfCycle
  { year := if month ≤ 2 then year + 1 else year,
    month := month,
    day := dayOfYear - (153 * monthFromMarch + 2) / 5 + 1 }

/-- Four digits for the years 0 to 9999, and a sign with at least four digits otherwise. -/
def yearText (year : Int) : List Char :=
  if year < 0 then '-' :: Text.padded 4 year.natAbs
  else if 9999 < year then '+' :: Text.padded 4 year.natAbs
  else Text.padded 4 year.natAbs

def text (c : Civil) : List Char :=
  yearText c.year ++ '-' :: Text.padded 2 c.month ++ '-' :: Text.padded 2 c.day

end Civil

namespace Date

def ofDay? (n : Int) : Option Date :=
  if h : -96465292 ≤ n ∧ n ≤ 95026236 then some ⟨n, h.1, h.2⟩ else none

def ofCivil? (c : Civil) : Option Date :=
  if c.isValid then ofDay? c.dayNumber else none

def civil (d : Date) : Civil := Civil.ofDayNumber d.day

def compare (a b : Date) : Ordering := Ord.compare a.day b.day

def text (d : Date) : List Char := d.civil.text

def render (d : Date) : String := String.ofList d.text

end Date
end Rollup
