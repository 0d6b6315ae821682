import Rollup.Calendar.Date

/-
Instants of a day without a time zone, to the nanosecond.

The last second of a minute may run on for a second more, a leap second: its nanoseconds
then pass a thousand million, while the second itself stays 59.
-/

namespace Rollup

structure Timestamp where
  date : Date
  /-- Second of the day. -/
  second : Nat
  nanos : Nat
  second_lt : second < 86400
  nanos_lt : nanos < 1000000000 ∨ (second % 60 = 59 ∧ nanos < 2000000000)
deriving DecidableEq

inductive TimeUnit where
  | second
  | millisecond
  | microsecond
  | nanosecond
deriving DecidableEq

namespace TimeUnit

def perSecond : TimeUnit → Nat
  | .second => 1
  | .millisecond => 1000
  | .microsecond => 1000000
  | .nanosecond => 1000000000

def nanos : TimeUnit → Nat
  | .second => 1000000000
  | .millisecond => 1000000
  | .microsecond => 1000
  | .nanosecond => 1

theorem perSecond_mul_nanos (u : TimeUnit) : u.perSecond * u.nanos = 1000000000 := by
  cases u <;> rfl

theorem perSecond_pos (u : TimeUnit) : 0 < u.perSecond := by cases u <;> decide

end TimeUnit

namespace Timestamp

/-- Lexicographic by date, second of the day and nanoseconds, so a leap second follows
every other instant of its minute. -/
def compare (a b : Timestamp) : Ordering :=
  (a.date.compare b.date).then
    ((Ord.compare a.second b.second).then (Ord.compare a.nanos b.nanos))

def ofClock? (date : Date) (hour minute second nanos : Nat) : Option Timestamp :=
  let total := hour * 3600 + minute * 60 + second
  if h : (hour < 24 ∧ minute < 60 ∧ second < 60) ∧
      (nanos < 1000000000 ∨ (total % 60 = 59 ∧ nanos < 2000000000)) then
    some ⟨date, total, nanos, by omega, h.2⟩
  else none

def hour (t : Timestamp) : Nat := t.second / 3600
def minute (t : Timestamp) : Nat := t.second / 60 % 60
def secondOfMinute (t : Timestamp) : Nat := t.second % 60

/-! ## Units since the epoch -/

/-- The instant `n` units after the start of 1970, if its date is in range. -/
def ofUnits? (unit : TimeUnit) (n : Int) : Option Timestamp :=
  let seconds := n / unit.perSecond
  match Date.ofDay? (seconds / 86400) with
  | none => none
  | some date =>
      some
        { date := date,
          second := (seconds % 86400).toNat,
          nanos := (n % unit.perSecond).toNat * unit.nanos,
          second_lt := by omega,
          nanos_lt := by
            have hp := unit.perSecond_pos
            have hn : (n % unit.perSecond).toNat < unit.perSecond := by
              have := Int.emod_lt_of_pos n (b := unit.perSecond) (by omega)
              have := Int.emod_nonneg n (b := unit.perSecond) (by omega)
              omega
            have hu : 0 < unit.nanos := by cases unit <;> decide
            have := Nat.mul_lt_mul_of_pos_right hn hu
            rw [unit.perSecond_mul_nanos] at this
            exact Or.inl this }

def epochSecond (t : Timestamp) : Int := t.date.day * 86400 + t.second

/-- Whole units since the start of 1970.  A leap second counts on from second 59, but in
whole seconds it counts as second 59. -/
def toUnits (unit : TimeUnit) (t : Timestamp) : Int :=
  match unit with
  | .second => t.epochSecond
  | unit => t.epochSecond * unit.perSecond + (t.nanos / unit.nanos : Nat)

/-! ## Text -/

/-- No fraction for zero, or the fewest of three, six and nine digits that are exact.  A
leap second has one digit more. -/
def fractionText (nanos : Nat) : List Char :=
  if nanos == 0 then []
  else if nanos % 1000000 == 0 then '.' :: Text.padded 3 (nanos / 1000000)
  else if nanos % 1000 == 0 then '.' :: Text.padded 6 (nanos / 1000)
  else '.' :: Text.padded 9 nanos

def minuteText (t : Timestamp) : List Char :=
  Text.padded 2 t.hour ++ ':' :: Text.padded 2 t.minute

/-- Date and time of day with a `T` between; seconds are left out of a full minute. -/
def text (t : Timestamp) : List Char :=
  t.date.text ++ 'T' :: t.minuteText ++
    if t.secondOfMinute == 0 && t.nanos == 0 then []
    else ':' :: Text.padded 2 t.secondOfMinute ++ fractionText t.nanos

def render (t : Timestamp) : String := String.ofList t.text

/-- The instant with all its parts and a chosen separator, a leap second shown as the
sixtieth of its minute. -/
def fullText (separator : Char) (t : Timestamp) : String :=
  let leap := 1000000000 ≤ t.nanos
  let second := if leap then t.secondOfMinute + 1 else t.secondOfMinute
  let nanos := if leap then t.nanos - 1000000000 else t.nanos
  String.ofList
    (t.date.text ++ separator :: t.minuteText ++ ':' :: Text.padded 2 second ++ fractionText nanos)

end Timestamp
end Rollup
