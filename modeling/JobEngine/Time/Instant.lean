import JobEngine.Text.Blank
import JobEngine.Time.Date

namespace JobEngine

def nanosPerSecond : Nat := 1000000000

structure Instant where
  date : Date
  second : Nat
  /-- Nanosecond of the second, from `nanosPerSecond` on within a leap second. -/
  nano : Nat
  second_lt : second < 86400
  nano_lt : nano < 2 * nanosPerSecond
  leap : nanosPerSecond ≤ nano → second % 60 = 59
deriving DecidableEq

namespace Instant

def mk? (date : Date) (second nano : Nat) : Option Instant :=
  if h : second < 86400 ∧ nano < 2 * nanosPerSecond ∧ (nanosPerSecond ≤ nano → second % 60 = 59)
  then some ⟨date, second, nano, h.1, h.2.1, h.2.2⟩
  else none

def rank (t : Instant) : Int :=
  (t.date.number * 86400 + t.second) * (2 * nanosPerSecond : Nat) + t.nano

instance : LT Instant := ⟨fun a b ↦ a.rank < b.rank⟩

instance : LE Instant := ⟨fun a b ↦ a.rank ≤ b.rank⟩

instance (a b : Instant) : Decidable (a < b) := inferInstanceAs (Decidable (a.rank < b.rank))

instance (a b : Instant) : Decidable (a ≤ b) := inferInstanceAs (Decidable (a.rank ≤ b.rank))

def ofSeconds? (seconds : Int) (nano : Nat) : Option Instant := do
  let date ← Date.ofNumber? (seconds / 86400)
  mk? date (seconds % 86400).toNat nano

/-- Moves an instant by nanoseconds, none where the calendar ends. A move that stays within a leap
second, or goes back less than a second from it, keeps it; any other leaves it first. -/
def shift? (t : Instant) (nanos : Int) : Option Instant :=
  let unit : Int := nanosPerSecond
  let whole := nanos.tdiv unit
  let part := nanos.tmod unit
  let second : Int := t.date.number * 86400 + t.second
  let settle (second nano : Int) : Option Instant :=
    let (second, nano) := (second + whole, nano + part)
    if nano < 0 then ofSeconds? (second - 1) (nano + unit).toNat
    else if unit ≤ nano then ofSeconds? (second + 1) (nano - unit).toNat
    else ofSeconds? second nano.toNat
  if unit ≤ (t.nano : Int) then
    if 0 < whole ∨ (0 < part ∧ 2 * unit ≤ t.nano + part) then settle second (t.nano - unit)
    else if whole < 0 then settle (second + 1) (t.nano - unit)
    else mk? t.date t.second (t.nano + part).toNat
  else settle second t.nano

def yearText (year : Int) : List Char :=
  if 0 ≤ year ∧ year ≤ 9999 then Text.padded 4 year.toNat
  else (if year < 0 then '-' else '+') :: Text.padded 4 year.natAbs

/-- The least of three, six and nine digits that loses nothing. -/
def fractionText (nano : Nat) : List Char :=
  if nano = 0 then []
  else if nano % 1000000 = 0 then '.' :: Text.padded 3 (nano / 1000000)
  else if nano % 1000 = 0 then '.' :: Text.padded 6 (nano / 1000)
  else '.' :: Text.padded 9 nano

def chars (t : Instant) (zone : List Char) : List Char :=
  yearText t.date.year ++ '-' :: Text.padded 2 t.date.month ++ '-' :: Text.padded 2 t.date.day ++
    'T' :: Text.padded 2 (t.second / 3600) ++ ':' :: Text.padded 2 (t.second / 60 % 60) ++
    ':' :: Text.padded 2 (t.second % 60 + t.nano / nanosPerSecond) ++
    fractionText (t.nano % nanosPerSecond) ++ zone

def text (t : Instant) : String := String.ofList (t.chars ['Z'])

def textWithOffset (t : Instant) : String := String.ofList (t.chars "+00:00".toList)

end Instant

end JobEngine
