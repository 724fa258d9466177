import JobEngine.Time.Instant

namespace JobEngine

open Text

namespace Date

def scanYear (cs : List Char) : Option (Int × List Char) :=
  match skipBlanks cs with
  | '-' :: rest => (scanLongNat rest).map fun (n, rest) ↦ (-(n : Int), rest)
  | '+' :: rest => (scanLongNat rest).map fun (n, rest) ↦ ((n : Int), rest)
  | rest => (scanNat 4 rest).map fun (n, rest) ↦ ((n : Int), rest)

def scanPair (cs : List Char) : Option (Nat × List Char) := scanNat 2 (skipBlanks cs)

def expect (c : Char) : List Char → Option (List Char)
  | d :: rest => if c = d then some rest else none
  | [] => none

/-- Year, month and day with hyphens; `spaced` allows blanks before the hyphens. -/
def scan (spaced : Bool) (cs : List Char) : Option (Date × List Char) := do
  let skip (cs : List Char) := if spaced then skipBlanks cs else cs
  let (year, cs) ← scanYear cs
  let cs ← expect '-' (skip cs)
  let (month, cs) ← scanPair cs
  let cs ← expect '-' (skip cs)
  let (day, cs) ← scanPair cs
  return (← mk? year month day, cs)

def read? (cs : List Char) : Option Date :=
  match scan false cs with
  | some (d, []) => some d
  | _ => none

end Date

namespace Instant

/-- A fraction of a second in nanoseconds; digits after the ninth are dropped. -/
def scanFraction : List Char → Option (Nat × List Char)
  | '.' :: rest =>
    let ds := rest.takeWhile isDigit
    if ds = [] then none
    else
      let kept := ds.take 9
      some (digitsValue kept * Nat.pow 10 (9 - kept.length), rest.drop ds.length)
  | rest => some (0, rest)

def scanTwoDigits : List Char → Option (Nat × List Char)
  | a :: b :: rest =>
    if isDigit a && isDigit b then some (digitsValue [a, b], rest) else none
  | _ => none

/-- An offset in minutes: a name of UTC, or a sign, hours and minutes. -/
def scanOffset (cs : List Char) : Option (Int × List Char) :=
  match cs with
  | a :: rest =>
    if a = 'Z' ∨ a = 'z' then some (0, rest)
    else if (cs.take 3).map Char.toUpper = ['U', 'T', 'C'] then some (0, cs.drop 3)
    else if a = '+' ∨ a = '-' ∨ a = '\u2212' then do
      let (hours, rest) ← scanTwoDigits rest
      let (minutes, rest) ← scanTwoDigits (rest.dropWhile fun c ↦ c = ':' || isBlank c)
      if hours < 24 ∧ minutes < 60 then
        let offset : Int := hours * 60 + minutes
        some (if a = '+' then offset else -offset, rest)
      else none
    else none
  | [] => none

/-- Hours, minutes, seconds and a fraction; second 60 is a leap second. -/
def scanTime (cs : List Char) : Option ((Nat × Nat) × List Char) := do
  let (hour, cs) ← Date.scanPair cs
  let cs ← Date.expect ':' (skipBlanks cs)
  let (minute, cs) ← Date.scanPair cs
  let cs ← Date.expect ':' (skipBlanks cs)
  let (second, cs) ← Date.scanPair cs
  let (nano, cs) ← scanFraction cs
  if hour < 24 ∧ minute < 60 ∧ second ≤ 60 then
    let (second, nano) := if second = 60 then (59, nano + nanosPerSecond) else (second, nano)
    return ((hour * 3600 + minute * 60 + second, nano), cs)
  else none

/-- The instant at which clocks with an offset of `minutes` from UTC show a local time. -/
def ofLocal? (date : Date) (second nano : Nat) (minutes : Int) : Option Instant :=
  if minutes = 0 then mk? date second nano
  else ofSeconds? (date.number * 86400 + second - minutes * 60) nano

def read? (text : String) : Option Instant := do
  let (date, cs) ← Date.scan true text.toList
  match cs with
  | c :: cs =>
    if c = 'T' ∨ c = 't' ∨ isBlank c then
      let ((second, nano), cs) ← scanTime cs
      let (minutes, cs) ← scanOffset (skipBlanks cs)
      if skipBlanks cs = [] then ofLocal? date second nano minutes else none
    else none
  | [] => none

end Instant

end JobEngine
