import JobEngine.Json.Value
import JobEngine.Text.Blank

namespace JobEngine

inductive Token
  | openBrace
  | closeBrace
  | openBracket
  | closeBracket
  | comma
  | colon
  | str (s : String)
  | atom (v : Json)
deriving DecidableEq

namespace Token

def hexDigit (c : Char) : Option Nat :=
  if '0' ≤ c ∧ c ≤ '9' then some (c.toNat - 48)
  else if 'a' ≤ c ∧ c ≤ 'f' then some (c.toNat - 87)
  else if 'A' ≤ c ∧ c ≤ 'F' then some (c.toNat - 55)
  else none

def hexUnit (a b c d : Char) : Option Nat := do
  return (((← hexDigit a) * 16 + (← hexDigit b)) * 16 + (← hexDigit c)) * 16 + (← hexDigit d)

def simpleEscape : Char → Option Char
  | '"' => some '"'
  | '\\' => some '\\'
  | '/' => some '/'
  | 'b' => some '\x08'
  | 'f' => some '\x0c'
  | 'n' => some '\n'
  | 'r' => some '\r'
  | 't' => some '\t'
  | _ => none

def isHighSurrogate (n : Nat) : Bool := 0xD800 ≤ n && n < 0xDC00

def isLowSurrogate (n : Nat) : Bool := 0xDC00 ≤ n && n < 0xE000

/-- The rest of a string after its opening quote: the decoded characters and what follows the
closing quote. -/
def scanString : List Char → Option (List Char × List Char)
  | '"' :: rest => some ([], rest)
  | '\\' :: 'u' :: a :: b :: c :: d :: rest => do
    let high ← hexUnit a b c d
    if isHighSurrogate high then
      match rest with
      | '\\' :: 'u' :: a :: b :: c :: d :: rest =>
        let low ← hexUnit a b c d
        if isLowSurrogate low then
          let (s, rest) ← scanString rest
          return (Char.ofNat (0x10000 + (high - 0xD800) * 1024 + (low - 0xDC00)) :: s, rest)
        else none
      | _ => none
    else if isLowSurrogate high then none
    else
      let (s, rest) ← scanString rest
      return (Char.ofNat high :: s, rest)
  | '\\' :: c :: rest => do
    let c ← simpleEscape c
    let (s, rest) ← scanString rest
    return (c :: s, rest)
  | c :: rest =>
    if c.toNat < 0x20 then none
    else do
      let (s, rest) ← scanString rest
      return (c :: s, rest)
  | [] => none

structure Literal where
  negative : Bool
  whole : List Nat
  fraction : Option (List Nat)
  exponent : Option (Bool × List Nat)

def scanDigits : List Char → List Nat × List Char
  | [] => ([], [])
  | c :: rest =>
    if Text.isDigit c then
      let (ds, rest) := scanDigits rest
      ((c.toNat - 48) :: ds, rest)
    else ([], c :: rest)

def scanFraction : List Char → Option (Option (List Nat) × List Char)
  | '.' :: rest =>
    match scanDigits rest with
    | ([], _) => none
    | (ds, rest) => some (some ds, rest)
  | rest => some (none, rest)

def scanExponent : List Char → Option (Option (Bool × List Nat) × List Char)
  | c :: rest =>
    if c = 'e' ∨ c = 'E' then
      let (negative, rest) := match rest with
        | '-' :: rest => (true, rest)
        | '+' :: rest => (false, rest)
        | rest => (false, rest)
      match scanDigits rest with
      | ([], _) => none
      | (ds, rest) => some (some (negative, ds), rest)
    else some (none, c :: rest)
  | [] => some (none, [])

/-- A number literal: no zero before another digit, no empty part. -/
def scanLiteral (cs : List Char) : Option (Literal × List Char) := do
  let (negative, cs) := match cs with
    | '-' :: rest => (true, rest)
    | rest => (false, rest)
  let (whole, cs) := scanDigits cs
  match whole with
  | [] | 0 :: _ :: _ => none
  | _ =>
    let (fraction, cs) ← scanFraction cs
    let (exponent, cs) ← scanExponent cs
    return (⟨negative, whole, fraction, exponent⟩, cs)

/-- Takes digits as long as the integer fits 64 bits; the digits left over are returned. -/
def accumulate : Nat → List Nat → Nat × List Nat
  | n, [] => (n, [])
  | n, d :: ds => if n * 10 + d < UInt64.size then accumulate (n * 10 + d) ds else (n, d :: ds)

namespace Literal

/-- The digits kept of the whole part and of the fraction, and the power of ten that makes up
for the others. -/
def significand (l : Literal) : Nat × Int :=
  let (n, skipped) := accumulate 0 l.whole
  let fraction := l.fraction.getD []
  let (n, unread) := accumulate n fraction
  (n, skipped.length - (fraction.length - unread.length : Nat))

def toFloat (l : Literal) : Option Binary64 := do
  let (n, scale) := l.significand
  let x ← match l.exponent with
    | none => Binary64.ofScientific n scale
    | some (negative, ds) =>
      let e : Nat := ds.foldl (fun e d ↦ e * 10 + d) 0
      if e < 2147483648 then
        Binary64.ofScientific n (if negative then scale - (e : Int) else scale + (e : Int))
      else if n = 0 ∨ negative then some (Binary64.zero false)
      else none
  return if l.negative then x.neg else x

/-- A literal without fraction and exponent is an integer if it fits 64 bits, except `-0`. -/
def toNumber (l : Literal) : Option Number :=
  match l.fraction, l.exponent, accumulate 0 l.whole with
  | none, none, (n, []) =>
    if l.negative ∧ n = 0 then l.toFloat.map .float
    else match Wide.ofInt? (if l.negative then -(n : Int) else n) with
      | some w => some (.int w)
      | none => l.toFloat.map .float
  | _, _, _ => l.toFloat.map .float

end Literal

def isBlank (c : Char) : Bool := c = ' ' || c = '\n' || c = '\t' || c = '\r'

def next? : List Char → Option (Token × List Char)
  | '{' :: rest => some (openBrace, rest)
  | '}' :: rest => some (closeBrace, rest)
  | '[' :: rest => some (openBracket, rest)
  | ']' :: rest => some (closeBracket, rest)
  | ',' :: rest => some (comma, rest)
  | ':' :: rest => some (colon, rest)
  | '"' :: rest => do
    let (s, rest) ← scanString rest
    return (str (String.ofList s), rest)
  | 'n' :: 'u' :: 'l' :: 'l' :: rest => some (atom .null, rest)
  | 't' :: 'r' :: 'u' :: 'e' :: rest => some (atom (.bool true), rest)
  | 'f' :: 'a' :: 'l' :: 's' :: 'e' :: rest => some (atom (.bool false), rest)
  | cs => do
    let (l, rest) ← scanLiteral cs
    return (atom (.num (← l.toNumber)), rest)

def scanWith : Nat → List Char → Option (List Token)
  | _, [] => some []
  | 0, _ :: _ => none
  | fuel + 1, c :: cs =>
    if isBlank c then scanWith fuel cs
    else do
      let (t, rest) ← next? (c :: cs)
      return t :: (← scanWith fuel rest)

def scan (cs : List Char) : Option (List Token) := scanWith cs.length cs

end Token

end JobEngine
