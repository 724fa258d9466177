namespace JobEngine

namespace Binary64

def hiddenBit : Nat := 4503599627370496

end Binary64

open Binary64 in
/-- The value `± mantissa · 2 ^ exponent`. A mantissa without the hidden bit belongs to the least
exponent, so every finite double has one representation. -/
structure Binary64 where
  negative : Bool
  mantissa : Nat
  exponent : Int
  mantissa_lt : mantissa < 2 * hiddenBit
  exponent_le : exponent ≤ 971
  normal : -1074 ≤ exponent ∧ (hiddenBit ≤ mantissa ∨ exponent = -1074)
deriving DecidableEq

namespace Binary64

def scale (num den : Nat) (e : Int) : Nat × Nat :=
  if 0 ≤ e then (num * Nat.pow 2 e.toNat, den) else (num, den * Nat.pow 2 (-e).toNat)

def roundHalfEven (num den : Nat) : Nat :=
  let q := num / den
  let r := num % den
  if 2 * r < den || (2 * r = den && q % 2 = 0) then q else q + 1

def mk? (negative : Bool) (mantissa : Nat) (exponent : Int) : Option Binary64 :=
  if h : mantissa < 2 * hiddenBit ∧ exponent ≤ 971 ∧
      (-1074 ≤ exponent ∧ (hiddenBit ≤ mantissa ∨ exponent = -1074)) then
    some ⟨negative, mantissa, exponent, h.1, h.2.1, h.2.2⟩
  else none

/-- The exponent at which `num / den` has 53 bits before the point, or the least one. -/
def unitExponent (num den : Nat) : Int :=
  let guess := (Nat.log2 num : Int) - (Nat.log2 den : Int) - 52
  let (n, d) := scale num den (-guess)
  max (-1074) (if n < d * hiddenBit then guess - 1 else guess)

/-- The double nearest to `± num / den`, ties to even; none where it overflows. -/
def ofRatio (negative : Bool) (num den : Nat) : Option Binary64 :=
  if num = 0 then mk? negative 0 (-1074)
  else
    let e := unitExponent num den
    let (n, d) := scale num den (-e)
    let m := roundHalfEven n d
    if m = 2 * hiddenBit then mk? negative hiddenBit (e + 1) else mk? negative m e

def ofNat (n : Nat) : Option Binary64 := ofRatio false n 1

def zero (negative : Bool) : Binary64 :=
  ⟨negative, 0, -1074, by decide, by decide, by decide⟩

def neg (x : Binary64) : Binary64 := { x with negative := !x.negative }

def mul (x y : Binary64) : Option Binary64 :=
  let (n, d) := scale (x.mantissa * y.mantissa) 1 (x.exponent + y.exponent)
  ofRatio x.negative n d

def div (x y : Binary64) : Option Binary64 :=
  let (n, d) := scale x.mantissa y.mantissa (x.exponent - y.exponent)
  ofRatio x.negative n d

def pow10 (k : Nat) : Option Binary64 := ofNat (Nat.pow 10 k)

/-- Division by `10 ^ k`, in steps of at most `10 ^ 308`. -/
def divPow10 (x : Binary64) (k : Nat) : Option Binary64 :=
  if x.mantissa = 0 then some x
  else if h : k ≤ 308 then (pow10 k).bind x.div
  else ((pow10 308).bind x.div).bind (divPow10 · (k - 308))
termination_by k
decreasing_by omega

/-- Multiplication by `10 ^ k`; a power beyond the range of doubles overflows. -/
def mulPow10 (x : Binary64) (k : Nat) : Option Binary64 :=
  if k ≤ 308 then (pow10 k).bind x.mul
  else if x.mantissa = 0 then some x
  else none

/-- `significand · 10 ^ exponent`, rounded once for the significand and once for each scaling. -/
def ofScientific (significand : Nat) (exponent : Int) : Option Binary64 :=
  (ofNat significand).bind fun x ↦
    if 0 ≤ exponent then x.mulPow10 exponent.toNat else x.divPow10 (-exponent).toNat

end Binary64

end JobEngine
