import JobEngine.Decimal.Binary64

namespace JobEngine.Binary64

structure Decimal where
  digits : Nat
  exponent : Int
deriving DecidableEq, Repr

def Decimal.trim : Nat → Decimal → Decimal
  | 0, d => d
  | n + 1, d =>
    if d.digits % 10 = 0 ∧ d.digits ≠ 0 then trim n ⟨d.digits / 10, d.exponent + 1⟩ else d

def onGrid (n : Nat) (e p : Int) : Nat × Nat :=
  let (a, b) := scale n 1 e
  if 0 ≤ p then (a, b * Nat.pow 10 p.toNat) else (a * Nat.pow 10 (-p).toNat, b)

def magnitude (x : Binary64) : Int :=
  let (n, d) := onGrid x.mantissa x.exponent (-400)
  ((toString (n / d)).length : Int) - 401

def reaches (c : Nat) (r : Nat × Nat) (closed : Bool) : Bool :=
  if closed then r.1 ≤ c * r.2 else r.1 < c * r.2

def staysBelow (c : Nat) (r : Nat × Nat) (closed : Bool) : Bool :=
  if closed then c * r.2 ≤ r.1 else c * r.2 < r.1

/-- The decimal with the last digit at `10 ^ p` that lies nearest to `x` among the two neighbours
of `x` on that grid, if one of them rounds to `x`. Both ends of the interval that rounds to `x`
belong to it iff the mantissa is even. -/
def candidate (x : Binary64) (p : Int) : Option Decimal :=
  let closed := x.mantissa % 2 = 0
  let low := if x.mantissa = hiddenBit ∧ -1074 < x.exponent
    then onGrid (4 * x.mantissa - 1) (x.exponent - 2) p
    else onGrid (2 * x.mantissa - 1) (x.exponent - 1) p
  let high := onGrid (2 * x.mantissa + 1) (x.exponent - 1) p
  let (n, d) := onGrid x.mantissa x.exponent p
  let floor := n / d
  let inside (c : Nat) : Bool := reaches c low closed && staysBelow c high closed
  let down := 2 * (n % d) < d || (2 * (n % d) = d && floor % 2 = 0)
  let chosen := if inside floor && (down || !inside (floor + 1)) then floor else floor + 1
  if inside chosen then some ⟨chosen, p⟩ else none

def search (x : Binary64) (top : Int) : Nat → Nat → Decimal
  | 0, n => ⟨0, top - n⟩
  | fuel + 1, n => (candidate x (top - n)).getD (search x top fuel (n + 1))

/-- The shortest decimal that rounds to `x`; seventeen digits always suffice. -/
def shortest (x : Binary64) : Decimal :=
  if x.mantissa = 0 then ⟨0, 0⟩
  else (search x x.magnitude 17 0).trim 20

end JobEngine.Binary64
