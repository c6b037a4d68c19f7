/-!
# Binary64 magnitudes

A magnitude is `mantissa · 2^exponent`, with at most 53 bits of mantissa and an
exponent from −1074 to 971: the finite non-negative values of binary64. Results
are the exact ones rounded to nearest, a tie going to the even mantissa. All is
exact arithmetic on natural numbers.
-/

namespace InitLock.Decimal

def pow2 (n : Nat) : Nat := Nat.pow 2 n

def pow10 (n : Nat) : Nat := Nat.pow 10 n

/-- The quotient rounded to nearest, a half going to the even neighbour. -/
def roundDiv (n d : Nat) : Nat :=
  if 2 * (n % d) < d then n / d
  else if d < 2 * (n % d) then n / d + 1
  else n / d + n / d % 2

/-- A finite non-negative binary64 value. -/
structure Magnitude where
  mantissa : Nat
  exponent : Int
  deriving DecidableEq, Repr

namespace Magnitude

def zero : Magnitude := ⟨0, -1074⟩

/-- Numerator and denominator of the value. -/
def ratio (a : Magnitude) : Nat × Nat :=
  (a.mantissa * pow2 a.exponent.toNat, pow2 (-a.exponent).toNat)

/-- How often `2^e` goes into `n / d`, as a fraction. -/
def inUnits (n d : Nat) (e : Int) : Nat × Nat :=
  (n * pow2 (-e).toNat, d * pow2 e.toNat)

/-- The exponent at which `n / d` has 53 bits, or the least one. -/
def unitFor (n d : Nat) : Int :=
  let e : Int := n.log2 - d.log2 - 53
  let (x, y) := inUnits n d e
  max (if x / y < pow2 53 then e else e + 1) (-1074)

/-- The magnitude nearest to `n / d`, none if that is too large. -/
def ofRatio (n d : Nat) : Option Magnitude :=
  if n = 0 then some zero
  else
    let e := unitFor n d
    let (x, y) := inUnits n d e
    let m := roundDiv x y
    let r : Magnitude := if m = pow2 53 then ⟨pow2 52, e + 1⟩ else ⟨m, e⟩
    if 971 < r.exponent then none else some r

/-- The magnitude nearest to a natural number. -/
def ofNat (n : Nat) : Option Magnitude := ofRatio n 1

def mul (a b : Magnitude) : Option Magnitude :=
  ofRatio (a.ratio.1 * b.ratio.1) (a.ratio.2 * b.ratio.2)

/-- The quotient; `b` is not zero. -/
def div (a b : Magnitude) : Option Magnitude :=
  ofRatio (a.ratio.1 * b.ratio.2) (a.ratio.2 * b.ratio.1)

/-- `digits · 10^exponent` computed in magnitudes: one product or quotient with a power of ten
up to `10^308`, and a quotient by `10^308` before it where the exponent is lower still. -/
def scaled (digits : Nat) (exponent : Int) : Option Magnitude := do
  let a ← ofNat digits
  if a.mantissa = 0 then return zero
  if 308 < exponent then none
  if 0 ≤ exponent then a.mul (← ofNat (pow10 exponent.toNat))
  else if -308 ≤ exponent then a.div (← ofNat (pow10 (-exponent).toNat))
  else if -616 ≤ exponent then
    (← a.div (← ofNat (pow10 308))).div (← ofNat (pow10 (-exponent - 308).toNat))
  else return zero

end Magnitude

end InitLock.Decimal
