import InitLock.Decimal.Binary

/-!
# Shortest decimals

The fewest decimal digits that read back as a given magnitude, and among those
the nearest to it; of two that are equally near, which one is asked for. A
magnitude is what every number between its two midpoints rounds to, the
midpoints included when its mantissa is even. The grids of 1, 2, … 17 digits are
tried in turn: on each, only the two neighbours of the value can be the answer.
All numbers are counted in quarters of the unit in the last place.
-/

namespace InitLock.Decimal

/-- A decimal `digits · 10^exponent`. -/
structure Digits where
  digits : Nat
  exponent : Int
  deriving DecidableEq, Repr

/-- Which of two neighbours at equal distance is taken: the even one, or the one further from
zero. -/
inductive Tie where
  | even
  | up
  deriving DecidableEq, Repr

namespace Magnitude

/-- `c · 10^k` against `x` quarters of the unit in the last place of `a`. -/
def compareQuarters (a : Magnitude) (c : Nat) (k : Int) (x : Nat) : Ordering :=
  let e := a.exponent - 2
  compare (c * pow10 k.toNat * pow2 (-e).toNat) (x * pow2 e.toNat * pow10 (-k).toNat)

/-- The quarters between a magnitude and the midpoint below it. -/
def gapBelow (a : Magnitude) : Nat :=
  if a.mantissa = pow2 52 ∧ -1074 < a.exponent then 1 else 2

/-- Whether `c · 10^k` reads back as `a`. -/
def readsBack (a : Magnitude) (c : Nat) (k : Int) : Bool :=
  match a.compareQuarters c k (4 * a.mantissa - a.gapBelow),
    a.compareQuarters c k (4 * a.mantissa + 2) with
  | .gt, .lt => true
  | .eq, _ => a.mantissa % 2 = 0
  | _, .eq => a.mantissa % 2 = 0
  | _, _ => false

/-- The whole number of steps `10^k` in the value. -/
def stepsBelow (a : Magnitude) (k : Int) : Nat :=
  (a.mantissa * pow2 a.exponent.toNat * pow10 (-k).toNat) /
    (pow2 (-a.exponent).toNat * pow10 k.toNat)

/-- The power of ten of the leading digit, by an estimate that is off by one at most. -/
def leading (a : Magnitude) : Int :=
  let p := ((a.mantissa.log2 + a.exponent) * 1233).fdiv 4096
  if a.stepsBelow p = 0 then p - 1
  else if a.stepsBelow (p + 1) = 0 then p
  else p + 1

/-- Whether the value is written as `c · 10^k` rather than as its successor, being nearer to it. -/
def nearerBelow (a : Magnitude) (tie : Tie) (c : Nat) (k : Int) : Bool :=
  match a.compareQuarters (2 * c + 1) k (8 * a.mantissa) with
  | .gt => true
  | .lt => false
  | .eq => tie = .even && c % 2 = 0

/-- The point of the grid of `10^k` that reads back, the nearer one if there are two. -/
def onGrid (a : Magnitude) (tie : Tie) (k : Int) : Option Nat :=
  let c := a.stepsBelow k
  match a.readsBack c k, a.readsBack (c + 1) k with
  | true, true => some (if a.nearerBelow tie c k then c else c + 1)
  | true, false => some c
  | false, true => some (c + 1)
  | false, false => none

end Magnitude

/-- Drops trailing zeros, at most `fuel` of them. -/
def Digits.strip : Nat → Digits → Digits
  | 0, d => d
  | fuel + 1, d =>
    if d.digits ≠ 0 ∧ d.digits % 10 = 0 then strip fuel ⟨d.digits / 10, d.exponent + 1⟩ else d

/-- The shortest decimal that reads back as the magnitude. -/
def Magnitude.shortest (a : Magnitude) (tie : Tie) : Digits :=
  if a.mantissa = 0 then ⟨0, 0⟩
  else
    let p := a.leading
    let grid (n : Nat) : Option Digits := (a.onGrid tie (p - n)).map fun c => ⟨c, p - n⟩
    match (List.range 17).findSome? grid with
    | some d => d.strip 20
    | none => ⟨a.stepsBelow (p - 17), p - 17⟩

end InitLock.Decimal
