import InitLock.Decimal.Shortest

/-!
# Numbers in writing

A binary64 number is written with the fewest digits that read back, with a
digit on either side of the point. In styles that have exponents, the point is
placed among the digits only while the leading one stands for `10^-5` to
`10^15`; beyond that an exponent follows them.
-/

namespace InitLock.Decimal

/-- The decimal digits of a natural number. -/
def numeral (n : Nat) : List Char := Nat.toDigits 10 n

/-- The digits with the point after the first `n`, `n` not above their number. -/
def pointAfter (n : Nat) (ds : List Char) : List Char :=
  ds.take n ++ '.' :: ds.drop n

/-- A decimal without an exponent, with a digit on either side of the point. -/
def Digits.positional (d : Digits) : List Char :=
  let ds := numeral d.digits
  let e : Int := d.exponent + ds.length - 1
  if d.digits = 0 then ['0', '.', '0']
  else if 0 ≤ d.exponent then ds ++ List.replicate d.exponent.toNat '0' ++ ['.', '0']
  else if 0 ≤ e then pointAfter (e + 1).toNat ds
  else '0' :: '.' :: List.replicate (-e - 1).toNat '0' ++ ds

/-- How numbers are written: which of two equally short decimals is taken, and what stands before
an exponent that is not negative, in a style that has exponents. -/
structure Style where
  tie : Tie
  sign : Option (List Char)
  deriving DecidableEq, Repr

/-- A decimal with an exponent, before which stands `sign` or a minus. -/
def Digits.scientific (d : Digits) (sign : List Char) : List Char :=
  let ds := numeral d.digits
  let e : Int := d.exponent + ds.length - 1
  (if ds.length = 1 then ds else pointAfter 1 ds) ++
    'e' :: (if e < 0 then ['-'] else sign) ++ numeral e.natAbs

def Digits.write (d : Digits) (style : Style) : List Char :=
  let e : Int := d.exponent + (numeral d.digits).length - 1
  match style.sign with
  | none => d.positional
  | some sign =>
    if d.digits = 0 ∨ (-5 ≤ e ∧ e ≤ 15) then d.positional else d.scientific sign

/-- A finite binary64 number. -/
structure Real where
  negative : Bool
  magnitude : Magnitude
  deriving DecidableEq, Repr

namespace Real

def write (x : Real) (style : Style) : List Char :=
  (if x.negative then ['-'] else []) ++ (x.magnitude.shortest style.tie).write style

end Real

end InitLock.Decimal
