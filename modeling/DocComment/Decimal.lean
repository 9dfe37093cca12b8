/-!
Decimal numbers, kept as they were written: a sign, digits, and a power of ten. A decimal is
written with as few digits as it has. It has a point in its usual place unless that takes
more than sixteen places before it or four zeros after it; then a power of ten follows.
-/

namespace DocComment

/-- The number `digits * 10 ^ exponent`, below zero if it is negative. Zero has a sign too. -/
structure Decimal where
  negative : Bool := false
  digits : Nat
  exponent : Int := 0
  deriving DecidableEq, Repr

namespace Decimal

/-- The greatest whole number that is not above. -/
def floor (d : Decimal) : Int :=
  let n : Int := if d.negative then -(Int.ofNat d.digits) else Int.ofNat d.digits
  let scale (k : Int) : Int := Int.ofNat (Nat.pow 10 k.toNat)
  if 0 ≤ d.exponent then n * scale d.exponent else n.fdiv (scale (-d.exponent))

/-- The digits from the first that is not zero to the last that is not. -/
def significant (d : Decimal) : List Char :=
  if d.digits = 0 then []
  else ((toString d.digits).toList.reverse.dropWhile (· == '0')).reverse

/-- The place of the point, counted from the first of the significant digits. -/
def point (d : Decimal) : Int := Int.ofNat (toString d.digits).length + d.exponent

def zeros (n : Nat) : List Char := List.replicate n '0'

/-- At least one digit stands on either side of the point. -/
def positional (digits : List Char) (point : Int) : List Char :=
  if point ≤ 0 then '0' :: '.' :: zeros (-point).toNat ++ digits
  else
    let whole := point.toNat
    let fraction := digits.drop whole
    digits.take whole ++ zeros (whole - digits.length) ++
      '.' :: (if fraction.isEmpty then ['0'] else fraction)

/-- A power of ten has a sign and at least two digits. -/
def powerText (e : Int) : List Char :=
  let digits := (toString e.natAbs).toList
  'e' :: (if e < 0 then '-' else '+') :: zeros (2 - digits.length) ++ digits

def scientific (digits : List Char) (point : Int) : List Char :=
  let fraction := digits.drop 1
  digits.take 1 ++ (if fraction.isEmpty then [] else '.' :: fraction) ++ powerText (point - 1)

def toText (d : Decimal) : String :=
  let digits := d.significant
  let body :=
    if digits.isEmpty then ['0', '.', '0']
    else if -4 < d.point ∧ d.point ≤ 16 then positional digits d.point
    else scientific digits d.point
  String.ofList (if d.negative then '-' :: body else body)

end Decimal

end DocComment
