/-!
# Double-precision numbers

A finite number is `± m * 2 ^ q` with `m` below `2 ^ 53` and `q` at least `-1074`; `m` is at least
`2 ^ 52` unless `q` is least. A decimal is read as the nearest such number, and as the one with even
`m` of two that are equally near. Beyond the largest finite number lies an infinite one.
-/

namespace Brushwork

inductive Binary where
  | finite (negative : Bool) (m : Nat) (q : Int)
  | infinite (negative : Bool)
  | undefined
deriving DecidableEq

namespace Binary

/-- The quotient rounded to the nearest integer, to the even one of two. -/
def roundDiv (num den : Nat) : Nat :=
  let low := num / den
  let twice := 2 * (num % den)
  if den < twice || (twice = den && low % 2 = 1) then low + 1 else low

/-- The nearest number to `num / den`, both positive. -/
def ofRatio (negative : Bool) (num den : Nat) : Binary :=
  let scaled (q : Int) : Nat × Nat := (num * Nat.pow 2 (-q).toNat, den * Nat.pow 2 q.toNat)
  let guess : Int := max (-1074) ((num.log2 : Int) - den.log2 - 53)
  let q := if (scaled guess).1 / (scaled guess).2 < Nat.pow 2 53 then guess else guess + 1
  let m := roundDiv (scaled q).1 (scaled q).2
  let (m, q) := if m = Nat.pow 2 53 then (Nat.pow 2 52, q + 1) else (m, q)
  if 971 < q then .infinite negative else .finite negative m q

/-- The nearest number to `± digits * 10 ^ exponent`. -/
def ofDecimal (negative : Bool) (digits : Nat) (exponent : Int) : Binary :=
  let places : Int := (Nat.toDigits 10 digits).length + exponent
  if digits = 0 || places < -400 then .finite negative 0 (-1074)
  else if 400 < places then .infinite negative
  else ofRatio negative (digits * Nat.pow 10 exponent.toNat) (Nat.pow 10 (-exponent).toNat)

/-- The integer part of `m * 2 ^ q`. -/
def floorScaled (m : Nat) (q : Int) : Nat :=
  if 0 ≤ q then m * Nat.pow 2 q.toNat else m / Nat.pow 2 (-q).toNat

/-- The integer next to a finite number in the direction of zero. -/
def truncate? : Binary → Option Int
  | .finite negative m q =>
    let n : Int := floorScaled m q
    some (if negative then -n else n)
  | _ => none

def isZero : Binary → Bool
  | .finite _ m _ => m = 0
  | _ => false

/-- Whether a number is the integer `n`. -/
def isInt (n : Int) : Binary → Bool
  | .finite negative m q =>
    (finite negative m q).truncate? = some n && (0 ≤ q || m % Nat.pow 2 (-q).toNat = 0)
  | _ => false

end Binary

end Brushwork
