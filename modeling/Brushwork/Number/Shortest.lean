import Brushwork.Number.Binary

/-!
# The shortest decimal text of a binary number

The reals that round to a finite number `m * 2 ^ q` form an interval, whose ends belong to it when
`m` is even. Among the decimals in that interval those with the fewest digits are wanted, and of
these the one nearest to the number. For one digit, two digits and so on the two neighbours of the
number on that decimal grid are tried in exact arithmetic; seventeen digits always suffice. Numbers
from `0.0001` up to sixteen places before the point are written without an exponent.
-/

namespace Brushwork.Shortest

/-- The number of zeros behind the point before the first digit of `num / den`, at most `limit`. -/
def leadingZeros (num den : Nat) : (limit : Nat) → Nat
  | 0 => 0
  | limit + 1 => if den ≤ num * 10 then 0 else leadingZeros (num * 10) den limit + 1

/-- The number of digits before the point, or minus the number of zeros behind it. -/
def magnitude (m : Nat) (q : Int) : Int :=
  let whole := Binary.floorScaled m q
  if whole = 0 then -(leadingZeros m (Nat.pow 2 (-q).toNat) 400 : Int)
  else (Nat.toDigits 10 whole).length

/-- The better of the two neighbours of `m * 2 ^ q` among the multiples of `10 ^ k`, if it rounds to
that number. All quantities are in quarters of the last binary place. -/
def onGrid (m : Nat) (q k : Int) : Option Nat :=
  let a := Nat.pow 2 (q - 2).toNat * Nat.pow 10 (-k).toNat
  let b := Nat.pow 2 (2 - q).toNat * Nat.pow 10 k.toNat
  let below := if m = Nat.pow 2 52 && -1074 < q then 1 else 2
  let inside (c : Nat) : Bool :=
    if m % 2 = 0 then (4 * m - below) * a ≤ c * b && c * b ≤ (4 * m + 2) * a
    else (4 * m - below) * a < c * b && c * b < (4 * m + 2) * a
  let low := 4 * m * a / b
  match inside low, inside (low + 1) with
  | true, true =>
    let below := 4 * m * a - low * b
    let above := (low + 1) * b - 4 * m * a
    if below < above || (below = above && low % 2 = 0) then some low else some (low + 1)
  | true, false => some low
  | false, true => some (low + 1)
  | false, false => none

/-- The first grid with a hit, from coarse to fine. -/
def search (m : Nat) (q top : Int) (digits : Nat) : (limit : Nat) → Nat × Int
  | 0 => (0, 0)
  | limit + 1 =>
    match onGrid m q (top - digits) with
    | some c => (c, top - digits)
    | none => search m q top (digits + 1) limit

/-- The digits without trailing zeros, and the number of places before the point. -/
def digits (m : Nat) (q : Int) : List Char × Int :=
  let (c, k) := search m q (magnitude m q) 1 17
  let written := Nat.toDigits 10 c
  ((written.reverse.dropWhile (· = '0')).reverse, written.length + k)

/-- The decimal exponent with its sign and at least two digits. -/
def exponentText (e : Int) : List Char :=
  let written := Nat.toDigits 10 e.natAbs
  (if e < 0 then '-' else '+') :: (List.replicate (2 - written.length) '0' ++ written)

def layout (ds : List Char) (point : Int) : List Char :=
  if point ≤ -4 || 16 < point then
    ds.take 1 ++ (if ds.length ≤ 1 then [] else '.' :: ds.drop 1) ++ 'e' :: exponentText (point - 1)
  else if point ≤ 0 then '0' :: '.' :: (List.replicate (-point).toNat '0' ++ ds)
  else if ds.length ≤ point.toNat then
    ds ++ List.replicate (point.toNat - ds.length) '0' ++ ['.', '0']
  else ds.take point.toNat ++ '.' :: ds.drop point.toNat

def text : Binary → String
  | .undefined => "nan"
  | .infinite negative => if negative then "-inf" else "inf"
  | .finite negative m q =>
    let body := if m = 0 then ['0', '.', '0'] else layout (digits m q).1 (digits m q).2
    String.ofList (if negative then '-' :: body else body)

end Brushwork.Shortest
