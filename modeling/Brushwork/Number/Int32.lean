/-!
# Signed 32-bit arithmetic

Sums, differences, products, quotients and powers are computed over all integers and then brought
back into the range of signed 32-bit numbers by adding a multiple of `2 ^ 32`.
-/

namespace Brushwork.Int32

def least : Int := -0x80000000

def greatest : Int := 0x7FFFFFFF

def modulus : Nat := 0x100000000

/-- The number of the range that differs from `n` by a multiple of `2 ^ 32`. -/
def wrap (n : Int) : Int := (n - least) % modulus + least

theorem least_le_wrap (n : Int) : least ≤ wrap n := by
  simp only [wrap, least, modulus]
  omega

theorem wrap_le_greatest (n : Int) : wrap n ≤ greatest := by
  simp only [wrap, least, greatest, modulus]
  omega

theorem wrap_eq_self {n : Int} (h : least ≤ n) (h' : n ≤ greatest) : wrap n = n := by
  simp only [wrap, least, greatest, modulus] at *
  omega

/-- The quotient rounded toward zero. There is none by zero. -/
def quotient? (a b : Int) : Option Int :=
  if b = 0 then none
  else
    let q : Int := (a.natAbs / b.natAbs : Nat)
    some (if (a < 0) = (b < 0) then q else -q)

/-- `base ^ exponent` modulo `m`, by squaring. -/
def powMod (m : Nat) (base : Nat) (exponent : Nat) : Nat :=
  if exponent = 0 then 1 % m
  else
    let half := powMod m (base * base % m) (exponent / 2)
    if exponent % 2 = 0 then half else half * base % m
termination_by exponent
decreasing_by omega

/-- A power; a negative exponent gives the reciprocal rounded toward zero, which zero does not
have. -/
def power? (base exponent : Int) : Option Int :=
  if 0 ≤ exponent then some (wrap (powMod modulus (base % modulus).toNat exponent.toNat))
  else if base = 0 then none
  else if base = 1 then some 1
  else if base = -1 then some (if exponent % 2 = 0 then 1 else -1)
  else some 0

end Brushwork.Int32
