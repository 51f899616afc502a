/-!
# Hexadecimal digits

Digits are read in either case and written in the case asked for.
-/

namespace Brushwork.Text

def hexValue? (c : Char) : Option Nat :=
  if c.isDigit then some (c.toNat - 48)
  else if 'a' ≤ c && c ≤ 'f' then some (c.toNat - 87)
  else if 'A' ≤ c && c ≤ 'F' then some (c.toNat - 55)
  else none

/-- Lower-case digits, filled up with zeros to at least the given width. -/
def hexDigits (width n : Nat) : List Char :=
  let digits := Nat.toDigits 16 n
  List.replicate (width - digits.length) '0' ++ digits

/-- The upper-case digit of a number below sixteen. -/
def upperHexDigit (n : Nat) : Char := if n < 10 then Char.ofNat (48 + n) else Char.ofNat (55 + n)

/-- The two upper-case digits of a byte. -/
def upperHexByte (b : UInt8) : List Char :=
  [upperHexDigit (b.toNat / 16), upperHexDigit (b.toNat % 16)]

/-- The byte that two digits stand for. -/
def hexByte? (a b : Char) : Option UInt8 :=
  match hexValue? a, hexValue? b with
  | some m, some n => some (UInt8.ofNat (16 * m + n))
  | _, _ => none

end Brushwork.Text
