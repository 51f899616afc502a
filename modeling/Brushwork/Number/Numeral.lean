import Brushwork.Text.Blank
import Brushwork.Text.Digit
import Brushwork.Text.Quoted

/-!
# Integers written out

An integer may be written with blanks around it, with a sign directly in front of its first digit,
with digits of any script and with single underscores between digits. Below U+007F only the six
white-space characters count as blanks here. A text is refused if it has too many digits, and so is
an integer that would need too many to be written.
-/

namespace Brushwork.Numeral

def isPadding (c : Char) : Bool :=
  if c.toNat < 0x7F then c = ' ' || (0x09 ≤ c.toNat && c.toNat ≤ 0x0D) else Text.isBlank c

/-- The value of further digits behind a number already read. -/
def extend (n : Nat) : List Char → Option Nat
  | [] => some n
  | '_' :: c :: cs =>
    match Text.digitValue? c with
    | some d => extend (10 * n + d) cs
    | none => none
  | c :: cs =>
    match Text.digitValue? c with
    | some d => extend (10 * n + d) cs
    | none => none

def magnitude? : List Char → Option Nat
  | [] => none
  | c :: cs =>
    match Text.digitValue? c with
    | some d => extend d cs
    | none => none

def ofChars? (cs : List Char) : Option Int :=
  match Text.trim isPadding cs with
  | '-' :: cs => (magnitude? cs).map fun n => -(n : Int)
  | '+' :: cs => (magnitude? cs).map fun n => (n : Int)
  | cs => (magnitude? cs).map fun n => (n : Int)

/-- The most digits that an integer may have where it is read or written. -/
def mostDigits : Nat := 4300

/-- How many digits a text starts with behind `n` others, unless an underscore among them has no
digit at both sides; `dangling` says that the last character was one. -/
def countDigits (n : Nat) (dangling : Bool) : List Char → Option Nat
  | '_' :: cs => if dangling then none else countDigits n true cs
  | c :: cs =>
    if (Text.digitValue? c).isSome then countDigits (n + 1) false cs
    else if dangling then none
    else some n
  | [] => if dangling then none else some n

/-- The number of digits that a text has behind blanks and a sign, if it is too large. -/
def excess? (cs : List Char) : Option Nat :=
  let digits :=
    match cs.dropWhile isPadding with
    | '-' :: cs => cs
    | '+' :: cs => cs
    | cs => cs
  if digits.head? = some '_' then none
  else (countDigits 0 false digits).filter fun n => mostDigits < n

def read? (cs : List Char) : Option Int := if (excess? cs).isSome then none else ofChars? cs

/-- The integer that a text from outside a program stands for. -/
def ofText? (t : Text) : Option Int := t.chars?.bind read?

/-- Whether an integer can be written, whatever its sign. -/
def isWritable (n : Int) : Bool := n.natAbs < Nat.pow 10 mostDigits

/-- What is said where an integer of too many digits should be written. -/
def unwritableComplaint : String :=
  "Exceeds the limit (" ++ toString mostDigits ++
    " digits) for integer string conversion; use sys.set_int_max_str_digits() to increase the limit"

/-- What is said about a text of too many digits. -/
def excessComplaint (n : Nat) : String :=
  "Exceeds the limit (" ++ toString mostDigits ++
    " digits) for integer string conversion: value has " ++ toString n ++
    " digits; use sys.set_int_max_str_digits() to increase the limit"

/-- The leading characters of a text, as far as they are characters. -/
def leadingChars (t : Text) : List Char :=
  (t.points.takeWhile fun p => p.char?.isSome).filterMap CodePoint.char?

/-- What is said about a text that is no integer. It is quoted, and the quotation is cut short. -/
def complaint (t : Text) : String :=
  match excess? (leadingChars t) with
  | some n => excessComplaint n
  | none =>
    "invalid literal for int() with base 10: " ++ String.ofList ((Text.quoted t).toList.take 200)

end Brushwork.Numeral
