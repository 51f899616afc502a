import Brushwork.Text
import Brushwork.Text.Blank
import Brushwork.Text.Hex

/-!
# Colours

A colour is four bytes. Its text is the name of a palette colour, in any case, or `#` with six or
eight hexadecimal digits; without the last two it is fully opaque. Blanks around a text are dropped,
then double quotes around what is left.
-/

namespace Brushwork

structure Rgba where
  red : UInt8
  green : UInt8
  blue : UInt8
  alpha : UInt8
deriving DecidableEq

namespace Rgba

def white : Rgba := ⟨255, 255, 255, 255⟩

def black : Rgba := ⟨0, 0, 0, 255⟩

def palette : List (List Char × Rgba) :=
  [("white".toList, white), ("black".toList, black), ("red".toList, ⟨255, 0, 0, 255⟩),
    ("green".toList, ⟨0, 255, 0, 255⟩), ("blue".toList, ⟨0, 0, 255, 255⟩),
    ("yellow".toList, ⟨255, 255, 0, 255⟩), ("transparent".toList, ⟨0, 0, 0, 0⟩)]

/-- The small form of a character, as far as it is an ASCII letter: besides the ASCII capitals only
the kelvin sign has such a form. -/
def smallLetter (c : Char) : Char := if c.toNat = 0x212A then 'k' else c.toLower

def bareChars (cs : List Char) : List Char := Text.trim (· = '"') (Text.trim Text.isBlank cs)

/-- A colour text without blanks and quotes around it. -/
def bare (t : Text) : Text :=
  match t.chars? with
  | some cs => .ofChars (bareChars cs)
  | none => t

def ofDigits? : List Char → Option Rgba
  | ['#', a, b, c, d, e, f] =>
    match Text.hexByte? a b, Text.hexByte? c d, Text.hexByte? e f with
    | some red, some green, some blue => some ⟨red, green, blue, 255⟩
    | _, _, _ => none
  | ['#', a, b, c, d, e, f, g, h] =>
    match Text.hexByte? a b, Text.hexByte? c d, Text.hexByte? e f, Text.hexByte? g h with
    | some red, some green, some blue, some alpha => some ⟨red, green, blue, alpha⟩
    | _, _, _, _ => none
  | _ => none

def ofChars? (cs : List Char) : Option Rgba :=
  match palette.lookup ((bareChars cs).map smallLetter) with
  | some color => some color
  | none => ofDigits? (bareChars cs)

/-- The colour that a text names. No name has a surrogate in it. -/
def ofText? (t : Text) : Option Rgba := t.chars?.bind ofChars?

/-- The digits of a colour, alpha last, without the sign before them. -/
def digits (c : Rgba) : List Char :=
  Text.upperHexByte c.red ++ Text.upperHexByte c.green ++ Text.upperHexByte c.blue ++
    Text.upperHexByte c.alpha

def text (c : Rgba) : String := String.ofList ('#' :: c.digits)

def bytes (c : Rgba) : List UInt8 := [c.red, c.green, c.blue, c.alpha]

/-- A letter for each opaque palette colour, `X` for every other colour. -/
def letter (c : Rgba) : Char :=
  if c = white then 'W'
  else if c = black then 'K'
  else if c = ⟨255, 0, 0, 255⟩ then 'R'
  else if c = ⟨0, 255, 0, 255⟩ then 'G'
  else if c = ⟨0, 0, 255, 255⟩ then 'B'
  else if c = ⟨255, 255, 0, 255⟩ then 'Y'
  else 'X'

end Rgba

end Brushwork
