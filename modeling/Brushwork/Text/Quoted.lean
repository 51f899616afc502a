import Brushwork.Text
import Brushwork.Text.Hex
import Brushwork.Text.Printable

/-!
# Quoted text

A text is quoted with single quotes, unless it holds a single quote and no double quote. Inside, the
quote in use and the backslash are escaped, line ends and tabs are written by name, and every other
unprintable character by its code point in two, four or eight hexadecimal digits.
-/

namespace Brushwork.Text

/-- The quote that surrounds a text. -/
def quoteFor (t : Text) : Char :=
  if t.points.contains (.ofChar '\'') && !t.points.contains (.ofChar '"') then '"' else '\''

/-- One character between quotes. -/
def escapeChar (quote c : Char) : List Char :=
  if c = quote || c = '\\' then ['\\', c]
  else if c = '\n' then ['\\', 'n']
  else if c = '\r' then ['\\', 'r']
  else if c = '\t' then ['\\', 't']
  else if isPrintable c then [c]
  else if c.toNat < 0x100 then '\\' :: 'x' :: hexDigits 2 c.toNat
  else if c.toNat < 0x10000 then '\\' :: 'u' :: hexDigits 4 c.toNat
  else '\\' :: 'U' :: hexDigits 8 c.toNat

/-- One code point between quotes; a surrogate is no printable character. -/
def escapePoint (quote : Char) (p : CodePoint) : List Char :=
  match p.char? with
  | some c => escapeChar quote c
  | none => '\\' :: 'u' :: hexDigits 4 p.toNat

def quoted (t : Text) : String :=
  let q := quoteFor t
  String.ofList (q :: t.points.flatMap (escapePoint q) ++ [q])

end Brushwork.Text
