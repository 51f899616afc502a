import Brushwork.Json
import Brushwork.Number.Numeral

/-!
# Writing JSON

A space follows every comma and colon between values. Texts are written in ASCII: the quote and the
backslash are escaped, five control characters have short escapes, and every other character outside
the printable ASCII range is written by its UTF-16 units, which for a surrogate is itself. Whether
all integers are short enough to be written is asked beforehand.
-/

namespace Brushwork.Json

/-- A UTF-16 unit as an escape. -/
def unitEscape (n : Nat) : List Char := '\\' :: 'u' :: Text.hexDigits 4 n

def escape (c : Char) : List Char :=
  if c = '"' || c = '\\' then ['\\', c]
  else if c = '\n' then ['\\', 'n']
  else if c = '\r' then ['\\', 'r']
  else if c = '\t' then ['\\', 't']
  else if c.toNat = 8 then ['\\', 'b']
  else if c.toNat = 12 then ['\\', 'f']
  else if 0x20 ≤ c.toNat && c.toNat < 0x7F then [c]
  else if c.toNat < 0x10000 then unitEscape c.toNat
  else
    let n := c.toNat - 0x10000
    unitEscape (0xD800 + n / 0x400) ++ unitEscape (0xDC00 + n % 0x400)

def escapePoint (p : CodePoint) : List Char :=
  match p.char? with
  | some c => escape c
  | none => unitEscape p.toNat

def quote (t : Text) : String :=
  (t.points.foldl (fun (acc : String) p => (escapePoint p).foldl String.push acc) "\"").push '"'

/-- The text of a number that is no integer. -/
def realJson : Binary → String
  | .undefined => "NaN"
  | .infinite negative => if negative then "-Infinity" else "Infinity"
  | x => Shortest.text x

mutual

def write : Json → String
  | .null => "null"
  | .bool true => "true"
  | .bool false => "false"
  | .int n => toString n
  | .real x => realJson x
  | .text t => quote t
  | .array items => "[" ++ ", ".intercalate (writeItems items) ++ "]"
  | .object members => "\x7b" ++ ", ".intercalate (writeMembers members) ++ "\x7d"

def writeItems : List Json → List String
  | [] => []
  | j :: js => write j :: writeItems js

def writeMembers : List (Text × Json) → List String
  | [] => []
  | (name, j) :: ms => (quote name ++ ": " ++ write j) :: writeMembers ms

end

mutual

/-- Whether all integers can be written. -/
def isWritable : Json → Bool
  | .int n => Numeral.isWritable n
  | .array items => areWritable items
  | .object members => haveWritable members
  | _ => true

def areWritable : List Json → Bool
  | [] => true
  | j :: js => isWritable j && areWritable js

def haveWritable : List (Text × Json) → Bool
  | [] => true
  | (_, j) :: ms => isWritable j && haveWritable ms

end

end Brushwork.Json
