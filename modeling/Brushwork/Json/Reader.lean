import Brushwork.Json
import Brushwork.Number.Numeral

/-!
# Reading JSON

Besides the standard's values the reader takes `NaN`, `Infinity` and `-Infinity`. Of members with
equal names the last value counts, at the place of the first. A surrogate without its other half is
kept as it is. A fault is reported with the number of characters before it, and with line and
column; only of an integer with too many digits the place is not told.

Arrays and objects are read to any depth: the stack is taken as unbounded.
-/

namespace Brushwork.Json

inductive Fault where
  | byteOrderMark
  | expectedValue
  | expectedName
  | expectedColon
  | expectedComma
  | extraData
  | openText
  | controlCharacter
  | badEscape
  | badUnit
  | longInteger (digits : Nat)
deriving DecidableEq

def Fault.message : Fault → String
  | .byteOrderMark => "Unexpected UTF-8 BOM (decode using utf-8-sig)"
  | .expectedValue => "Expecting value"
  | .expectedName => "Expecting property name enclosed in double quotes"
  | .expectedColon => "Expecting ':' delimiter"
  | .expectedComma => "Expecting ',' delimiter"
  | .extraData => "Extra data"
  | .openText => "Unterminated string starting at"
  | .controlCharacter => "Invalid control character at"
  | .badEscape => "Invalid \\escape"
  | .badUnit => "Invalid \\uXXXX escape"
  | .longInteger digits => Numeral.excessComplaint digits

/-- A fault with the number of characters from it to the end of the text. -/
structure Stop where
  fault : Fault
  remaining : Nat
deriving DecidableEq

/-- A value read from the start of `cs`, with what follows it. -/
structure Parsed (α : Type) (cs : List Char) where
  value : α
  rest : List Char
  shorter : rest.length < cs.length

def isSpace (c : Char) : Bool := c = ' ' || c = '\t' || c = '\n' || c = '\r'

def skipSpace (cs : List Char) : List Char := cs.dropWhile isSpace

theorem length_dropWhile_le {α : Type} (p : α → Bool) (l : List α) :
    (l.dropWhile p).length ≤ l.length := (List.dropWhile_suffix p).length_le

theorem length_skipSpace_le (cs : List Char) : (skipSpace cs).length ≤ cs.length :=
  length_dropWhile_le _ _

/-- Four hexadecimal digits. -/
def unit? : List Char → Option Nat
  | [a, b, c, d] => do
    let a ← Text.hexValue? a
    let b ← Text.hexValue? b
    let c ← Text.hexValue? c
    let d ← Text.hexValue? d
    pure (((a * 16 + b) * 16 + c) * 16 + d)
  | _ => none

def shortEscape? (c : Char) : Option Char :=
  if c = '"' || c = '\\' || c = '/' then some c
  else if c = 'b' then some (Char.ofNat 8)
  else if c = 'f' then some (Char.ofNat 12)
  else if c = 'n' then some '\n'
  else if c = 'r' then some '\r'
  else if c = 't' then some '\t'
  else none

/-- The unit that continues a surrogate pair. It needs a further escape and one more character
behind it. The result is none when no second escape follows. -/
def secondUnit (cs : List Char) : Except Stop (Option Nat) :=
  match cs with
  | '\\' :: 'u' :: more =>
    if more.length < 5 then .ok none
    else
      match unit? (more.take 4) with
      | some n => .ok (some n)
      | none => .error ⟨.badUnit, more.length + 1⟩
  | _ => .ok none

/-- The code points up to the closing quote, in reverse and in front of `acc`, with what follows the
quote. `opening` counts the characters from the opening quote to the end of the text. -/
def readText (opening : Nat) (acc : List CodePoint) (cs : List Char) :
    Except Stop (List CodePoint × List Char) :=
  match cs with
  | [] => .error ⟨.openText, opening⟩
  | '"' :: rest => .ok (acc, rest)
  | ['\\'] => .error ⟨.openText, opening⟩
  | '\\' :: 'u' :: rest =>
    if rest.length < 5 then .error ⟨.badUnit, rest.length + 1⟩
    else
      match unit? (rest.take 4) with
      | none => .error ⟨.badUnit, rest.length + 1⟩
      | some n =>
        if 0xD800 ≤ n && n ≤ 0xDBFF then
          match secondUnit (rest.drop 4) with
          | .error e => .error e
          | .ok none => readText opening (.ofNat n :: acc) (rest.drop 4)
          | .ok (some low) =>
            if 0xDC00 ≤ low && low ≤ 0xDFFF then
              let p := .ofNat (0x10000 + (n - 0xD800) * 0x400 + (low - 0xDC00))
              readText opening (p :: acc) (rest.drop 10)
            else readText opening (.ofNat n :: acc) (rest.drop 4)
        else readText opening (.ofNat n :: acc) (rest.drop 4)
  | '\\' :: c :: rest =>
    match shortEscape? c with
    | none => .error ⟨.badEscape, rest.length + 2⟩
    | some d => readText opening (.ofChar d :: acc) rest
  | c :: rest =>
    if c.toNat ≤ 0x1F then .error ⟨.controlCharacter, rest.length + 1⟩
    else readText opening (.ofChar c :: acc) rest
termination_by cs.length
decreasing_by
  all_goals simp only [List.length_drop, List.length_cons]
  all_goals omega

theorem readText_shorter {opening : Nat} {acc v : List CodePoint} {cs rest : List Char}
    (h : readText opening acc cs = .ok (v, rest)) : rest.length < cs.length := by
  fun_induction readText opening acc cs with
  | case1 | case3 | case4 | case5 | case6 | case11 | case13 => cases h
  | case2 => cases h; simp
  | case7 | case8 | case9 | case10 | case12 | case14 =>
    rename_i ih
    have := ih h
    simp only [List.length_drop, List.length_cons] at *
    omega

def digitsNat (cs : List Char) : Nat := cs.foldl (fun n c => 10 * n + (c.toNat - 48)) 0

/-- The digits before the point: a single zero, or digits without a leading zero. -/
def wholeDigits : List Char → List Char
  | '0' :: _ => ['0']
  | cs => cs.takeWhile Char.isDigit

/-- The digits behind a point, with what follows. -/
def fraction : List Char → List Char × List Char
  | '.' :: cs =>
    match cs.takeWhile Char.isDigit with
    | [] => ([], '.' :: cs)
    | ds => (ds, cs.drop ds.length)
  | cs => ([], cs)

/-- The power of ten behind an exponent mark, with what follows. -/
def exponent (cs : List Char) : Option Int × List Char :=
  let marked (more : List Char) : Option Int × List Char :=
    let (negative, body) :=
      match more with
      | '-' :: r => (true, r)
      | '+' :: r => (false, r)
      | r => (false, r)
    match body.takeWhile Char.isDigit with
    | [] => (none, cs)
    | ds =>
      let n : Int := digitsNat ds
      (some (if negative then -n else n), body.drop ds.length)
  match cs with
  | 'e' :: more => marked more
  | 'E' :: more => marked more
  | _ => (none, cs)

/-- The part of a number behind its sign. -/
def unsigned (negative : Bool) (cs : List Char) : Except Fault (Json × List Char) :=
  match wholeDigits cs with
  | [] => .error .expectedValue
  | ds =>
    let (fs, afterFraction) := fraction (cs.drop ds.length)
    let (power, rest) := exponent afterFraction
    let n := digitsNat (ds ++ fs)
    if fs.isEmpty && power.isNone then
      if Numeral.mostDigits < ds.length then .error (.longInteger ds.length)
      else .ok (.int (if negative then -(n : Int) else n), rest)
    else .ok (.real (Binary.ofDecimal negative n (power.getD 0 - fs.length)), rest)

/-- A number at the start of a text. -/
def number : List Char → Except Fault (Json × List Char)
  | '-' :: cs => unsigned true cs
  | cs => unsigned false cs

/-- The words that stand for a value. -/
def words : List (List Char × Json) :=
  [("null".toList, .null), ("true".toList, .bool true), ("false".toList, .bool false),
    ("NaN".toList, .real .undefined), ("Infinity".toList, .real (.infinite false)),
    ("-Infinity".toList, .real (.infinite true))]

/-- A word or a number at the start of a text. -/
def scalar (cs : List Char) : Except Fault (Json × List Char) :=
  match words.find? fun w => w.1.isPrefixOf cs with
  | some w => .ok (w.2, cs.drop w.1.length)
  | none => number cs

mutual

/-- A value at the very start of a text. -/
def readValue (cs : List Char) : Except Stop (Parsed Json cs) :=
  match cs with
  | [] => .error ⟨.expectedValue, 0⟩
  | '"' :: more =>
    match h : readText (more.length + 1) [] more with
    | .error e => .error e
    | .ok (v, rest) =>
      have := readText_shorter h
      .ok ⟨.text ⟨v.reverse⟩, rest, by simp only [List.length_cons]; omega⟩
  | '\x7b' :: more =>
    have := length_skipSpace_le more
    match h : skipSpace more with
    | '\x7d' :: rest => .ok ⟨.object [], rest, by simp only [h, List.length_cons] at *; omega⟩
    | inner =>
      match readMembers [] inner with
      | .error e => .error e
      | .ok ⟨v, rest, _⟩ => .ok ⟨.object v, rest, by simp only [h, List.length_cons] at *; omega⟩
  | '[' :: more =>
    have := length_skipSpace_le more
    match h : skipSpace more with
    | ']' :: rest => .ok ⟨.array [], rest, by simp only [h, List.length_cons] at *; omega⟩
    | inner =>
      match readItems [] inner with
      | .error e => .error e
      | .ok ⟨v, rest, _⟩ => .ok ⟨.array v, rest, by simp only [h, List.length_cons] at *; omega⟩
  | c :: more =>
    match scalar (c :: more) with
    | .ok (v, rest) =>
      if h : rest.length < (c :: more).length then .ok ⟨v, rest, h⟩
      else .error ⟨.expectedValue, more.length + 1⟩
    | .error fault => .error ⟨fault, more.length + 1⟩
termination_by 2 * cs.length

/-- The members of an object from a name on, behind those already read. -/
def readMembers (seen : List (Text × Json)) (cs : List Char) :
    Except Stop (Parsed (List (Text × Json)) cs) :=
  match cs with
  | '"' :: more =>
    match h : readText (more.length + 1) [] more with
    | .error e => .error e
    | .ok (name, r1) =>
      have h1 := readText_shorter h
      have h2 := length_skipSpace_le r1
      match hc : skipSpace r1 with
      | ':' :: r2 =>
        have h3 := length_skipSpace_le r2
        match readValue (skipSpace r2) with
        | .error e => .error e
        | .ok ⟨v, r3, h4⟩ =>
          have h5 := length_skipSpace_le r3
          let seen := Table.put ⟨name.reverse⟩ v seen
          match he : skipSpace r3 with
          | '\x7d' :: rest => .ok ⟨seen, rest, by simp only [hc, he, List.length_cons] at *; omega⟩
          | ',' :: r4 =>
            have h6 := length_skipSpace_le r4
            match readMembers seen (skipSpace r4) with
            | .error e => .error e
            | .ok ⟨all, rest, h7⟩ =>
              .ok ⟨all, rest, by simp only [hc, he, List.length_cons] at *; omega⟩
          | other => .error ⟨.expectedComma, other.length⟩
      | other => .error ⟨.expectedColon, other.length⟩
  | other => .error ⟨.expectedName, other.length⟩
termination_by 2 * cs.length
decreasing_by
  all_goals simp only [hc, List.length_cons] at *
  · omega
  · simp only [he, List.length_cons] at *
    omega

/-- The items of an array, behind those already read in reverse. -/
def readItems (seen : List Json) (cs : List Char) : Except Stop (Parsed (List Json) cs) :=
  match readValue cs with
  | .error e => .error e
  | .ok ⟨v, r1, h1⟩ =>
    have h2 := length_skipSpace_le r1
    match he : skipSpace r1 with
    | ']' :: rest =>
      .ok ⟨(v :: seen).reverse, rest, by simp only [he, List.length_cons] at *; omega⟩
    | ',' :: r2 =>
      have h3 := length_skipSpace_le r2
      match readItems (v :: seen) (skipSpace r2) with
      | .error e => .error e
      | .ok ⟨all, rest, h4⟩ => .ok ⟨all, rest, by simp only [he, List.length_cons] at *; omega⟩
    | other => .error ⟨.expectedComma, other.length⟩
termination_by 2 * cs.length + 1
decreasing_by
  · omega
  · simp only [he, List.length_cons] at *
    omega

end

/-- A whole text as one value, blanks around it allowed. -/
def readChars (cs : List Char) : Except Stop Json :=
  if cs.head? = some (Char.ofNat 0xFEFF) then .error ⟨.byteOrderMark, cs.length⟩
  else
    match readValue (skipSpace cs) with
    | .error e => .error e
    | .ok ⟨v, rest, _⟩ =>
      match skipSpace rest with
      | [] => .ok v
      | other => .error ⟨.extraData, other.length⟩

/-- What is said about a stop in a text: the fault, line, column and number of characters before
it. -/
def Stop.message (stop : Stop) (cs : List Char) : String :=
  let offset := cs.length - stop.remaining
  let before := cs.take offset
  let line := before.count '\n' + 1
  let column := (before.reverse.takeWhile (· ≠ '\n')).length + 1
  match stop.fault with
  | .longInteger _ => stop.fault.message
  | fault =>
    fault.message ++ ": line " ++ toString line ++ " column " ++ toString column ++ " (char " ++
      toString offset ++ ")"

def read (s : String) : Except String Json :=
  match readChars s.toList with
  | .ok v => .ok v
  | .error stop => .error (stop.message s.toList)

end Brushwork.Json
