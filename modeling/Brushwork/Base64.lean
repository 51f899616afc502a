import Brushwork.Bytes
import Brushwork.Text

/-!
# Base64

Three bytes are written as four digits; a shorter rest is filled up with `=`. Reading skips what is
no digit, and stops once a started group has been closed by `=`.
-/

namespace Brushwork.Base64

def digit (n : Nat) : Char :=
  if n < 26 then Char.ofNat (65 + n)
  else if n < 52 then Char.ofNat (71 + n)
  else if n < 62 then Char.ofNat (n - 4)
  else if n = 62 then '+'
  else '/'

def digitValue? (c : Char) : Option Nat :=
  if 'A' ≤ c && c ≤ 'Z' then some (c.toNat - 65)
  else if 'a' ≤ c && c ≤ 'z' then some (c.toNat - 71)
  else if c.isDigit then some (c.toNat + 4)
  else if c = '+' then some 62
  else if c = '/' then some 63
  else none

/-- Write bytes behind a text. -/
def encodeOnto (acc : String) : List UInt8 → String
  | a :: b :: c :: bs =>
    let n := a.toNat * 65536 + b.toNat * 256 + c.toNat
    encodeOnto ((((acc.push (digit (n / 262144))).push (digit (n / 4096 % 64))).push
      (digit (n / 64 % 64))).push (digit (n % 64))) bs
  | [a, b] =>
    let n := a.toNat * 256 + b.toNat
    (((acc.push (digit (n / 1024))).push (digit (n / 16 % 64))).push (digit (n % 16 * 4))).push '='
  | [a] => (((acc.push (digit (a.toNat / 4))).push (digit (a.toNat % 4 * 16))).push '=').push '='
  | [] => acc

def encode (bs : Bytes) : String := encodeOnto "" bs.toList

inductive Fault where
  | notAscii
  | padding
  | surplus (count : Nat)
deriving DecidableEq

def Fault.message : Fault → String
  | .notAscii => "string argument should contain only ASCII characters"
  | .padding => "Incorrect padding"
  | .surplus count =>
    "Invalid base64-encoded string: number of data characters (" ++ toString count ++
      ") cannot be 1 more than a multiple of 4"

/-- The bits of a group that have been read and belong to no byte yet: none, six, four or two. -/
inductive Pending where
  | none
  | six (bits : Nat)
  | four (bits : Nat)
  | two (bits : Nat)

/-- Add a digit to a group; the byte it completes goes to the bytes read so far. -/
def Pending.feed (p : Pending) (bs : Bytes) (value : Nat) : Bytes × Pending :=
  match p with
  | .none => (bs, .six value)
  | .six bits => (bs.push (UInt8.ofNat (bits * 4 + value / 16)), .four (value % 16))
  | .four bits => (bs.push (UInt8.ofNat (bits * 16 + value / 4)), .two (value % 4))
  | .two bits => (bs.push (UInt8.ofNat (bits * 64 + value)), .none)

/-- Read on behind the bytes `bs`, with `pads` times `=` since the last digit. -/
def decodeFrom (bs : Bytes) (p : Pending) (pads : Nat) : List Char → Except Fault Bytes
  | [] =>
    match p with
    | .none => .ok bs
    | .six _ => .error (.surplus (bs.size / 3 * 4 + 1))
    | _ => .error .padding
  | c :: cs =>
    if c = '=' then
      match p with
      | .two _ => .ok bs
      | .four _ => if pads = 0 then decodeFrom bs p 1 cs else .ok bs
      | _ => decodeFrom bs p pads cs
    else
      match digitValue? c with
      | some value =>
        let (bs, p) := p.feed bs value
        decodeFrom bs p 0 cs
      | none => decodeFrom bs p pads cs

def decode (t : Text) : Except Fault Bytes :=
  match t.chars? with
  | some cs =>
    if cs.all fun c => c.toNat < 128 then decodeFrom #[] .none 0 cs else .error .notAscii
  | none => .error .notAscii

end Brushwork.Base64
