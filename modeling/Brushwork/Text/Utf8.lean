import Brushwork.Bytes
import Brushwork.Text.Quoted

/-!
# Bytes as text

Files are strict UTF-8: no overlong forms, no surrogates, nothing beyond U+10FFFF. A fault covers
the bytes of the character that could still have been continued when it turned bad. Line ends of
every platform become a plain newline.
-/

namespace Brushwork

namespace Text

namespace Utf8

inductive Reason where
  | badStart | badContinuation | cutOff
deriving DecidableEq

def Reason.message : Reason → String
  | .badStart => "invalid start byte"
  | .badContinuation => "invalid continuation byte"
  | .cutOff => "unexpected end of data"

/-- A run of bytes that is no character: `count` bytes from `start` on, the first of them `byte`. -/
structure Fault where
  reason : Reason
  byte : UInt8
  start : Nat
  count : Nat
deriving DecidableEq

def Fault.message (f : Fault) : String :=
  let place :=
    if f.count = 1 then
      "byte 0x" ++ String.ofList (hexDigits 2 f.byte.toNat) ++ " in position " ++ toString f.start
    else "bytes in position " ++ toString f.start ++ "-" ++ toString (f.start + f.count - 1)
  "'utf-8' codec can't decode " ++ place ++ ": " ++ f.reason.message

def isContinuation (b : Nat) : Bool := 0x80 ≤ b && b ≤ 0xBF

/-- Whether `b` may follow the first byte `a` of a character of three or four bytes. -/
def isSecond (a b : Nat) : Bool :=
  isContinuation b && (a ≠ 0xE0 || 0xA0 ≤ b) && (a ≠ 0xED || b ≤ 0x9F) &&
    (a ≠ 0xF0 || 0x90 ≤ b) && (a ≠ 0xF4 || b ≤ 0x8F)

/-- The character that starts with byte `a`, and the number of further bytes it takes; or the reason
why there is none, and the number of further bytes that the fault covers. -/
def character (a : Nat) (more : List UInt8) : Except (Reason × Nat) (Char × Nat) :=
  if a < 0x80 then .ok (Char.ofNat a, 0)
  else if a < 0xC2 || 0xF5 ≤ a then .error (.badStart, 0)
  else
    match more with
    | [] => .error (.cutOff, 0)
    | b :: more =>
      let b := b.toNat
      if a < 0xE0 then
        if isContinuation b then .ok (Char.ofNat ((a - 0xC0) * 0x40 + (b - 0x80)), 1)
        else .error (.badContinuation, 0)
      else if !isSecond a b then .error (.badContinuation, 0)
      else
        match more with
        | [] => .error (.cutOff, 1)
        | c :: more =>
          let c := c.toNat
          if !isContinuation c then .error (.badContinuation, 1)
          else if a < 0xF0 then
            .ok (Char.ofNat (((a - 0xE0) * 0x40 + (b - 0x80)) * 0x40 + (c - 0x80)), 2)
          else
            match more with
            | [] => .error (.cutOff, 2)
            | d :: _ =>
              let d := d.toNat
              if !isContinuation d then .error (.badContinuation, 2)
              else
                .ok (Char.ofNat ((((a - 0xF0) * 0x40 + (b - 0x80)) * 0x40 + (c - 0x80)) * 0x40 +
                  (d - 0x80)), 3)

/-- Decode from byte number `start` on, behind the characters `acc` in reverse. -/
def decodeFrom (start : Nat) (acc : List Char) : List UInt8 → Except Fault (List Char)
  | [] => .ok acc.reverse
  | a :: more =>
    match character a.toNat more with
    | .error (reason, n) => .error ⟨reason, a, start, n + 1⟩
    | .ok (c, n) => decodeFrom (start + n + 1) (c :: acc) (more.drop n)
termination_by bs => bs.length
decreasing_by
  simp only [List.length_drop, List.length_cons]
  omega

end Utf8

/-- Replace `\r\n` and `\r` by `\n`, behind the characters `acc` in reverse. -/
def unifyFrom (acc : List Char) : List Char → List Char
  | [] => acc.reverse
  | '\r' :: '\n' :: cs => unifyFrom ('\n' :: acc) cs
  | '\r' :: cs => unifyFrom ('\n' :: acc) cs
  | c :: cs => unifyFrom (c :: acc) cs

def unifyNewlines (cs : List Char) : List Char := unifyFrom [] cs

/-- The text of a file. -/
def ofBytes (bs : Bytes) : Except Utf8.Fault String :=
  match Utf8.decodeFrom 0 [] bs.toList with
  | .error f => .error f
  | .ok cs => .ok (String.ofList (unifyNewlines cs))

/-- A text as the bytes of a file. -/
def toBytes (s : String) : Bytes := s.toUTF8.data

end Text

end Brushwork
