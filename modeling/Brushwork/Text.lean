/-!
# Texts

A text is a sequence of code points. Nearly all code points are characters; the others are
surrogates, the halves of a pair in UTF-16, of which a JSON text may hold one without the other.
Every string is a text.
-/

namespace Brushwork

structure CodePoint where
  val : UInt32
  lt : val.toNat < 0x110000
deriving DecidableEq

namespace CodePoint

def toNat (p : CodePoint) : Nat := p.val.toNat

theorem lt_of_isValidChar {n : UInt32} (h : n.isValidChar) : n.toNat < 0x110000 := by
  have : n.toNat.isValidChar := h
  unfold Nat.isValidChar at this
  omega

def ofChar (c : Char) : CodePoint := ⟨c.val, lt_of_isValidChar c.valid⟩

/-- The code point of a number; the replacement character if there is none. -/
def ofNat (n : Nat) : CodePoint :=
  if h : n < 0x110000 then
    ⟨UInt32.ofNatLT n (Nat.lt_trans h (by decide)), by rw [UInt32.toNat_ofNatLT]; exact h⟩
  else ofChar '�'

/-- The character of a code point, unless it is a surrogate. -/
def char? (p : CodePoint) : Option Char :=
  if h : p.val.isValidChar then some ⟨p.val, h⟩ else none

@[simp] theorem char?_ofChar (c : Char) : (ofChar c).char? = some c := by
  have h : (ofChar c).val.isValidChar := c.valid
  rw [char?, dif_pos h]
  rfl

end CodePoint

structure Text where
  points : List CodePoint
deriving DecidableEq

namespace Text

def ofChars (cs : List Char) : Text := ⟨cs.map CodePoint.ofChar⟩

def ofString (s : String) : Text := ofChars s.toList

instance : Coe String Text := ⟨ofString⟩

instance : Append Text := ⟨fun s t => ⟨s.points ++ t.points⟩⟩

def isEmpty (t : Text) : Bool := t.points.isEmpty

/-- The characters of a text without surrogates. -/
def chars? (t : Text) : Option (List Char) := t.points.mapM CodePoint.char?

/-- A text as a string, in which the replacement character stands for a surrogate. -/
instance : ToString Text :=
  ⟨fun t => String.ofList (t.points.map fun p => p.char?.getD '�')⟩

@[simp] theorem chars?_ofChars (cs : List Char) : (ofChars cs).chars? = some cs := by
  induction cs with
  | nil => rfl
  | cons c cs ih =>
    simp only [chars?, ofChars, List.map_cons, List.mapM_cons] at ih ⊢
    simp [ih]

@[simp] theorem toString_ofString (s : String) : toString (ofString s) = s := by
  have h : (fun p : CodePoint => p.char?.getD '�') ∘ CodePoint.ofChar = id := by
    funext c
    simp
  simp only [toString, ofString, ofChars, List.map_map, h, List.map_id, String.ofList_toList]

@[simp] theorem ofString_inj {s t : String} : ofString s = ofString t ↔ s = t := by
  constructor
  · intro h
    have := congrArg (fun x : Text => toString x) h
    simpa only [toString_ofString] using this
  · intro h
    rw [h]

end Text

end Brushwork
