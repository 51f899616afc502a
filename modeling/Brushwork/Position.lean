import Brushwork.Text

/-!
# Places in a program text

Every token, every node of a tree and every diagnostic carries the line and the column where it
starts. Lines and columns count from one and columns count code points; trees made by hand may carry
any integers.
-/

namespace Brushwork

structure Position where
  line : Int
  column : Int
deriving DecidableEq

namespace Position

/-- The first place of a text. -/
def start : Position := ⟨1, 1⟩

/-- The place of a remark about a program as a whole. -/
def whole : Position := ⟨0, 0⟩

/-- The place behind a character. -/
def after (p : Position) (c : Char) : Position :=
  if c = '\n' then ⟨p.line + 1, 1⟩ else ⟨p.line, p.column + 1⟩

/-- The place behind a piece of text. -/
def advance (p : Position) (cs : List Char) : Position := cs.foldl after p

@[simp] theorem advance_nil (p : Position) : p.advance [] = p := rfl

@[simp] theorem advance_cons (p : Position) (c : Char) (cs : List Char) :
    p.advance (c :: cs) = (p.after c).advance cs := rfl

@[simp] theorem advance_append (p : Position) (cs ds : List Char) :
    p.advance (cs ++ ds) = (p.advance cs).advance ds := List.foldl_append

/-- A text with the place it speaks of in front. -/
def describe (p : Position) (text : Text) : Text :=
  Text.ofString ("Line " ++ toString p.line ++ ", column " ++ toString p.column ++ ": ") ++ text

end Position

/-- A cause together with the place it refers to. -/
structure Located (α : Type) where
  cause : α
  position : Position
deriving DecidableEq

end Brushwork
