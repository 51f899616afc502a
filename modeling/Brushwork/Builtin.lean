import Brushwork.Value

/-!
# Built-in instructions and queries

Instructions draw or move and give no value. Queries look at the pen or at the canvas and give a
value. Each has a fixed list of parameter types.
-/

namespace Brushwork

inductive Builtin where
  | color | size | drawLine | drawCircle | drawRectangle | fill | setCursor
  | getActualX | getActualY | getCanvasSize | getColorCount
  | isBrushColor | isBrushSize | isCanvasColor
deriving DecidableEq

namespace Builtin

def all : List Builtin :=
  [.color, .size, .drawLine, .drawCircle, .drawRectangle, .fill, .setCursor,
    .getActualX, .getActualY, .getCanvasSize, .getColorCount,
    .isBrushColor, .isBrushSize, .isCanvasColor]

theorem mem_all (b : Builtin) : b ∈ all := by cases b <;> decide

def name : Builtin → String
  | .color => "Color"
  | .size => "Size"
  | .drawLine => "DrawLine"
  | .drawCircle => "DrawCircle"
  | .drawRectangle => "DrawRectangle"
  | .fill => "Fill"
  | .setCursor => "SetCursor"
  | .getActualX => "GetActualX"
  | .getActualY => "GetActualY"
  | .getCanvasSize => "GetCanvasSize"
  | .getColorCount => "GetColorCount"
  | .isBrushColor => "IsBrushColor"
  | .isBrushSize => "IsBrushSize"
  | .isCanvasColor => "IsCanvasColor"

def ofName? (s : String) : Option Builtin := all.find? fun b => b.name == s

def params : Builtin → List Ty
  | .color => [.string]
  | .size => [.int]
  | .drawLine => [.int, .int, .int]
  | .drawCircle => [.int, .int, .int]
  | .drawRectangle => [.int, .int, .int, .int, .int]
  | .fill => []
  | .setCursor => [.int, .int]
  | .getActualX => []
  | .getActualY => []
  | .getCanvasSize => []
  | .getColorCount => [.string, .int, .int, .int, .int]
  | .isBrushColor => [.string]
  | .isBrushSize => [.int]
  | .isCanvasColor => [.string]

/-- The type of the value a call gives, `void` for an instruction. -/
def result : Builtin → Ty
  | .getActualX | .getActualY | .getCanvasSize | .getColorCount => .int
  | .isBrushColor | .isBrushSize | .isCanvasColor => .bool
  | _ => .void

end Builtin

end Brushwork
