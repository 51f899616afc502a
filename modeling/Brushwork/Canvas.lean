import Brushwork.Canvas.Census
import Brushwork.Canvas.Flood

/-!
# Canvas, pen and easel

A canvas is a grid with the brush in use, resolved to a colour and an odd size. The pen keeps the
cursor, the text the brush colour was set by, and the brush size; it outlives the canvas it draws
on. An easel holds a canvas together with its pen.
-/

namespace Brushwork

structure Brush where
  color : Rgba := .black
  size : Int := 1
deriving DecidableEq

namespace Brush

/-- A fully transparent brush leaves no trace. -/
def paints (b : Brush) : Bool := b.color.alpha ≠ 0

def reach (b : Brush) : Int := b.size / 2

end Brush

structure Pen where
  x : Int := 0
  y : Int := 0
  color : Text := "Black"
  size : Int := 1
deriving DecidableEq

structure Canvas where
  grid : Grid
  brush : Brush := {}

structure Easel where
  canvas : Canvas
  pen : Pen := {}

namespace Canvas

inductive Fault where
  | dimensions
  | rows
  | outside (x y : Int)
  | color (text : Text)
  | size
  | direction (dx dy : Int)
  | radius
  | unmeasurable
  | byteCount (wanted got : Nat)
deriving DecidableEq

def Fault.message : Fault → Text
  | .dimensions => "Canvas dimensions must be positive"
  | .rows => "Pixel rows do not match the canvas size"
  | .outside x y =>
    "Coordinates outside the canvas: (" ++ toString x ++ ", " ++ toString y ++ ")"
  | .color text => "Invalid color \"" ++ text ++ "\". Use a palette name or #RRGGBB[AA]"
  | .size => "Brush size must be positive"
  | .direction dx dy =>
    "Invalid direction (" ++ toString dx ++ ", " ++ toString dy ++
      "): only cardinal or diagonal unit steps are allowed"
  | .radius => "Circle radius must be positive"
  | .unmeasurable => "int too large to convert to float"
  | .byteCount wanted got =>
    "Expected " ++ toString wanted ++ " bytes of RGBA data, got " ++ toString got

/-- The integers that the message of a fault names, of those that may be of any size. -/
def Fault.integers : Fault → List Int
  | .outside x y => [x, y]
  | .direction dx dy => [dx, dy]
  | _ => []

/-- A white canvas with a fresh brush. -/
def blank (width height : Int) : Except Fault Canvas :=
  if width ≤ 0 ∨ height ≤ 0 then .error .dimensions
  else .ok { grid := .blank width.toNat height.toNat }

def ofRows (width height : Int) (rows : List (List Rgba)) : Except Fault Canvas :=
  if width ≤ 0 ∨ height ≤ 0 then .error .dimensions
  else
    match Grid.ofRows? width.toNat height.toNat rows with
    | some grid => .ok { grid }
    | none => .error .rows

def pixel (c : Canvas) (x y : Int) : Except Fault Rgba :=
  match c.grid.get? x y with
  | some color => .ok color
  | none => .error (.outside x y)

/-- The text of the colour at a point. -/
def colorText (c : Canvas) (x y : Int) : Except Fault String := (c.pixel x y).map Rgba.text

/-- The length of a row. -/
def size (c : Canvas) : Nat := c.grid.width

def isBrushColor (c : Canvas) (text : Text) : Bool := Rgba.ofText? text = some c.brush.color

def isBrushSize (c : Canvas) (size : Int) : Bool := c.brush.size = size

/-- Whether every pixel has the colour of a text. -/
def isColor (c : Canvas) (text : Text) : Bool :=
  match Rgba.ofText? text with
  | some color => c.grid.all color
  | none => false

/-- The number of pixels of the colour of a text in a closed box. -/
def colorCount (c : Canvas) (text : Text) (x1 y1 x2 y2 : Int) : Nat :=
  match Rgba.ofText? text with
  | some color => c.grid.countBetween color x1 y1 x2 y2
  | none => 0

end Canvas

end Brushwork
