import Brushwork.Canvas

/-!
# Drawing

A drawing instruction changes an easel or refuses, and its outcome carries the easel either way.
Instructions that refuse leave the easel alone; only taking over a pen may refuse half-way, with the
parts before the refusal done.
-/

namespace Brushwork

abbrev Draw := EStateM Canvas.Fault Easel

namespace Draw

/-- A step to one of the eight neighbours, or none. -/
def IsDirection (dx dy : Int) : Prop := (-1 ≤ dx ∧ dx ≤ 1) ∧ -1 ≤ dy ∧ dy ≤ 1

instance (dx dy : Int) : Decidable (IsDirection dx dy) :=
  inferInstanceAs (Decidable ((-1 ≤ dx ∧ dx ≤ 1) ∧ -1 ≤ dy ∧ dy ≤ 1))

def requireDirection (dx dy : Int) : Draw Unit :=
  if IsDirection dx dy then pure () else throw (.direction dx dy)

/-- A ring is measured only if the brush leaves a trace. -/
def requireMeasurable (radius : Int) : Draw Unit :=
  fun e =>
    if e.canvas.brush.paints && !decide (Grid.Measurable radius) then .error .unmeasurable e
    else .ok () e

def setCursor (x y : Int) : Draw Unit :=
  modify fun ⟨canvas, pen⟩ => ⟨canvas, { pen with x, y }⟩

def setColor (text : Text) : Draw Unit :=
  match Rgba.ofText? text with
  | none => throw (.color text)
  | some color =>
    modify fun ⟨⟨grid, brush⟩, pen⟩ =>
      ⟨⟨grid, { brush with color }⟩, { pen with color := Rgba.bare text }⟩

/-- The odd brush size that a positive size stands for. -/
def oddSize (size : Int) : Int := if size % 2 = 0 then size - 1 else size

def setSize (size : Int) : Draw Unit :=
  if size ≤ 0 then throw .size
  else
    modify fun ⟨⟨grid, brush⟩, pen⟩ =>
      ⟨⟨grid, { brush with size := oddSize size }⟩, { pen with size := oddSize size }⟩

/-- Take over a pen and resolve the brush from it. -/
def adopt (pen : Pen) : Draw Unit := do
  modify fun ⟨canvas, _⟩ => ⟨canvas, pen⟩
  setColor pen.color
  setSize pen.size

def setPixel (x y : Int) (color : Rgba) : Draw Unit :=
  fun ⟨⟨grid, brush⟩, pen⟩ =>
    if grid.Inside x y then .ok () ⟨⟨grid.put x y color, brush⟩, pen⟩
    else .error (.outside x y) ⟨⟨grid, brush⟩, pen⟩

def clear : Draw Unit :=
  modify fun ⟨⟨grid, brush⟩, pen⟩ => ⟨⟨.blank grid.width grid.height, brush⟩, pen⟩

/-- Change the grid if the brush leaves a trace. -/
def paint (f : Brush → Pen → Grid → Grid) : Draw Unit :=
  modify fun ⟨⟨grid, brush⟩, pen⟩ =>
    if brush.paints then ⟨⟨f brush pen grid, brush⟩, pen⟩ else ⟨⟨grid, brush⟩, pen⟩

def moveBy (dx dy : Int) : Draw Unit :=
  modify fun ⟨canvas, pen⟩ => ⟨canvas, { pen with x := pen.x + dx, y := pen.y + dy }⟩

/-- A stamp at the cursor and a step, as often as told. -/
def steps (dx dy : Int) : Nat → Draw Unit
  | 0 => pure ()
  | n + 1 => do
    paint fun brush pen grid => grid.stamp brush.color brush.reach pen.x pen.y
    moveBy dx dy
    steps dx dy n

def line (dx dy length : Int) : Draw Unit := do
  requireDirection dx dy
  steps dx dy length.toNat

/-- The border of a rectangle around the point at a distance from the cursor. -/
def rectangle (dx dy distance width height : Int) : Draw Unit := do
  requireDirection dx dy
  moveBy (dx * distance) (dy * distance)
  paint fun brush pen grid =>
    grid.frame brush.color brush.reach (pen.x - width.fdiv 2) (pen.y - height.fdiv 2) width height

def circle (dx dy radius : Int) : Draw Unit := do
  requireDirection dx dy
  if radius ≤ 0 then throw .radius
  requireMeasurable radius
  moveBy dx dy
  paint fun brush pen grid => grid.ring brush.color brush.reach pen.x pen.y radius

def fill : Draw Unit := paint fun brush pen grid => grid.fill pen.x pen.y brush.color

def load (bs : Bytes) : Draw Unit :=
  fun ⟨⟨grid, brush⟩, pen⟩ =>
    match grid.load? bs with
    | some grid => .ok () ⟨⟨grid, brush⟩, pen⟩
    | none => .error (.byteCount (grid.width * grid.height * 4) bs.size) ⟨⟨grid, brush⟩, pen⟩

end Draw

end Brushwork
