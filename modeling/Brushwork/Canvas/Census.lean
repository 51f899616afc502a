import Brushwork.Canvas.Stroke

/-!
# Counting pixels

The pixels of a colour are counted in a closed box given by two opposite corners. A box with a
corner off the grid holds none.
-/

namespace Brushwork.Grid

/-- The number of pixels of a colour with `x0 ≤ x < x1` and `y0 ≤ y < y1`. -/
def countBox (g : Grid) (c : Rgba) (x0 x1 y0 y1 : Int) : Nat :=
  overRange (fun n y =>
    overRange (fun n x => if g.get? x y = some c then n + 1 else n) x0 (extent x0 x1) n)
    y0 (extent y0 y1) 0

def countBetween (g : Grid) (c : Rgba) (x1 y1 x2 y2 : Int) : Nat :=
  if g.Inside x1 y1 ∧ g.Inside x2 y2 then
    g.countBox c (min x1 x2) (max x1 x2 + 1) (min y1 y2) (max y1 y2 + 1)
  else 0

end Brushwork.Grid
