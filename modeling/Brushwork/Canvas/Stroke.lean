import Brushwork.Canvas.Grid

/-!
# Strokes

A brush of size `2 * r + 1` leaves a square stamp of reach `r` around each point it touches. Frames
and rings are stamps at the points of a box that pass a test. Whatever lies outside the grid is cut
off.
-/

namespace Brushwork

/-- Apply `f` with `count` consecutive integers from `first` on. -/
@[specialize] def overRange {σ : Type} (f : σ → Int → σ) (first : Int) : (count : Nat) → σ → σ
  | 0, s => s
  | n + 1, s => overRange f (first + 1) n (f s first)

/-- The number of integers `x` with `lo ≤ x < hi`. -/
def extent (lo hi : Int) : Nat := (hi - lo).toNat

namespace Grid

/-- The square of a given reach around a point. Rows off the grid are passed over. -/
def stamp (c : Rgba) (reach : Int) (g : Grid) (x y : Int) : Grid :=
  overRange (fun g v =>
    if 0 ≤ v ∧ v < g.height then
      overRange (fun g u => g.put u v c) (x - reach) (extent (x - reach) (x + reach + 1)) g
    else g)
    (y - reach) (extent (y - reach) (y + reach + 1)) g

/-- Stamps at those points `(x + u, y + v)` of a box, `u0 ≤ u < u1` and `v0 ≤ v < v1`, that pass a
test. -/
@[specialize] def stamps (p : Int → Int → Prop) [∀ u v, Decidable (p u v)] (c : Rgba)
    (reach x y u0 u1 v0 v1 : Int) (g : Grid) : Grid :=
  overRange (fun g v =>
    overRange (fun g u => if p u v then g.stamp c reach (x + u) (y + v) else g) u0 (extent u0 u1) g)
    v0 (extent v0 v1) g

/-- Whether a point of a box of the given size is one of its outermost. -/
def OnEdge (width height u v : Int) : Prop :=
  (u = 0 ∨ u = width - 1) ∨ v = 0 ∨ v = height - 1

instance (width height u v : Int) : Decidable (OnEdge width height u v) :=
  inferInstanceAs (Decidable (_ ∨ _))

/-- Stamps along the border of a box of the given size with its first corner at `(x, y)`. -/
def frame (c : Rgba) (reach x y width height : Int) (g : Grid) : Grid :=
  g.stamps (OnEdge width height) c reach x y 0 width 0 height

/-- Whether a point at `(x, y)` from the centre lies within half a unit of the circle. -/
def OnRing (radius x y : Int) : Prop :=
  radius * radius - radius < x * x + y * y ∧ x * x + y * y ≤ radius * radius + radius

instance (radius x y : Int) : Decidable (OnRing radius x y) :=
  inferInstanceAs (Decidable (_ ∧ _))

/-- Whether the distances on a ring can be measured. They are square roots of doubles, and from `2 ^
1024 - 2 ^ 970` on an integer rounds to none; the corners of the box around the ring are
farthest. -/
def Measurable (radius : Int) : Prop := 2 * (radius * radius) < Int.pow 2 1024 - Int.pow 2 970

instance (radius : Int) : Decidable (Measurable radius) := inferInstanceAs (Decidable (_ < _))

/-- Stamps at the points of a ring around `(x, y)`. -/
def ring (c : Rgba) (reach x y radius : Int) (g : Grid) : Grid :=
  g.stamps (OnRing radius) c reach x y (-radius) (radius + 1) (-radius) (radius + 1)

end Grid

end Brushwork
