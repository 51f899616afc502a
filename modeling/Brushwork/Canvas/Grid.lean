import Brushwork.Bytes
import Brushwork.Color

/-!
# Grids of pixels

A grid stores its pixels row by row from the top left corner. Coordinates are integers; those
outside the grid have no pixel, and putting a colour there changes nothing.
-/

namespace Brushwork

structure Grid where
  width : Nat
  height : Nat
  cells : Vector Rgba (width * height)

namespace Grid

def blank (width height : Nat) : Grid := ⟨width, height, Vector.replicate _ .white⟩

/-- Whether a point lies on the grid. -/
def Inside (g : Grid) (x y : Int) : Prop := (0 ≤ x ∧ x < g.width) ∧ 0 ≤ y ∧ y < g.height

instance (g : Grid) (x y : Int) : Decidable (g.Inside x y) :=
  inferInstanceAs (Decidable ((0 ≤ x ∧ x < g.width) ∧ 0 ≤ y ∧ y < g.height))

/-- The number of the cell at a point of the grid. -/
def cell (g : Grid) (x y : Int) : Nat := y.toNat * g.width + x.toNat

theorem cell_lt {g : Grid} {x y : Int} (h : g.Inside x y) : g.cell x y < g.width * g.height := by
  obtain ⟨⟨hx, hx'⟩, hy, hy'⟩ := h
  have hrow : y.toNat + 1 ≤ g.height := by omega
  have hcol : x.toNat < g.width := by omega
  calc g.cell x y < y.toNat * g.width + g.width := Nat.add_lt_add_left hcol _
    _ = (y.toNat + 1) * g.width := by rw [Nat.succ_mul]
    _ ≤ g.height * g.width := Nat.mul_le_mul_right _ hrow
    _ = g.width * g.height := Nat.mul_comm _ _

def get? (g : Grid) (x y : Int) : Option Rgba :=
  if h : g.Inside x y then
    have := cell_lt h
    some g.cells[g.cell x y]
  else none

/-- Give the pixel at a point a colour. -/
def put (g : Grid) (x y : Int) (c : Rgba) : Grid :=
  if h : g.Inside x y then ⟨g.width, g.height, g.cells.set (g.cell x y) c (cell_lt h)⟩ else g

@[simp] theorem width_put (g : Grid) (x y : Int) (c : Rgba) : (g.put x y c).width = g.width := by
  unfold put
  split <;> rfl

@[simp] theorem height_put (g : Grid) (x y : Int) (c : Rgba) : (g.put x y c).height = g.height := by
  unfold put
  split <;> rfl

@[simp] theorem inside_put (g : Grid) (x y : Int) (c : Rgba) (u v : Int) :
    (g.put x y c).Inside u v ↔ g.Inside u v := by
  simp only [Inside, width_put, height_put]

/-- Two points of the grid have the same cell only if they are the same. -/
theorem cell_inj {g : Grid} {x y u v : Int} (h : g.Inside x y) (h' : g.Inside u v)
    (hc : g.cell x y = g.cell u v) : x = u ∧ y = v := by
  obtain ⟨⟨hx, hx'⟩, hy, -⟩ := h
  obtain ⟨⟨hu, hu'⟩, hv, -⟩ := h'
  have hcol : x.toNat < g.width := by omega
  have hcol' : u.toNat < g.width := by omega
  have hpos : 0 < g.width := by omega
  have hdiv : ∀ {r k : Nat}, k < g.width → (r * g.width + k) / g.width = r := fun {r k} hk => by
    rw [Nat.add_comm, Nat.add_mul_div_right _ _ hpos, Nat.div_eq_of_lt hk, Nat.zero_add]
  have hrow : y.toNat = v.toNat := by
    rw [← hdiv (r := y.toNat) hcol, ← hdiv (r := v.toNat) hcol']
    exact congrArg (· / g.width) hc
  have hsum : y.toNat * g.width + x.toNat = v.toNat * g.width + u.toNat := hc
  rw [hrow] at hsum
  omega

@[simp] theorem get?_eq_none_iff {g : Grid} {x y : Int} : g.get? x y = none ↔ ¬ g.Inside x y := by
  unfold get?
  split <;> simp_all

/-- A pixel put on the grid is found where it was put, and nothing else changes. -/
theorem get?_put (g : Grid) (x y : Int) (c : Rgba) (u v : Int) :
    (g.put x y c).get? u v = if g.Inside x y ∧ u = x ∧ v = y then some c else g.get? u v := by
  by_cases hin : g.Inside x y
  · by_cases hin' : g.Inside u v
    · have hput : g.put x y c = ⟨g.width, g.height, g.cells.set (g.cell x y) c (cell_lt hin)⟩ :=
        dif_pos hin
      have hcell : ∀ cells, (Grid.mk g.width g.height cells).cell u v = g.cell u v := fun _ => rfl
      have hnew : ∀ cells, (Grid.mk g.width g.height cells).Inside u v := fun _ => hin'
      rw [hput, get?, dif_pos (hnew _), get?, dif_pos hin']
      by_cases he : u = x ∧ v = y
      · obtain ⟨rfl, rfl⟩ := he
        simp [hin, hcell]
      · have hne : g.cell x y ≠ g.cell u v := fun hc => by
          obtain ⟨hx, hy⟩ := cell_inj hin hin' hc
          exact he ⟨hx.symm, hy.symm⟩
        simp [he, hcell, hne]
    · have hnone : g.get? u v = none := get?_eq_none_iff.2 hin'
      have hnone' : (g.put x y c).get? u v = none :=
        get?_eq_none_iff.2 fun h => hin' ((inside_put g x y c u v).1 h)
      rw [hnone, hnone', if_neg]
      rintro ⟨h, rfl, rfl⟩
      exact hin' h
  · rw [put, dif_neg hin, if_neg fun h => hin h.1]

def all (g : Grid) (c : Rgba) : Bool := g.cells.all fun p => p = c

/-- The pixels of a grid as bytes, four to a pixel. -/
def toBytes (g : Grid) : Bytes := g.cells.toArray.foldl (fun bs c => bs.appendList c.bytes) #[]

/-- The pixels of a grid replaced by those of a byte string of the right length. -/
def load? (g : Grid) (bs : Bytes) : Option Grid :=
  if bs.size = g.width * g.height * 4 then
    some ⟨g.width, g.height, Vector.ofFn fun i =>
      ⟨bs.getD (4 * i) 0, bs.getD (4 * i + 1) 0, bs.getD (4 * i + 2) 0, bs.getD (4 * i + 3) 0⟩⟩
  else none

/-- A grid from rows that fit its size. -/
def ofRows? (width height : Nat) (rows : List (List Rgba)) : Option Grid :=
  if rows.length = height && rows.all fun row => row.length = width then
    let cells := rows.flatten.toArray
    some ⟨width, height, Vector.ofFn fun i => cells.getD i .white⟩
  else none

/-- One letter per pixel, a line per row. -/
def letters (g : Grid) : String :=
  "\n".intercalate ((List.range g.height).map fun y : Nat =>
    String.ofList ((List.range g.width).map fun x : Nat => ((g.get? x y).map Rgba.letter).getD 'X'))

end Grid

end Brushwork
