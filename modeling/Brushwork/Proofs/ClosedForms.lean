import Brushwork.Proofs.Clipping
import Brushwork.Proofs.Region
import Mathlib.Algebra.Order.Group.Abs
import Mathlib.Tactic.Ring

/-!
# Lines and rectangles in closed form

The spot of a stroke is a union of squares, one for each point that the brush touches. For a
rectangle the union is a rim: the box grown by the reach of the brush, without a hole that is the
box shrunk by as much. For a line it stays a union, but one that does not tell in which direction it
was drawn, nor whether it was drawn in one go. The pixels of a grid follow from the spot, since a
grid is known by the colours of its points.
-/

namespace Brushwork

namespace Grid

theorem exists_cell_eq {g : Grid} {i : Nat} (h : i < g.width * g.height) :
    ∃ x y : Int, g.Inside x y ∧ g.cell x y = i := by
  have hpos : 0 < g.width := Nat.pos_of_mul_pos_right (Nat.zero_lt_of_lt h)
  have hcolumn : i % g.width < g.width := Nat.mod_lt i hpos
  have hrow : i / g.width < g.height := Nat.div_lt_of_lt_mul h
  refine ⟨(i % g.width : Nat), (i / g.width : Nat), ?_, Nat.div_add_mod' i g.width⟩
  exact ⟨⟨Int.natCast_nonneg _, Int.ofNat_lt.2 hcolumn⟩, Int.natCast_nonneg _, Int.ofNat_lt.2 hrow⟩

theorem ext_get? {g g' : Grid} (hwidth : g.width = g'.width) (hheight : g.height = g'.height)
    (h : ∀ x y, g.get? x y = g'.get? x y) : g = g' := by
  obtain ⟨width, height, cells⟩ := g
  obtain ⟨_, _, cells'⟩ := g'
  obtain rfl : width = _ := hwidth
  obtain rfl : height = _ := hheight
  have hcells : cells = cells' := by
    apply Vector.ext
    intro i hi
    obtain ⟨x, y, hinside, rfl⟩ := exists_cell_eq (g := ⟨width, height, cells⟩) hi
    have hinside' : (Grid.mk width height cells').Inside x y := hinside
    have hsame := h x y
    rw [get?, dif_pos hinside, get?, dif_pos hinside'] at hsame
    exact Option.some.inj hsame
  rw [hcells]

variable {c : Rgba} {reach x y dx dy width height u v : Int}

theorem Paints.unique {f f' : Grid → Grid} {spot spot' : Int → Int → Prop} (h : Paints c f spot)
    (h' : Paints c f' spot') (hspot : ∀ u v, spot u v ↔ spot' u v) {g : Grid}
    (hwidth : (f g).width = (f' g).width) (hheight : (f g).height = (f' g).height) :
    f g = f' g := by
  apply ext_get? hwidth hheight
  intro u v
  by_cases hin : g.Inside u v
  · by_cases hu : spot u v
    · rw [h.hit hin hu, h'.hit hin ((hspot u v).1 hu)]
    · rw [h.miss hu, h'.miss fun hu' => hu ((hspot u v).2 hu')]
  · rw [get?_eq_none_iff.2 fun hu => hin ((h.inside g u v).1 hu),
      get?_eq_none_iff.2 fun hu => hin ((h'.inside g u v).1 hu)]

/-- Stamps at `count` points, each a step `(dx, dy)` from the one before. -/
def line (c : Rgba) (reach x y dx dy : Int) : (count : Nat) → Grid → Grid
  | 0, g => g
  | n + 1, g => line c reach (x + dx) (y + dy) dx dy n (g.stamp c reach x y)

def Bar (reach x y dx dy : Int) (count : Nat) (u v : Int) : Prop :=
  ∃ i : Int, (0 ≤ i ∧ i < count) ∧ Square reach (x + i * dx) (y + i * dy) u v

theorem bar_succ_iff {n : Nat} : Bar reach x y dx dy (n + 1) u v ↔
    Square reach x y u v ∨ Bar reach (x + dx) (y + dy) dx dy n u v := by
  have hnext (i z d : Int) : z + d + i * d = z + (i + 1) * d := by ring
  unfold Bar
  simp only [hnext]
  constructor
  · rintro ⟨i, hi, hsquare⟩
    by_cases hzero : i = 0
    · subst hzero
      simpa using Or.inl hsquare
    · refine Or.inr ⟨i - 1, by omega, ?_⟩
      rwa [sub_add_cancel]
  · rintro (hsquare | ⟨i, hi, hsquare⟩)
    · exact ⟨0, by omega, by simpa using hsquare⟩
    · exact ⟨i + 1, by omega, hsquare⟩

theorem Paints.line (c : Rgba) (reach x y dx dy : Int) (count : Nat) :
    Paints c (line c reach x y dx dy count) (Bar reach x y dx dy count) := by
  induction count generalizing x y with
  | zero =>
    refine (nothing c).congr fun u v => ⟨False.elim, ?_⟩
    rintro ⟨i, hi, -⟩
    omega
  | succ n ih =>
    exact ((ih (x + dx) (y + dy)).comp (stamp c reach x y)).congr fun u v => bar_succ_iff.symm

theorem size_line (g : Grid) (c : Rgba) (reach x y dx dy : Int) (count : Nat) :
    (g.line c reach x y dx dy count).width = g.width ∧
    (g.line c reach x y dx dy count).height = g.height := by
  induction count generalizing g x y with
  | zero => exact ⟨rfl, rfl⟩
  | succ n ih =>
    obtain ⟨hwidth, hheight⟩ := (steady_size g.width g.height).stamp c reach x y ⟨rfl, rfl⟩
    obtain ⟨hwidth', hheight'⟩ := ih (g.stamp c reach x y) (x + dx) (y + dy)
    exact ⟨hwidth'.trans hwidth, hheight'.trans hheight⟩

theorem size_frame (g : Grid) (c : Rgba) (reach x y width height : Int) :
    (g.frame c reach x y width height).width = g.width ∧
    (g.frame c reach x y width height).height = g.height :=
  (steady_size g.width g.height).stamps _ c reach x y 0 width 0 height ⟨rfl, rfl⟩

/-- A line may be laid down and taken up again anywhere. -/
theorem line_line (g : Grid) (c : Rgba) (reach x y dx dy : Int) (m n : Nat) :
    (g.line c reach x y dx dy m).line c reach (x + m * dx) (y + m * dy) dx dy n =
      g.line c reach x y dx dy (m + n) := by
  induction m generalizing g x y with
  | zero => simp [line]
  | succ m ih =>
    have hnext (z d : Int) : z + (m + 1 : Nat) * d = z + d + m * d := by push_cast; ring
    rw [hnext, hnext, Nat.succ_add]
    exact ih (g.stamp c reach x y) (x + dx) (y + dy)

/-- The squares along a line are those along the line back from its last point. -/
theorem bar_back {n : Int} (h : Bar reach x y dx dy n.toNat u v) :
    Bar reach (x + (n - 1) * dx) (y + (n - 1) * dy) (-dx) (-dy) n.toNat u v := by
  obtain ⟨i, hi, hsquare⟩ := h
  refine ⟨n - 1 - i, by omega, ?_⟩
  have hturned (z d : Int) : z + (n - 1) * d + (n - 1 - i) * -d = z + i * d := by ring
  rw [hturned, hturned]
  exact hsquare

theorem bar_back_iff {n : Int} : Bar reach x y dx dy n.toNat u v ↔
    Bar reach (x + (n - 1) * dx) (y + (n - 1) * dy) (-dx) (-dy) n.toNat u v := by
  refine ⟨bar_back, fun h => ?_⟩
  have hagain := bar_back h
  have hturned (z d : Int) : z + (n - 1) * d + (n - 1) * -d = z := by ring
  rwa [hturned, hturned, neg_neg, neg_neg] at hagain

theorem line_back (g : Grid) (c : Rgba) (reach x y dx dy n : Int) :
    g.line c reach (x + (n - 1) * dx) (y + (n - 1) * dy) (-dx) (-dy) n.toNat =
      g.line c reach x y dx dy n.toNat := by
  obtain ⟨hwidth, hheight⟩ := g.size_line c reach x y dx dy n.toNat
  obtain ⟨hwidth', hheight'⟩ :=
    g.size_line c reach (x + (n - 1) * dx) (y + (n - 1) * dy) (-dx) (-dy) n.toNat
  exact (Paints.line ..).unique (Paints.line ..) (fun u v => bar_back_iff.symm)
    (hwidth'.trans hwidth.symm) (hheight'.trans hheight.symm)

/-- The points that lie, along both axes, within a reach of one of the first `n` points of a
line. -/
def Trail (reach x y dx dy n u v : Int) : Prop :=
  ∃ i, (0 ≤ i ∧ i < n) ∧ |u - x - i * dx| ≤ reach ∧ |v - y - i * dy| ≤ reach

theorem bar_iff_trail {n : Int} :
    Bar reach x y dx dy n.toNat u v ↔ Trail reach x y dx dy n u v := by
  have hsquare (a b : Int) : Square reach a b u v ↔ |u - a| ≤ reach ∧ |v - b| ≤ reach := by
    unfold Square
    rw [abs_le, abs_le]
    omega
  unfold Bar Trail
  simp only [hsquare, sub_sub]
  refine exists_congr fun i => and_congr_left fun _ => ?_
  omega

/-- Intervals of one reach around consecutive integers overlap or touch, so together they are an
interval. -/
theorem exists_near {count : Int} (hcount : 0 < count) (hreach : 0 ≤ reach)
    (hu : x - reach ≤ u ∧ u ≤ x + count - 1 + reach) :
    ∃ i, (0 ≤ i ∧ i < count) ∧ x + i - reach ≤ u ∧ u ≤ x + i + reach := by
  refine ⟨max 0 (min (u - x) (count - 1)), ?_, ?_⟩ <;> omega

/-- The box of the given size with its first corner at `(x, y)`, grown on all sides by a reach,
without the hole that is left if it is shrunk by as much. -/
def Rim (reach x y width height u v : Int) : Prop :=
  ((x - reach ≤ u ∧ u ≤ x + width - 1 + reach) ∧ y - reach ≤ v ∧ v ≤ y + height - 1 + reach) ∧
    ¬ ((x + reach < u ∧ u < x + width - 1 - reach) ∧ y + reach < v ∧ v < y + height - 1 - reach)

instance (reach x y width height u v : Int) : Decidable (Rim reach x y width height u v) :=
  inferInstanceAs (Decidable (_ ∧ ¬ _))

/-- The squares along the border of a box cover its rim. A hole may be empty, and a brush may be
wider than the box. -/
theorem blots_iff_rim (hwidth : 0 < width) (hheight : 0 < height) :
    Blots (OnEdge width height) reach x y 0 width 0 height u v ↔
      Rim reach x y width height u v := by
  unfold Blots OnEdge Square
  constructor
  · rintro ⟨b, a, hb, ha, hedge, hsquare⟩
    unfold Rim
    omega
  · rintro ⟨⟨hu, hv⟩, hhole⟩
    have hreach : 0 ≤ reach := by omega
    obtain ⟨a, ha, hnear⟩ := exists_near hwidth hreach hu
    obtain ⟨b, hb, hnear'⟩ := exists_near hheight hreach hv
    by_cases hleft : u ≤ x + reach
    · exact ⟨b, 0, hb, by omega, by omega, by omega, hnear'⟩
    by_cases hright : x + width - 1 - reach ≤ u
    · exact ⟨b, width - 1, hb, by omega, by omega, by omega, hnear'⟩
    by_cases htop : v ≤ y + reach
    · exact ⟨0, a, by omega, ha, by omega, hnear, by omega⟩
    · exact ⟨height - 1, a, by omega, ha, by omega, hnear, by omega⟩

theorem frame_of_empty (h : width ≤ 0 ∨ height ≤ 0) (g : Grid) :
    g.frame c reach x y width height = g := by
  unfold frame stamps extent
  rcases h with hwidth | hheight
  · rw [show (width - 0).toNat = 0 by omega]
    exact overRange_induct (Q := (· = g)) (fun _ h => h) _ _ rfl
  · rw [show (height - 0).toNat = 0 by omega]
    rfl

end Grid

namespace Draw

variable {dx dy : Int} {brush : Brush}

theorem steps_apply (hpaints : brush.paints = true) (dx dy : Int) (n : Nat) (grid : Grid)
    (pen : Pen) : steps dx dy n ⟨⟨grid, brush⟩, pen⟩ =
      .ok () ⟨⟨grid.line brush.color brush.reach pen.x pen.y dx dy n, brush⟩,
        { pen with x := pen.x + n * dx, y := pen.y + n * dy }⟩ := by
  induction n generalizing grid pen with
  | zero => simp [steps, Grid.line, pure, EStateM.pure]
  | succ n ih =>
    have hnext (z d : Int) : z + (n + 1 : Nat) * d = z + d + n * d := by push_cast; ring
    rw [hnext, hnext]
    refine Eq.trans ?_
      (ih (grid.stamp brush.color brush.reach pen.x pen.y)
        { pen with x := pen.x + dx, y := pen.y + dy })
    simp only [steps, bind, EStateM.bind, paint_apply, if_pos hpaints]
    rfl

theorem line_apply (hdirection : IsDirection dx dy) (hpaints : brush.paints = true) (length : Int)
    (grid : Grid) (pen : Pen) : line dx dy length ⟨⟨grid, brush⟩, pen⟩ =
      .ok () ⟨⟨grid.line brush.color brush.reach pen.x pen.y dx dy length.toNat, brush⟩,
        { pen with x := pen.x + length.toNat * dx, y := pen.y + length.toNat * dy }⟩ := by
  simp only [line, requireDirection, if_pos hdirection, bind, EStateM.bind, pure, EStateM.pure,
    steps_apply hpaints]

theorem rectangle_apply (hdirection : IsDirection dx dy) (hpaints : brush.paints = true)
    (distance width height : Int) (grid : Grid) (pen : Pen) :
    rectangle dx dy distance width height ⟨⟨grid, brush⟩, pen⟩ =
      .ok () ⟨⟨grid.frame brush.color brush.reach (pen.x + dx * distance - width.fdiv 2)
          (pen.y + dy * distance - height.fdiv 2) width height, brush⟩,
        { pen with x := pen.x + dx * distance, y := pen.y + dy * distance }⟩ := by
  simp only [rectangle, requireDirection, if_pos hdirection, bind, EStateM.bind, pure, EStateM.pure]
  refine (paint_apply _ _ _ _).trans ?_
  rw [if_pos hpaints]

theorem reach_of_size {r : Int} (h : brush.size = 2 * r + 1) : brush.reach = r := by
  unfold Brush.reach
  omega

/-- A line of any length gives the colour of the brush to the pixels on its trail and to no others.
So two lines in a row are one, and a line drawn back from its last point is the same line. -/
theorem line_is_exact {e : Easel} {r : Int} (hdirection : IsDirection dx dy)
    (hsize : e.canvas.brush.size = 2 * r + 1) (halpha : e.canvas.brush.color.alpha ≠ 0) :
    (∀ n : Int, ∃ grid : Grid,
      line dx dy n e = .ok () ⟨⟨grid, e.canvas.brush⟩,
        { e.pen with x := e.pen.x + max n 0 * dx, y := e.pen.y + max n 0 * dy }⟩ ∧
      grid.width = e.canvas.grid.width ∧ grid.height = e.canvas.grid.height ∧
      ∀ x y, e.canvas.grid.Inside x y →
        (Grid.Trail r e.pen.x e.pen.y dx dy n x y → grid.get? x y = some e.canvas.brush.color) ∧
        (¬ Grid.Trail r e.pen.x e.pen.y dx dy n x y → grid.get? x y = e.canvas.grid.get? x y)) ∧
    (∀ m n : Int, 0 ≤ m → 0 ≤ n → (do line dx dy m; line dx dy n) e = line dx dy (m + n) e) ∧
    ∀ n : Int, 1 ≤ n → ∃ e₁ e₂,
      line dx dy n e = .ok () e₁ ∧
      (do setCursor (e.pen.x + (n - 1) * dx) (e.pen.y + (n - 1) * dy); line (-dx) (-dy) n) e =
        .ok () e₂ ∧
      e₂.canvas = e₁.canvas := by
  obtain ⟨⟨grid, brush⟩, pen⟩ := e
  have hpaints : brush.paints = true := decide_eq_true halpha
  obtain rfl : brush.reach = r := reach_of_size hsize
  refine ⟨fun n => ?_, fun m n hm hn => ?_, fun n hn => ?_⟩
  · obtain ⟨hwidth, hheight⟩ := grid.size_line brush.color brush.reach pen.x pen.y dx dy n.toNat
    have hline := line_apply hdirection hpaints n grid pen
    rw [Int.toNat_eq_max] at hline
    refine ⟨_, hline, hwidth, hheight, fun x y hinside => ?_⟩
    have hspot := Grid.Paints.line brush.color brush.reach pen.x pen.y dx dy n.toNat
    rw [← Grid.bar_iff_trail]
    exact ⟨hspot.hit hinside, hspot.miss⟩
  · have hsum : (m + n).toNat = m.toNat + n.toNat := Int.toNat_add hm hn
    simp only [bind, EStateM.bind, line_apply hdirection hpaints, Grid.line_line, hsum,
      Nat.cast_add, add_mul, add_assoc]
  · have hback : IsDirection (-dx) (-dy) := by
      unfold IsDirection at *
      omega
    refine ⟨_, _, line_apply hdirection hpaints n grid pen, line_apply hback hpaints n grid _, ?_⟩
    dsimp only
    rw [Grid.line_back]

/-- A thick diagonal that comes from outside of the grid and leaves it again. -/
theorem thick_diagonal_is_exact :
    let e : Easel := ⟨⟨.blank 4 3, { size := 3 }⟩, { x := -1, y := 2 }⟩
    (∃ grid, line 1 (-1) 3 e = .ok () ⟨⟨grid, e.canvas.brush⟩, { x := 2, y := -1 }⟩ ∧
      grid.get? 2 1 = some .black ∧ grid.get? 2 2 = some .white) ∧
    (do line 1 (-1) 1; line 1 (-1) 2) e = line 1 (-1) 3 e ∧
    ∃ e₁ e₂, line 1 (-1) 3 e = .ok () e₁ ∧ (do setCursor 1 0; line (-1) 1 3) e = .ok () e₂ ∧
      e₂.canvas = e₁.canvas := by
  intro e
  have hdirection : IsDirection 1 (-1) := by decide
  obtain ⟨hexact, hjoined, hback⟩ := line_is_exact (e := e) (r := 1) hdirection rfl (by decide)
  refine ⟨?_, hjoined 1 2 (by decide) (by decide), hback 3 (by decide)⟩
  obtain ⟨grid, hline, -, -, hpixels⟩ := hexact 3
  refine ⟨grid, hline, ?_, ?_⟩
  · exact (hpixels 2 1 (by decide)).1 ⟨2, by decide⟩
  · refine ((hpixels 2 2 (by decide)).2 ?_).trans (by decide)
    rintro ⟨i, -, hcolumn, hrow⟩
    simp only [e, abs_le] at hcolumn hrow
    omega

/-- A rectangle of any size gives the colour of the brush to the rim around its border, and changes
no other pixel. -/
theorem rectangle_paints_rim {e : Easel} {r : Int} (hdirection : IsDirection dx dy)
    (hsize : e.canvas.brush.size = 2 * r + 1) (halpha : e.canvas.brush.color.alpha ≠ 0)
    (d w h : Int) :
    ∃ grid : Grid,
      rectangle dx dy d w h e = .ok () ⟨⟨grid, e.canvas.brush⟩,
        { e.pen with x := e.pen.x + d * dx, y := e.pen.y + d * dy }⟩ ∧
      grid.width = e.canvas.grid.width ∧ grid.height = e.canvas.grid.height ∧
      (w ≤ 0 ∨ h ≤ 0 → grid = e.canvas.grid) ∧
      (0 < w → 0 < h → ∀ x y, e.canvas.grid.Inside x y →
        grid.get? x y =
          if Grid.Rim r (e.pen.x + d * dx - w.fdiv 2) (e.pen.y + d * dy - h.fdiv 2) w h x y then
            some e.canvas.brush.color
          else e.canvas.grid.get? x y) := by
  obtain ⟨⟨grid, brush⟩, pen⟩ := e
  have hpaints : brush.paints = true := decide_eq_true halpha
  obtain rfl : brush.reach = r := reach_of_size hsize
  rw [mul_comm d dx, mul_comm d dy]
  have hdraw := rectangle_apply hdirection hpaints d w h grid pen
  obtain ⟨hwidth, hheight⟩ := grid.size_frame brush.color brush.reach (pen.x + dx * d - w.fdiv 2)
    (pen.y + dy * d - h.fdiv 2) w h
  refine ⟨_, hdraw, hwidth, hheight, fun hempty => Grid.frame_of_empty hempty grid,
    fun hw hh x y hinside => ?_⟩
  have hspot :=
    Grid.Paints.stamps (Grid.OnEdge w h) brush.color brush.reach (pen.x + dx * d - w.fdiv 2)
      (pen.y + dy * d - h.fdiv 2) 0 w 0 h
  split_ifs with hrim
  · exact hspot.hit hinside ((Grid.blots_iff_rim hw hh).2 hrim)
  · exact hspot.miss fun hborder => hrim ((Grid.blots_iff_rim hw hh).1 hborder)

/-- A thick rectangle around `(3, 2)` that sticks out of the grid on three sides. -/
theorem cut_rectangle_paints_rim :
    let e : Easel := ⟨⟨.blank 7 6, { size := 3 }⟩, { x := 1, y := 2 }⟩
    ∃ grid, rectangle 1 0 2 7 6 e = .ok () ⟨⟨grid, e.canvas.brush⟩, { x := 3, y := 2 }⟩ ∧
      grid.get? 1 1 = some .black ∧ grid.get? 3 3 = some .black ∧ grid.get? 3 2 = some .white := by
  intro e
  have hdirection : IsDirection 1 0 := by decide
  obtain ⟨grid, hdraw, -, -, -, hrim⟩ :=
    rectangle_paints_rim (e := e) (r := 1) hdirection rfl (by decide) 2 7 6
  have hpixels := hrim (by decide) (by decide)
  refine ⟨grid, hdraw, ?_, ?_, ?_⟩
  · exact (hpixels 1 1 (by decide)).trans (if_pos (by decide))
  · exact (hpixels 3 3 (by decide)).trans (if_pos (by decide))
  · exact (hpixels 3 2 (by decide)).trans ((if_neg (by decide)).trans (by decide))

end Draw

end Brushwork
