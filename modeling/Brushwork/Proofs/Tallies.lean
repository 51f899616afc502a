import Brushwork.Proofs.ClosedForms
import Mathlib

/-!
# Tallies of colours

The two nested loops that count the pixels of a colour add up to the number of points of a finite
set: those of a box that have the colour. What is known of such sets then holds of the queries. A
box that is cut in two loses no pixel, and a canvas is of one colour if the points of this colour
are as many as its pixels. A fill moves the points of one region from the old colour to that of the
brush, and all other points stay with their colours.
-/

namespace Brushwork

open Finset

theorem overRange_eq_sum {f : Nat → Int → Nat} {g : Int → Nat} (h : ∀ n i, f n i = n + g i)
    (first : Int) (count n : Nat) :
    overRange f first count n = n + ∑ i ∈ Ico first (first + count), g i := by
  induction count generalizing first n with
  | zero => simp [overRange]
  | succ count ih =>
    have hfirst :
        Ico first (first + (count + 1 : Nat)) = insert first
          (Ico (first + 1) (first + 1 + count)) := by
      ext i
      rw [mem_insert, mem_Ico, mem_Ico]
      omega
    have hnew : first ∉ Ico (first + 1) (first + 1 + count) := by
      rw [mem_Ico]
      omega
    rw [overRange, ih, h, hfirst, sum_insert hnew, Nat.add_assoc]

@[simp] theorem Ico_add_extent (lo hi : Int) : Ico lo (lo + extent lo hi) = Ico lo hi := by
  ext i
  rw [mem_Ico, mem_Ico, extent]
  omega

@[simp] theorem Ico_min_max (a b : Int) : Ico (min a b) (max a b + 1) = uIcc a b := by
  ext i
  rw [mem_Ico, mem_uIcc, Int.lt_add_one_iff]

theorem uIcc_cut {a m b : Int} (ham : a ≤ m) (hmb : m < b) :
    uIcc a b = uIcc a m ∪ uIcc (m + 1) b := by
  ext i
  rw [mem_union, uIcc_of_le ham, uIcc_of_le (show m + 1 ≤ b from hmb), uIcc_of_le (by omega),
    mem_Icc, mem_Icc, mem_Icc]
  omega

theorem disjoint_cut {a m b : Int} (ham : a ≤ m) (hmb : m < b) :
    Disjoint (uIcc a m) (uIcc (m + 1) b) := by
  rw [uIcc_of_le ham, uIcc_of_le (show m + 1 ≤ b from hmb), disjoint_left]
  intro i hi
  rw [mem_Icc] at hi ⊢
  omega

namespace Grid

variable {g : Grid} {color : Rgba} {x1 y1 x2 y2 m : Int}

def pixels (g : Grid) (color : Rgba) (points : Finset (Int × Int)) : Finset (Int × Int) :=
  points.filter fun p => g.get? p.1 p.2 = some color

@[simp] theorem mem_pixels_iff {points : Finset (Int × Int)} {p : Int × Int} :
    p ∈ g.pixels color points ↔ p ∈ points ∧ g.get? p.1 p.2 = some color := mem_filter

theorem countBox_eq_card (g : Grid) (color : Rgba) (x0 x1 y0 y1 : Int) :
    g.countBox color x0 x1 y0 y1 = (g.pixels color (Ico x0 x1 ×ˢ Ico y0 y1)).card := by
  have hrow (n : Nat) (y : Int) :
      overRange (fun n x => if g.get? x y = some color then n + 1 else n) x0 (extent x0 x1) n =
        n + ∑ x ∈ Ico x0 x1, if g.get? x y = some color then 1 else 0 := by
    rw [← Ico_add_extent]
    apply overRange_eq_sum
    intro n x
    split <;> rfl
  rw [countBox, overRange_eq_sum hrow, Ico_add_extent, Nat.zero_add, pixels, card_filter,
    sum_product_right]

/-- The count between two corners on the grid is that of the box they span, whichever corners of the
box they are. -/
theorem countBetween_eq_card (h1 : g.Inside x1 y1) (h2 : g.Inside x2 y2) :
    g.countBetween color x1 y1 x2 y2 = (g.pixels color (uIcc x1 x2 ×ˢ uIcc y1 y2)).card := by
  rw [countBetween, if_pos ⟨h1, h2⟩, countBox_eq_card, Ico_min_max, Ico_min_max]

theorem Inside.pos {x y : Int} (h : g.Inside x y) : 0 < g.width ∧ 0 < g.height := by
  unfold Inside at h
  omega

theorem inside_swap_iff :
    g.Inside x2 y1 ∧ g.Inside x1 y2 ↔ g.Inside x1 y1 ∧ g.Inside x2 y2 := by
  unfold Inside
  omega

theorem countBetween_swap_columns (g : Grid) (color : Rgba) (x1 y1 x2 y2 : Int) :
    g.countBetween color x2 y1 x1 y2 = g.countBetween color x1 y1 x2 y2 := by
  simp only [countBetween, inside_swap_iff, min_comm x2, max_comm x2]

theorem countBetween_swap_rows (g : Grid) (color : Rgba) (x1 y1 x2 y2 : Int) :
    g.countBetween color x1 y2 x2 y1 = g.countBetween color x1 y1 x2 y2 := by
  have hinside : g.Inside x1 y2 ∧ g.Inside x2 y1 ↔ g.Inside x1 y1 ∧ g.Inside x2 y2 :=
    and_comm.trans inside_swap_iff
  simp only [countBetween, hinside, min_comm y2, max_comm y2]

theorem card_pixels_union {s t : Finset (Int × Int)} (h : Disjoint s t) :
    (g.pixels color (s ∪ t)).card = (g.pixels color s).card + (g.pixels color t).card := by
  rw [pixels, filter_union]
  exact card_union_of_disjoint (disjoint_filter_filter h)

theorem countBetween_cut_columns (h1 : g.Inside x1 y1) (h2 : g.Inside x2 y2) (hlow : x1 ≤ m)
    (hhigh : m < x2) : g.countBetween color x1 y1 x2 y2 =
      g.countBetween color x1 y1 m y2 + g.countBetween color (m + 1) y1 x2 y2 := by
  have hm : g.Inside m y2 ∧ g.Inside (m + 1) y1 := by
    unfold Inside at *
    omega
  rw [countBetween_eq_card h1 h2, countBetween_eq_card h1 hm.1, countBetween_eq_card hm.2 h2,
    uIcc_cut hlow hhigh, union_product]
  exact card_pixels_union (disjoint_product.2 (Or.inl (disjoint_cut hlow hhigh)))

theorem countBetween_cut_rows (h1 : g.Inside x1 y1) (h2 : g.Inside x2 y2) (hlow : y1 ≤ m)
    (hhigh : m < y2) : g.countBetween color x1 y1 x2 y2 =
      g.countBetween color x1 y1 x2 m + g.countBetween color x1 (m + 1) x2 y2 := by
  have hm : g.Inside x2 m ∧ g.Inside x1 (m + 1) := by
    unfold Inside at *
    omega
  rw [countBetween_eq_card h1 h2, countBetween_eq_card h1 hm.1, countBetween_eq_card hm.2 h2,
    uIcc_cut hlow hhigh, product_union]
  exact card_pixels_union (disjoint_product.2 (Or.inr (disjoint_cut hlow hhigh)))

theorem all_iff : g.all color = true ↔ ∀ x y, g.Inside x y → g.get? x y = some color := by
  rw [all, Vector.all_eq_true]
  constructor
  · intro h x y hin
    rw [get?, dif_pos hin]
    exact congrArg some (of_decide_eq_true (h _ (cell_lt hin)))
  · intro h i hi
    obtain ⟨x, y, hin, rfl⟩ := exists_cell_eq hi
    have hcolor := h x y hin
    rw [get?, dif_pos hin] at hcolor
    exact decide_eq_true (Option.some.inj hcolor)

def points (g : Grid) : Finset (Int × Int) :=
  uIcc (0 : Int) (g.width - 1) ×ˢ uIcc (0 : Int) (g.height - 1)

section

variable (hwidth : 0 < g.width) (hheight : 0 < g.height)

include hwidth hheight

@[simp] theorem mem_points_iff {p : Int × Int} : p ∈ g.points ↔ g.Inside p.1 p.2 := by
  rw [points, mem_product, uIcc_of_le (by omega), uIcc_of_le (by omega), mem_Icc, mem_Icc, Inside]
  omega

@[simp] theorem card_points : g.points.card = g.width * g.height := by
  rw [points, card_product, uIcc_of_le (by omega), uIcc_of_le (by omega), Int.card_Icc,
    Int.card_Icc]
  congr 1 <;> omega

theorem countBetween_corners :
    g.countBetween color 0 0 (g.width - 1) (g.height - 1) = (g.pixels color g.points).card := by
  refine countBetween_eq_card ?_ ?_ <;> unfold Inside <;> omega

theorem all_iff_countBetween :
    g.all color = true ↔ g.countBetween color 0 0 (g.width - 1) (g.height - 1) =
      g.width * g.height := by
  rw [countBetween_corners hwidth hheight, ← card_points hwidth hheight, pixels,
    card_filter_eq_iff, all_iff]
  simp only [mem_points_iff hwidth hheight, Prod.forall]

end

open Classical in
theorem filter_pixels_of_color (region : Int × Int → Prop) {whole : Rgba}
    (h : ∀ {p}, region p → g.get? p.1 p.2 = some whole) (points : Finset (Int × Int))
    (color : Rgba) :
    ((g.pixels color points).filter region).card = if color = whole then (points.filter region).card
      else 0 := by
  split_ifs with hcolor
  · congr 1
    ext p
    rw [mem_filter, mem_filter, mem_pixels_iff, hcolor]
    exact ⟨fun hp => ⟨hp.1.1, hp.2⟩, fun hp => ⟨⟨hp.1, h hp.2⟩, hp.2⟩⟩
  · rw [card_eq_zero, filter_eq_empty_iff]
    intro p hp hregion
    exact hcolor (Option.some.inj ((mem_pixels_iff.1 hp).2.symm.trans (h hregion)))

open Classical in
/-- The balance of a fill: the points of the region leave the old colour and join the new one. -/
theorem Filled.balance {g' : Grid} {old new : Rgba} {start : Int × Int} (h : Filled g new start g')
    (hstart : g.get? start.1 start.2 = some old) (points : Finset (Int × Int)) (color : Rgba) :
    (g.pixels color points).card +
    (if color = new then (points.filter (g.Region start)).card else 0) =
      (g'.pixels color points).card + if color = old then (points.filter (g.Region start)).card
      else 0 := by
  have hold : ∀ {p}, g.Region start p → g.get? p.1 p.2 = some old :=
    fun hp => hp.color_eq.trans hstart
  have houtside : (g'.pixels color points).filter (fun p => ¬ g.Region start p) =
      (g.pixels color points).filter fun p => ¬ g.Region start p := by
    ext p
    simp only [mem_filter, mem_pixels_iff]
    refine and_congr_left fun hp => ?_
    rw [h.kept hp]
  rw [← card_filter_add_card_filter_not (s := g.pixels color points) (g.Region start),
    ← card_filter_add_card_filter_not (s := g'.pixels color points) (g.Region start), houtside,
    filter_pixels_of_color (g.Region start) hold, filter_pixels_of_color (g.Region start) h.painted]
  omega

end Grid

namespace Canvas

variable {c : Canvas} {v : Text} {color : Rgba}

theorem colorCount_of_color (h : Rgba.ofText? v = some color) (x1 y1 x2 y2 : Int) :
    c.colorCount v x1 y1 x2 y2 = c.grid.countBetween color x1 y1 x2 y2 := by
  rw [colorCount, h]

theorem colorCount_of_none (h : Rgba.ofText? v = none) (x1 y1 x2 y2 : Int) :
    c.colorCount v x1 y1 x2 y2 = 0 := by
  rw [colorCount, h]

def tally (c : Canvas) (v : Text) : Nat := c.colorCount v 0 0 (c.grid.width - 1) (c.grid.height - 1)

theorem tally_of_color (hwidth : 0 < c.grid.width) (hheight : 0 < c.grid.height)
    (h : Rgba.ofText? v = some color) : c.tally v = (c.grid.pixels color c.grid.points).card := by
  rw [tally, colorCount_of_color h, Grid.countBetween_corners hwidth hheight]

theorem isColor_iff_tally (hwidth : 0 < c.grid.width) (hheight : 0 < c.grid.height) (v : Text) :
    c.isColor v = true ↔ c.tally v = c.grid.width * c.grid.height := by
  cases hcolor : Rgba.ofText? v with
  | some color =>
    rw [isColor, tally, colorCount_of_color hcolor, hcolor]
    exact Grid.all_iff_countBetween hwidth hheight
  | none =>
    have hpos := Nat.mul_pos hwidth hheight
    rw [isColor, tally, colorCount_of_none hcolor, hcolor]
    exact iff_of_false Bool.false_ne_true hpos.ne

end Canvas

namespace Draw

open Canvas

open Classical in
/-- A fill with the cursor on the canvas takes `n` pixels from the colour under the cursor and gives
them to that of the brush. -/
theorem fill_moves_pixels {e : Easel} {old : Rgba}
    (h : e.canvas.grid.get? e.pen.x e.pen.y = some old) :
    ∃ (e' : Easel) (n : Nat), fill e = .ok () e' ∧
      (e.canvas.brush.color.alpha ≠ 0 → old ≠ e.canvas.brush.color → 0 < n) ∧
      ∀ (v : Text) (color : Rgba), Rgba.ofText? v = some color →
        (color = old → e.canvas.tally v = e'.canvas.tally v + n) ∧
        (color = e.canvas.brush.color → e'.canvas.tally v = e.canvas.tally v + n) ∧
        (color ≠ old → color ≠ e.canvas.brush.color → e'.canvas.tally v = e.canvas.tally v) := by
  obtain ⟨⟨grid, brush⟩, pen⟩ := e
  have hinside : grid.Inside pen.x pen.y := Grid.inside_of_get? h
  obtain ⟨hwidth, hheight⟩ := hinside.pos
  by_cases hchange : brush.paints = true ∧ old ≠ brush.color
  · obtain ⟨hpaints, hne⟩ := hchange
    have hfilled := grid.filled_fill pen.x pen.y brush.color
    obtain ⟨hwidth', hheight'⟩ :=
      (Grid.steady_size grid.width grid.height).fill pen.x pen.y brush.color ⟨rfl, rfl⟩
    have hpoints : (grid.fill pen.x pen.y brush.color).points = grid.points := by
      rw [Grid.points, hwidth', hheight', Grid.points]
    refine ⟨⟨⟨grid.fill pen.x pen.y brush.color, brush⟩, pen⟩,
      (grid.points.filter (grid.Region (pen.x, pen.y))).card, ?_, fun _ _ =>
      ?_, fun v color hv => ?_⟩
    · rw [fill, paint_apply, if_pos hpaints]
    · have hcursor : (pen.x, pen.y) ∈ grid.points.filter (grid.Region (pen.x, pen.y)) :=
        Finset.mem_filter.2 ⟨(Grid.mem_points_iff hwidth hheight).2 hinside, hinside, .refl⟩
      exact Finset.card_pos.2 ⟨_, hcursor⟩
    · have hbalance := hfilled.balance h grid.points color
      rw [tally_of_color hwidth hheight hv, tally_of_color (hwidth' ▸ hwidth) (hheight' ▸ hheight)
        hv, hpoints]
      refine ⟨?_, ?_, ?_⟩
      · rintro rfl
        rwa [if_neg hne, if_pos rfl] at hbalance
      · rintro rfl
        rw [if_pos rfl, if_neg hne.symm] at hbalance
        exact hbalance.symm
      · intro hold hnew
        rw [if_neg hold, if_neg hnew] at hbalance
        exact hbalance.symm
  · have hsame : fill ⟨⟨grid, brush⟩, pen⟩ = .ok () ⟨⟨grid, brush⟩, pen⟩ := by
      rw [fill, paint_apply]
      split_ifs with hpaints
      · obtain rfl : old = brush.color := by_contra fun hne => hchange ⟨hpaints, hne⟩
        rw [Grid.fill_of_get? h]
      · rfl
    refine ⟨⟨⟨grid, brush⟩, pen⟩, 0, hsame, fun halpha hne => ?_,
      fun _ _ _ => ⟨fun _ => rfl, fun _ => rfl, fun _ _ => rfl⟩⟩
    exact absurd ⟨decide_eq_true halpha, hne⟩ hchange

/-- The count of a colour between two corners is the number of its pixels in the box that they span,
and nothing if a corner is off the canvas or the text names no colour. So it does not depend on
which of the corners are given, it adds up over the two parts of a box that is cut in two, and the
canvas is of one colour if and only if the count over all of it is its area. A fill takes pixels
from the colour under the cursor and gives as many to the colour of the brush, at least one if these
differ and the brush leaves a trace; all other colours keep their counts. -/
theorem pixel_queries_are_consistent (e : Easel) (hwidth : 0 < e.canvas.grid.width)
    (hheight : 0 < e.canvas.grid.height) :
    let c := e.canvas
    (∀ (v : Text) (x1 y1 x2 y2 : Int),
      (∀ color, Rgba.ofText? v = some color → c.grid.Inside x1 y1 → c.grid.Inside x2 y2 →
        c.colorCount v x1 y1 x2 y2 =
          ((uIcc x1 x2 ×ˢ uIcc y1 y2).filter fun p => c.grid.get? p.1 p.2 = some color).card) ∧
      (Rgba.ofText? v = none ∨ ¬ c.grid.Inside x1 y1 ∨ ¬ c.grid.Inside x2 y2 →
        c.colorCount v x1 y1 x2 y2 = 0) ∧
      c.colorCount v x2 y1 x1 y2 = c.colorCount v x1 y1 x2 y2 ∧
      c.colorCount v x1 y2 x2 y1 = c.colorCount v x1 y1 x2 y2 ∧
      (c.grid.Inside x1 y1 → c.grid.Inside x2 y2 →
        (∀ m, x1 ≤ m → m < x2 →
          c.colorCount v x1 y1 x2 y2 =
            c.colorCount v x1 y1 m y2 + c.colorCount v (m + 1) y1 x2 y2) ∧
        ∀ m, y1 ≤ m → m < y2 →
          c.colorCount v x1 y1 x2 y2 =
            c.colorCount v x1 y1 x2 m + c.colorCount v x1 (m + 1) x2 y2)) ∧
    (∀ v, c.isColor v = true ↔ c.tally v = c.grid.width * c.grid.height) ∧
    ∀ old, c.grid.get? e.pen.x e.pen.y = some old →
      ∃ (e' : Easel) (n : Nat), fill e = .ok () e' ∧
        (c.brush.color.alpha ≠ 0 → old ≠ c.brush.color → 0 < n) ∧
        ∀ (v : Text) (color : Rgba), Rgba.ofText? v = some color →
          (color = old → c.tally v = e'.canvas.tally v + n) ∧
          (color = c.brush.color → e'.canvas.tally v = c.tally v + n) ∧
          (color ≠ old → color ≠ c.brush.color → e'.canvas.tally v = c.tally v) := by
  intro c
  refine ⟨fun v x1 y1 x2 y2 => ?_, isColor_iff_tally hwidth hheight, fun old => fill_moves_pixels⟩
  cases hv : Rgba.ofText? v with
  | none => simp [colorCount_of_none hv]
  | some color =>
    simp only [colorCount_of_color hv]
    refine ⟨?_, ?_, c.grid.countBetween_swap_columns color x1 y1 x2 y2,
      c.grid.countBetween_swap_rows color x1 y1 x2 y2, fun h1 h2 =>
      ⟨fun m => Grid.countBetween_cut_columns h1 h2, fun m => Grid.countBetween_cut_rows h1 h2⟩⟩
    · intro color' hcolor h1 h2
      cases hcolor
      exact Grid.countBetween_eq_card h1 h2
    · intro hout
      rw [Grid.countBetween, if_neg]
      rintro ⟨h1, h2⟩
      rcases hout with hnone | hout | hout
      · cases hnone
      · exact hout h1
      · exact hout h2

/-- White pixels on both sides of a black column: a fill from the left side with red does not reach
the right side. -/
theorem parted_canvas_is_consistent :
    let e : Easel :=
      ⟨⟨((Grid.blank 3 2).put 1 0 .black).put 1 1 .black, { color := ⟨255, 0, 0, 255⟩ }⟩, {}⟩
    (0 < e.canvas.grid.width ∧ 0 < e.canvas.grid.height) ∧
    e.canvas.grid.get? e.pen.x e.pen.y = some .white ∧
      e.canvas.colorCount "white" 0 0 2 1 = 4 ∧
      e.canvas.colorCount "white" 2 0 0 1 = e.canvas.colorCount "white" 0 0 2 1 ∧
      e.canvas.colorCount "white" 0 0 2 1 =
        e.canvas.colorCount "white" 0 0 1 1 + e.canvas.colorCount "white" (1 + 1) 0 2 1 ∧
      ∃ (e' : Easel) (n : Nat), fill e = .ok () e' ∧ 0 < n ∧
        e.canvas.tally "white" = e'.canvas.tally "white" + n ∧
        e'.canvas.tally "#ff0000" = e.canvas.tally "#ff0000" + n ∧
        e'.canvas.tally "black" = e.canvas.tally "black" := by
  intro e
  have hcursor : e.canvas.grid.get? e.pen.x e.pen.y = some .white := rfl
  have hcorners : e.canvas.grid.Inside 0 0 ∧ e.canvas.grid.Inside 2 1 := by decide
  obtain ⟨hboxes, -, hfill⟩ := pixel_queries_are_consistent e (by decide) (by decide)
  obtain ⟨-, -, hswap, -, hcut⟩ := hboxes "white" 0 0 2 1
  obtain ⟨e', n, hok, hpos, hcounts⟩ := hfill .white hcursor
  refine ⟨by decide, hcursor, rfl, hswap, (hcut hcorners.1 hcorners.2).1 1 (by decide) (by decide),
    e', n, hok, hpos (by decide) (by decide), ?_, ?_, ?_⟩
  · exact (hcounts "white" .white rfl).1 rfl
  · exact (hcounts "#ff0000" ⟨255, 0, 0, 255⟩ rfl).2.1 rfl
  · exact (hcounts "black" .black rfl).2.2 (by decide) (by decide)

end Draw

end Brushwork
