import Brushwork.Proofs.ClosedForms
import Mathlib.Tactic.Linarith

/-!
# Outlines

A circle or a rectangle has an edge and the points strictly inside of it. A single step across or
down never leads from the inside past the edge: it ends inside or on the edge. A painting brush
gives its colour to the edge wherever the edge lies on the grid, so a region of any other colour
that begins inside stays there, and a fill of it does not leak out.
-/

namespace Brushwork

/-- What holds of a point and is kept by every step over pixels of its colour holds in its whole
region. -/
theorem Grid.Region.induct {g : Grid} {p q : Int × Int} {P : Int × Int → Prop}
    (h : g.Region p q) (hp : P p)
    (hstep : ∀ {a b : Int × Int}, P a → Grid.Adjacent a b → g.get? b.1 b.2 = g.get? p.1 p.2 → P b) :
    P q := by
  obtain ⟨-, hsteps⟩ := h
  induction hsteps with
  | refl => exact hp
  | tail _ hlast ih => exact hstep ih hlast.1 hlast.2

theorem Draw.fill_from_apply {text : Text} {color : Rgba} (htext : Rgba.ofText? text = some color)
    (x y : Int) (grid : Grid) (brush : Brush) (pen : Pen) :
    (do setColor text; setCursor x y; fill) ⟨⟨grid, brush⟩, pen⟩ =
      .ok () ⟨⟨if color.alpha ≠ 0 then grid.fill x y color else grid, { brush with color }⟩,
        { pen with x, y, color := Rgba.bare text }⟩ := by
  simp only [bind, EStateM.bind, setColor_of_color htext]
  refine (paint_apply _ _ _ _).trans ?_
  by_cases halpha : color.alpha ≠ 0
  · have hpaints : Brush.paints { brush with color } = true := decide_eq_true halpha
    rw [if_pos halpha, if_pos hpaints]
  · have hpaints : ¬ Brush.paints { brush with color } = true :=
      fun h => halpha (of_decide_eq_true h)
    rw [if_neg halpha, if_neg hpaints]

inductive Outline where
  | circle (radius : Int)
  | rectangle (distance width height : Int)

namespace Outline

/-- An outline that is not empty and that can be measured. -/
def Proper : Outline → Prop
  | circle radius => 1 ≤ radius ∧ Grid.Measurable radius
  | rectangle _ width height => 1 ≤ width ∧ 1 ≤ height

instance : (o : Outline) → Decidable o.Proper
  | circle _ => inferInstanceAs (Decidable (_ ∧ _))
  | rectangle .. => inferInstanceAs (Decidable (_ ∧ _))

def draw (dx dy : Int) : Outline → Draw Unit
  | circle radius => Draw.circle dx dy radius
  | rectangle distance width height => Draw.rectangle dx dy distance width height

/-- How far the centre of an outline lies from the cursor, along one axis of its direction. -/
def shift (d : Int) : Outline → Int
  | circle _ => d
  | rectangle distance _ _ => d * distance

/-- The points strictly inside an outline around `c`. -/
def Encloses (c p : Int × Int) : Outline → Prop
  | circle radius =>
    (p.1 - c.1) * (p.1 - c.1) + (p.2 - c.2) * (p.2 - c.2) ≤ radius * radius - radius
  | rectangle _ width height =>
    (c.1 - width.fdiv 2 < p.1 ∧ p.1 < c.1 - width.fdiv 2 + width - 1) ∧
      c.2 - height.fdiv 2 < p.2 ∧ p.2 < c.2 - height.fdiv 2 + height - 1

instance (c p : Int × Int) : (o : Outline) → Decidable (o.Encloses c p)
  | circle _ => inferInstanceAs (Decidable (_ ≤ _))
  | rectangle .. => inferInstanceAs (Decidable ((_ ∧ _) ∧ _ ∧ _))

/-- The outermost points of a box of the given size with its first corner at `(x, y)`. -/
def OnBorder (x y width height u v : Int) : Prop :=
  ((x ≤ u ∧ u ≤ x + width - 1) ∧ y ≤ v ∧ v ≤ y + height - 1) ∧
    ((u = x ∨ u = x + width - 1) ∨ v = y ∨ v = y + height - 1)

/-- The points of an outline around `c`, as a brush of size one draws it. -/
def Edge (c p : Int × Int) : Outline → Prop
  | circle radius => Grid.OnRing radius (p.1 - c.1) (p.2 - c.2)
  | rectangle _ width height =>
    OnBorder (c.1 - width.fdiv 2) (c.2 - height.fdiv 2) width height p.1 p.2

/-- The stamps along an outline around `c`. -/
def stroke (color : Rgba) (reach : Int) (c : Int × Int) : Outline → Grid → Grid
  | circle radius => Grid.ring color reach c.1 c.2 radius
  | rectangle _ width height =>
    Grid.frame color reach (c.1 - width.fdiv 2) (c.2 - height.fdiv 2) width height

/-- The points of the plane that the stamps along an outline cover. -/
def Spot (reach : Int) (c p : Int × Int) : Outline → Prop
  | circle radius =>
    Grid.Blots (Grid.OnRing radius) reach c.1 c.2 (-radius) (radius + 1) (-radius)
      (radius + 1) p.1 p.2
  | rectangle _ width height =>
    Grid.Blots (Grid.OnEdge width height) reach (c.1 - width.fdiv 2) (c.2 - height.fdiv 2) 0 width 0
      height p.1 p.2

theorem paints_stroke (o : Outline) (color : Rgba) (reach : Int) (c : Int × Int) :
    Grid.Paints color (o.stroke color reach c) fun u v => o.Spot reach c (u, v) := by
  cases o with
  | circle radius => exact .stamps _ color reach c.1 c.2 _ _ _ _
  | rectangle distance width height => exact .stamps _ color reach _ _ _ _ _ _

/-- A single step along one axis leads from the inside of a circle at most to the outer rim of its
ring. -/
theorem sq_step_le {a a' b radius : Int} (hradius : 1 ≤ radius) (hstep : a' = a + 1 ∨ a' = a - 1)
    (h : a * a + b * b ≤ radius * radius - radius) :
    a' * a' + b * b ≤ radius * radius + radius := by
  have hlow : -radius < a := by nlinarith
  have hhigh : a < radius := by nlinarith
  obtain rfl | rfl := hstep <;> nlinarith

/-- No single step leads from the inside of an outline past its edge. -/
theorem Encloses.step {o : Outline} {c p q : Int × Int} (hproper : o.Proper) (h : o.Encloses c p)
    (hadjacent : Grid.Adjacent p q) : o.Encloses c q ∨ o.Edge c q := by
  unfold Grid.Adjacent at hadjacent
  cases o with
  | circle radius =>
    suffices hnear :
        (q.1 - c.1) * (q.1 - c.1) + (q.2 - c.2) * (q.2 - c.2) ≤ radius * radius + radius from
      (le_or_gt _ _).imp_right fun hfar => ⟨hfar, hnear⟩
    by_cases hrow : q.2 = p.2
    · rw [hrow]
      exact sq_step_le hproper.1 (by omega) h
    · have hcolumn : q.1 = p.1 := by omega
      rw [hcolumn, add_comm]
      exact sq_step_le hproper.1 (by omega) ((add_comm _ _).trans_le h)
  | rectangle distance width height =>
    simp only [Encloses, Edge, OnBorder] at h ⊢
    omega

theorem abs_le_of_onRing {radius a b : Int} (hradius : 1 ≤ radius) (h : Grid.OnRing radius a b) :
    (-radius ≤ a ∧ a ≤ radius) ∧ -radius ≤ b ∧ b ≤ radius := by
  obtain ⟨-, hfar⟩ := h
  refine ⟨⟨?_, ?_⟩, ?_, ?_⟩ <;> nlinarith

theorem square_self {reach : Int} (h : 0 ≤ reach) (x y : Int) : Grid.Square reach x y x y := by
  unfold Grid.Square
  omega

theorem Edge.spot {o : Outline} {c p : Int × Int} {reach : Int} (hproper : o.Proper)
    (hreach : 0 ≤ reach) (h : o.Edge c p) : o.Spot reach c p := by
  cases o with
  | circle radius =>
    obtain ⟨hcolumn, hrow⟩ := abs_le_of_onRing hproper.1 h
    refine ⟨p.2 - c.2, p.1 - c.1, by omega, by omega, h, ?_⟩
    rw [add_sub_cancel, add_sub_cancel]
    exact square_self hreach p.1 p.2
  | rectangle distance width height =>
    simp only [Edge, OnBorder] at h
    simp only [Spot, Grid.blots_iff_rim hproper.1 hproper.2, Grid.Rim]
    omega

/-- A region that begins inside a drawn outline and has not its colour stays inside. -/
theorem encloses_of_region {o : Outline} {c p q : Int × Int} {g : Grid} {color : Rgba} {reach : Int}
    (hproper : o.Proper) (hreach : 0 ≤ reach) (hp : o.Encloses c p)
    (hcolor : (o.stroke color reach c g).get? p.1 p.2 ≠ some color)
    (h : (o.stroke color reach c g).Region p q) : o.Encloses c q := by
  refine h.induct (P := fun q => o.Encloses c q) hp ?_
  intro a b ha hadjacent hsame
  refine (ha.step hproper hadjacent).resolve_right fun hedge => hcolor ?_
  have hpaints := o.paints_stroke color reach c
  have hinside : (o.stroke color reach c g).Inside b.1 b.2 := by
    by_contra hout
    rw [Grid.get?_eq_none_iff.2 hout] at hsame
    exact Grid.get?_eq_none_iff.1 hsame.symm h.1
  rw [← hsame]
  exact hpaints.hit ((hpaints.inside g b.1 b.2).1 hinside) (hedge.spot hproper hreach)

theorem draw_apply {o : Outline} {dx dy : Int} {grid : Grid} {brush : Brush} {pen : Pen}
    (hdirection : Draw.IsDirection dx dy) (hproper : o.Proper) (hpaints : brush.paints = true) :
    o.draw dx dy ⟨⟨grid, brush⟩, pen⟩ =
      .ok ()
      ⟨⟨o.stroke brush.color brush.reach (pen.x + o.shift dx, pen.y + o.shift dy) grid, brush⟩,
        { pen with x := pen.x + o.shift dx, y := pen.y + o.shift dy }⟩ := by
  cases o with
  | circle radius =>
    obtain ⟨hradius, hmeasurable⟩ := hproper
    have hmeasure : ¬ (brush.paints && !decide (Grid.Measurable radius)) = true := by
      rw [decide_eq_true hmeasurable, Bool.not_true, Bool.and_false]
      exact Bool.false_ne_true
    simp only [draw, Draw.circle, Draw.requireDirection, if_pos hdirection,
      if_neg (show ¬ radius ≤ 0 by omega), Draw.requireMeasurable, bind, EStateM.bind, pure,
      EStateM.pure, if_neg hmeasure]
    refine (Draw.paint_apply _ _ _ _).trans ?_
    rw [if_pos hpaints]
    rfl
  | rectangle distance width height =>
    exact Draw.rectangle_apply hdirection hpaints distance width height grid pen

/-- An outline that a painting brush has drawn holds every fill: from a point strictly inside that
has not the colour of the outline, a fill of any colour reaches no pixel but those strictly
inside. -/
theorem holds_every_fill {e : Easel} {o : Outline} {dx dy : Int}
    (hdirection : Draw.IsDirection dx dy) (hproper : o.Proper)
    (hpaints : e.canvas.brush.paints = true) (hsize : 0 < e.canvas.brush.size) :
    ∃ e₁, o.draw dx dy e = .ok () e₁ ∧
      ∀ (text : Text) (color : Rgba) (x y : Int), Rgba.ofText? text = some color →
        o.Encloses (e.pen.x + o.shift dx, e.pen.y + o.shift dy) (x, y) →
        e₁.canvas.grid.get? x y ≠ some e.canvas.brush.color →
        ∃ e₂, (do Draw.setColor text; Draw.setCursor x y; Draw.fill) e₁ = .ok () e₂ ∧
          (∀ u v, e₁.canvas.grid.Region (x, y) (u, v) → color.alpha ≠ 0 →
            e₂.canvas.grid.get? u v = some color) ∧
          ∀ u v, e₂.canvas.grid.get? u v ≠ e₁.canvas.grid.get? u v →
            o.Encloses (e.pen.x + o.shift dx, e.pen.y + o.shift dy) (u, v) := by
  obtain ⟨⟨grid, brush⟩, pen⟩ := e
  refine ⟨_, draw_apply hdirection hproper hpaints, ?_⟩
  dsimp only at hsize ⊢
  intro text color x y htext hencloses hcolor
  refine ⟨_, Draw.fill_from_apply htext x y _ brush _, fun u v hq halpha =>
    ?_, fun u v hchanged => ?_⟩
  · rw [if_pos halpha]
    exact (Grid.filled_fill _ x y color).painted hq
  · have hreach : 0 ≤ brush.reach := by
      unfold Brush.reach
      omega
    by_contra hout
    apply hchanged
    by_cases halpha : color.alpha ≠ 0
    · rw [if_pos halpha]
      exact (Grid.filled_fill _ x y color).kept fun hregion =>
        hout (encloses_of_region hproper hreach hencloses hcolor hregion)
    · rw [if_neg halpha]

/-- A circle of radius two around `(3, 2)` on a grid that ends within it. -/
theorem cut_circle_holds_fill :
    ∃ e₁ e₂, Draw.circle 1 0 2 ⟨⟨.blank 5 5, {}⟩, { x := 2, y := 2 }⟩ = .ok () e₁ ∧
      (do Draw.setColor "Red"; Draw.setCursor 3 2; Draw.fill) e₁ = .ok () e₂ ∧
      e₂.canvas.grid.get? 3 2 = some ⟨255, 0, 0, 255⟩ ∧
      ∀ u v, e₂.canvas.grid.get? u v ≠ e₁.canvas.grid.get? u v →
        (u - 3) * (u - 3) + (v - 2) * (v - 2) ≤ 2 := by
  have hproper : (circle 2).Proper := by decide +kernel
  have hdirection : Draw.IsDirection 1 0 := by decide
  obtain ⟨e₁, hdraw, hfill⟩ :=
    holds_every_fill (e := ⟨⟨.blank 5 5, {}⟩, { x := 2, y := 2 }⟩) hdirection hproper rfl
      (by decide)
  have hwhite : e₁.canvas.grid.get? 3 2 = some .white := by
    rw [draw_apply hdirection hproper rfl] at hdraw
    injection hdraw with _ hdrawn
    rw [← hdrawn]
    decide +kernel
  obtain ⟨e₂, hcolored, hpainted, henclosed⟩ :=
    hfill "Red" ⟨255, 0, 0, 255⟩ 3 2 (by decide +kernel) (by decide)
    (by rw [hwhite]; decide)
  have hinside : e₁.canvas.grid.Inside 3 2 := Grid.inside_of_get? hwhite
  exact ⟨e₁, e₂, hdraw, hcolored, hpainted 3 2 ⟨hinside, .refl⟩ (by decide), henclosed⟩

end Outline

end Brushwork
