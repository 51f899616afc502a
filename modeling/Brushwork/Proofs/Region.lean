import Brushwork.Proofs.Easel
import Mathlib.Logic.Relation

/-!
# Regions of one colour

A region is what can be reached from a point by single steps across or down over pixels of its
colour. A fill gives the colour of the brush to the region of the cursor and to no other pixel.
While it searches, every marked pixel of the old colour belongs to the region and has been painted,
and its neighbours are marked or wait in the queue; so when nothing waits any more, the marked
pixels of the old colour are closed under steps.
-/

namespace Brushwork

namespace Grid

def Adjacent (p q : Int × Int) : Prop := (q.1 - p.1).natAbs + (q.2 - p.2).natAbs = 1

@[simp] theorem mem_neighbours_iff {x y : Int} {q : Int × Int} :
    q ∈ neighbours x y ↔ Adjacent (x, y) q := by
  obtain ⟨u, v⟩ := q
  simp only [neighbours, List.mem_cons, List.not_mem_nil, or_false, Prod.mk.injEq, Adjacent]
  omega

/-- The points that are reached from a point of the grid by single steps, all of them over pixels of
its colour. -/
def Region (g : Grid) (p q : Int × Int) : Prop :=
  g.Inside p.1 p.2 ∧
    Relation.ReflTransGen (fun a b => Adjacent a b ∧ g.get? b.1 b.2 = g.get? p.1 p.2) p q

section

variable {g g₀ : Grid} {p q : Int × Int}

theorem Region.color_eq (h : g.Region p q) : g.get? q.1 q.2 = g.get? p.1 p.2 := by
  obtain ⟨-, hsteps⟩ := h
  cases hsteps with
  | refl => rfl
  | tail _ hstep => exact hstep.2

theorem Region.step {r : Int × Int} (h : g.Region p q) (hadjacent : Adjacent q r)
    (hcolor : g.get? r.1 r.2 = g.get? p.1 p.2) : g.Region p r :=
  ⟨h.1, h.2.tail ⟨hadjacent, hcolor⟩⟩

theorem inside_of_get? {x y : Int} {c : Rgba} (h : g.get? x y = some c) : g.Inside x y := by
  unfold get? at h
  split at h
  · assumption
  · cases h

def Marked (g : Grid) (marks : Array Bool) (p : Int × Int) : Prop :=
  g.Inside p.1 p.2 ∧ marks[g.cell p.1 p.2]? = some true

theorem marked_replicate (n : Nat) : ¬ g.Marked (.replicate n false) p := by
  rintro ⟨-, hmark⟩
  simp [Array.getElem?_replicate] at hmark

theorem marked_or_unmarked {marks : Array Bool} (hsize : marks.size = g.width * g.height)
    (h : g.Inside p.1 p.2) : g.Marked marks p ∨ marks[g.cell p.1 p.2]? = some false := by
  have hlt : g.cell p.1 p.2 < marks.size := hsize ▸ cell_lt h
  rw [Array.getElem?_eq_getElem hlt]
  cases hmark : marks[g.cell p.1 p.2] with
  | true => exact Or.inl ⟨h, by rw [Array.getElem?_eq_getElem hlt, hmark]⟩
  | false => exact Or.inr rfl

theorem marked_set_iff {marks : Array Bool} (hsize : marks.size = g.width * g.height)
    (h : g.Inside p.1 p.2) :
    g.Marked (marks.setIfInBounds (g.cell p.1 p.2) true) q ↔ q = p ∨ g.Marked marks q := by
  have hlt : g.cell p.1 p.2 < marks.size := hsize ▸ cell_lt h
  unfold Marked
  rw [Array.getElem?_setIfInBounds]
  by_cases hcell : g.cell p.1 p.2 = g.cell q.1 q.2
  · rw [if_pos hcell, if_pos hlt]
    constructor
    · rintro ⟨hq, -⟩
      obtain ⟨hx, hy⟩ := cell_inj h hq hcell
      exact Or.inl (Prod.ext hx.symm hy.symm)
    · rintro (rfl | ⟨hq, -⟩)
      · exact ⟨h, rfl⟩
      · exact ⟨hq, rfl⟩
  · rw [if_neg hcell]
    constructor
    · exact Or.inr
    · rintro (rfl | hq)
      · exact absurd rfl hcell
      · exact hq

end

/-- A search on its way that started on a grid `g₀`: some cells are marked, the grid is now `g`, and
some points wait. -/
structure Searching (g₀ : Grid) (old new : Rgba) (start : Int × Int) (marks : Array Bool) (g : Grid)
    (waiting : List (Int × Int)) : Prop where
  width : g.width = g₀.width
  height : g.height = g₀.height
  size : marks.size = g₀.width * g₀.height
  painted : ∀ {q : Int × Int}, g₀.Marked marks q → g₀.get? q.1 q.2 = some old →
    g.get? q.1 q.2 = some new
  kept : ∀ {q : Int × Int}, ¬ (g₀.Marked marks q ∧ g₀.get? q.1 q.2 = some old) →
    g.get? q.1 q.2 = g₀.get? q.1 q.2
  reached : ∀ {q : Int × Int}, g₀.Marked marks q → g₀.get? q.1 q.2 = some old → g₀.Region start q
  expected : ∀ {q : Int × Int}, q ∈ waiting → g₀.get? q.1 q.2 = some old → g₀.Region start q
  begun : g₀.Marked marks start ∨ start ∈ waiting
  closed : ∀ {p q : Int × Int}, g₀.Marked marks p → g₀.get? p.1 p.2 = some old → Adjacent p q →
    g₀.Inside q.1 q.2 → g₀.Marked marks q ∨ q ∈ waiting

namespace Searching

variable {g₀ g : Grid} {old new : Rgba} {start p : Int × Int} {marks : Array Bool}
  {waiting : List (Int × Int)}

theorem cell_eq (h : Searching g₀ old new start marks g waiting) (x y : Int) :
    g.cell x y = g₀.cell x y := by
  rw [cell, cell, h.width]

theorem inside_iff (h : Searching g₀ old new start marks g waiting) (x y : Int) :
    g.Inside x y ↔ g₀.Inside x y := by
  rw [Inside, Inside, h.width, h.height]

/-- A point without a mark still has the colour that it had at first. -/
theorem get?_eq (h : Searching g₀ old new start marks g waiting)
    (hp : marks[g₀.cell p.1 p.2]? = some false) : g.get? p.1 p.2 = g₀.get? p.1 p.2 := by
  apply h.kept
  rintro ⟨⟨-, hmark⟩, -⟩
  rw [hp] at hmark
  cases hmark

theorem skip (h : Searching g₀ old new start marks g (p :: waiting))
    (hp : g₀.Inside p.1 p.2 → g₀.Marked marks p) (hstart : g₀.Inside start.1 start.2) :
    Searching g₀ old new start marks g waiting where
  width := h.width
  height := h.height
  size := h.size
  painted := h.painted
  kept := h.kept
  reached := h.reached
  expected hq := h.expected (List.mem_cons_of_mem p hq)
  begun := by
    rcases h.begun with hmarked | hwaiting
    · exact Or.inl hmarked
    · rcases List.mem_cons.1 hwaiting with rfl | hwaiting
      · exact Or.inl (hp hstart)
      · exact Or.inr hwaiting
  closed hr hcolor hadjacent hq := by
    rcases h.closed hr hcolor hadjacent hq with hmarked | hwaiting
    · exact Or.inl hmarked
    · rcases List.mem_cons.1 hwaiting with rfl | hwaiting
      · exact Or.inl (hp hq)
      · exact Or.inr hwaiting

theorem pass (h : Searching g₀ old new start marks g (p :: waiting)) (hp : g₀.Inside p.1 p.2)
    (hcolor : g₀.get? p.1 p.2 ≠ some old) (hstart : g₀.Inside start.1 start.2) :
    Searching g₀ old new start (marks.setIfInBounds (g₀.cell p.1 p.2) true) g waiting := by
  have hmarked {q : Int × Int} := marked_set_iff (q := q) h.size hp
  suffices Searching g₀ old new start (marks.setIfInBounds (g₀.cell p.1 p.2) true) g
      (p :: waiting) from
    this.skip (fun _ => hmarked.2 (Or.inl rfl)) hstart
  exact {
    width := h.width
    height := h.height
    size := by rw [Array.size_setIfInBounds, h.size]
    painted := by
      intro q hq hold
      rcases hmarked.1 hq with rfl | hq
      · exact absurd hold hcolor
      · exact h.painted hq hold
    kept := by
      intro q hq
      apply h.kept
      rintro ⟨hmark, hold⟩
      exact hq ⟨hmarked.2 (Or.inr hmark), hold⟩
    reached := by
      intro q hq hold
      rcases hmarked.1 hq with rfl | hq
      · exact absurd hold hcolor
      · exact h.reached hq hold
    expected := h.expected
    begun := h.begun.imp_left fun hq => hmarked.2 (Or.inr hq)
    closed := by
      intro r q hr hold hadjacent hq
      rcases hmarked.1 hr with rfl | hr
      · exact absurd hold hcolor
      · exact (h.closed hr hold hadjacent hq).imp_left fun hq => hmarked.2 (Or.inr hq) }

/-- A point of the old colour is marked and painted, and its neighbours have to wait. -/
theorem paint (h : Searching g₀ old new start marks g (p :: waiting))
    (hp : marks[g₀.cell p.1 p.2]? = some false) (hcolor : g₀.get? p.1 p.2 = some old)
    (hstart : g₀.get? start.1 start.2 = some old) :
    Searching g₀ old new start (marks.setIfInBounds (g₀.cell p.1 p.2) true) (g.put p.1 p.2 new)
      (waiting ++ neighbours p.1 p.2) := by
  have hinside : g₀.Inside p.1 p.2 := inside_of_get? hcolor
  have hmarked {q : Int × Int} := marked_set_iff (q := q) h.size hinside
  have hregion : g₀.Region start p := h.expected List.mem_cons_self hcolor
  have hget (q : Int × Int) : (g.put p.1 p.2 new).get? q.1 q.2 =
      if q = p then some new else g.get? q.1 q.2 := by
    have hin : g.Inside p.1 p.2 := (h.inside_iff p.1 p.2).2 hinside
    rw [get?_put]
    by_cases hq : q = p
    · rw [if_pos hq, if_pos ⟨hin, by rw [hq], by rw [hq]⟩]
    · rw [if_neg hq, if_neg]
      rintro ⟨-, hx, hy⟩
      exact hq (Prod.ext hx hy)
  exact {
    width := (width_put ..).trans h.width
    height := (height_put ..).trans h.height
    size := by rw [Array.size_setIfInBounds, h.size]
    painted := by
      intro q hq hold
      rw [hget]
      split
      · rfl
      · rename_i hne
        exact h.painted ((hmarked.1 hq).resolve_left hne) hold
    kept := by
      intro q hq
      have hne : q ≠ p := by
        rintro rfl
        exact hq ⟨hmarked.2 (Or.inl rfl), hcolor⟩
      rw [hget, if_neg hne]
      apply h.kept
      rintro ⟨hmark, hold⟩
      exact hq ⟨hmarked.2 (Or.inr hmark), hold⟩
    reached := by
      intro q hq hold
      rcases hmarked.1 hq with rfl | hq
      · exact hregion
      · exact h.reached hq hold
    expected := by
      intro q hq hold
      rcases List.mem_append.1 hq with hq | hq
      · exact h.expected (List.mem_cons_of_mem p hq) hold
      · exact hregion.step (mem_neighbours_iff.1 hq) (hold.trans hstart.symm)
    begun := by
      rcases h.begun with hmark | hwaiting
      · exact Or.inl (hmarked.2 (Or.inr hmark))
      · rcases List.mem_cons.1 hwaiting with rfl | hwaiting
        · exact Or.inl (hmarked.2 (Or.inl rfl))
        · exact Or.inr (List.mem_append_left _ hwaiting)
    closed := by
      intro r q hr hold hadjacent hq
      rcases hmarked.1 hr with rfl | hr
      · exact Or.inr (List.mem_append_right _ (mem_neighbours_iff.2 hadjacent))
      · rcases h.closed hr hold hadjacent hq with hmark | hwaiting
        · exact Or.inl (hmarked.2 (Or.inr hmark))
        · rcases List.mem_cons.1 hwaiting with rfl | hwaiting
          · exact Or.inl (hmarked.2 (Or.inl rfl))
          · exact Or.inr (List.mem_append_left _ hwaiting) }

/-- When nothing waits any more, the whole region is marked. -/
theorem marked_of_region (h : Searching g₀ old new start marks g [])
    (hstart : g₀.get? start.1 start.2 = some old) {q : Int × Int} (hq : g₀.Region start q) :
    g₀.Marked marks q := by
  obtain ⟨hinside, hsteps⟩ := hq
  induction hsteps with
  | refl => exact h.begun.resolve_right List.not_mem_nil
  | tail hsteps hstep ih =>
    obtain ⟨hadjacent, hcolor⟩ := hstep
    have hold := (Region.color_eq ⟨hinside, hsteps⟩).trans hstart
    have hnext := inside_of_get? (hcolor.trans hstart)
    exact (h.closed ih hold hadjacent hnext).resolve_right List.not_mem_nil

end Searching

/-- The colour of every point after a fill of the region of a point. -/
structure Filled (g : Grid) (new : Rgba) (start : Int × Int) (g' : Grid) : Prop where
  painted : ∀ {q : Int × Int}, g.Region start q → g'.get? q.1 q.2 = some new
  kept : ∀ {q : Int × Int}, ¬ g.Region start q → g'.get? q.1 q.2 = g.get? q.1 q.2

theorem filled_flood {g₀ g : Grid} {old new : Rgba} {start : Int × Int} {marks : Array Bool}
    {queue : Queue (Int × Int)} (hstart : g₀.get? start.1 start.2 = some old)
    (h : Searching g₀ old new start marks g queue.toList) :
    Filled g₀ new start (g.flood old new marks queue) := by
  have hinside : g₀.Inside start.1 start.2 := inside_of_get? hstart
  fun_induction flood old new marks g queue with
  | case1 marks g queue hempty =>
    rw [Queue.toList_of_take?_none hempty] at h
    constructor
    · intro q hq
      exact h.painted (h.marked_of_region hstart hq) (hq.color_eq.trans hstart)
    · intro q hq
      apply h.kept
      rintro ⟨hmark, hold⟩
      exact hq (h.reached hmark hold)
  | case2 marks g queue x y rest htake hnew hold ih =>
    rw [Queue.toList_of_take?_some htake] at h
    rw [h.cell_eq] at hnew ih ⊢
    rw [h.get?_eq (p := (x, y)) hnew.2] at hold
    apply ih
    rw [Queue.toList_append]
    exact h.paint hnew.2 hold hstart
  | case3 marks g queue x y rest htake hnew hold ih =>
    rw [Queue.toList_of_take?_some htake] at h
    rw [h.cell_eq] at hnew ih ⊢
    rw [h.get?_eq (p := (x, y)) hnew.2] at hold
    exact ih (h.pass ((h.inside_iff x y).1 hnew.1) hold hinside)
  | case4 marks g queue x y rest htake hnew ih =>
    rw [Queue.toList_of_take?_some htake] at h
    rw [h.cell_eq, h.inside_iff] at hnew
    refine ih (h.skip (fun hin => ?_) hinside)
    exact (marked_or_unmarked h.size hin).resolve_right fun hmark => hnew ⟨hin, hmark⟩

theorem searching_start {g : Grid} {x y : Int} {old : Rgba} (h : g.get? x y = some old)
    (new : Rgba) :
    Searching g old new (x, y) (.replicate (g.width * g.height) false) g [(x, y)] where
  width := rfl
  height := rfl
  size := Array.size_replicate
  painted hq := absurd hq (marked_replicate _)
  kept _ := rfl
  reached hq := absurd hq (marked_replicate _)
  expected hq _ := by
    rw [List.mem_singleton.1 hq]
    exact ⟨inside_of_get? h, .refl⟩
  begun := Or.inr List.mem_cons_self
  closed hp := absurd hp (marked_replicate _)

theorem filled_fill (g : Grid) (x y : Int) (new : Rgba) : Filled g new (x, y) (g.fill x y new) := by
  unfold fill
  split
  · rename_i hnone
    refine ⟨fun hq => ?_, fun _ => rfl⟩
    exact absurd hq.1 (get?_eq_none_iff.1 hnone)
  · rename_i old hold
    split
    · rename_i hsame
      refine ⟨fun hq => ?_, fun _ => rfl⟩
      rw [hq.color_eq, ← hsame]
      exact hold
    · exact filled_flood hold (searching_start hold new)

theorem fill_of_not_inside {g : Grid} {x y : Int} (h : ¬ g.Inside x y) (new : Rgba) :
    g.fill x y new = g := by
  rw [fill, get?_eq_none_iff.2 h]

theorem fill_of_get? {g : Grid} {x y : Int} {new : Rgba} (h : g.get? x y = some new) :
    g.fill x y new = g := by
  rw [fill, h]
  exact if_pos rfl

end Grid

namespace Draw

theorem paint_apply (f : Brush → Pen → Grid → Grid) (grid : Grid) (brush : Brush) (pen : Pen) :
    paint f ⟨⟨grid, brush⟩, pen⟩ =
      .ok () (if brush.paints then ⟨⟨f brush pen grid, brush⟩, pen⟩ else ⟨⟨grid, brush⟩, pen⟩) :=
      rfl

/-- A fill succeeds on every easel. If the cursor is on the grid and the brush leaves a trace, the
region of the cursor takes the colour of the brush and all other pixels stay; otherwise all do. Pen
and brush stay in any case, and a second fill changes nothing. -/
theorem fill_paints_region (e : Easel) :
    ∃ grid : Grid, fill e = .ok () ⟨⟨grid, e.canvas.brush⟩, e.pen⟩ ∧
      grid.width = e.canvas.grid.width ∧ grid.height = e.canvas.grid.height ∧
      (e.canvas.grid.Inside e.pen.x e.pen.y → e.canvas.brush.color.alpha ≠ 0 →
        ∀ u v, (e.canvas.grid.Region (e.pen.x, e.pen.y) (u, v) →
            grid.get? u v = some e.canvas.brush.color) ∧
          (¬ e.canvas.grid.Region (e.pen.x, e.pen.y) (u, v) →
            grid.get? u v = e.canvas.grid.get? u v)) ∧
      (¬ (e.canvas.grid.Inside e.pen.x e.pen.y ∧ e.canvas.brush.color.alpha ≠ 0) →
        grid = e.canvas.grid) ∧
      fill ⟨⟨grid, e.canvas.brush⟩, e.pen⟩ = .ok () ⟨⟨grid, e.canvas.brush⟩, e.pen⟩ := by
  obtain ⟨⟨grid, brush⟩, pen⟩ := e
  by_cases hpaints : brush.paints = true
  · have hfill (g : Grid) : fill ⟨⟨g, brush⟩, pen⟩ =
        .ok () ⟨⟨g.fill pen.x pen.y brush.color, brush⟩, pen⟩ := by
      rw [fill, paint_apply, if_pos hpaints]
    have halpha : brush.color.alpha ≠ 0 := of_decide_eq_true hpaints
    have hfilled := grid.filled_fill pen.x pen.y brush.color
    obtain ⟨hwidth, hheight⟩ := (Grid.steady_size grid.width grid.height).fill pen.x pen.y
      brush.color ⟨rfl, rfl⟩
    refine ⟨_, hfill grid, hwidth, hheight, fun _ _ u v =>
      ⟨fun hq => hfilled.painted hq, fun hq => hfilled.kept hq⟩, fun hout => ?_, ?_⟩
    · exact Grid.fill_of_not_inside (fun hin => hout ⟨hin, halpha⟩) _
    · rw [hfill]
      by_cases hin : grid.Inside pen.x pen.y
      · have hcursor := hfilled.painted ⟨hin, .refl⟩
        rw [Grid.fill_of_get? hcursor]
      · rw [Grid.fill_of_not_inside hin, Grid.fill_of_not_inside hin]
  · have hfill : fill ⟨⟨grid, brush⟩, pen⟩ = .ok () ⟨⟨grid, brush⟩, pen⟩ := by
      rw [fill, paint_apply, if_neg hpaints]
    have halpha : ¬ brush.color.alpha ≠ 0 := fun h => hpaints (decide_eq_true h)
    exact ⟨grid, hfill, rfl, rfl, fun _ h => absurd h halpha, fun _ => rfl, hfill⟩

end Draw

end Brushwork
