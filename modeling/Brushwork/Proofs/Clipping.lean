import Brushwork.Canvas.Stroke

/-!
# Strokes and the edges of a grid

A stroke has a spot, the set of points of the whole plane that it would colour on a grid without
edges. On a grid it colours the points of the spot that lie inside and leaves all others as they
were. The spot does not depend on the grid, so two grids that agree wherever both have a pixel still
do so behind the same stroke.
-/

namespace Brushwork.Grid

/-- Two grids have the same colours wherever both have a pixel. -/
def Agree (g g' : Grid) : Prop := ∀ x y, g.Inside x y → g'.Inside x y → g.get? x y = g'.get? x y

/-- The pixels inside a spot take a colour, and nothing else changes. -/
structure Paints (c : Rgba) (f : Grid → Grid) (spot : Int → Int → Prop) : Prop where
  inside : ∀ g u v, (f g).Inside u v ↔ g.Inside u v
  hit : ∀ {g u v}, g.Inside u v → spot u v → (f g).get? u v = some c
  miss : ∀ {g u v}, ¬ spot u v → (f g).get? u v = g.get? u v

def Square (reach x y u v : Int) : Prop :=
  (x - reach ≤ u ∧ u ≤ x + reach) ∧ y - reach ≤ v ∧ v ≤ y + reach

/-- The squares around those points `(x + a, y + b)` of a box, `u0 ≤ a < u1` and `v0 ≤ b < v1`, that
pass a test. -/
def Blots (p : Int → Int → Prop) (reach x y u0 u1 v0 v1 u v : Int) : Prop :=
  ∃ b a : Int, (v0 ≤ b ∧ b < v1) ∧ (u0 ≤ a ∧ a < u1) ∧ p a b ∧ Square reach (x + a) (y + b) u v

namespace Paints

variable {c : Rgba} {f f' : Grid → Grid} {spot spot' : Int → Int → Prop}

theorem nothing (c : Rgba) : Paints c (fun g => g) fun _ _ => False :=
  ⟨fun _ _ _ => Iff.rfl, fun _ h => h.elim, fun _ => rfl⟩

theorem put (c : Rgba) (x y : Int) : Paints c (fun g => g.put x y c) fun u v => u = x ∧ v = y := by
  refine ⟨fun g => inside_put g x y c, ?_, ?_⟩
  · rintro g u v hinside ⟨rfl, rfl⟩
    rw [get?_put, if_pos ⟨hinside, rfl, rfl⟩]
  · intro g u v hspot
    rw [get?_put, if_neg fun h => hspot h.2]

theorem comp (h' : Paints c f' spot') (h : Paints c f spot) :
    Paints c (fun g => f' (f g)) fun u v => spot u v ∨ spot' u v := by
  refine ⟨fun g u v => (h'.inside (f g) u v).trans (h.inside g u v), ?_, ?_⟩
  · intro g u v hinside hspot
    by_cases hlater : spot' u v
    · exact h'.hit ((h.inside g u v).2 hinside) hlater
    · rw [h'.miss hlater]
      exact h.hit hinside (hspot.resolve_right hlater)
  · intro g u v hspot
    rw [h'.miss fun hlater => hspot (Or.inr hlater), h.miss fun hearlier => hspot (Or.inl hearlier)]

theorem congr (h : Paints c f spot) (hspot : ∀ u v, spot u v ↔ spot' u v) : Paints c f spot' := by
  have : spot = spot' := funext fun u => funext fun v => propext (hspot u v)
  exact this ▸ h

theorem ite {p : Prop} [Decidable p] (h : Paints c f spot) :
    Paints c (fun g => if p then f g else g) fun u v => p ∧ spot u v := by
  by_cases hp : p
  · simp only [hp, if_true, true_and]
    exact h
  · simp only [hp, if_false, false_and]
    exact nothing c

theorem overRange {f : Grid → Int → Grid} {spot : Int → Int → Int → Prop}
    (h : ∀ i, Paints c (fun g => f g i) (spot i)) (first : Int) (count : Nat) :
    Paints c (fun g => Brushwork.overRange f first count g)
      fun u v => ∃ i, (first ≤ i ∧ i < first + count) ∧ spot i u v := by
  induction count generalizing first with
  | zero =>
    refine (nothing c).congr fun u v => ?_
    constructor
    · exact False.elim
    · rintro ⟨i, hi, -⟩
      omega
  | succ n ih =>
    refine ((ih (first + 1)).comp (h first)).congr fun u v => ?_
    constructor
    · rintro (hfirst | ⟨i, hi, hspot⟩)
      · exact ⟨first, by omega, hfirst⟩
      · exact ⟨i, by omega, hspot⟩
    · rintro ⟨i, hi, hspot⟩
      by_cases hfirst : i = first
      · exact Or.inl (hfirst ▸ hspot)
      · exact Or.inr ⟨i, by omega, hspot⟩

theorem row {y : Int} (h : Paints c f spot) (hrow : ∀ u v, spot u v → v = y) :
    Paints c (fun g => if 0 ≤ y ∧ y < g.height then f g else g) spot := by
  constructor
  · intro g u v
    split
    · exact h.inside g u v
    · rfl
  · intro g u v hinside hspot
    obtain rfl := hrow u v hspot
    rw [if_pos hinside.2]
    exact h.hit hinside hspot
  · intro g u v hspot
    split
    · exact h.miss hspot
    · rfl

theorem stamp (c : Rgba) (reach x y : Int) :
    Paints c (fun g => g.stamp c reach x y) (Square reach x y) := by
  have hrow (v : Int) := (overRange (fun u => put c u v) (x - reach)
    (extent (x - reach) (x + reach + 1))).row (y := v) (by rintro _ _ ⟨_, -, -, rfl⟩; rfl)
  refine (overRange hrow (y - reach) (extent (y - reach) (y + reach + 1))).congr fun u v => ?_
  simp only [extent, Square]
  constructor
  · rintro ⟨b, hb, a, ha, rfl, rfl⟩
    omega
  · intro hsquare
    exact ⟨v, by omega, u, by omega, rfl, rfl⟩

theorem stamps (p : Int → Int → Prop) [∀ u v, Decidable (p u v)] (c : Rgba)
    (reach x y u0 u1 v0 v1 : Int) :
    Paints c (stamps p c reach x y u0 u1 v0 v1) (Blots p reach x y u0 u1 v0 v1) := by
  have hrow (b : Int) :=
    overRange (fun a => ite (p := p a b) (stamp c reach (x + a) (y + b))) u0 (extent u0 u1)
  refine (overRange hrow v0 (extent v0 v1)).congr fun u v => ?_
  simp only [extent, Blots]
  constructor
  · rintro ⟨b, hb, a, ha, htest, hspot⟩
    exact ⟨b, a, by omega, by omega, htest, hspot⟩
  · rintro ⟨b, a, hb, ha, htest, hspot⟩
    exact ⟨b, by omega, a, by omega, htest, hspot⟩

theorem agree (h : Paints c f spot) {g g' : Grid} (hg : g.Agree g') : (f g).Agree (f g') := by
  intro u v hinside hinside'
  rw [h.inside] at hinside hinside'
  by_cases hspot : spot u v
  · rw [h.hit hinside hspot, h.hit hinside' hspot]
  · rw [h.miss hspot, h.miss hspot]
    exact hg u v hinside hinside'

end Paints

end Brushwork.Grid
