import Brushwork.Canvas.Grid
import Brushwork.Queue

/-!
# Flood fill

The points to look at wait in a queue, and a mark is set on every cell that has been looked at. A
point on the grid without a mark gets one; if it has the old colour, it takes the new one and sends
its four neighbours to the end of the queue. So each step either sets a mark or shortens the queue.
-/

namespace Brushwork.Grid

def neighbours (x y : Int) : List (Int × Int) := [(x + 1, y), (x - 1, y), (x, y + 1), (x, y - 1)]

theorem count_mark_lt {marks : Array Bool} {i : Nat} (h : marks[i]? = some false) :
    (marks.setIfInBounds i true).count false < marks.count false := by
  obtain ⟨hi, hmark⟩ := Array.getElem?_eq_some_iff.1 h
  have hpos : 0 < marks.count false := Array.count_pos_iff.2 (hmark ▸ Array.getElem_mem hi)
  rw [Array.setIfInBounds, dif_pos hi, Array.count_set hi, hmark]
  simp only [beq_self_eq_true, if_true, Bool.true_beq, Bool.false_eq_true, if_false]
  omega

def flood (old new : Rgba) (marks : Array Bool) (g : Grid) (queue : Queue (Int × Int)) : Grid :=
  match _h : queue.take? with
  | none => g
  | some ((x, y), waiting) =>
    if g.Inside x y ∧ marks[g.cell x y]? = some false then
      if g.get? x y = some old then
        flood old new (marks.setIfInBounds (g.cell x y) true) (g.put x y new)
          (waiting.append (neighbours x y))
      else flood old new (marks.setIfInBounds (g.cell x y) true) g waiting
    else flood old new marks g waiting
termination_by (marks.count false, queue.toList.length)
decreasing_by
  · rename_i hnew _
    exact Prod.Lex.left _ _ (count_mark_lt hnew.2)
  · rename_i hnew _
    exact Prod.Lex.left _ _ (count_mark_lt hnew.2)
  · rw [Queue.toList_of_take?_some _h]
    exact Prod.Lex.right _ (Nat.lt_succ_self _)

/-- Give a new colour to the pixel at a point and to all that hang together with it in one
colour. -/
def fill (g : Grid) (x y : Int) (new : Rgba) : Grid :=
  match g.get? x y with
  | none => g
  | some old =>
    if old = new then g
    else g.flood old new (.replicate (g.width * g.height) false) { front := [(x, y)] }

end Brushwork.Grid
