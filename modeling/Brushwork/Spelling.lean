import Brushwork.Token

/-!
# Spelling suggestions

The distance of two words is the least number of insertions, deletions and substitutions of single
characters that turn one into the other. It is computed row by row: each row holds the distances
from the part of the first word read so far to every initial part of the second.
-/

namespace Brushwork.Spelling

/-- The rest of the next row. `diagonal` and the row above belong to the word before `c`, `left` is
the entry just computed. -/
def extendRow (c : Char) : (diagonal left : Nat) → List Char → List Nat → List Nat
  | diagonal, left, d :: t, up :: above =>
    let entry := min (min (up + 1) (left + 1)) (diagonal + if c = d then 0 else 1)
    entry :: extendRow c up entry t above
  | _, _, _, _ => []

def nextRow (t : List Char) (row : List Nat) (c : Char) : List Nat :=
  match row with
  | [] => []
  | first :: above => (first + 1) :: extendRow c first (first + 1) t above

/-- Distances from `s` to every initial part of `t`, the empty one first. -/
def lastRow (s t : List Char) : List Nat := s.foldl (nextRow t) (List.range (t.length + 1))

def distance (s t : List Char) : Nat := (lastRow s t).getLastD 0

/-- The first keyword of least distance, if that distance is at most `limit`. -/
def suggest (word : List Char) (limit : Int) : Option String :=
  (Token.Kind.keywords.foldl (fun (best : Option String × Int) keyword =>
    let d : Int := distance word keyword.1.toList
    if d < best.2 then (some keyword.1, d) else best) (none, limit + 1)).1

/-- The distance up to which a misspelt keyword is recognised. -/
def tolerance : Int := 2

end Brushwork.Spelling
