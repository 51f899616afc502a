/-!
# Queues

A queue is kept in two lists: items are taken from the first, and put on the second, which has the
latest one in front. When the first is used up, the second takes its place.
-/

namespace Brushwork

structure Queue (α : Type) where
  front : List α
  back : List α := []

namespace Queue

variable {α : Type}

/-- The items in the order in which they will be taken. -/
def toList (q : Queue α) : List α := q.front ++ q.back.reverse

def append (q : Queue α) (items : List α) : Queue α := { q with back := items.reverse ++ q.back }

/-- The first item, with what is left behind it. -/
def take? (q : Queue α) : Option (α × Queue α) :=
  match q.front with
  | a :: front => some (a, { q with front })
  | [] =>
    match q.back.reverse with
    | a :: front => some (a, { front })
    | [] => none

@[simp] theorem toList_append (q : Queue α) (items : List α) :
    (q.append items).toList = q.toList ++ items := by
  simp [append, toList]

theorem toList_of_take?_none {q : Queue α} (h : q.take? = none) : q.toList = [] := by
  obtain ⟨_ | ⟨a, front⟩, back⟩ := q
  · simp only [take?] at h
    split at h
    · cases h
    · rename_i hback
      exact hback
  · cases h

theorem toList_of_take?_some {q rest : Queue α} {a : α} (h : q.take? = some (a, rest)) :
    q.toList = a :: rest.toList := by
  obtain ⟨_ | ⟨b, front⟩, back⟩ := q
  · simp only [take?] at h
    split at h
    · rename_i hback
      cases h
      simpa [toList] using hback
    · cases h
  · cases h
    rfl

end Queue

end Brushwork
