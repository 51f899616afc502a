/-!
# Tables in order of first insertion

A table maps names to entries. A name keeps the place of its first insertion, also when its entry is
replaced later, so that listing a table shows the order in which the names came up. Names may be
strings or any texts.
-/

namespace Brushwork

structure Table (κ α : Type) where
  entries : List (κ × α)
deriving DecidableEq

namespace Table

variable {κ α : Type} [DecidableEq κ]

def empty : Table κ α := ⟨[]⟩

def get? (t : Table κ α) (name : κ) : Option α := t.entries.lookup name

def contains (t : Table κ α) (name : κ) : Bool := (t.get? name).isSome

/-- Replace the entry of a name in its place, or add the name at the end. -/
def put (name : κ) (a : α) : List (κ × α) → List (κ × α)
  | [] => [(name, a)]
  | e :: es => if name == e.1 then (name, a) :: es else e :: put name a es

def insert (t : Table κ α) (name : κ) (a : α) : Table κ α := ⟨put name a t.entries⟩

@[simp] theorem get?_empty (name : κ) : (empty : Table κ α).get? name = none := rfl

@[simp] theorem lookup_put (name other : κ) (a : α) (es : List (κ × α)) :
    (put name a es).lookup other = if other = name then some a else es.lookup other := by
  induction es with
  | nil =>
    by_cases h : other = name
    · simp [put, h]
    · simp [put, List.lookup_cons, h, beq_false_of_ne h]
  | cons e es ih =>
    obtain ⟨key, b⟩ := e
    by_cases h : name = key
    · subst h
      by_cases h' : other = name
      · simp [put, h']
      · simp [put, List.lookup_cons, h', beq_false_of_ne h']
    · by_cases h' : other = key
      · subst h'
        simp [put, h, Ne.symm h]
      · simp [put, List.lookup_cons, h, beq_false_of_ne h', ih]

@[simp] theorem get?_insert (t : Table κ α) (name other : κ) (a : α) :
    (t.insert name a).get? other = if other = name then some a else t.get? other :=
  lookup_put name other a t.entries

end Table

end Brushwork
