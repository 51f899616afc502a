import Brushwork.Json
import Brushwork.Machine.State
import Brushwork.Number.Numeral

/-!
# States as JSON

A state is written as an object of its fields without the labels, which belong to the program.
Reading is lenient: a missing field has the value of a fresh state, and a number may come as a truth
value, a fraction or a text. Fields are read in a fixed order, the variables last, so that the first
unsuitable one is reported.
-/

namespace Brushwork

/-- Why a JSON value is not what it should be. -/
inductive Json.Misfit where
  | noMembers (sort : String)
  | noEntries (sort : String)
  | notNumeral (t : Text)
  | notNumber (sort : String)
  | infinite
  | undefined
  | notValue (shown : String)
deriving DecidableEq

def Json.Misfit.message : Json.Misfit → String
  | .noMembers sort => "'" ++ sort ++ "' object has no attribute 'get'"
  | .noEntries sort => "'" ++ sort ++ "' object has no attribute 'items'"
  | .notNumeral t => Numeral.complaint t
  | .notNumber sort =>
    "int() argument must be a string, a bytes-like object or a real number, not '" ++ sort ++ "'"
  | .infinite => "cannot convert float infinity to integer"
  | .undefined => "cannot convert float NaN to integer"
  | .notValue shown => "Not a PixelWalle value: " ++ shown

/-- The integer a JSON value stands for. -/
def Json.toInt : Json → Except Json.Misfit Int
  | .int n => .ok n
  | .bool b => .ok (if b then 1 else 0)
  | .real .undefined => .error .undefined
  | .real x =>
    match x.truncate? with
    | some n => .ok n
    | none => .error .infinite
  | .text t =>
    match Numeral.ofText? t with
    | some n => .ok n
    | none => .error (.notNumeral t)
  | j => .error (.notNumber j.sortName)

/-- The members of an object. -/
def Json.members : Json → Except Json.Misfit (List (Text × Json))
  | .object ms => .ok ms
  | j => .error (.noMembers j.sortName)

namespace Value

def toJson : Value → Json
  | .int n => .int n
  | .bool b => .bool b
  | .text t => .text t

def ofJson : Json → Except Json.Misfit Value
  | .int n => .ok (.int n)
  | .bool b => .ok (.bool b)
  | .text t => .ok (.text t)
  | j => .error (.notValue j.display)

@[simp] theorem ofJson_toJson (v : Value) : ofJson v.toJson = .ok v := by cases v <;> rfl

end Value

namespace Machine.State

def toJson (s : State) : Json :=
  .object
    [("variables", .object (s.values.entries.map fun (name, v) => (name, v.toJson))),
      ("cursorX", .int s.pen.x), ("cursorY", .int s.pen.y),
      ("brushColor", .text s.pen.color), ("brushSize", .int s.pen.size),
      ("lastExecutedLine", .int s.lastLine), ("spawned", .bool s.spawned),
      ("instructionPointer", .int s.pointer)]

/-- An integer member, with the value that stands for a missing one. -/
def intMember (ms : List (Text × Json)) (name : String) (default : Int) :
    Except Json.Misfit Int :=
  match Json.lookup ms name with
  | some j => j.toInt
  | none => .ok default

def setVariables (s : State) : List (Text × Json) → Except Json.Misfit State
  | [] => .ok s
  | (name, j) :: ms => do
    let v ← Value.ofJson j
    setVariables (s.setVariable name v) ms

def ofMembers (ms : List (Text × Json)) : Except Json.Misfit State := do
  let x ← intMember ms "cursorX" 0
  let y ← intMember ms "cursorY" 0
  let color := ((Json.lookup ms "brushColor").map Json.plain).getD "Black"
  let size ← intMember ms "brushSize" 1
  let lastLine ← intMember ms "lastExecutedLine" 0
  let spawned := ((Json.lookup ms "spawned").map Json.holds).getD false
  let pointer ← intMember ms "instructionPointer" 0
  let s : State := { pen := { x, y, color, size }, lastLine, spawned, pointer }
  match Json.lookup ms "variables" with
  | none => pure s
  | some (.object vs) => s.setVariables vs
  | some j => throw (.noEntries j.sortName)

def ofJson (j : Json) : Except Json.Misfit State := do
  let ms ← j.members
  ofMembers ms

end Machine.State

end Brushwork
