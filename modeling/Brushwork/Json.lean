import Brushwork.Number.Shortest
import Brushwork.Table
import Brushwork.Text.Quoted

/-!
# JSON values

Integers are kept apart from other numbers, and an object keeps its members in order. The display
form of a value is used in messages about values of the wrong kind.
-/

namespace Brushwork

inductive Json where
  | null
  | bool (b : Bool)
  | int (n : Int)
  | real (x : Binary)
  | text (t : Text)
  | array (items : List Json)
  | object (members : List (Text × Json))

namespace Json

/-- The word for the sort of a value in messages. -/
def sortName : Json → String
  | .null => "NoneType"
  | .bool _ => "bool"
  | .int _ => "int"
  | .real _ => "float"
  | .text _ => "str"
  | .array _ => "list"
  | .object _ => "dict"

mutual

def display : Json → String
  | .null => "None"
  | .bool true => "True"
  | .bool false => "False"
  | .int n => toString n
  | .real x => Shortest.text x
  | .text t => Text.quoted t
  | .array items => "[" ++ ", ".intercalate (displayItems items) ++ "]"
  | .object members => "\x7b" ++ ", ".intercalate (displayMembers members) ++ "\x7d"

def displayItems : List Json → List String
  | [] => []
  | j :: js => display j :: displayItems js

def displayMembers : List (Text × Json) → List String
  | [] => []
  | (name, j) :: ms => (Text.quoted name ++ ": " ++ display j) :: displayMembers ms

end

/-- The text of a value: a text itself, anything else in display form. -/
def plain : Json → Text
  | .text t => t
  | j => j.display

/-- The value of a name among the members of an object. -/
def lookup (ms : List (Text × Json)) (name : String) : Option Json := List.lookup (name : Text) ms

/-- Empty and zero values do not hold. -/
def holds : Json → Bool
  | .null => false
  | .bool b => b
  | .int n => n ≠ 0
  | .real x => !x.isZero
  | .text t => !t.isEmpty
  | .array items => !items.isEmpty
  | .object members => !members.isEmpty

/-- Whether a value is a number equal to `n`, where truth values count as one and zero. -/
def isNumber (n : Int) : Json → Bool
  | .int k => k = n
  | .bool b => n = if b then 1 else 0
  | .real x => x.isInt n
  | _ => false

end Json

end Brushwork
