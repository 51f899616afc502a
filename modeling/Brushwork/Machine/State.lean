import Brushwork.Canvas.Draw
import Brushwork.Number.Numeral
import Brushwork.Table
import Brushwork.Tree

/-!
# The state of a run

A state holds all that a run remembers between two chunks: the variables, the labels of the program,
the pen, the line of the last statement and the number of the next one. Pixels belong to the canvas.

Faults of a run are kept here too, since asking a state for a name that it does not know is one of
them.
-/

namespace Brushwork.Machine

/-- The part that a value plays where one of a certain type is needed. -/
inductive Role where
  | signed (op : String)
  | left (op : String)
  | right (op : String)
  | argument (index : Nat) (name : String)
  | other (what : String)
deriving DecidableEq

def Role.text : Role → String
  | .signed op => "Operand of unary '" ++ op ++ "'"
  | .left op => "Left operand of '" ++ op ++ "'"
  | .right op => "Right operand of '" ++ op ++ "'"
  | .argument index name => "Argument " ++ toString index ++ " of '" ++ name ++ "'"
  | .other what => what

inductive Fault where
  | secondSpawn
  | noVariable (name : String)
  | labelTwice (name : String)
  | noLabel (name : String)
  | mistyped (role : Role) (wanted got : Ty)
  | condition
  | logical (op : String) (left right : Ty)
  | comparison (op : String) (left right : Ty)
  | ordering (op : String)
  | divisionByZero
  | moduloByZero
  | noOperator (op : String)
  | noFunction (name : String)
  | argumentCount (name : String) (wanted got : Nat)
  | noValue (name : String)
  | stray (node : Tree.Stray)
  | canvas (fault : Canvas.Fault)
deriving DecidableEq

def Fault.message : Fault → Text
  | .secondSpawn => "'Spawn' can only be executed once"
  | .noVariable name => "Variable '" ++ name ++ "' is not defined"
  | .labelTwice name => "Label '" ++ name ++ "' is already declared"
  | .noLabel name => "Label '" ++ name ++ "' not found"
  | .mistyped role wanted got => role.text ++ " must be " ++ wanted.name ++ ", got " ++ got.name
  | .condition => "GoTo condition must be Int or Bool, got String"
  | .logical op left right =>
    "Logical operator '" ++ op ++ "' requires Bool operands, got " ++ left.name ++ " and " ++
      right.name
  | .comparison op left right =>
    "Cannot compare " ++ left.name ++ " with " ++ right.name ++ " using '" ++ op ++ "'"
  | .ordering op => "Operator '" ++ op ++ "' requires Int operands"
  | .divisionByZero => "Division by zero"
  | .moduloByZero => "Modulo by zero"
  | .noOperator op => "Unknown binary operator " ++ op
  | .noFunction name => "Unknown function " ++ name
  | .argumentCount name wanted got =>
    "'" ++ name ++ "' expects " ++ toString wanted ++ " arguments but got " ++ toString got
  | .noValue name => "'" ++ name ++ "' does not return a value"
  | .stray node => node.message
  | .canvas fault => fault.message

/-- The integers that the message of a fault names, of those that may be of any size. -/
def Fault.integers : Fault → List Int
  | .canvas fault => fault.integers
  | _ => []

/-- Whether a fault is reported at its place. A ring that cannot be measured is not, nor is a fault
that names an integer too long to be written. -/
def Fault.isPlaced : Fault → Bool
  | .canvas .unmeasurable => false
  | fault => fault.integers.all Numeral.isWritable

/-- An integer, a text, or a fault at the place given. -/
def asInt (role : Role) (p : Position) : Value → Except (Located Fault) Int
  | .int n => .ok n
  | v => .error ⟨.mistyped role .int v.ty, p⟩

@[inherit_doc asInt]
def asText (role : Role) (p : Position) : Value → Except (Located Fault) Text
  | .text t => .ok t
  | v => .error ⟨.mistyped role .string v.ty, p⟩

/-- Whether a condition holds: an integer does unless it is zero. -/
def asCondition (p : Position) : Value → Except (Located Fault) Bool
  | .bool b => .ok b
  | .int n => .ok (n ≠ 0)
  | .text _ => .error ⟨.condition, p⟩

structure State where
  values : Table Text Value := .empty
  labels : Table String Int := .empty
  pen : Pen := {}
  lastLine : Int := 0
  spawned : Bool := false
  pointer : Int := 0
deriving DecidableEq

namespace State

def valueOf (s : State) (name : String) (p : Position) : Except (Located Fault) Value :=
  match s.values.get? name with
  | some v => .ok v
  | none => .error ⟨.noVariable name, p⟩

def setVariable (s : State) (name : Text) (v : Value) : State :=
  { s with values := s.values.insert name v }

def indexOf (s : State) (name : String) (p : Position) : Except (Located Fault) Int :=
  match s.labels.get? name with
  | some index => .ok index
  | none => .error ⟨.noLabel name, p⟩

def declareLabel (s : State) (name : String) (index : Int) (p : Position) :
    Except (Located Fault) State :=
  if s.labels.contains name then .error ⟨.labelTwice name, p⟩
  else .ok { s with labels := s.labels.insert name index }

end State

end Brushwork.Machine

namespace Brushwork

/-- A state together with the canvas it draws on. -/
structure Machine where
  state : Machine.State
  canvas : Canvas

end Brushwork
