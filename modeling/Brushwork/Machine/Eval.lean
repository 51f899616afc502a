import Brushwork.Builtin
import Brushwork.Machine.State
import Brushwork.Number.Int32
import Brushwork.Operator

/-!
# Values of expressions

Both operands of an operator are evaluated, the left one first, before the operator looks at them.
Integers are brought back into the signed 32-bit range after every operation. Evaluating changes
nothing. Trees of any depth are evaluated: the stack is taken as unbounded.
-/

namespace Brushwork.Machine

def power (base exponent : Int) (p : Position) : Except (Located Fault) Int :=
  match Int32.power? base exponent with
  | some n => .ok n
  | none => .error ⟨.divisionByZero, p⟩

def compute (op : Arithmetic) (a b : Int) (p : Position) : Except (Located Fault) Int :=
  match op with
  | .add => .ok (Int32.wrap (a + b))
  | .sub => .ok (Int32.wrap (a - b))
  | .mul => .ok (Int32.wrap (a * b))
  | .div =>
    match Int32.quotient? a b with
    | some q => .ok (Int32.wrap q)
    | none => .error ⟨.divisionByZero, p⟩
  | .mod =>
    match Int32.quotient? a b with
    | some q => .ok (Int32.wrap (a - b * q))
    | none => .error ⟨.moduloByZero, p⟩
  | .pow => power a b p

/-- A comparison of two values of one type. -/
def compare (op : Comparison) (symbol : String) (left right : Value) (p : Position) :
    Except (Located Fault) Bool :=
  match op, left, right with
  | .equal, a, b => .ok (a = b)
  | .less, .int a, .int b => .ok (a < b)
  | .greater, .int a, .int b => .ok (b < a)
  | .lessEqual, .int a, .int b => .ok (a ≤ b)
  | .greaterEqual, .int a, .int b => .ok (b ≤ a)
  | _, _, _ => .error ⟨.ordering symbol, p⟩

def evalBinary (symbol : String) (left right : Value) (p : Position) :
    Except (Located Fault) Value :=
  match Operator.ofSymbol? symbol with
  | some (.logical op) =>
    match left, right with
    | .bool a, .bool b =>
      match op with
      | .and => .ok (.bool (a && b))
      | .or => .ok (.bool (a || b))
    | a, b => .error ⟨.logical symbol a.ty b.ty, p⟩
  | some (.comparison op) =>
    if left.ty ≠ right.ty then .error ⟨.comparison symbol left.ty right.ty, p⟩
    else
      match compare op symbol left right p with
      | .ok b => .ok (.bool b)
      | .error e => .error e
  | some (.arithmetic op) => do
    let a ← asInt (.left symbol) p left
    let b ← asInt (.right symbol) p right
    let n ← compute op a b p
    pure (.int n)
  | none => do
    let _ ← asInt (.left symbol) p left
    let _ ← asInt (.right symbol) p right
    throw ⟨.noOperator symbol, p⟩

/-- The integers among arguments, numbered from `index` on. -/
def intArguments (name : String) (p : Position) (index : Nat) :
    List Value → Except (Located Fault) (List Int)
  | [] => .ok []
  | v :: vs => do
    let n ← asInt (.argument index name) p v
    let ns ← intArguments name p (index + 1) vs
    pure (n :: ns)

/-- The answer of a query to arguments of the right number. Integers behind a colour are numbered
from one again. -/
def query (m : Machine) (b : Builtin) (p : Position) (vs : List Value) :
    Except (Located Fault) Value :=
  match b, vs with
  | .getActualX, [] => .ok (.int m.state.pen.x)
  | .getActualY, [] => .ok (.int m.state.pen.y)
  | .getCanvasSize, [] => .ok (.int m.canvas.size)
  | .getColorCount, color :: corners => do
    let text ← asText (.argument 1 b.name) p color
    match ← intArguments b.name p 1 corners with
    | [x1, y1, x2, y2] => pure (.int (m.canvas.colorCount text x1 y1 x2 y2))
    | _ => throw ⟨.argumentCount b.name b.params.length vs.length, p⟩
  | .isBrushColor, [color] => do
    let text ← asText (.argument 1 b.name) p color
    pure (.bool (m.canvas.isBrushColor text))
  | .isBrushSize, [size] => do
    let n ← asInt (.argument 1 b.name) p size
    pure (.bool (m.canvas.isBrushSize n))
  | .isCanvasColor, [color] => do
    let text ← asText (.argument 1 b.name) p color
    pure (.bool (m.canvas.isColor text))
  | _, _ => .error ⟨.noValue b.name, p⟩

/-- The built-in of a name, if the number of arguments fits it. -/
def resolve (name : String) (count : Nat) (p : Position) : Except (Located Fault) Builtin :=
  match Builtin.ofName? name with
  | none => .error ⟨.noFunction name, p⟩
  | some b =>
    if count = b.params.length then .ok b
    else .error ⟨.argumentCount name b.params.length count, p⟩

/-- Whether a name is that of an instruction. -/
def isInstruction (name : String) : Bool :=
  match Builtin.ofName? name with
  | some b => b.result = .void
  | none => false

mutual

def eval (m : Machine) : Tree → Except (Located Fault) Value
  | .literal value _ => .ok value
  | .variable name p => m.state.valueOf name p
  | .unary op operand p => do
    let v ← eval m operand
    let n ← asInt (.signed op) p v
    pure (.int (if op = "-" then Int32.wrap (-n) else n))
  | .binary left op right p => do
    let a ← eval m left
    let b ← eval m right
    evalBinary op a b p
  | .call name args p =>
    if isInstruction name then .error ⟨.noValue name, p⟩
    else do
      let b ← resolve name args.length p
      let vs ← evalAll m args
      query m b p vs
  | t => .error ⟨.stray (.expression t.sortName), t.position⟩

def evalAll (m : Machine) : List Tree → Except (Located Fault) (List Value)
  | [] => .ok []
  | t :: ts => do
    let v ← eval m t
    let vs ← evalAll m ts
    pure (v :: vs)

end

end Brushwork.Machine
