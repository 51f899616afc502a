import Brushwork.Builtin
import Brushwork.Operator
import Brushwork.Table
import Brushwork.Tree

/-!
# Static analysis of programs

The analysis collects every independent defect of a program. Expressions are typed in one walk: a
defect gives the type `error`, which the enclosing expression accepts in silence, so that each root
cause is reported once. Variables have the type of their latest assignment in program order, labels
the index of their first declaration. A node in a place that has no use for it ends the analysis.
Trees of any depth are typed: the stack is taken as unbounded.
-/

namespace Brushwork.Typing

inductive Defect where
  | emptyProgram
  | labelTwice (name : String)
  | secondSpawn
  | lateSpawn
  | noSpawn
  | noLabel (name : String)
  | condition (got : Ty)
  | noFunction (name : String)
  | argumentCount (name : String) (wanted got : Nat)
  | argument (index : Nat) (name : String) (wanted got : Ty)
  | unassigned (name : String)
  | sign (op : String) (got : Ty)
  | noValue (name : String)
  | arithmetic (op : String) (left right : Ty)
  | comparison (op : String) (left right : Ty)
  | ordering (op : String) (got : Ty)
  | logical (op : String) (left right : Ty)
  | noOperator (op : String)
deriving DecidableEq

def Defect.message : Defect → String
  | .emptyProgram => "The program is empty"
  | .labelTwice name => "Label '" ++ name ++ "' is already defined"
  | .secondSpawn => "Only one 'Spawn' instruction is allowed"
  | .lateSpawn => "'Spawn' must be the first instruction"
  | .noSpawn => "Every program must start with 'Spawn'"
  | .noLabel name => "Label '" ++ name ++ "' is not defined"
  | .condition got => "The 'GoTo' condition must be Bool, got " ++ got.name
  | .noFunction name => "Function '" ++ name ++ "' is not recognized"
  | .argumentCount name wanted got =>
    "'" ++ name ++ "' expects " ++ toString wanted ++ " arguments but got " ++ toString got
  | .argument index name wanted got =>
    "Argument " ++ toString index ++ " of '" ++ name ++ "' must be " ++ wanted.name ++ ", got " ++
      got.name
  | .unassigned name => "Variable '" ++ name ++ "' used before assignment"
  | .sign op got => "Unary '" ++ op ++ "' requires Int, got " ++ got.name
  | .noValue name => "'" ++ name ++ "' does not return a value"
  | .arithmetic op left right =>
    "Operator '" ++ op ++ "' is invalid between " ++ left.name ++ " and " ++ right.name
  | .comparison op left right =>
    "Cannot compare " ++ left.name ++ " with " ++ right.name ++ " using '" ++ op ++ "'"
  | .ordering op got => "Operator '" ++ op ++ "' requires Int operands, got " ++ got.name
  | .logical op left right =>
    "Logical operator '" ++ op ++ "' requires Bool operands, got " ++ left.name ++ " and " ++
      right.name
  | .noOperator op => "Unknown operator '" ++ op ++ "'"

abbrev Report := Located Defect

/-- The type of an operator's result, or the defect of its operands, which are free of defects. -/
def inferBinary (op : String) (left right : Ty) : Except Defect Ty :=
  match Operator.ofSymbol? op with
  | some (.arithmetic _) =>
    if left = .int && right = .int then .ok .int else .error (.arithmetic op left right)
  | some (.comparison c) =>
    if left ≠ right then .error (.comparison op left right)
    else if c ≠ .equal && left ≠ .int then .error (.ordering op left)
    else .ok .bool
  | some (.logical _) =>
    if left = .bool && right = .bool then .ok .bool else .error (.logical op left right)
  | none => .error (.noOperator op)

/-- The report on an argument of the wrong type. -/
def argumentReport (index : Nat) (name : String) (params : List Ty) (got : Ty) (p : Position) :
    List Report :=
  match params with
  | [] => []
  | wanted :: _ =>
    if got = .error || got = wanted then [] else [⟨.argument index name wanted got, p⟩]

/-- The types that a function wants; one that is not known wants none. -/
def parameters (name : String) : List Ty :=
  match Builtin.ofName? name with
  | some b => b.params
  | none => []

/-- The type of a call's result, `void` for an instruction, with the reports on the call, given
those on its arguments. -/
def concludeCall (name : String) (count : Nat) (p : Position) (reports : List Report) :
    Ty × List Report :=
  match Builtin.ofName? name with
  | none => (.error, reports ++ [⟨.noFunction name, p⟩])
  | some b =>
    let miscount : List Report :=
      if count = b.params.length then [] else [⟨.argumentCount name b.params.length count, p⟩]
    (b.result, miscount ++ reports)

mutual

/-- The type of an expression, with the reports on it in order. -/
def infer (symbols : Table String Ty) : Tree → Except Tree.Stray (Ty × List Report)
  | .literal value _ => .ok (value.ty, [])
  | .variable name p =>
    match symbols.get? name with
    | some ty => .ok (ty, [])
    | none => .ok (.error, [⟨.unassigned name, p⟩])
  | .unary op operand p =>
    match infer symbols operand with
    | .error e => .error e
    | .ok (ty, reports) =>
      if ty = .error then .ok (.error, reports)
      else if ty = .int then .ok (.int, reports)
      else .ok (.error, reports ++ [⟨.sign op ty, p⟩])
  | .binary left op right p =>
    match infer symbols left with
    | .error e => .error e
    | .ok (leftTy, leftReports) =>
      match infer symbols right with
      | .error e => .error e
      | .ok (rightTy, rightReports) =>
        let reports := leftReports ++ rightReports
        if leftTy = .error || rightTy = .error then .ok (.error, reports)
        else
          match inferBinary op leftTy rightTy with
          | .ok ty => .ok (ty, reports)
          | .error defect => .ok (.error, reports ++ [⟨defect, p⟩])
  | .call name args p =>
    match inferArguments symbols name 1 (parameters name) args with
    | .error e => .error e
    | .ok argumentReports =>
      let (ty, reports) := concludeCall name args.length p argumentReports
      if ty = .void then .ok (.error, reports ++ [⟨.noValue name, p⟩]) else .ok (ty, reports)
  | t => .error (.expression t.sortName)

/-- Reports on arguments from number `index` on against the parameters left. -/
def inferArguments (symbols : Table String Ty) (name : String) (index : Nat) (params : List Ty) :
    List Tree → Except Tree.Stray (List Report)
  | [] => .ok []
  | arg :: args =>
    match infer symbols arg with
    | .error e => .error e
    | .ok (ty, reports) =>
      match inferArguments symbols name (index + 1) params.tail args with
      | .error e => .error e
      | .ok others =>
        .ok (reports ++ argumentReport index name params ty arg.position ++ others)

end

def inferCall (symbols : Table String Ty) (name : String) (args : List Tree) (p : Position) :
    Except Tree.Stray (Ty × List Report) :=
  match inferArguments symbols name 1 (parameters name) args with
  | .error e => .error e
  | .ok reports => .ok (concludeCall name args.length p reports)

/-- The label table of statements from number `index` on, with a report per repeated label. -/
def collectLabels (labels : Table String Nat) (index : Nat) :
    List Tree → Table String Nat × List Report
  | [] => (labels, [])
  | .label name p :: statements =>
    if labels.contains name then
      let (labels, reports) := collectLabels labels (index + 1) statements
      (labels, ⟨.labelTwice name, p⟩ :: reports)
    else collectLabels (labels.insert name index) (index + 1) statements
  | _ :: statements => collectLabels labels (index + 1) statements

/-- What the walk over statements has learnt so far. -/
structure Progress where
  symbols : Table String Ty
  spawned : Bool
  index : Nat

/-- One statement: what is known behind it, and the reports on it. -/
def checkStatement (labels : Table String Nat) (s : Progress) :
    Tree → Except Tree.Stray (Progress × List Report)
  | .spawn _ _ p =>
    let reports : List Report :=
      if s.spawned then [⟨.secondSpawn, p⟩]
      else if s.index ≠ 0 then [⟨.lateSpawn, p⟩]
      else []
    .ok (⟨s.symbols, true, s.index + 1⟩, reports)
  | .assign name expr _ =>
    match infer s.symbols expr with
    | .error e => .error e
    | .ok (ty, reports) => .ok (⟨s.symbols.insert name ty, s.spawned, s.index + 1⟩, reports)
  | .goto target condition p =>
    let missing : List Report := if labels.contains target then [] else [⟨.noLabel target, p⟩]
    match infer s.symbols condition with
    | .error e => .error e
    | .ok (ty, reports) =>
      let wrong : List Report :=
        if ty = .bool || ty = .error then [] else [⟨.condition ty, condition.position⟩]
      .ok ({ s with index := s.index + 1 }, missing ++ reports ++ wrong)
  | .call name args p =>
    match inferCall s.symbols name args p with
    | .error e => .error e
    | .ok (_, reports) => .ok ({ s with index := s.index + 1 }, reports)
  | .label _ _ => .ok ({ s with index := s.index + 1 }, [])
  | t => .error (.statement t.sortName)

def checkStatements (labels : Table String Nat) (s : Progress) :
    List Tree → Except Tree.Stray (Progress × List Report)
  | [] => .ok (s, [])
  | statement :: statements =>
    match checkStatement labels s statement with
    | .error e => .error e
    | .ok (s', reports) =>
      match checkStatements labels s' statements with
      | .error e => .error e
      | .ok (last, others) => .ok (last, reports ++ others)

structure Analysis where
  reports : List Report
  symbols : Table String Ty
  labels : Table String Nat

def analyze (p : Program) : Except Tree.Stray Analysis :=
  if p.statements.isEmpty then .ok ⟨[⟨.emptyProgram, .whole⟩], .empty, .empty⟩
  else
    let (labels, labelReports) := collectLabels .empty 0 p.statements
    match checkStatements labels ⟨.empty, false, 0⟩ p.statements with
    | .error e => .error e
    | .ok (last, reports) =>
      let absent : List Report := if last.spawned then [] else [⟨.noSpawn, .whole⟩]
      .ok ⟨labelReports ++ reports ++ absent, last.symbols, labels⟩

end Brushwork.Typing
