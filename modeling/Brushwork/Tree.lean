import Brushwork.Value

/-!
# Syntax trees

One type holds statements and expressions alike, so that a tree made by hand may have any node in
any place, or leave a place empty. What the parser builds is narrower: statements only directly
below a program, expressions only below statements and expressions. Operators and names are kept as
they were spelt.
-/

namespace Brushwork

inductive Tree where
  | program (statements : List Tree) (position : Position)
  | spawn (x y : Int) (position : Position)
  | assign (name : String) (expr : Tree) (position : Position)
  | label (name : String) (position : Position)
  | goto (target : String) (condition : Tree) (position : Position)
  | call (name : String) (args : List Tree) (position : Position)
  | literal (value : Value) (position : Position)
  | variable (name : String) (position : Position)
  | binary (left : Tree) (op : String) (right : Tree) (position : Position)
  | unary (op : String) (operand : Tree) (position : Position)
  | missing

namespace Tree

def position : Tree → Position
  | .program _ p => p
  | .spawn _ _ p => p
  | .assign _ _ p => p
  | .label _ p => p
  | .goto _ _ p => p
  | .call _ _ p => p
  | .literal _ p => p
  | .variable _ p => p
  | .binary _ _ _ p => p
  | .unary _ _ p => p
  | .missing => .whole

/-- The word for the sort of a node in messages. -/
def sortName : Tree → String
  | .program .. => "Program"
  | .spawn .. => "Spawn"
  | .assign .. => "Assignment"
  | .label .. => "Label"
  | .goto .. => "Goto"
  | .call .. => "FunctionCall"
  | .literal .. => "Literal"
  | .variable .. => "Variable"
  | .binary .. => "BinaryExpr"
  | .unary .. => "UnaryExpr"
  | .missing => "NoneType"

/-- A node in a place that has no use for its sort. -/
inductive Stray where
  | node (sort : String)
  | statement (sort : String)
  | expression (sort : String)
deriving DecidableEq

def Stray.message : Stray → String
  | .node sort => "Unknown AST node " ++ sort
  | .statement sort => "Unknown statement " ++ sort
  | .expression sort => "Unknown expression " ++ sort

end Tree

/-- A program: statements in order, with the place of the first. -/
structure Program where
  statements : List Tree
  position : Position

namespace Program

def toTree (p : Program) : Tree := .program p.statements p.position

/-- The line of a statement. -/
def line? (p : Program) (index : Nat) : Option Int :=
  p.statements[index]?.map fun s => s.position.line

end Program

end Brushwork
