import Brushwork.Tree

/-!
# Outlines of trees

The outline of a tree has a line per node, each node two blanks further in than the one above it.
The arguments of a call stand between an opening and a closing line. A tree with an empty place has
no outline.
-/

namespace Brushwork.Tree

def valueText : Value → String
  | .int n => toString n
  | .bool true => "true"
  | .bool false => "false"
  | .text t => "\"" ++ toString t ++ "\""

/-- The blanks before a line; a negative depth counts as none. -/
def indentation (depth : Int) : String := String.ofList (List.replicate (2 * depth).toNat ' ')

mutual

def outlineLines (depth : Int) : Tree → Except Stray (List String)
  | .program statements _ => do
    let inner ← outlineAll (depth + 1) statements
    pure ((indentation depth ++ "Program:") :: inner)
  | .spawn x y _ =>
    pure [indentation depth ++ "Spawn(x=" ++ toString x ++ ", y=" ++ toString y ++ ")"]
  | .assign name expr _ => do
    let inner ← outlineLines (depth + 1) expr
    pure ((indentation depth ++ "Assign " ++ name ++ " <-") :: inner)
  | .label name _ => pure [indentation depth ++ "Label: " ++ name]
  | .goto target condition _ => do
    let inner ← outlineLines (depth + 1) condition
    pure ((indentation depth ++ "GoTo [" ++ target ++ "] if:") :: inner)
  | .call name args _ => do
    let inner ← outlineAll (depth + 1) args
    pure ((indentation depth ++ "Call " ++ name ++ "(") :: inner ++ [indentation depth ++ ")"])
  | .literal value _ => pure [indentation depth ++ "Literal: " ++ valueText value]
  | .variable name _ => pure [indentation depth ++ "Variable: " ++ name]
  | .binary left op right _ => do
    let first ← outlineLines (depth + 1) left
    let second ← outlineLines (depth + 1) right
    pure ((indentation depth ++ "Binary (" ++ op ++ ")") :: first ++ second)
  | .unary op operand _ => do
    let inner ← outlineLines (depth + 1) operand
    pure ((indentation depth ++ "Unary (" ++ op ++ ")") :: inner)
  | .missing => throw (.node missing.sortName)

def outlineAll (depth : Int) : List Tree → Except Stray (List String)
  | [] => pure []
  | t :: ts => do
    let first ← outlineLines depth t
    let others ← outlineAll depth ts
    pure (first ++ others)

end

def outline (depth : Int) (t : Tree) : Except Stray String := do
  let lines ← outlineLines depth t
  pure ("\n".intercalate lines)

end Brushwork.Tree
