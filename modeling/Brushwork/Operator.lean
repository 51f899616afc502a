/-!
# Binary operators

Trees keep operators as they were spelt. Here a spelling is read as one of three families:
arithmetic on integers, comparisons, and logic on truth values.
-/

namespace Brushwork

inductive Arithmetic where
  | add | sub | mul | div | mod | pow
deriving DecidableEq

inductive Comparison where
  | equal | less | greater | lessEqual | greaterEqual
deriving DecidableEq

inductive Logical where
  | and | or
deriving DecidableEq

inductive Operator where
  | arithmetic (op : Arithmetic)
  | comparison (op : Comparison)
  | logical (op : Logical)
deriving DecidableEq

namespace Operator

def table : List (String × Operator) :=
  [("+", .arithmetic .add), ("-", .arithmetic .sub), ("*", .arithmetic .mul),
    ("/", .arithmetic .div), ("%", .arithmetic .mod), ("**", .arithmetic .pow),
    ("==", .comparison .equal), ("<", .comparison .less), (">", .comparison .greater),
    ("<=", .comparison .lessEqual), (">=", .comparison .greaterEqual),
    ("&&", .logical .and), ("||", .logical .or)]

def ofSymbol? (s : String) : Option Operator := table.lookup s

end Operator

end Brushwork
