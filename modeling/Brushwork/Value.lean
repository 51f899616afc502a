import Brushwork.Position

/-!
# Values and their types

A program computes with integers, truth values and texts. The two further types belong to the
analysis: a call that gives no value has type `void`, and an expression with a defect has type
`error`.
-/

namespace Brushwork

inductive Ty where
  | int | bool | string | void | error
deriving DecidableEq

def Ty.name : Ty → String
  | .int => "Int"
  | .bool => "Bool"
  | .string => "String"
  | .void => "Void"
  | .error => "Error"

inductive Value where
  | int (n : Int)
  | bool (b : Bool)
  | text (t : Text)
deriving DecidableEq

namespace Value

def ty : Value → Ty
  | .int _ => .int
  | .bool _ => .bool
  | .text _ => .string

end Value

end Brushwork
