import Brushwork.Table
import Brushwork.Text.Capital

/-!
# The log

Notes are written from the chosen level on. Several names may stand for one level.
-/

namespace Brushwork.Cli

inductive Level where
  | debug | info
deriving DecidableEq

namespace Level

def name : Level → String
  | .debug => "DEBUG"
  | .info => "INFO"

def rank : Level → Nat
  | .debug => 10
  | .info => 20

end Level

structure Note where
  level : Level
  source : String
  message : String
deriving DecidableEq

def Note.line (n : Note) : String := n.level.name ++ " " ++ n.source ++ ": " ++ n.message ++ "\n"

/-- The names of thresholds. -/
def thresholds : List (String × Nat) :=
  [("CRITICAL", 50), ("FATAL", 50), ("ERROR", 40), ("WARN", 30), ("WARNING", 30), ("INFO", 20),
    ("DEBUG", 10), ("NOTSET", 0)]

/-- The threshold of a name in any case, or the name in capitals if there is none of that name. -/
def threshold (name : String) : Except String Nat :=
  match thresholds.lookup (Text.upperCase name) with
  | some n => .ok n
  | none => .error (Text.upperCase name)

/-- The text of the notes at or above a threshold. -/
def logText (least : Nat) (notes : List Note) : String :=
  String.join ((notes.filter fun n => least ≤ n.level.rank).map Note.line)

end Brushwork.Cli
