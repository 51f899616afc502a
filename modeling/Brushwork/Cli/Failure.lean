import Brushwork.Base64
import Brushwork.Disk
import Brushwork.Machine.Snapshot
import Brushwork.Source
import Brushwork.Text.Utf8

/-!
# Failures of commands

All that may go wrong behind the arguments. Running a program turns most failures into diagnostics,
those of the program with their place; what is left ends the command without an answer. A fault that
names an integer too long to be written loses its message and its place; a ring that cannot be
measured ends the command.
-/

namespace Brushwork.Cli

inductive Failure where
  | unreadable (fault : Disk.Fault)
  | undecodable (fault : Text.Utf8.Fault)
  | unparsable (message : String)
  | misfit (cause : Json.Misfit)
  | noEntry (name : String)
  | noBytes (sort : String)
  | base64 (fault : Base64.Fault)
  | canvas (fault : Canvas.Fault)
  | noSize
  | noStart
  | noBudget
  | rejected (why : Source.Rejection)
  | stray (node : Tree.Stray)
  | stopped (e : Located Machine.Fault)
  | givenUp
  | longInteger
  | unwritable (fault : Disk.Fault)
  | notNumeral (text : Text)
  | noLevel (name : String)
  | unavailable (what : String)
deriving DecidableEq

namespace Failure

def message : Failure → Text
  | .unreadable fault => fault.message
  | .undecodable fault => fault.message
  | .unparsable text => text
  | .misfit cause => cause.message
  | .noEntry name => Text.quoted name
  | .noBytes sort => "argument should be a bytes-like object or ASCII string, not '" ++ sort ++ "'"
  | .base64 fault => fault.message
  | .canvas fault => fault.message
  | .noSize | .noStart => "'<=' not supported between instances of 'list' and 'int'"
  | .noBudget => "unsupported operand type(s) for +: 'int' and 'list'"
  | .rejected why => why.diagnostic.position.describe why.diagnostic.message
  | .stray node => node.message
  | .stopped e =>
    if e.cause = .canvas .unmeasurable then e.cause.message
    else e.position.describe e.cause.message
  | .givenUp => "The program did not end"
  | .longInteger => Numeral.unwritableComplaint
  | .unwritable fault => fault.message
  | .notNumeral text => Numeral.complaint text
  | .noLevel name => "Unknown level: " ++ Text.quoted name
  | .unavailable what => what ++ " is not available"

/-- A remark that belongs to no place of the program. -/
def remark (text : Text) : Diagnostic := ⟨.command, .whole, text⟩

/-- The diagnostic that running a program gives for a failure. -/
def diagnostic? : Failure → Option Diagnostic
  | .unreadable ⟨.nullByte, path⟩ => some (remark (message (.unreadable ⟨.nullByte, path⟩)))
  | .unreadable fault =>
    some (remark ("Cannot read " ++ fault.path.text ++ ": " ++ fault.trouble.text))
  | .undecodable fault => some (remark fault.message)
  | .unparsable text => some (remark text)
  | .misfit (.notNumeral t) => some (remark (Numeral.complaint t))
  | .misfit .undefined => some (remark (Json.Misfit.message .undefined))
  | .noEntry name => some (remark ("Saved state is missing the " ++ Text.quoted name ++ " entry"))
  | .base64 fault => some (remark fault.message)
  | .canvas fault => some (remark fault.message)
  | .rejected why => some why.diagnostic
  | .stopped e =>
    if e.cause.isPlaced then some ⟨.run, e.position, e.cause.message⟩
    else if e.cause = .canvas .unmeasurable then none
    else some (remark Numeral.unwritableComplaint)
  | _ => none

end Failure

end Brushwork.Cli
