import Brushwork.Token.Lexer
import Brushwork.Tree.Parser
import Brushwork.Typing

/-!
# Program texts

A text is turned into tokens and the tokens into a program. Checking a text gives a list of
diagnostics: the one that stopped the reading, or else those of the analysis. A number of too many
digits ends the checking itself.
-/

namespace Brushwork

/-- The part of the work that a diagnostic comes from. -/
inductive Stage where
  | lexing | parsing | analysis | run | command
deriving DecidableEq

structure Diagnostic where
  stage : Stage
  position : Position
  message : Text
deriving DecidableEq

namespace Source

/-- Why a text is no program. -/
inductive Rejection where
  | lexing (e : Located Token.Defect)
  | parsing (e : Tree.Refusal)
deriving DecidableEq

def Rejection.diagnostic : Rejection → Diagnostic
  | .lexing e => ⟨.lexing, e.position, e.cause.message⟩
  | .parsing (.located e) => ⟨.parsing, e.position, e.cause.message⟩
  | .parsing (.notNumeral lexeme) => ⟨.parsing, .whole, Numeral.complaint lexeme⟩

def compile (source : String) : Except Rejection Program :=
  match Token.tokenize source with
  | .error e => .error (.lexing e)
  | .ok tokens =>
    match Tree.parse tokens with
    | .error e => .error (.parsing e)
    | .ok program => .ok program

def diagnose (report : Typing.Report) : Diagnostic :=
  ⟨.analysis, report.position, report.cause.message⟩

/-- Why a text cannot be checked. -/
inductive Breakdown where
  | notNumeral (lexeme : String)
  | stray (node : Tree.Stray)
deriving DecidableEq

def check (source : String) : Except Breakdown (List Diagnostic) :=
  match compile source with
  | .error (.parsing (.notNumeral lexeme)) => .error (.notNumeral lexeme)
  | .error e => .ok [e.diagnostic]
  | .ok program =>
    match Typing.analyze program with
    | .error e => .error (.stray e)
    | .ok analysis => .ok (analysis.reports.map diagnose)

end Source

end Brushwork
