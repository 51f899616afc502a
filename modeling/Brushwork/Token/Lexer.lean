import Brushwork.Spelling
import Brushwork.Text.Alphabetic

/-!
# From text to tokens

Seven rules recognise the pieces of a program text. At each place the rule with the longest piece
wins, the earlier rule on a tie. Blanks make no token. Reading stops at the first place where no
rule applies, where a number runs into a letter or an underscore, or where a word that is no keyword
stands directly before an opening parenthesis.
-/

namespace Brushwork.Token

/-- What makes a place of a text unreadable. -/
inductive Defect where
  | singled (c : Char)
  | openString
  | unexpected (c : Char)
  | digitFirst (digits : String) (next : Char)
  | misspelt (word suggestion : String)
  | unknownKeyword (word : String)
deriving DecidableEq

namespace Defect

def message : Defect → String
  | .singled c =>
    let s := String.singleton c
    "Invalid use of '" ++ s ++ "'. Did you mean '" ++ s ++ s ++ "'?"
  | .openString => "Unterminated string literal"
  | .unexpected c => "Unexpected character " ++ Text.quoted (String.singleton c)
  | .digitFirst digits next =>
    "An identifier cannot start with a digit: '" ++ digits ++ String.singleton next ++ "'"
  | .misspelt word suggestion =>
    "Expected a keyword but found '" ++ word ++ "'. Did you mean '" ++ suggestion ++ "'?"
  | .unknownKeyword word => "Unrecognized keyword: '" ++ word ++ "'"

/-- The defect of a place where no rule applies. -/
def unmatched (c : Char) : Defect :=
  if c = '=' || c = '&' || c = '|' then .singled c
  else if c = '"' then .openString
  else .unexpected c

/-- The defect of a word before an opening parenthesis that is no keyword. -/
def notKeyword (word : String) : Defect :=
  match Spelling.suggest word.toList Spelling.tolerance with
  | some s => .misspelt word s
  | none => .unknownKeyword word

end Defect

def isWordStart (c : Char) : Bool := c.isAlpha || c = '_'

def isWordChar (c : Char) : Bool := c.isAlphanum || c = '_'

inductive Rule where
  | word | number | operator | punctuation | blank | string | newline
deriving DecidableEq

namespace Rule

def all : List Rule := [.word, .number, .operator, .punctuation, .blank, .string, .newline]

/-- The first of some fixed lexemes that a text starts with. -/
def fixed (kinds : List Kind) (cs : List Char) : List Char :=
  ((kinds.map fun k => k.symbol.toList).find? fun s => s.isPrefixOf cs).getD []

/-- The longest piece that a rule finds at the start of a text, empty if it finds none. -/
def piece : Rule → List Char → List Char
  | .word, cs => if cs.head?.any isWordStart then cs.takeWhile isWordChar else []
  | .number, cs => cs.takeWhile Char.isDigit
  | .operator, cs => fixed Kind.operators cs
  | .punctuation, cs => fixed Kind.punctuation cs
  | .blank, cs => cs.takeWhile fun c => c = ' ' || c = '\t' || c = '\r'
  | .string, '"' :: cs =>
    let body := cs.takeWhile fun c => c ≠ '"' && c ≠ '\n'
    if (cs.drop body.length).head? = some '"' then '"' :: body ++ ['"'] else []
  | .string, _ => []
  | .newline, cs => if cs.head? = some '\n' then ['\n'] else []

/-- The kind of the token that a piece makes, none for blanks. `next` is the character behind it. -/
def classify (rule : Rule) (text : List Char) (next : Option Char) :
    Except Defect (Option Kind) :=
  match rule with
  | .word =>
    match Kind.keywords.lookup (String.ofList text) with
    | some k => .ok (some k)
    | none =>
      if next = some '(' then .error (Defect.notKeyword (String.ofList text))
      else .ok (some .identifier)
  | .number =>
    match next with
    | some c =>
      if Text.isLetter c || c = '_' then .error (.digitFirst (String.ofList text) c)
      else .ok (some .number)
    | none => .ok (some .number)
  | .operator => .ok (Kind.operators.find? fun k => k.symbol.toList = text)
  | .punctuation => .ok (Kind.punctuation.find? fun k => k.symbol.toList = text)
  | .blank => .ok none
  | .string => .ok (some .string)
  | .newline => .ok (some .newline)

end Rule

/-- The rule with the longest piece, the earlier one on a tie. The piece is empty if no rule
applies. -/
def munch (cs : List Char) : Rule × List Char :=
  Rule.all.foldl (fun best rule =>
    let text := rule.piece cs
    if best.2.length < text.length then (rule, text) else best) (.word, [])

def scan : List Char → Position → Except (Located Defect) (List Token)
  | [], p => .ok [⟨"", .endOfFile, p⟩]
  | c :: cs, p =>
    match munch (c :: cs) with
    | (_, []) => .error ⟨Defect.unmatched c, p⟩
    | (rule, d :: text) =>
      let rest := cs.drop text.length
      match rule.classify (d :: text) rest.head? with
      | .error defect => .error ⟨defect, p⟩
      | .ok kind =>
        match scan rest (p.advance (d :: text)) with
        | .error e => .error e
        | .ok tokens =>
          match kind with
          | some k => .ok (⟨String.ofList (d :: text), k, p⟩ :: tokens)
          | none => .ok tokens
termination_by cs => cs.length
decreasing_by
  simp only [List.length_drop, List.length_cons]
  omega

/-- The tokens of a program text, an end token last. -/
def tokenize (source : String) : Except (Located Defect) (List Token) :=
  scan source.toList Position.start

end Brushwork.Token
