import Brushwork.Builtin
import Brushwork.Text.Quoted

/-!
# Tokens

A token is a lexeme with its kind and its place. The kind of a keyword, an operator or a bracket is
known by its symbol; the kind of a literal or a name says only what sort of lexeme it is.
-/

namespace Brushwork

namespace Token

inductive Kind where
  | spawn | goto | builtin (b : Builtin)
  | number | string | boolean | identifier
  | plus | minus | times | divide | modulo | power | assign | and | or
  | equal | less | greater | lessEqual | greaterEqual
  | leftParen | rightParen | leftBracket | rightBracket | comma
  | newline | endOfFile
deriving DecidableEq

namespace Kind

/-- The spelling of a fixed lexeme, or the sort of a free one. -/
def symbol : Kind → String
  | .spawn => "Spawn"
  | .goto => "GoTo"
  | .builtin b => b.name
  | .number => "Number"
  | .string => "String"
  | .boolean => "Boolean"
  | .identifier => "Identifier"
  | .plus => "+"
  | .minus => "-"
  | .times => "*"
  | .divide => "/"
  | .modulo => "%"
  | .power => "**"
  | .assign => "<-"
  | .and => "&&"
  | .or => "||"
  | .equal => "=="
  | .less => "<"
  | .greater => ">"
  | .lessEqual => "<="
  | .greaterEqual => ">="
  | .leftParen => "("
  | .rightParen => ")"
  | .leftBracket => "["
  | .rightBracket => "]"
  | .comma => ","
  | .newline => "NewLine"
  | .endOfFile => "EndOfFile"

/-- The name of a kind in the display form of a token. -/
def label : Kind → String
  | .spawn => "SPAWN"
  | .goto => "GOTO"
  | .builtin .color => "COLOR"
  | .builtin .size => "SIZE"
  | .builtin .drawLine => "DRAW_LINE"
  | .builtin .drawCircle => "DRAW_CIRCLE"
  | .builtin .drawRectangle => "DRAW_RECTANGLE"
  | .builtin .fill => "FILL"
  | .builtin .setCursor => "SET_CURSOR"
  | .builtin .getActualX => "GET_ACTUAL_X"
  | .builtin .getActualY => "GET_ACTUAL_Y"
  | .builtin .getCanvasSize => "GET_CANVAS_SIZE"
  | .builtin .getColorCount => "GET_COLOR_COUNT"
  | .builtin .isBrushColor => "IS_BRUSH_COLOR"
  | .builtin .isBrushSize => "IS_BRUSH_SIZE"
  | .builtin .isCanvasColor => "IS_CANVAS_COLOR"
  | .number => "NUMBER"
  | .string => "STRING"
  | .boolean => "BOOLEAN"
  | .identifier => "IDENTIFIER"
  | .plus => "PLUS"
  | .minus => "MINUS"
  | .times => "TIMES"
  | .divide => "DIVIDE"
  | .modulo => "MODULO"
  | .power => "POWER"
  | .assign => "ASSIGN"
  | .and => "AND"
  | .or => "OR"
  | .equal => "EQUAL"
  | .less => "LESS"
  | .greater => "GREATER"
  | .lessEqual => "LESS_EQUAL"
  | .greaterEqual => "GREATER_EQUAL"
  | .leftParen => "LEFT_PAREN"
  | .rightParen => "RIGHT_PAREN"
  | .leftBracket => "LEFT_BRACKET"
  | .rightBracket => "RIGHT_BRACKET"
  | .comma => "COMMA"
  | .newline => "NEWLINE"
  | .endOfFile => "EOF"

/-- Every keyword with its kind, in the order in which suggestions are tried. -/
def keywords : List (String × Kind) :=
  [Kind.spawn, .builtin .color, .builtin .size, .builtin .drawLine, .builtin .drawCircle,
    .builtin .drawRectangle, .builtin .fill, .builtin .setCursor, .goto,
    .builtin .getActualX, .builtin .getActualY, .builtin .getCanvasSize, .builtin .getColorCount,
    .builtin .isBrushColor, .builtin .isBrushSize, .builtin .isCanvasColor].map
      (fun k => (k.symbol, k)) ++ [("true", .boolean), ("false", .boolean)]

/-- Operators, those of two characters before those of one. -/
def operators : List Kind :=
  [.power, .assign, .lessEqual, .greaterEqual, .equal, .and, .or,
    .plus, .minus, .times, .divide, .modulo, .less, .greater]

def punctuation : List Kind := [.leftParen, .rightParen, .leftBracket, .rightBracket, .comma]

def all : List Kind :=
  [.spawn, .goto] ++ Builtin.all.map .builtin ++ [.number, .string, .boolean, .identifier] ++
    operators ++ punctuation ++ [.newline, .endOfFile]

def ofSymbol? (s : String) : Option Kind := all.find? fun k => k.symbol == s

end Kind

end Token

structure Token where
  lexeme : String
  kind : Token.Kind
  position : Position
deriving DecidableEq

namespace Token

/-- The display form of a token. -/
def display (t : Token) : String :=
  "Token(" ++ t.kind.label ++ ", " ++ Text.quoted t.lexeme ++ ", " ++
    toString t.position.line ++ ":" ++ toString t.position.column ++ ")"

end Token

end Brushwork
