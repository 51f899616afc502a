import Brushwork.Number.Int32
import Brushwork.Number.Numeral
import Brushwork.Text.Blank
import Brushwork.Token
import Brushwork.Tree

/-!
# From tokens to trees

A program is a list of statements separated by newlines. Expressions have eight levels, from `||` to
the primary ones: four levels of operators that group to the left, one comparison that does not
chain, powers that group to the right, signs, and literals, names, calls and parentheses. Every
reading function gives back what it has read together with the tokens behind it and the fact that
these have become fewer; that is why reading ends.

The tokens are those before the first end token, whose place is kept as `stop`.

Expressions are read to any depth of nesting: the stack is taken as unbounded.
-/

namespace Brushwork.Tree

/-- What was wanted where something else stood. -/
inductive Wanted where
  | endOfLine
  | parenAfterSpawn
  | xCoordinate
  | commaBetweenCoordinates
  | yCoordinate
  | parenAfterCoordinates
  | bracketAfterGoTo
  | targetLabel
  | bracketAfterLabel
  | parenBeforeCondition
  | parenAfterCondition
  | parenAfterName (name : String)
  | parenAfterArguments
  | parenAfterExpression
deriving DecidableEq

def Wanted.message : Wanted → String
  | .endOfLine => "Expected end of line after statement"
  | .parenAfterSpawn => "Expected '(' after 'Spawn'"
  | .xCoordinate => "Expected an integer for the X coordinate"
  | .commaBetweenCoordinates => "Expected ',' between the coordinates"
  | .yCoordinate => "Expected an integer for the Y coordinate"
  | .parenAfterCoordinates => "Expected ')' after the coordinates"
  | .bracketAfterGoTo => "Expected '[' after 'GoTo'"
  | .targetLabel => "Expected the target label name"
  | .bracketAfterLabel => "Expected ']' after the label name"
  | .parenBeforeCondition => "Expected '(' before the condition"
  | .parenAfterCondition => "Expected ')' after the condition"
  | .parenAfterName name => "Expected '(' after '" ++ name ++ "'"
  | .parenAfterArguments => "Expected ')' to close the arguments"
  | .parenAfterExpression => "Expected ')' to close the expression"

/-- The lexeme that stood in the way, none at the end of the tokens. -/
abbrev Found := Option String

def foundText : Found → String
  | some lexeme => Text.quoted lexeme
  | none => "end of input"

inductive Cause where
  | emptyProgram
  | wanted (what : Wanted) (found : Found)
  | neitherAssignmentNorLabel
  | badInstruction (lexeme : String)
  | numberOutOfRange (lexeme : String)
  | blankInLabel
  | unexpected (found : Found)
deriving DecidableEq

def Cause.message : Cause → String
  | .emptyProgram => "The program is empty"
  | .wanted what found => what.message ++ ", found " ++ foundText found
  | .neitherAssignmentNorLabel => "Expected '<-' for an assignment or end of line for a label"
  | .badInstruction lexeme => "Invalid instruction at start of line: " ++ Text.quoted lexeme
  | .numberOutOfRange lexeme => "Invalid number: " ++ lexeme
  | .blankInLabel => "Labels cannot contain whitespace"
  | .unexpected found => "Unexpected " ++ foundText found ++ " in expression"

/-- Why tokens make no program. A number token may have too many digits, and one made by hand may
hold no number at all. -/
inductive Refusal where
  | located (e : Located Cause)
  | notNumeral (lexeme : String)
deriving DecidableEq

def refuse {α : Type} (cause : Cause) (p : Position) : Except Refusal α :=
  .error (.located ⟨cause, p⟩)

/-- Something read, with the tokens behind it, fewer than `n`. -/
structure Parsed (α : Type) (n : Nat) where
  value : α
  rest : List Token
  shorter : rest.length < n

/-- The levels of operators that group to the left. -/
inductive Chain where
  | disjunction | conjunction | sum | product
deriving DecidableEq

/-- Levels of expressions. From loose to tight: disjunctions, conjunctions, comparisons, sums,
products, powers, signs and primary expressions. -/
inductive Level where
  | chain (c : Chain) | comparison | power | sign | primary
deriving DecidableEq

def Level.rank : Level → Nat
  | .chain .disjunction => 7
  | .chain .conjunction => 6
  | .comparison => 5
  | .chain .sum => 4
  | .chain .product => 3
  | .power => 2
  | .sign => 1
  | .primary => 0

namespace Chain

def operators : Chain → List Token.Kind
  | .disjunction => [.or]
  | .conjunction => [.and]
  | .sum => [.plus, .minus]
  | .product => [.times, .divide, .modulo]

/-- The level of the operands. -/
def tighter : Chain → Level
  | .disjunction => .chain .conjunction
  | .conjunction => .comparison
  | .sum => .chain .product
  | .product => .power

theorem rank_tighter_lt (c : Chain) : c.tighter.rank < (Level.chain c).rank := by
  cases c <;> decide

end Chain

/-- The loosest level. -/
def Level.expression : Level := .chain .disjunction

namespace Level

theorem rank_le (level : Level) : level.rank ≤ 7 := by
  rcases level with (_ | _ | _ | _) | _ | _ | _ | _ <;> decide

@[simp] theorem rank_expression : Level.expression.rank = 7 := rfl

@[simp] theorem rank_comparison : Level.comparison.rank = 5 := rfl

@[simp] theorem rank_sum : (Level.chain .sum).rank = 4 := rfl

@[simp] theorem rank_power : Level.power.rank = 2 := rfl

@[simp] theorem rank_sign : Level.sign.rank = 1 := rfl

@[simp] theorem rank_primary : Level.primary.rank = 0 := rfl

end Level

def comparisons : List Token.Kind := [.equal, .less, .greater, .lessEqual, .greaterEqual]

def signs : List Token.Kind := [.minus, .plus]

/-- The value of a number token, with a sign read before it. -/
def readNumeral (t : Token) (negative : Bool) : Except Refusal Int :=
  match Numeral.read? t.lexeme.toList with
  | none => .error (.notNumeral t.lexeme)
  | some n =>
    let n := if negative then -n else n
    if Int32.least ≤ n && n ≤ Int32.greatest then .ok n
    else refuse (.numberOutOfRange t.lexeme) t.position

/-- The text between the quotes of a string token. -/
def unquote (lexeme : String) : String := String.ofList (lexeme.toList.drop 1).dropLast

section

variable (stop : Position)

/-- A token of a given kind. -/
def expect (kind : Token.Kind) (what : Wanted) (ts : List Token) :
    Except Refusal (Parsed Token ts.length) :=
  match ts with
  | [] => refuse (.wanted what none) stop
  | t :: rest =>
    if t.kind = kind then .ok ⟨t, rest, by simp⟩
    else refuse (.wanted what (some t.lexeme)) t.position

mutual

/-- An expression of a level. -/
def readLevel (level : Level) (ts : List Token) : Except Refusal (Parsed Tree ts.length) :=
  match level with
  | .chain c =>
    have := c.rank_tighter_lt
    match readLevel c.tighter ts with
    | .error e => .error e
    | .ok ⟨left, rest, h⟩ =>
      match readChain c left rest with
      | .error e => .error e
      | .ok ⟨tree, rest', h'⟩ => .ok ⟨tree, rest', by omega⟩
  | .comparison =>
    match readLevel (.chain .sum) ts with
    | .error e => .error e
    | .ok ⟨left, [], h⟩ => .ok ⟨left, [], h⟩
    | .ok ⟨left, op :: more, h⟩ =>
      if op.kind ∈ comparisons then
        match readLevel (.chain .sum) more with
        | .error e => .error e
        | .ok ⟨right, rest, h'⟩ =>
          .ok ⟨.binary left op.lexeme right op.position, rest,
            by simp only [List.length_cons] at h; omega⟩
      else .ok ⟨left, op :: more, h⟩
  | .power =>
    match readLevel .sign ts with
    | .error e => .error e
    | .ok ⟨base, [], h⟩ => .ok ⟨base, [], h⟩
    | .ok ⟨base, op :: more, h⟩ =>
      if op.kind = .power then
        match readLevel .power more with
        | .error e => .error e
        | .ok ⟨exponent, rest, h'⟩ =>
          .ok ⟨.binary base op.lexeme exponent op.position, rest, by
            simp only [List.length_cons] at h; omega⟩
      else .ok ⟨base, op :: more, h⟩
  | .sign =>
    match ts with
    | [] => readLevel .primary []
    | op :: more =>
      if op.kind ∈ signs then
        match readLevel .sign more with
        | .error e => .error e
        | .ok ⟨operand, rest, h⟩ =>
          .ok ⟨.unary op.lexeme operand op.position, rest, by simp only [List.length_cons]; omega⟩
      else readLevel .primary (op :: more)
  | .primary =>
    match ts with
    | [] => refuse (.unexpected none) stop
    | t :: more =>
      match t.kind with
      | .leftParen =>
        match readLevel .expression more with
        | .error e => .error e
        | .ok ⟨inner, rest, h⟩ =>
          match expect stop .rightParen .parenAfterExpression rest with
          | .error e => .error e
          | .ok ⟨_, rest', h'⟩ => .ok ⟨inner, rest', by simp only [List.length_cons]; omega⟩
      | .boolean => .ok ⟨.literal (.bool (t.lexeme == "true")) t.position, more, by simp⟩
      | .number =>
        match readNumeral t false with
        | .error e => .error e
        | .ok n => .ok ⟨.literal (.int n) t.position, more, by simp⟩
      | .string => .ok ⟨.literal (.text (unquote t.lexeme)) t.position, more, by simp⟩
      | .builtin _ =>
        match readArguments t.lexeme more with
        | .error e => .error e
        | .ok ⟨args, rest, h⟩ =>
          .ok ⟨.call t.lexeme args t.position, rest, by simp only [List.length_cons]; omega⟩
      | .identifier => .ok ⟨.variable t.lexeme t.position, more, by simp⟩
      | _ => refuse (.unexpected (some t.lexeme)) t.position
termination_by 10 * ts.length + level.rank
decreasing_by
  all_goals try simp at *
  all_goals omega

/-- Further operands of a level that groups to the left, behind the tree `left`. -/
def readChain (c : Chain) (left : Tree) (ts : List Token) :
    Except Refusal (Parsed Tree (ts.length + 1)) :=
  match ts with
  | [] => .ok ⟨left, [], by simp⟩
  | op :: more =>
    if op.kind ∈ c.operators then
      have := c.tighter.rank_le
      match readLevel c.tighter more with
      | .error e => .error e
      | .ok ⟨right, rest, h⟩ =>
        match readChain c (.binary left op.lexeme right op.position) rest with
        | .error e => .error e
        | .ok ⟨tree, rest', h'⟩ => .ok ⟨tree, rest', by simp only [List.length_cons]; omega⟩
    else .ok ⟨left, op :: more, by simp⟩
termination_by 10 * ts.length

/-- The arguments of a call in their parentheses. -/
def readArguments (name : String) (ts : List Token) :
    Except Refusal (Parsed (List Tree) ts.length) :=
  match expect stop .leftParen (.parenAfterName name) ts with
  | .error e => .error e
  | .ok ⟨_, rest, h⟩ =>
    if rest.head?.map Token.kind = some .rightParen then
      .ok ⟨[], rest.drop 1, by simp only [List.length_drop]; omega⟩
    else
      match readItems rest with
      | .error e => .error e
      | .ok ⟨args, rest', h'⟩ =>
        match expect stop .rightParen .parenAfterArguments rest' with
        | .error e => .error e
        | .ok ⟨_, rest'', h''⟩ => .ok ⟨args, rest'', by omega⟩
termination_by 10 * ts.length

/-- One or more expressions with commas between them. -/
def readItems (ts : List Token) : Except Refusal (Parsed (List Tree) ts.length) :=
  match readLevel .expression ts with
  | .error e => .error e
  | .ok ⟨first, [], h⟩ => .ok ⟨[first], [], h⟩
  | .ok ⟨first, t :: more, h⟩ =>
    if t.kind = .comma then
      match readItems more with
      | .error e => .error e
      | .ok ⟨others, rest, h'⟩ =>
        .ok ⟨first :: others, rest, by simp only [List.length_cons] at h; omega⟩
    else .ok ⟨[first], t :: more, h⟩
termination_by 10 * ts.length + 8
decreasing_by
  · rw [Level.rank_expression]
    omega
  · simp only [List.length_cons] at *
    omega

end

/-- A coordinate: a number with an optional minus sign. -/
def readCoordinate (what : Wanted) (ts : List Token) : Except Refusal (Parsed Int ts.length) :=
  let negative := ts.head?.map Token.kind = some .minus
  match expect stop .number what (if negative then ts.drop 1 else ts) with
  | .error e => .error e
  | .ok ⟨t, rest, h⟩ =>
    match readNumeral t negative with
    | .error e => .error e
    | .ok n =>
      .ok ⟨n, rest, by
        split at h
        · simp only [List.length_drop] at h
          omega
        · exact h⟩

/-- A statement that starts with `t`. -/
def readStatement (t : Token) (ts : List Token) : Except Refusal (Parsed Tree (ts.length + 1)) :=
  match t.kind with
  | .spawn =>
    match expect stop .leftParen .parenAfterSpawn ts with
    | .error e => .error e
    | .ok ⟨_, r1, h1⟩ =>
      match readCoordinate stop .xCoordinate r1 with
      | .error e => .error e
      | .ok ⟨x, r2, h2⟩ =>
        match expect stop .comma .commaBetweenCoordinates r2 with
        | .error e => .error e
        | .ok ⟨_, r3, h3⟩ =>
          match readCoordinate stop .yCoordinate r3 with
          | .error e => .error e
          | .ok ⟨y, r4, h4⟩ =>
            match expect stop .rightParen .parenAfterCoordinates r4 with
            | .error e => .error e
            | .ok ⟨_, r5, h5⟩ => .ok ⟨.spawn x y t.position, r5, by omega⟩
  | .builtin _ =>
    match readArguments stop t.lexeme ts with
    | .error e => .error e
    | .ok ⟨args, rest, h⟩ => .ok ⟨.call t.lexeme args t.position, rest, by omega⟩
  | .goto =>
    match expect stop .leftBracket .bracketAfterGoTo ts with
    | .error e => .error e
    | .ok ⟨_, r1, h1⟩ =>
      match expect stop .identifier .targetLabel r1 with
      | .error e => .error e
      | .ok ⟨name, r2, h2⟩ =>
        match expect stop .rightBracket .bracketAfterLabel r2 with
        | .error e => .error e
        | .ok ⟨_, r3, h3⟩ =>
          match expect stop .leftParen .parenBeforeCondition r3 with
          | .error e => .error e
          | .ok ⟨_, r4, h4⟩ =>
            match readLevel stop .expression r4 with
            | .error e => .error e
            | .ok ⟨condition, r5, h5⟩ =>
              match expect stop .rightParen .parenAfterCondition r5 with
              | .error e => .error e
              | .ok ⟨_, r6, h6⟩ => .ok ⟨.goto name.lexeme condition t.position, r6, by omega⟩
  | .identifier =>
    match ts.head?.map Token.kind with
    | some .assign =>
      match readLevel stop .expression (ts.drop 1) with
      | .error e => .error e
      | .ok ⟨expr, rest, h⟩ =>
        .ok ⟨.assign t.lexeme expr t.position, rest, by simp only [List.length_drop] at h; omega⟩
    | none | some .newline | some .leftBracket =>
      if t.lexeme.toList.any Text.isBlank then refuse .blankInLabel t.position
      else .ok ⟨.label t.lexeme t.position, ts, Nat.lt_succ_self _⟩
    | some _ => refuse .neitherAssignmentNorLabel t.position
  | _ => refuse (.badInstruction t.lexeme) t.position

def skipNewlines (ts : List Token) : List Token := ts.dropWhile fun t => t.kind = .newline

theorem length_skipNewlines_le (ts : List Token) : (skipNewlines ts).length ≤ ts.length :=
  (List.dropWhile_suffix _).length_le

/-- Statements up to the end, each of them but the last followed by newlines. -/
def readStatements (ts : List Token) : Except Refusal (List Tree) :=
  match ts with
  | [] => .ok []
  | t :: more =>
    match readStatement stop t more with
    | .error e => .error e
    | .ok ⟨statement, [], _⟩ => .ok [statement]
    | .ok ⟨statement, next :: rest, _⟩ =>
      if next.kind = .newline then
        match readStatements (skipNewlines rest) with
        | .error e => .error e
        | .ok others => .ok (statement :: others)
      else refuse (.wanted .endOfLine (some next.lexeme)) next.position
termination_by ts.length
decreasing_by
  have := length_skipNewlines_le rest
  simp only [List.length_cons] at *
  omega

end

/-- The place of the end of some tokens: their first end token, or else the start of their last
line. -/
def stopOf (ts : List Token) : Position :=
  match ts.find? fun t => t.kind = .endOfFile with
  | some t => t.position
  | none => ⟨(ts.getLast?.map fun t => t.position.line).getD 1, 1⟩

/-- The tokens before the first end token. -/
def bodyOf (ts : List Token) : List Token := ts.takeWhile fun t => t.kind ≠ .endOfFile

/-- The program that some tokens spell. -/
def parse (ts : List Token) : Except Refusal Program :=
  match readStatements (stopOf ts) (skipNewlines (bodyOf ts)) with
  | .error e => .error e
  | .ok [] => refuse .emptyProgram (stopOf ts)
  | .ok (first :: others) => .ok ⟨first :: others, first.position⟩

/-- The expression that some tokens start with. -/
def parseExpression (ts : List Token) : Except Refusal Tree :=
  match readLevel (stopOf ts) .expression (bodyOf ts) with
  | .error e => .error e
  | .ok r => .ok r.value

end Brushwork.Tree
