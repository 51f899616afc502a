import Brushwork.Proofs.Numerals

/-!
# The grammar of programs

Statements stand on lines of their own, with empty lines wherever one likes. Expressions come in
eight levels. Each operator belongs to a level and says from which levels its operands are: an
operator whose left operand is of its own level groups to the left, one whose right operand is
groups to the right, and one that has neither does not chain. An expression of a level is also one
of the next looser level. A token that starts with no operator of a level, or of a tighter one,
cannot go on with an expression of it.

How a number is written does not matter to the grammar, so that every number can be written with few
digits.
-/

namespace Brushwork

namespace Token

def decimal (t : Token) : Nat := Nat.ofDigitChars 10 t.lexeme.toList 0

/-- A token whose lexeme suits its kind: a number has digits only, and a name has no blanks. -/
structure Plain (t : Token) : Prop where
  nonempty : t.kind = .number → t.lexeme ≠ ""
  digits : t.kind = .number → ∀ c ∈ t.lexeme.toList, c.isDigit = true
  unbroken : t.kind = .identifier → ∀ c ∈ t.lexeme.toList, Text.isBlank c = false

/-- A number that has more digits than are ever read. -/
def Overlong (t : Token) : Prop := t.kind = .number ∧ Numeral.mostDigits < t.lexeme.length

instance (t : Token) : Decidable t.Overlong :=
  inferInstanceAs (Decidable (t.kind = .number ∧ Numeral.mostDigits < t.lexeme.length))

def Readable (t : Token) : Prop := t.Plain ∧ ¬ t.Overlong

theorem not_overlong {t : Token} {kind : Kind} (h : t.kind = kind) (hkind : kind ≠ .number) :
    ¬ t.Overlong := by
  rintro ⟨hnumber, -⟩
  exact hkind (h.symm.trans hnumber)

end Token

namespace Grammar

open Brushwork.Tree (Level Chain)

/-- The operators, each with the level of the expressions it makes, of its left operand and of its
right one. -/
inductive Joins : Token.Kind → Level → Level → Level → Prop
  | or : Joins .or (.chain .disjunction) (.chain .disjunction) (.chain .conjunction)
  | and : Joins .and (.chain .conjunction) (.chain .conjunction) .comparison
  | equal : Joins .equal .comparison (.chain .sum) (.chain .sum)
  | less : Joins .less .comparison (.chain .sum) (.chain .sum)
  | greater : Joins .greater .comparison (.chain .sum) (.chain .sum)
  | lessEqual : Joins .lessEqual .comparison (.chain .sum) (.chain .sum)
  | greaterEqual : Joins .greaterEqual .comparison (.chain .sum) (.chain .sum)
  | plus : Joins .plus (.chain .sum) (.chain .sum) (.chain .product)
  | minus : Joins .minus (.chain .sum) (.chain .sum) (.chain .product)
  | times : Joins .times (.chain .product) (.chain .product) .power
  | divide : Joins .divide (.chain .product) (.chain .product) .power
  | modulo : Joins .modulo (.chain .product) (.chain .product) .power
  | power : Joins .power .power .sign .power

inductive Loosens : Level → Level → Prop
  | primary : Loosens .primary .sign
  | sign : Loosens .sign .power
  | power : Loosens .power (.chain .product)
  | product : Loosens (.chain .product) (.chain .sum)
  | sum : Loosens (.chain .sum) .comparison
  | comparison : Loosens .comparison (.chain .conjunction)
  | conjunction : Loosens (.chain .conjunction) (.chain .disjunction)

mutual

/-- Tokens that spell an expression of a level. -/
inductive Expression : Level → List Token → Tree → Prop
  | join {op : Token} {level left right : Level} {us vs : List Token} {a b : Tree}
      (operator : Joins op.kind level left right) (first : Expression left us a)
      (second : Expression right vs b) :
      Expression level (us ++ op :: vs) (.binary a op.lexeme b op.position)
  | loosen {tight loose : Level} {us : List Token} {a : Tree} (next : Loosens tight loose)
      (expression : Expression tight us a) : Expression loose us a
  | sign {op : Token} {us : List Token} {a : Tree} (kind : op.kind = .plus ∨ op.kind = .minus)
      (operand : Expression .sign us a) :
      Expression .sign (op :: us) (.unary op.lexeme a op.position)
  | paren {left right : Token} {us : List Token} {a : Tree} (opening : left.kind = .leftParen)
      (inner : Expression .expression us a) (closing : right.kind = .rightParen) :
      Expression .primary (left :: (us ++ [right])) a
  | boolean {t : Token} (kind : t.kind = .boolean) :
      Expression .primary [t] (.literal (.bool (t.lexeme == "true")) t.position)
  | number {t : Token} (kind : t.kind = .number) (small : (t.decimal : Int) ≤ Int32.greatest) :
      Expression .primary [t] (.literal (.int t.decimal) t.position)
  | string {t : Token} (kind : t.kind = .string) :
      Expression .primary [t] (.literal (.text (Tree.unquote t.lexeme)) t.position)
  | variable {t : Token} (kind : t.kind = .identifier) :
      Expression .primary [t] (.variable t.lexeme t.position)
  | call {t : Token} {b : Builtin} {us : List Token} {args : List Tree} (kind : t.kind = .builtin b)
      (arguments : Arguments us args) :
      Expression .primary (t :: us) (.call t.lexeme args t.position)

inductive Arguments : List Token → List Tree → Prop
  | none {left right : Token} (opening : left.kind = .leftParen)
      (closing : right.kind = .rightParen) : Arguments [left, right] []
  | some {left right : Token} {us : List Token} {args : List Tree}
      (opening : left.kind = .leftParen) (items : Items us args)
      (closing : right.kind = .rightParen) : Arguments (left :: (us ++ [right])) args

inductive Items : List Token → List Tree → Prop
  | one {us : List Token} {a : Tree} (first : Expression .expression us a) : Items us [a]
  | more {comma : Token} {us vs : List Token} {a : Tree} {args : List Tree}
      (first : Expression .expression us a) (separator : comma.kind = .comma)
      (others : Items vs args) : Items (us ++ comma :: vs) (a :: args)

end

inductive Coordinate : List Token → Int → Prop
  | plain {t : Token} (kind : t.kind = .number) (small : (t.decimal : Int) ≤ Int32.greatest) :
      Coordinate [t] t.decimal
  | negative {minus t : Token} (sign : minus.kind = .minus) (kind : t.kind = .number)
      (small : Int32.least ≤ -(t.decimal : Int)) : Coordinate [minus, t] (-t.decimal)

inductive Statement : List Token → Tree → Prop
  | spawn {t left comma right : Token} {us vs : List Token} {x y : Int} (kind : t.kind = .spawn)
      (opening : left.kind = .leftParen) (first : Coordinate us x) (separator : comma.kind = .comma)
      (second : Coordinate vs y) (closing : right.kind = .rightParen) :
      Statement (t :: left :: (us ++ comma :: (vs ++ [right]))) (.spawn x y t.position)
  | call {t : Token} {b : Builtin} {us : List Token} {args : List Tree} (kind : t.kind = .builtin b)
      (arguments : Arguments us args) : Statement (t :: us) (.call t.lexeme args t.position)
  | assign {t arrow : Token} {us : List Token} {a : Tree} (kind : t.kind = .identifier)
      (becomes : arrow.kind = .assign) (value : Expression .expression us a) :
      Statement (t :: arrow :: us) (.assign t.lexeme a t.position)
  | label {t : Token} (kind : t.kind = .identifier) : Statement [t] (.label t.lexeme t.position)
  | goto {t left name right opening closing : Token} {us : List Token} {a : Tree}
      (kind : t.kind = .goto) (bracket : left.kind = .leftBracket)
      (target : name.kind = .identifier) (bracket' : right.kind = .rightBracket)
      (paren : opening.kind = .leftParen) (condition : Expression .expression us a)
      (paren' : closing.kind = .rightParen) :
      Statement (t :: left :: name :: right :: opening :: (us ++ [closing]))
        (.goto name.lexeme a t.position)

/-- Tokens that spell statements, with newlines between them and perhaps behind the last. -/
inductive Statements : List Token → List Tree → Prop
  | last {us vs : List Token} {s : Tree} (statement : Statement us s)
      (trailing : ∀ t ∈ vs, t.kind = .newline) : Statements (us ++ vs) [s]
  | more {us vs : List Token} {next : Token} {ws : List Token} {s : Tree} {ss : List Tree}
      (statement : Statement us s) (newline : next.kind = .newline)
      (empty : ∀ t ∈ vs, t.kind = .newline) (others : Statements ws ss) :
      Statements (us ++ next :: (vs ++ ws)) (s :: ss)

inductive Derives : List Token → Program → Prop
  | program {us vs : List Token} {s : Tree} {ss : List Tree} (leading : ∀ t ∈ us, t.kind = .newline)
      (statements : Statements vs (s :: ss)) : Derives (us ++ vs) ⟨s :: ss, s.position⟩

/-! ### Operators -/

section

variable {c : Chain} {kind : Token.Kind} {level left right : Level}

theorem loosens_tighter (c : Chain) : Loosens c.tighter (.chain c) := by
  cases c <;> constructor

theorem joins_of_mem_operators (h : kind ∈ c.operators) :
    Joins kind (.chain c) (.chain c) c.tighter := by
  cases c <;> simp only [Chain.operators, List.mem_cons, List.not_mem_nil, or_false] at h
  · subst h
    exact .or
  · subst h
    exact .and
  · rcases h with rfl | rfl
    · exact .plus
    · exact .minus
  · rcases h with rfl | rfl | rfl
    · exact .times
    · exact .divide
    · exact .modulo

theorem joins_of_mem_comparisons (h : kind ∈ Tree.comparisons) :
    Joins kind .comparison (.chain .sum) (.chain .sum) := by
  simp only [Tree.comparisons, List.mem_cons, List.not_mem_nil, or_false] at h
  rcases h with rfl | rfl | rfl | rfl | rfl
  · exact .equal
  · exact .less
  · exact .greater
  · exact .lessEqual
  · exact .greaterEqual

theorem Joins.sort (h : Joins kind level left right) :
    (∃ c : Chain, level = .chain c ∧ left = .chain c ∧ right = c.tighter ∧ kind ∈ c.operators) ∨
    (level = .comparison ∧ left = .chain .sum ∧ right = .chain .sum ∧ kind ∈ Tree.comparisons) ∨
    (level = .power ∧ left = .sign ∧ right = .power ∧ kind = .power) := by
  cases h with
  | or => exact Or.inl ⟨.disjunction, rfl, rfl, rfl, by decide⟩
  | and => exact Or.inl ⟨.conjunction, rfl, rfl, rfl, by decide⟩
  | plus | minus => exact Or.inl ⟨.sum, rfl, rfl, rfl, by decide⟩
  | times | divide | modulo => exact Or.inl ⟨.product, rfl, rfl, rfl, by decide⟩
  | equal | less | greater | lessEqual | greaterEqual =>
    exact Or.inr (Or.inl ⟨rfl, rfl, rfl, by decide⟩)
  | power => exact Or.inr (Or.inr ⟨rfl, rfl, rfl, rfl⟩)

theorem Joins.level_eq {level' left' right' : Level} (h : Joins kind level left right)
    (h' : Joins kind level' left' right') : level = level' := by
  cases h <;> cases h' <;> rfl

theorem Joins.ne_number (h : Joins kind level left right) : kind ≠ .number := by
  rintro rfl
  cases h

/-- Tokens that cannot go on with an expression of a level. -/
def Stops (level : Level) (ts : List Token) : Prop :=
  ∀ t ∈ ts.head?, ∀ {l left right : Level}, Joins t.kind l left right → level.rank < l.rank

namespace Stops

variable {ts : List Token}

theorem mono {tight loose : Level} (h : Stops loose ts) (hle : tight.rank ≤ loose.rank) :
    Stops tight ts := by
  intro t ht l left right hjoins
  exact Nat.lt_of_le_of_lt hle (h t ht hjoins)

theorem of_joins {op : Token} {tight : Level} (h : Joins op.kind level left right)
    (hlt : tight.rank < level.rank) : Stops tight (op :: ts) := by
  rintro op ⟨⟩ l left right hjoins
  rwa [← h.level_eq hjoins]

theorem of_kind {t : Token} (ht : t.kind = kind)
    (h : ∀ {l left right : Level}, ¬ Joins kind l left right) : Stops level (t :: ts) := by
  rintro t ⟨⟩ l left right hjoins
  exact absurd (ht ▸ hjoins) h

end Stops

end

/-! ### First tokens -/

theorem Expression.starts : ∀ {level : Level} {us : List Token} {a : Tree}, Expression level us a →
    ∃ t more, us = t :: more ∧ t.kind ≠ .rightParen
  | _, _, _, .join _ first _ => by
    obtain ⟨t, more, rfl, ht⟩ := first.starts
    exact ⟨t, _, rfl, ht⟩
  | _, _, _, .loosen _ expression => expression.starts
  | _, _, _, .sign kind _ => ⟨_, _, rfl, by rcases kind with h | h <;> rw [h] <;> nofun⟩
  | _, _, _, .paren opening _ _ => ⟨_, _, rfl, by rw [opening]; nofun⟩
  | _, _, _, .boolean kind => ⟨_, _, rfl, by rw [kind]; nofun⟩
  | _, _, _, .number kind _ => ⟨_, _, rfl, by rw [kind]; nofun⟩
  | _, _, _, .string kind => ⟨_, _, rfl, by rw [kind]; nofun⟩
  | _, _, _, .variable kind => ⟨_, _, rfl, by rw [kind]; nofun⟩
  | _, _, _, .call kind _ => ⟨_, _, rfl, by rw [kind]; nofun⟩

theorem Items.starts {us : List Token} {args : List Tree} (h : Items us args) :
    ∃ t more, us = t :: more ∧ t.kind ≠ .rightParen := by
  cases h with
  | one first => exact first.starts
  | more first _ _ =>
    obtain ⟨t, more, rfl, ht⟩ := first.starts
    exact ⟨t, _, rfl, ht⟩

theorem Statement.starts {us : List Token} {s : Tree} (h : Statement us s) :
    ∃ t more, us = t :: more ∧ t.kind ≠ .newline := by
  cases h with
  | spawn kind | call kind | assign kind | label kind | goto kind =>
    exact ⟨_, _, rfl, by rw [kind]; nofun⟩

theorem Statements.starts {us : List Token} {ss : List Tree} (h : Statements us ss) :
    ∃ t more, us = t :: more ∧ t.kind ≠ .newline := by
  cases h with
  | last statement _ | more statement _ _ _ =>
    obtain ⟨t, more, rfl, ht⟩ := statement.starts
    exact ⟨t, _, rfl, ht⟩

end Grammar

/-! ### Numbers written with few digits -/

namespace Token

/-- The token with its number written afresh, or with another small number if it was out of
range. -/
def brief (t : Token) : Token :=
  if t.kind = .number then
    { t with lexeme := String.ofList (Nat.toDigits 10 (min t.decimal 0x80000000)) } else t

variable {t : Token}

theorem brief_of_kind {kind : Kind} (h : t.kind = kind) (hkind : kind ≠ .number) : t.brief = t := by
  subst h
  exact if_neg hkind

theorem brief_of_number (h : t.kind = .number) :
    t.brief = { t with lexeme := String.ofList (Nat.toDigits 10 (min t.decimal 0x80000000)) } :=
  if_pos h

@[simp] theorem position_brief (t : Token) : t.brief.position = t.position := by
  unfold brief
  split <;> rfl

@[simp] theorem kind_brief (t : Token) : t.brief.kind = t.kind := by
  unfold brief
  split <;> rfl

theorem decimal_brief (h : t.kind = .number) (hle : t.decimal ≤ 0x80000000) :
    t.brief.decimal = t.decimal := by
  rw [brief_of_number h, decimal, String.toList_ofList, Nat.ofDigitChars_ten_toDigits,
    Nat.min_eq_left hle]

theorem readable_brief (h : t.Plain) : t.brief.Readable := by
  by_cases hkind : t.kind = .number
  · rw [brief_of_number hkind]
    constructor
    · constructor
      · intro _ hempty
        have hnil := congrArg String.toList hempty
        rw [String.toList_ofList] at hnil
        exact Nat.toDigits_ne_nil hnil
      · intro _ c hc
        rw [String.toList_ofList] at hc
        exact Nat.isDigit_of_mem_toDigits (by decide) (by decide) hc
      · intro hname
        cases hkind.symm.trans hname
    · rintro ⟨-, hlong⟩
      have hfew : (Nat.toDigits 10 (min t.decimal 0x80000000)).length ≤ 10 :=
        (Nat.length_toDigits_le_iff (by decide) (by decide)).2 (by omega)
      rw [String.length_ofList, Numeral.mostDigits] at hlong
      omega
  · rw [brief_of_kind rfl hkind]
    exact ⟨h, not_overlong rfl hkind⟩

end Token

namespace Grammar

open Brushwork.Tree (Level)

mutual

theorem Expression.brief : ∀ {level : Level} {us : List Token} {a : Tree}, Expression level us a →
    Expression level (us.map Token.brief) a
  | _, _, _, .join operator first second => by
    rw [List.map_append, List.map_cons, Token.brief_of_kind rfl operator.ne_number]
    exact .join operator first.brief second.brief
  | _, _, _, .loosen next expression => .loosen next expression.brief
  | _, _, _, .sign kind operand => by
    rw [List.map_cons, Token.brief_of_kind rfl (by rcases kind with h | h <;> rw [h] <;> nofun)]
    exact .sign kind operand.brief
  | _, _, _, .paren opening inner closing => by
    rw [List.map_cons, List.map_append, List.map_cons, List.map_nil,
      Token.brief_of_kind opening nofun, Token.brief_of_kind closing nofun]
    exact .paren opening inner.brief closing
  | _, _, _, .boolean kind => by
    rw [List.map_cons, List.map_nil, Token.brief_of_kind kind nofun]
    exact .boolean kind
  | _, _, _, .number (t := t) kind small => by
    have hdecimal := Token.decimal_brief kind (by simp only [Int32.greatest] at small; omega)
    rw [List.map_cons, List.map_nil, ← hdecimal, ← t.position_brief]
    exact .number (t.kind_brief.trans kind) (hdecimal ▸ small)
  | _, _, _, .string kind => by
    rw [List.map_cons, List.map_nil, Token.brief_of_kind kind nofun]
    exact .string kind
  | _, _, _, .variable kind => by
    rw [List.map_cons, List.map_nil, Token.brief_of_kind kind nofun]
    exact .variable kind
  | _, _, _, .call kind arguments => by
    rw [List.map_cons, Token.brief_of_kind kind nofun]
    exact .call kind arguments.brief

theorem Arguments.brief : ∀ {us : List Token} {args : List Tree}, Arguments us args →
    Arguments (us.map Token.brief) args
  | _, _, .none opening closing => by
    rw [List.map_cons, List.map_cons, List.map_nil, Token.brief_of_kind opening nofun,
      Token.brief_of_kind closing nofun]
    exact .none opening closing
  | _, _, .some opening items closing => by
    rw [List.map_cons, List.map_append, List.map_cons, List.map_nil,
      Token.brief_of_kind opening nofun, Token.brief_of_kind closing nofun]
    exact .some opening items.brief closing

theorem Items.brief :
    ∀ {us : List Token} {args : List Tree}, Items us args → Items (us.map Token.brief) args
  | _, _, .one first => .one first.brief
  | _, _, .more first separator others => by
    rw [List.map_append, List.map_cons, Token.brief_of_kind separator nofun]
    exact .more first.brief separator others.brief

end

theorem Coordinate.brief {us : List Token} {n : Int} (h : Coordinate us n) :
    Coordinate (us.map Token.brief) n := by
  cases h with
  | @plain t kind small =>
    have hdecimal := Token.decimal_brief kind (by simp only [Int32.greatest] at small; omega)
    rw [List.map_cons, List.map_nil, ← hdecimal]
    exact .plain (t.kind_brief.trans kind) (hdecimal ▸ small)
  | @negative minus t sign kind small =>
    have hdecimal := Token.decimal_brief kind (by simp only [Int32.least] at small; omega)
    rw [List.map_cons, List.map_cons, List.map_nil, Token.brief_of_kind sign nofun, ← hdecimal]
    exact .negative sign (t.kind_brief.trans kind) (hdecimal ▸ small)

theorem Statement.brief {us : List Token} {s : Tree} (h : Statement us s) :
    Statement (us.map Token.brief) s := by
  cases h with
  | spawn kind opening first separator second closing =>
    simp only [List.map_cons, List.map_append, List.map_nil, Token.brief_of_kind kind nofun,
      Token.brief_of_kind opening nofun, Token.brief_of_kind separator nofun,
      Token.brief_of_kind closing nofun]
    exact .spawn kind opening first.brief separator second.brief closing
  | call kind arguments =>
    simp only [List.map_cons, Token.brief_of_kind kind nofun]
    exact .call kind arguments.brief
  | assign kind becomes value =>
    simp only [List.map_cons, Token.brief_of_kind kind nofun, Token.brief_of_kind becomes nofun]
    exact .assign kind becomes value.brief
  | label kind =>
    simp only [List.map_cons, List.map_nil, Token.brief_of_kind kind nofun]
    exact .label kind
  | goto kind bracket target bracket' paren condition paren' =>
    simp only [List.map_cons, List.map_append, List.map_nil, Token.brief_of_kind kind nofun,
      Token.brief_of_kind bracket nofun, Token.brief_of_kind target nofun,
      Token.brief_of_kind bracket' nofun, Token.brief_of_kind paren nofun,
      Token.brief_of_kind paren' nofun]
    exact .goto kind bracket target bracket' paren condition.brief paren'

theorem map_brief_newlines {us : List Token} (h : ∀ t ∈ us, t.kind = .newline) :
    us.map Token.brief = us := by
  rw [List.map_congr_left fun t ht => Token.brief_of_kind (h t ht) nofun, List.map_id']

theorem Statements.brief {us : List Token} {ss : List Tree} (h : Statements us ss) :
    Statements (us.map Token.brief) ss := by
  induction h with
  | last statement trailing =>
    rw [List.map_append, map_brief_newlines trailing]
    exact .last statement.brief trailing
  | more statement newline empty _ ih =>
    rw [List.map_append, List.map_cons, List.map_append, Token.brief_of_kind newline nofun,
      map_brief_newlines empty]
    exact .more statement.brief newline empty ih

theorem Derives.brief {us : List Token} {program : Program} (h : Derives us program) :
    Derives (us.map Token.brief) program := by
  cases h with
  | program leading statements =>
    rw [List.map_append, map_brief_newlines leading]
    exact .program leading statements.brief

end Grammar

end Brushwork
