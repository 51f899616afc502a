import Brushwork.Proofs.Layout

/-!
# Written expressions

An expression is written lexeme by lexeme, with a space between each two. A table says how tight
every binary operator binds and how operators that bind equally tight group. An operand that would
not be kept together by it has to stand in parentheses; around any other expression one may put them
or not. However that is done, what has been written is read back as the same expression.
-/

namespace Brushwork.Tree

open Token (Kind IsLexeme bare)
open Grammar

/-- How operators that bind equally tight group in a row. -/
inductive Grouping where
  | left | right | none
deriving DecidableEq

/-- A binary operator with its rank, which is low if it binds tight, and with the way it groups. -/
structure Operator where
  symbol : String
  rank : Nat
  grouping : Grouping
deriving DecidableEq

def operators : List Operator :=
  [⟨"||", 7, .left⟩, ⟨"&&", 6, .left⟩,
    ⟨"==", 5, .none⟩, ⟨"<", 5, .none⟩, ⟨">", 5, .none⟩, ⟨"<=", 5, .none⟩, ⟨">=", 5, .none⟩,
    ⟨"+", 4, .left⟩, ⟨"-", 4, .left⟩, ⟨"*", 3, .left⟩, ⟨"/", 3, .left⟩, ⟨"%", 3, .left⟩,
    ⟨"**", 2, .right⟩]

namespace Operator

def first (o : Operator) : Nat :=
  match o.grouping with
  | .left => o.rank
  | .right | .none => o.rank - 1

def second (o : Operator) : Nat :=
  match o.grouping with
  | .right => o.rank
  | .left | .none => o.rank - 1

def ofSymbol (symbol : String) : Operator :=
  (operators.find? fun o => o.symbol == symbol).getD ⟨symbol, 0, .none⟩

end Operator

/-- How loosely an expression is held together. Signs bind tighter than all binary operators. -/
def rank : Tree → Nat
  | .binary _ op _ _ => (Operator.ofSymbol op).rank
  | .unary .. => 1
  | _ => 0

/-- Where an expression stands: alone, as an argument, or as an operand that may have some rank. -/
inductive Place where
  | whole | argument | operand (n : Nat)

def Place.rank : Place → Nat
  | .whole | .argument => 7
  | .operand n => n

/-- Which expressions stand in parentheses, among them those that have to. -/
structure Style where
  wraps : Place → Tree → Bool
  needed : ∀ {place : Place} {t : Tree}, place.rank < t.rank → wraps place t = true

namespace Style

def spare : Style := ⟨fun place t => place.rank < t.rank, decide_eq_true⟩

def full : Style := ⟨fun _ t => 0 < t.rank, fun h => decide_eq_true (Nat.zero_lt_of_lt h)⟩

def around (style : Style) (place : Place) (t : Tree) (inner : List String) : List String :=
  if style.wraps place t then "(" :: (inner ++ [")"]) else inner

end Style

section

variable (style : Style)

mutual

/-- The lexemes of an expression, without parentheses around the whole. -/
def lexemes : Tree → List String
  | .literal (.int n) _ => [toString n]
  | .literal (.bool b) _ => [toString b]
  | .literal (.text s) _ => ["\"" ++ toString s ++ "\""]
  | .variable name _ => [name]
  | .call name args _ => name :: "(" :: (itemLexemes args ++ [")"])
  | .unary op operand _ => op :: style.around (.operand 1) operand (lexemes operand)
  | .binary left op right _ =>
    style.around (.operand (Operator.ofSymbol op).first) left (lexemes left) ++
      op :: style.around (.operand (Operator.ofSymbol op).second) right (lexemes right)
  | _ => []

def itemLexemes : List Tree → List String
  | [] => []
  | [t] => style.around .argument t (lexemes t)
  | t :: ts => style.around .argument t (lexemes t) ++ "," :: itemLexemes ts

end

def written (t : Tree) : String := " ".intercalate (style.around .whole t (lexemes style t))

end

inductive Spellable : Tree → Prop
  | int {n : Int} {p : Position} (low : 0 ≤ n) (high : n ≤ Int32.greatest) :
    Spellable (.literal (.int n) p)
  | bool {b : Bool} {p : Position} : Spellable (.literal (.bool b) p)
  | text {s : String} {p : Position} (inner : ∀ c ∈ s.toList, c ≠ '"' ∧ c ≠ '\n') :
    Spellable (.literal (.text s) p)
  | variable {name : String} {p : Position} (word : Token.Rule.word.Describes name.toList)
      (free : ∀ k, (name, k) ∉ Kind.keywords) : Spellable (.variable name p)
  | call {b : Builtin} {args : List Tree} {p : Position} (arguments : ∀ a ∈ args, Spellable a) :
    Spellable (.call b.name args p)
  | unary {op : String} {a : Tree} {p : Position} (sign : op = "+" ∨ op = "-")
      (operand : Spellable a) :
    Spellable (.unary op a p)
  | binary {o : Operator} {a b : Tree} {p : Position} (operator : o ∈ operators)
      (first : Spellable a) (second : Spellable b) : Spellable (.binary a o.symbol b p)

/-- A text that is read to its end, as an expression up to places. -/
def ReadBack (source : String) (t : Tree) : Prop :=
  ∃ tokens tree, Token.tokenize source = .ok tokens ∧
    Gives (readLevel (stopOf tokens) .expression (bodyOf tokens)) tree [] ∧
    parseExpression tokens = .ok tree ∧ Like (fun _ _ => True) t tree

/-! ### Ranks and levels -/

def Level.ofRank : Nat → Level
  | 0 => .primary
  | 1 => .sign
  | 2 => .power
  | 3 => .chain .product
  | 4 => .chain .sum
  | 5 => .comparison
  | 6 => .chain .conjunction
  | _ => .expression

section

variable {n m : Nat} {us : List Token} {t : Tree} {o : Operator}

theorem expression_succ (h : Expression (.ofRank n) us t) : Expression (.ofRank (n + 1)) us t := by
  rcases n with _ | _ | _ | _ | _ | _ | _ | n
  · exact .loosen .primary h
  · exact .loosen .sign h
  · exact .loosen .power h
  · exact .loosen .product h
  · exact .loosen .sum h
  · exact .loosen .comparison h
  · exact .loosen .conjunction h
  · exact h

theorem expression_mono (h : Expression (.ofRank n) us t) (hle : n ≤ m) :
    Expression (.ofRank m) us t := by
  obtain ⟨d, rfl⟩ := Nat.exists_eq_add_of_le hle
  clear hle
  induction d with
  | zero => exact h
  | succ d ih => exact expression_succ ih

/-- The operators of the table are those of the grammar, with operands of the same ranks. -/
theorem exists_joins (h : o ∈ operators) :
    ∃ kind ∈ Kind.operators, kind.symbol = o.symbol ∧
      Joins kind (.ofRank o.rank) (.ofRank o.first) (.ofRank o.second) := by
  simp only [operators, List.mem_cons, List.not_mem_nil, or_false] at h
  rcases h with rfl | rfl | rfl | rfl | rfl | rfl | rfl | rfl | rfl | rfl | rfl | rfl | rfl
  · exact ⟨.or, by decide, rfl, .or⟩
  · exact ⟨.and, by decide, rfl, .and⟩
  · exact ⟨.equal, by decide, rfl, .equal⟩
  · exact ⟨.less, by decide, rfl, .less⟩
  · exact ⟨.greater, by decide, rfl, .greater⟩
  · exact ⟨.lessEqual, by decide, rfl, .lessEqual⟩
  · exact ⟨.greaterEqual, by decide, rfl, .greaterEqual⟩
  · exact ⟨.plus, by decide, rfl, .plus⟩
  · exact ⟨.minus, by decide, rfl, .minus⟩
  · exact ⟨.times, by decide, rfl, .times⟩
  · exact ⟨.divide, by decide, rfl, .divide⟩
  · exact ⟨.modulo, by decide, rfl, .modulo⟩
  · exact ⟨.power, by decide, rfl, .power⟩

theorem ofSymbol_symbol (h : o ∈ operators) : Operator.ofSymbol o.symbol = o := by
  have hall : ∀ o ∈ operators, Operator.ofSymbol o.symbol = o := by decide
  exact hall o h

theorem rank_le (t : Tree) : t.rank ≤ 7 := by
  have hall : ∀ o ∈ operators, o.rank ≤ 7 := by decide
  cases t with
  | binary left op right p =>
    rw [rank, Operator.ofSymbol]
    cases hfind : operators.find? fun o => o.symbol == op with
    | none => exact Nat.zero_le 7
    | some o => exact hall o (List.mem_of_find?_eq_some hfind)
  | unary => exact Nat.le_of_lt (by decide : 1 < 7)
  | program | spawn | assign | label | goto | call | literal | «variable» | missing =>
    exact Nat.zero_le 7

end

/-! ### Lexemes and what they spell -/

/-- A lexeme that can be read: if it is a number, it has not too many digits. -/
def Legible (e : Kind × String) : Prop :=
  IsLexeme e ∧ (e.1 = .number → e.2.length ≤ Numeral.mostDigits)

theorem legible_operator {kind : Kind} (h : kind ∈ Kind.operators) :
    Legible (kind, kind.symbol) := by
  have hnumber : ∀ k ∈ Kind.operators, k ≠ .number := by decide
  exact ⟨⟨.operator, ⟨kind, h, rfl⟩, h, rfl⟩, fun hkind => absurd hkind (hnumber kind h)⟩

theorem legible_punctuation {kind : Kind} (h : kind ∈ Kind.punctuation) :
    Legible (kind, kind.symbol) := by
  have hnumber : ∀ k ∈ Kind.punctuation, k ≠ .number := by decide
  exact ⟨⟨.punctuation, ⟨kind, h, rfl⟩, h, rfl⟩, fun hkind => absurd hkind (hnumber kind h)⟩

theorem legible_keyword {kind : Kind} {word : String} (h : (word, kind) ∈ Kind.keywords) :
    Legible (kind, word) := by
  have hkeywords :
      ∀ e ∈ Kind.keywords, e.2 ≠ .number ∧ e.1.toList.head?.any Token.isWordStart = true ∧
      e.1.toList.all Token.isWordChar = true := by decide
  obtain ⟨hnumber, hstart, hchars⟩ := hkeywords _ h
  refine ⟨⟨.word, ?_, Or.inl ?_⟩, fun hkind => absurd hkind hnumber⟩
  · cases hword : word.toList with
    | nil =>
      rw [hword] at hstart
      cases hstart
    | cons c cs =>
      rw [hword] at hstart hchars
      exact ⟨c, cs, rfl, hstart, fun d hd =>
        List.all_eq_true.1 hchars d (List.mem_cons_of_mem c hd)⟩
  · rwa [String.ofList_toList]

theorem legible_name (b : Builtin) : Legible (.builtin b, b.name) :=
  legible_keyword (by cases b <;> decide)

/-- Legible lexemes whose tokens are of some sort, wherever they stand. -/
def Yields (ls : List String) (P : List Token → Prop) : Prop :=
  ∃ es : List (Kind × String), es.map Prod.snd = ls ∧ (∀ e ∈ es, Legible e) ∧
    ∀ {us : List Token}, us.map bare = es → P us

namespace Yields

variable {ls ls' : List String} {P Q : List Token → Prop}

theorem imp (h : Yields ls P) (hsort : ∀ {us : List Token}, P us → Q us) : Yields ls Q := by
  obtain ⟨es, hes, hlegible, hread⟩ := h
  exact ⟨es, hes, hlegible, fun hus => hsort (hread hus)⟩

theorem nil : Yields [] fun us => us = [] := ⟨[], rfl, nofun, List.map_eq_nil_iff.1⟩

theorem cons {kind : Kind} {lexeme : String} (hlexeme : Legible (kind, lexeme)) (h : Yields ls P) :
    Yields (lexeme :: ls) fun us => ∃ u vs, us = u :: vs ∧ u.kind = kind ∧
      u.lexeme = lexeme ∧ P vs := by
  obtain ⟨es, rfl, hlegible, hread⟩ := h
  refine ⟨(kind, lexeme) :: es, rfl, List.forall_mem_cons.2 ⟨hlexeme, hlegible⟩, fun hus => ?_⟩
  obtain ⟨u, vs, rfl, hu, hvs⟩ := List.map_eq_cons_iff.1 hus
  obtain ⟨hkind, htext⟩ := Prod.mk.inj hu
  exact ⟨u, vs, rfl, hkind, htext, hread hvs⟩

theorem append (h : Yields ls P) (h' : Yields ls' Q) :
    Yields (ls ++ ls') fun us => ∃ vs ws, us = vs ++ ws ∧ P vs ∧ Q ws := by
  obtain ⟨es, rfl, hlegible, hread⟩ := h
  obtain ⟨es', rfl, hlegible', hread'⟩ := h'
  refine ⟨es ++ es', List.map_append, List.forall_mem_append.2 ⟨hlegible, hlegible'⟩, fun hus => ?_⟩
  obtain ⟨vs, ws, rfl, hvs, hws⟩ := List.map_eq_append_iff.1 hus
  exact ⟨vs, ws, rfl, hread hvs, hread' hws⟩

theorem paren (h : Yields ls P) :
    Yields ("(" :: (ls ++ [")"])) fun us =>
      ∃ left vs right, us = left :: (vs ++ [right]) ∧ left.kind = .leftParen ∧
        right.kind = .rightParen ∧ P vs := by
  have hleft : Legible (.leftParen, "(") := legible_punctuation (by decide)
  have hright : Legible (.rightParen, ")") := legible_punctuation (by decide)
  refine ((h.append (nil.cons hright)).cons hleft).imp ?_
  rintro _ ⟨left, _, rfl, hleft, -, vs, _, rfl, hvs, right, _, rfl, hright, -, rfl⟩
  exact ⟨left, vs, right, rfl, hleft, hright, hvs⟩

end Yields

/-- Lexemes that spell a tree as an expression of a rank, up to places. -/
def Spells (n : Nat) (ls : List String) (t : Tree) : Prop :=
  Yields ls fun us => ∃ t', Expression (.ofRank n) us t' ∧ Like (fun _ _ => True) t t'

def SpellsItems (ls : List String) (ts : List Tree) : Prop :=
  Yields ls fun us => ∃ ts', Items us ts' ∧ LikeAll (fun _ _ => True) ts ts'

namespace Spells

variable {n m : Nat} {ls ls' : List String} {a b t : Tree} {ts : List Tree} {p : Position}

theorem mono (h : Spells n ls t) (hle : n ≤ m) : Spells m ls t := by
  refine Yields.imp h ?_
  rintro us ⟨t', hexpression, hlike⟩
  exact ⟨t', expression_mono hexpression hle, hlike⟩

theorem atom {kind : Kind} {lexeme : String} (hlegible : Legible (kind, lexeme))
    (h : ∀ {u : Token}, u.kind = kind → u.lexeme = lexeme →
      ∃ t', Expression .primary [u] t' ∧ Like (fun _ _ => True) t t') : Spells 0 [lexeme] t := by
  refine (Yields.nil.cons hlegible).imp ?_
  rintro _ ⟨u, _, rfl, hkind, hlexeme, rfl⟩
  exact h hkind hlexeme

theorem paren (h : Spells 7 ls t) : Spells 0 ("(" :: (ls ++ [")"])) t := by
  refine (Yields.paren h).imp ?_
  rintro _ ⟨left, us, right, rfl, hleft, hright, t', hexpression, hlike⟩
  exact ⟨t', .paren hleft hexpression hright, hlike⟩

/-- In its place an expression is held together, by parentheses or without. -/
theorem around (style : Style) (place : Place) (h : Spells t.rank ls t) :
    Spells place.rank (style.around place t ls) t := by
  unfold Style.around
  split
  · exact (h.mono t.rank_le).paren.mono (Nat.zero_le _)
  · rename_i hbare
    exact h.mono (Nat.le_of_not_lt fun hlt => hbare (style.needed hlt))

theorem unary {op : String} (hop : op = "+" ∨ op = "-") (h : Spells 1 ls a) :
    Spells 1 (op :: ls) (.unary op a p) := by
  obtain ⟨kind, hkind, hsign⟩ : ∃ kind, (kind = .plus ∨ kind = .minus) ∧ Legible (kind, op) := by
    rcases hop with rfl | rfl
    · exact ⟨.plus, Or.inl rfl, legible_operator (by decide)⟩
    · exact ⟨.minus, Or.inr rfl, legible_operator (by decide)⟩
  refine (Yields.cons hsign h).imp ?_
  rintro _ ⟨op, us, rfl, rfl, rfl, a', hexpression, hlike⟩
  exact ⟨_, .sign hkind hexpression, .unary hlike trivial⟩

theorem binary {o : Operator} (h : o ∈ operators) (hfirst : Spells o.first ls a)
    (hsecond : Spells o.second ls' b) :
    Spells o.rank (ls ++ o.symbol :: ls') (.binary a o.symbol b p) := by
  obtain ⟨kind, hkind, hsymbol, hjoins⟩ := exists_joins h
  have hoperator : Legible (kind, o.symbol) := hsymbol ▸ legible_operator hkind
  refine (Yields.append hfirst (Yields.cons hoperator hsecond)).imp ?_
  rintro _ ⟨us, _, rfl, ⟨a', hleft, hlike⟩, op, vs, rfl, rfl, hlexeme, b', hright, hlike'⟩
  refine ⟨_, .join hjoins hleft hright, ?_⟩
  rw [hlexeme]
  exact .binary hlike hlike' trivial

theorem single (h : Spells 7 ls t) : SpellsItems ls [t] := by
  refine Yields.imp h ?_
  rintro us ⟨t', hexpression, hlike⟩
  exact ⟨[t'], .one hexpression, .cons hlike .nil⟩

theorem comma (h : Spells 7 ls t) (hmore : SpellsItems ls' ts) :
    SpellsItems (ls ++ "," :: ls') (t :: ts) := by
  have hcomma : Legible (.comma, ",") := legible_punctuation (by decide)
  refine (Yields.append h (Yields.cons hcomma hmore)).imp ?_
  rintro _ ⟨us, _, rfl, ⟨t', hexpression, hlike⟩, separator, vs, rfl, hkind, -, ts', hitems, hlikes⟩
  exact ⟨t' :: ts', .more hexpression hkind hitems, .cons hlike hlikes⟩

theorem call_none (b : Builtin) : Spells 0 [b.name, "(", ")"] (.call b.name [] p) := by
  refine (Yields.nil.paren.cons (legible_name b)).imp ?_
  rintro _ ⟨u, _, rfl, hkind, hlexeme, left, _, right, rfl, hleft, hright, rfl⟩
  refine ⟨_, .call hkind (.none hleft hright), ?_⟩
  rw [hlexeme]
  exact .call .nil trivial

theorem call_some (b : Builtin) (h : SpellsItems ls ts) :
    Spells 0 (b.name :: "(" :: (ls ++ [")"])) (.call b.name ts p) := by
  refine ((Yields.paren h).cons (legible_name b)).imp ?_
  rintro _ ⟨u, _, rfl, hkind, hlexeme, left, us, right, rfl, hleft, hright, ts', hitems, hlikes⟩
  refine ⟨_, .call hkind (.some hleft hitems hright), ?_⟩
  rw [hlexeme]
  exact .call hlikes trivial

theorem int {n : Int} (hlow : 0 ≤ n) (hhigh : n ≤ Int32.greatest) :
    Spells 0 [toString n] (.literal (.int n) p) := by
  obtain ⟨k, rfl⟩ := Int.eq_ofNat_of_zero_le hlow
  have hdigits : (toString (k : Int)).toList = Nat.toDigits 10 k := String.toList_ofList
  have hfew : (Nat.toDigits 10 k).length ≤ 10 := by
    rw [Nat.length_toDigits_le_iff (by decide) (by decide)]
    simp only [Int32.greatest] at hhigh
    omega
  have hlegible : Legible (.number, toString (k : Int)) := by
    refine ⟨⟨.number, ⟨?_, ?_⟩, rfl⟩, fun _ => ?_⟩
    · rw [hdigits]
      exact Nat.toDigits_ne_nil
    · rw [hdigits]
      exact fun c hc => Nat.isDigit_of_mem_toDigits (by decide) (by decide) hc
    · rw [← String.length_toList, hdigits]
      exact Nat.le_trans hfew (by decide)
  refine atom hlegible fun {u} hkind hlexeme => ?_
  have hdecimal : u.decimal = k := by
    rw [Token.decimal, hlexeme, hdigits, Nat.ofDigitChars_ten_toDigits]
  refine ⟨_, .number hkind (hdecimal ▸ hhigh), ?_⟩
  rw [hdecimal]
  exact .literal trivial

theorem bool (b : Bool) : Spells 0 [toString b] (.literal (.bool b) p) := by
  refine atom (legible_keyword (by cases b <;> decide)) fun {u} hkind hlexeme =>
    ⟨_, .boolean hkind, ?_⟩
  have hvalue : (u.lexeme == "true") = b := by
    rw [hlexeme]
    cases b <;> decide
  rw [hvalue]
  exact .literal trivial

theorem text {s : String} (h : ∀ c ∈ s.toList, c ≠ '"' ∧ c ≠ '\n') :
    Spells 0 ["\"" ++ toString (Text.ofString s) ++ "\""] (.literal (.text s) p) := by
  have hlist : ("\"" ++ s ++ "\"").toList = '"' :: (s.toList ++ ['"']) := by
    rw [String.toList_append, String.toList_append]
    rfl
  have hlegible : Legible (.string, "\"" ++ s ++ "\"") :=
    ⟨⟨.string, ⟨s.toList, hlist, h⟩, rfl⟩, nofun⟩
  rw [Text.toString_ofString]
  refine atom hlegible fun {u} hkind hlexeme => ⟨_, .string hkind, ?_⟩
  have hvalue : unquote u.lexeme = s := by
    rw [unquote, hlexeme, hlist, List.drop_one, List.tail_cons, List.dropLast_concat,
      String.ofList_toList]
  rw [hvalue]
  exact .literal trivial

theorem name {name : String} (hword : Token.Rule.word.Describes name.toList)
    (hfree : ∀ k, (name, k) ∉ Kind.keywords) : Spells 0 [name] (.variable name p) := by
  have hlegible : Legible (.identifier, name) := by
    refine ⟨⟨.word, hword, Or.inr ⟨rfl, ?_⟩⟩, nofun⟩
    rwa [String.ofList_toList]
  refine atom hlegible fun {u} hkind hlexeme => ⟨_, .variable hkind, ?_⟩
  rw [hlexeme]
  exact .variable trivial

end Spells

theorem spellsItems_lexemes {style : Style} {t : Tree} {ts : List Tree}
    (h : ∀ a ∈ t :: ts, Spells a.rank (lexemes style a) a) :
    SpellsItems (itemLexemes style (t :: ts)) (t :: ts) := by
  induction ts generalizing t with
  | nil =>
    rw [itemLexemes]
    exact ((List.forall_mem_singleton.1 h).around style .argument).single
  | cons t' ts ih =>
    obtain ⟨hfirst, hmore⟩ := List.forall_mem_cons.1 h
    rw [itemLexemes]
    · exact (hfirst.around style .argument).comma (ih hmore)
    · exact List.cons_ne_nil t' ts

theorem spells_lexemes (style : Style) {t : Tree} (h : t.Spellable) :
    Spells t.rank (lexemes style t) t := by
  induction h with
  | int low high => exact .int low high
  | bool => exact .bool _
  | text inner => exact .text inner
  | «variable» word free => exact .name word free
  | @call b args p _ ih =>
    rw [lexemes]
    cases args with
    | nil => exact .call_none b
    | cons t ts => exact .call_some b (spellsItems_lexemes ih)
  | unary sign _ ih => exact .unary sign (ih.around style (.operand 1))
  | binary operator _ _ ih ih' =>
    rw [lexemes, rank, ofSymbol_symbol operator]
    exact .binary operator (ih.around style (.operand _)) (ih'.around style (.operand _))

theorem parseExpression_of_gives {tokens rest : List Token} {t : Tree}
    (h : Gives (readLevel (stopOf tokens) .expression (bodyOf tokens)) t rest) :
    parseExpression tokens = .ok t := by
  obtain ⟨_, hlevel⟩ := h
  rw [parseExpression, hlevel]

theorem Spells.readBack {ls : List String} {t : Tree} (h : Spells 7 ls t) :
    ReadBack (" ".intercalate ls) t := by
  obtain ⟨es, rfl, hlegible, hread⟩ := h
  obtain ⟨front, stop, hscans, hfront⟩ :=
    Token.exists_scans_spaced (fun e he => (hlegible e he).1) .start
  obtain ⟨t', hexpression, hlike⟩ := hread hfront
  have hmem {u : Token} (hu : u ∈ front) : Legible (bare u) :=
    hlegible _ (hfront ▸ List.mem_map_of_mem hu)
  have hreadable : ∀ u ∈ front, u.Readable := by
    refine fun u hu => ⟨hscans.plain u (List.mem_append_left _ hu), ?_⟩
    rintro ⟨hkind, hlong⟩
    exact Nat.not_lt.2 ((hmem hu).2 hkind) hlong
  have hbody : bodyOf (front ++ [⟨"", .endOfFile, stop⟩]) = front := by
    refine bodyOf_append (fun u hu => ?_) stop
    obtain ⟨⟨rule, -, hmakes⟩, -⟩ := hmem hu
    exact hmakes.ne_endOfFile
  have hgives (place : Position) : Gives (readLevel place .expression front) t' [] := by
    have hall :=
      (reads_of_expression place hexpression hreadable).gives (show Stops .expression [] from nofun)
    rwa [List.append_nil] at hall
  suffices hwhole : Gives (readLevel (stopOf (front ++ [⟨"", .endOfFile, stop⟩])) .expression
      (bodyOf (front ++ [⟨"", .endOfFile, stop⟩]))) t' [] from
    ⟨_, t', Token.scan_eq_ok_iff.2 hscans, hwhole, parseExpression_of_gives hwhole, hlike⟩
  rw [hbody]
  exact hgives _

/-- An expression that has been written is read back as it was: with the parentheses that it needs
alone, with all of them, and with any others besides those that it needs. -/
theorem written_expression_is_read_back {t : Tree} (h : t.Spellable) :
    ReadBack (written .spare t) t ∧ ReadBack (written .full t) t ∧
      ∀ style, ReadBack (written style t) t := by
  have hread (style : Style) : ReadBack (written style t) t :=
    ((spells_lexemes style h).around style .whole).readBack
  exact ⟨hread .spare, hread .full, hread⟩

/-- An expression with operands that have to stand in parentheses: a comparison below a comparison,
a power below a sign, and a difference on the right of a difference. -/
def tangled : Tree :=
  let name (s : String) : Tree := .variable s .whole
  let number (n : Int) : Tree := .literal (.int n) .whole
  let power (a b : Tree) : Tree := .binary a "**" b .whole
  let minus (a b : Tree) : Tree := .binary a "-" b .whole
  .binary (.binary (name "a") "<" (name "b") .whole) "=="
    (power (.unary "-" (power (name "x") (number 2)) .whole)
      (power (number 3) (.call "IsBrushSize" [minus (number 1) (minus (number 4) (number 5)),
        .literal (.text "a b") .whole] .whole))) .whole

theorem tangled_expression_is_read_back :
    written .spare tangled =
      "( a < b ) == - ( x ** 2 ) ** 3 ** IsBrushSize ( 1 - ( 4 - 5 ) , \"a b\" )" ∧
    written .full tangled =
      "( ( a < b ) == ( ( - ( x ** 2 ) ) ** ( 3 ** IsBrushSize ( ( 1 - ( 4 - 5 ) ) , \"a b\" ) ) ) )" ∧
    ReadBack (written .spare tangled) tangled ∧ ReadBack (written .full tangled) tangled := by
  have hname {s : String} (hword : Token.Rule.word.Describes s.toList)
      (hfree : Kind.keywords.lookup s = none) : Spellable (.variable s .whole) :=
      .variable hword (Token.lookup_keywords_eq_none_iff.1 hfree)
  have hpower {a b : Tree} (ha : a.Spellable) (hb : b.Spellable) :
      Spellable (.binary a "**" b .whole) :=
    .binary (o := ⟨"**", 2, .right⟩) (by decide) ha hb
  have hminus {a b : Tree} (ha : a.Spellable) (hb : b.Spellable) :
      Spellable (.binary a "-" b .whole) :=
    .binary (o := ⟨"-", 4, .left⟩) (by decide) ha hb
  have hdifference :
      Spellable (.binary (.literal (.int 4) .whole) "-" (.literal (.int 5) .whole) .whole) :=
    hminus (.int (by decide) (by decide)) (.int (by decide) (by decide))
  have hspellable : tangled.Spellable := by
    refine .binary (o := ⟨"==", 5, .none⟩) (by decide)
      (.binary (o := ⟨"<", 5, .none⟩) (by decide) ?_ ?_)
      (hpower (.unary (Or.inr rfl) (hpower ?_ (.int (by decide) (by decide))))
        (hpower (.int (by decide) (by decide)) (.call (b := .isBrushSize) ?_)))
    · exact hname ⟨'a', [], rfl, by decide, nofun⟩ (by decide)
    · exact hname ⟨'b', [], rfl, by decide, nofun⟩ (by decide)
    · exact hname ⟨'x', [], rfl, by decide, nofun⟩ (by decide)
    · exact List.forall_mem_cons.2
        ⟨hminus (.int (by decide) (by decide)) hdifference,
          List.forall_mem_singleton.2 (.text (by simp))⟩
  obtain ⟨hspare, hfull, -⟩ := written_expression_is_read_back hspellable
  exact ⟨by decide +kernel, by decide +kernel, hspare, hfull⟩

end Brushwork.Tree
