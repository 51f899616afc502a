import Brushwork.Tree.Parser

/-!
# Places and what is read

The parser looks at kinds and lexemes of tokens. Their places it only hands on: to the nodes of
trees and to refusals. So two lines of tokens that differ in places alone are read alike, and
whatever relation holds between the places of the tokens holds between those of the trees. What
stands behind the newline at the end of a line is not looked at before the next statement is read,
so the relation may be another one on each line.
-/

namespace Brushwork

mutual

/-- Two trees that differ in places alone, which are related. -/
inductive Tree.Like (Q : Position → Position → Prop) : Tree → Tree → Prop
  | spawn {x y : Int} {p p' : Position} (place : Q p p') :
    Tree.Like Q (.spawn x y p) (.spawn x y p')
  | assign {name : String} {expr expr' : Tree} {p p' : Position} (value : Tree.Like Q expr expr')
      (place : Q p p') :
    Tree.Like Q (.assign name expr p) (.assign name expr' p')
  | label {name : String} {p p' : Position} (place : Q p p') :
    Tree.Like Q (.label name p) (.label name p')
  | goto {target : String} {condition condition' : Tree} {p p' : Position}
      (decision : Tree.Like Q condition condition') (place : Q p p') :
    Tree.Like Q (.goto target condition p) (.goto target condition' p')
  | call {name : String} {args args' : List Tree} {p p' : Position}
      (arguments : Tree.LikeAll Q args args') (place : Q p p') :
      Tree.Like Q (.call name args p) (.call name args' p')
  | literal {value : Value} {p p' : Position} (place : Q p p') :
    Tree.Like Q (.literal value p) (.literal value p')
  | variable {name : String} {p p' : Position} (place : Q p p') :
    Tree.Like Q (.variable name p) (.variable name p')
  | binary {op : String} {left left' right right' : Tree} {p p' : Position}
      (first : Tree.Like Q left left') (second : Tree.Like Q right right') (place : Q p p') :
    Tree.Like Q (.binary left op right p) (.binary left' op right' p')
  | unary {op : String} {operand operand' : Tree} {p p' : Position}
      (inner : Tree.Like Q operand operand') (place : Q p p') :
      Tree.Like Q (.unary op operand p) (.unary op operand' p')

inductive Tree.LikeAll (Q : Position → Position → Prop) : List Tree → List Tree → Prop
  | nil : Tree.LikeAll Q [] []
  | cons {t t' : Tree} {ts ts' : List Tree} (first : Tree.Like Q t t')
      (others : Tree.LikeAll Q ts ts') :
    Tree.LikeAll Q (t :: ts) (t' :: ts')

end

namespace Token

/-- Two tokens that differ in their places alone, which are related. -/
structure Like (Q : Position → Position → Prop) (t t' : Token) : Prop where
  kind : t.kind = t'.kind
  lexeme : t.lexeme = t'.lexeme
  place : Q t.position t'.position

/-- Two lines of tokens, alike up to the newline at their ends. What is behind it is in a relation
of its own. -/
inductive Abreast (Q : Position → Position → Prop) (B : List Token → List Token → Prop) :
    List Token → List Token → Prop
  | nil : Abreast Q B [] []
  | token {t t' : Token} {ts ts' : List Token} (like : t.Like Q t') (inner : t.kind ≠ .newline)
      (rest : Abreast Q B ts ts') : Abreast Q B (t :: ts) (t' :: ts')
  | newline {t t' : Token} {ts ts' : List Token} (like : t.Like Q t') (last : t.kind = .newline)
      (behind : B ts ts') : Abreast Q B (t :: ts) (t' :: ts')

variable {Q : Position → Position → Prop} {B : List Token → List Token → Prop} {t t' : Token}
  {ts ts' : List Token}

theorem Abreast.like (h : Abreast Q B (t :: ts) (t' :: ts')) : t.Like Q t' := by
  cases h with
  | token like | newline like => exact like

theorem Abreast.rest {kind : Kind} (h : Abreast Q B (t :: ts) (t' :: ts')) (ht : t.kind = kind)
    (hkind : kind ≠ .newline) : Abreast Q B ts ts' := by
  cases h with
  | token _ _ rest => exact rest
  | newline _ last => exact absurd (ht.symm.trans last) hkind

theorem Abreast.exists_cons {us : List Token} (h : Abreast Q B (t :: ts) us) :
    ∃ t' ts', us = t' :: ts' := by
  cases h with
  | token | newline => exact ⟨_, _, rfl⟩

theorem Abreast.drop {kind : Kind} (h : Abreast Q B ts ts')
    (ht : ts.head?.map Token.kind = some kind) (hkind : kind ≠ .newline) :
    Abreast Q B (ts.drop 1) (ts'.drop 1) := by
  cases h with
  | nil => exact .nil
  | token _ _ rest => exact rest
  | newline _ last => exact absurd (last.symm.trans (Option.some.inj ht)).symm hkind

theorem Abreast.head?_kind (h : Abreast Q B ts ts') :
    ts.head?.map Token.kind = ts'.head?.map Token.kind := by
  cases h with
  | nil => rfl
  | token like | newline like => exact congrArg some like.kind

end Token

namespace Tree

open Token (Abreast)

/-- Two readings alike: values in a relation and rests abreast, or the same refusal at places in a
relation. -/
inductive Echoes {α : Type} (Q E : Position → Position → Prop) (B : List Token → List Token → Prop)
    (V : α → α → Prop) {n n' : Nat} :
    Except Refusal (Parsed α n) → Except Refusal (Parsed α n') → Prop
  | ok {a a' : α} {rest rest' : List Token} {h : rest.length < n} {h' : rest'.length < n'}
      (value : V a a') (abreast : Abreast Q B rest rest') :
      Echoes Q E B V (.ok ⟨a, rest, h⟩) (.ok ⟨a', rest', h'⟩)
  | located {cause : Cause} {p p' : Position} (place : E p p') :
    Echoes Q E B V (.error (.located ⟨cause, p⟩)) (.error (.located ⟨cause, p'⟩))
  | notNumeral {lexeme : String} :
    Echoes Q E B V (.error (.notNumeral lexeme)) (.error (.notNumeral lexeme))

section

variable {Q E : Position → Position → Prop} {B : List Token → List Token → Prop}
  {stop stop' : Position} {ts ts' : List Token} {t t' : Token}

/-- To read `y` by reading `x` first: a refusal of `x` is one of `y`, and behind what `x` has read
the rest of `y` is to be compared. -/
theorem Echoes.andThen {α β : Type} {V : α → α → Prop} {W : β → β → Prop} {n n' k k' : Nat}
    {x : Except Refusal (Parsed α n)} {x' : Except Refusal (Parsed α n')}
    {y : Except Refusal (Parsed β k)} {y' : Except Refusal (Parsed β k')} (hx : Echoes Q E B V x x')
    (herror : ∀ e, x = .error e → y = .error e) (herror' : ∀ e, x' = .error e → y' = .error e)
    (hok : ∀ a a' rest rest' h h', x = .ok ⟨a, rest, h⟩ → x' = .ok ⟨a', rest', h'⟩ → V a a' →
      Abreast Q B rest rest' → Echoes Q E B W y y') : Echoes Q E B W y y' := by
  cases hx with
  | ok value abreast => exact hok _ _ _ _ _ _ rfl rfl value abreast
  | located place =>
    rw [herror _ rfl, herror' _ rfl]
    exact .located place
  | notNumeral =>
    rw [herror _ rfl, herror' _ rfl]
    exact .notNumeral

theorem ne_newline_of_mem_operators {c : Chain} {kind : Token.Kind} (h : kind ∈ c.operators) :
    kind ≠ .newline := by
  rintro rfl
  cases c <;> exact absurd h (by decide)

theorem ne_newline_of_mem_comparisons {kind : Token.Kind} (h : kind ∈ comparisons) :
    kind ≠ .newline := by
  rintro rfl
  exact absurd h (by decide)

theorem ne_newline_of_mem_signs {kind : Token.Kind} (h : kind ∈ signs) : kind ≠ .newline := by
  rintro rfl
  exact absurd h (by decide)

/-- How the places of refusals are related: as those of tokens are, or as the two ends of the
tokens. -/
structure Bounds (Q E : Position → Position → Prop) (stop stop' : Position) : Prop where
  inner : ∀ {p p' : Position}, Q p p' → E p p'
  stop : E stop stop'

theorem echoes_expect (hE : Bounds Q E stop stop') (kind : Token.Kind) (hkind : kind ≠ .newline)
    (what : Wanted) (h : Abreast Q B ts ts') :
    Echoes Q E B (Token.Like Q) (expect stop kind what ts) (expect stop' kind what ts') := by
  cases h with
  | nil => exact .located hE.stop
  | @token t t' ts ts' like inner rest =>
    rw [expect, expect, ← like.kind, ← like.lexeme]
    split
    · exact .ok like rest
    · exact .located (hE.inner like.place)
  | @newline t t' ts ts' like last behind =>
    rw [expect, expect, ← like.kind, ← like.lexeme, last, if_neg hkind.symm, if_neg hkind.symm]
    exact .located (hE.inner like.place)

theorem readNumeral_like (h : t.Like Q t') (negative : Bool) :
    (∃ n, readNumeral t negative = .ok n ∧ readNumeral t' negative = .ok n) ∨
    (∃ cause, readNumeral t negative = .error (.located ⟨cause, t.position⟩) ∧
      readNumeral t' negative = .error (.located ⟨cause, t'.position⟩)) ∨
    ∃ lexeme, readNumeral t negative = .error (.notNumeral lexeme) ∧
      readNumeral t' negative = .error (.notNumeral lexeme) := by
  rw [readNumeral, readNumeral, ← h.lexeme]
  cases Numeral.read? t.lexeme.toList with
  | none => exact Or.inr (Or.inr ⟨_, rfl, rfl⟩)
  | some n =>
    dsimp only
    generalize (if negative = true then -n else n) = k
    split
    · exact Or.inl ⟨k, rfl, rfl⟩
    · exact Or.inr (Or.inl ⟨_, rfl, rfl⟩)

mutual

/-- Every level reads lines that are abreast alike. The recursion is that of the parser on the first
of them. -/
theorem echoes_readLevel (hE : Bounds Q E stop stop') : ∀ (level : Level) {ts ts' : List Token},
    Abreast Q B ts ts' → Echoes Q E B (Like Q) (readLevel stop level ts) (readLevel stop' level ts')
  | .chain c, ts, ts', h => by
    have := c.rank_tighter_lt
    rw [readLevel.eq_1 stop, readLevel.eq_1 stop']
    refine (echoes_readLevel hE c.tighter h).andThen (fun e he => by simp only [he])
      (fun e he => by simp only [he]) ?_
    intro left left' rest rest' hlt _ hleft hleft' hlike hrest
    simp only [hleft, hleft']
    refine (echoes_readChain hE c hlike hrest).andThen (fun e he => by simp only [he])
      (fun e he => by simp only [he]) ?_
    intro tree tree' more more' _ _ htree htree' hlike' hmore
    simp only [htree, htree']
    exact .ok hlike' hmore
  | .comparison, ts, ts', h => by
    rw [readLevel.eq_2 stop, readLevel.eq_2 stop']
    refine (echoes_readLevel hE (.chain .sum) h).andThen (fun e he => by simp only [he])
      (fun e he => by simp only [he]) ?_
    intro left left' rest rest' hlt _ hleft hleft' hlike hrest
    rcases rest with _ | ⟨op, more⟩
    · cases hrest
      simp only [hleft, hleft']
      exact .ok hlike .nil
    · obtain ⟨op', more', rfl⟩ := hrest.exists_cons
      have hshorter : more.length + 1 < ts.length := hlt
      have hop := hrest.like
      simp only [hleft, hleft', ← hop.kind, ← hop.lexeme]
      split
      · rename_i hcomparison
        have hmore := hrest.rest rfl (ne_newline_of_mem_comparisons hcomparison)
        refine (echoes_readLevel hE (.chain .sum) hmore).andThen (fun e he => by simp only [he])
          (fun e he => by simp only [he]) ?_
        intro right right' rest rest' _ _ hright hright' hlike' hrest'
        simp only [hright, hright']
        exact .ok (.binary hlike hlike' hop.place) hrest'
      · exact .ok hlike hrest
  | .power, ts, ts', h => by
    rw [readLevel.eq_3 stop, readLevel.eq_3 stop']
    refine (echoes_readLevel hE .sign h).andThen (fun e he => by simp only [he])
      (fun e he => by simp only [he]) ?_
    intro base base' rest rest' hlt _ hbase hbase' hlike hrest
    rcases rest with _ | ⟨op, more⟩
    · cases hrest
      simp only [hbase, hbase']
      exact .ok hlike .nil
    · obtain ⟨op', more', rfl⟩ := hrest.exists_cons
      have hshorter : more.length + 1 < ts.length := hlt
      have hop := hrest.like
      simp only [hbase, hbase', ← hop.kind, ← hop.lexeme]
      split
      · rename_i hpower
        refine (echoes_readLevel hE .power (hrest.rest hpower nofun)).andThen
          (fun e he => by simp only [he]) (fun e he => by simp only [he]) ?_
        intro exponent exponent' rest rest' _ _ hexponent hexponent' hlike' hrest'
        simp only [hexponent, hexponent']
        exact .ok (.binary hlike hlike' hop.place) hrest'
      · exact .ok hlike hrest
  | .sign, [], ts', h => by
    cases h
    rw [readLevel.eq_4 stop, readLevel.eq_4 stop']
    exact echoes_readLevel hE .primary .nil
  | .sign, op :: more, ts', h => by
    obtain ⟨op', more', rfl⟩ := h.exists_cons
    have hop := h.like
    rw [readLevel.eq_5 stop, readLevel.eq_5 stop', ← hop.kind, ← hop.lexeme]
    split
    · rename_i hsign
      have hmore := h.rest rfl (ne_newline_of_mem_signs hsign)
      refine (echoes_readLevel hE .sign hmore).andThen (fun e he => by simp only [he])
        (fun e he => by simp only [he]) ?_
      intro operand operand' rest rest' _ _ hoperand hoperand' hlike hrest
      simp only [hoperand, hoperand']
      exact .ok (.unary hlike hop.place) hrest
    · exact echoes_readLevel hE .primary h
  | .primary, [], ts', h => by
    cases h
    rw [readLevel.eq_6 stop, readLevel.eq_6 stop']
    exact .located hE.stop
  | .primary, t :: more, ts', h => by
    obtain ⟨t', more', rfl⟩ := h.exists_cons
    have ht := h.like
    rw [readLevel.eq_7 stop, readLevel.eq_7 stop', ← ht.kind, ← ht.lexeme]
    cases hkind : t.kind with
    | leftParen =>
      refine (echoes_readLevel hE .expression (h.rest hkind nofun)).andThen
        (fun e he => by simp only [he]) (fun e he => by simp only [he]) ?_
      intro inner inner' rest rest' _ _ hinner hinner' hlike hrest
      simp only [hinner, hinner']
      refine (echoes_expect hE .rightParen nofun .parenAfterExpression hrest).andThen
        (fun e he => by simp only [he]) (fun e he => by simp only [he]) ?_
      intro close close' rest rest' _ _ hclose hclose' _ hrest
      simp only [hclose, hclose']
      exact .ok hlike hrest
    | boolean => exact .ok (.literal ht.place) (h.rest hkind nofun)
    | number =>
      rcases readNumeral_like ht false with ⟨n, hn, hn'⟩ | ⟨cause, hn, hn'⟩ | ⟨lexeme, hn, hn'⟩
      · simp only [hn, hn']
        exact .ok (.literal ht.place) (h.rest hkind nofun)
      · simp only [hn, hn']
        exact .located (hE.inner ht.place)
      · simp only [hn, hn']
        exact .notNumeral
    | string => exact .ok (.literal ht.place) (h.rest hkind nofun)
    | builtin b =>
      refine (echoes_readArguments hE t.lexeme (h.rest hkind nofun)).andThen
        (fun e he => by simp only [he]) (fun e he => by simp only [he]) ?_
      intro args args' rest rest' _ _ hargs hargs' hlike hrest
      simp only [hargs, hargs']
      exact .ok (.call hlike ht.place) hrest
    | identifier => exact .ok (.variable ht.place) (h.rest hkind nofun)
    | _ => exact .located (hE.inner ht.place)
termination_by level ts => 10 * ts.length + level.rank
decreasing_by
  all_goals try simp
  all_goals omega

theorem echoes_readChain (hE : Bounds Q E stop stop') :
    ∀ (c : Chain) {left left' : Tree} {ts ts' : List Token}, Like Q left left' →
      Abreast Q B ts ts' →
      Echoes Q E B (Like Q) (readChain stop c left ts) (readChain stop' c left' ts')
  | c, left, left', [], ts', hlike, h => by
    cases h
    rw [readChain.eq_1 stop, readChain.eq_1 stop']
    exact .ok hlike .nil
  | c, left, left', op :: more, ts', hlike, h => by
    obtain ⟨op', more', rfl⟩ := h.exists_cons
    have := c.tighter.rank_le
    have hop := h.like
    rw [readChain.eq_2 stop, readChain.eq_2 stop', ← hop.kind, ← hop.lexeme]
    split
    · rename_i hoperator
      dsimp only
      have hmore := h.rest rfl (ne_newline_of_mem_operators hoperator)
      refine (echoes_readLevel hE c.tighter hmore).andThen (fun e he => by simp only [he])
        (fun e he => by simp only [he]) ?_
      intro right right' rest rest' hlt _ hright hright' hlike' hrest
      simp only [hright, hright']
      have hjoined :
          Like Q (.binary left op.lexeme right op.position)
            (.binary left' op.lexeme right' op'.position) :=
        .binary hlike hlike' hop.place
      refine (echoes_readChain hE c hjoined hrest).andThen (fun e he => by simp only [he])
        (fun e he => by simp only [he]) ?_
      intro tree tree' rest rest' _ _ htree htree' hlike'' hrest'
      simp only [htree, htree']
      exact .ok hlike'' hrest'
    · exact .ok hlike h
termination_by _ _ _ ts => 10 * ts.length
decreasing_by
  all_goals simp only [List.length_cons]
  all_goals omega

theorem echoes_readArguments (hE : Bounds Q E stop stop') (name : String) {ts ts' : List Token}
    (h : Abreast Q B ts ts') :
    Echoes Q E B (LikeAll Q) (readArguments stop name ts) (readArguments stop' name ts') := by
  rw [readArguments.eq_1 stop, readArguments.eq_1 stop']
  refine (echoes_expect hE .leftParen nofun (.parenAfterName name) h).andThen
    (fun e he => by simp only [he]) (fun e he => by simp only [he]) ?_
  intro left left' rest rest' hlt _ hleft hleft' _ hrest
  simp only [hleft, hleft', ← hrest.head?_kind]
  split
  · rename_i hright
    exact .ok .nil (hrest.drop hright nofun)
  · refine (echoes_readItems hE hrest).andThen (fun e he => by simp only [he])
      (fun e he => by simp only [he]) ?_
    intro args args' rest rest' _ _ hargs hargs' hlike hrest'
    simp only [hargs, hargs']
    refine (echoes_expect hE .rightParen nofun .parenAfterArguments hrest').andThen
      (fun e he => by simp only [he]) (fun e he => by simp only [he]) ?_
    intro close close' rest rest' _ _ hclose hclose' _ hrest''
    simp only [hclose, hclose']
    exact .ok hlike hrest''
termination_by 10 * ts.length

theorem echoes_readItems (hE : Bounds Q E stop stop') {ts ts' : List Token}
    (h : Abreast Q B ts ts') :
    Echoes Q E B (LikeAll Q) (readItems stop ts) (readItems stop' ts') := by
  rw [readItems.eq_1 stop, readItems.eq_1 stop']
  refine (echoes_readLevel hE .expression h).andThen (fun e he => by simp only [he])
    (fun e he => by simp only [he]) ?_
  intro first first' rest rest' hlt _ hfirst hfirst' hlike hrest
  rcases rest with _ | ⟨comma, more⟩
  · cases hrest
    simp only [hfirst, hfirst']
    exact .ok (.cons hlike .nil) .nil
  · obtain ⟨comma', more', rfl⟩ := hrest.exists_cons
    have hshorter : more.length + 1 < ts.length := hlt
    simp only [hfirst, hfirst', ← hrest.like.kind]
    split
    · rename_i hcomma
      refine (echoes_readItems hE (hrest.rest hcomma nofun)).andThen (fun e he => by simp only [he])
        (fun e he => by simp only [he]) ?_
      intro others others' rest rest' _ _ hothers hothers' hlike' hrest'
      simp only [hothers, hothers']
      exact .ok (.cons hlike hlike') hrest'
    · exact .ok (.cons hlike .nil) hrest
termination_by 10 * ts.length + 8
decreasing_by
  all_goals try rw [Level.rank_expression]
  all_goals omega

end

theorem echoes_readCoordinate (hE : Bounds Q E stop stop') (what : Wanted)
    (h : Abreast Q B ts ts') :
    Echoes Q E B Eq (readCoordinate stop what ts) (readCoordinate stop' what ts') := by
  have hnumber : Abreast Q B (if ts.head?.map Token.kind = some .minus then ts.drop 1 else ts)
      (if ts'.head?.map Token.kind = some .minus then ts'.drop 1 else ts') := by
    rw [← h.head?_kind]
    split
    · rename_i hminus
      exact h.drop hminus nofun
    · exact h
  have hsign :
      decide (ts'.head?.map Token.kind = some .minus) =
        decide (ts.head?.map Token.kind = some .minus) := by
    rw [h.head?_kind]
  unfold readCoordinate
  dsimp only
  refine (echoes_expect hE .number nofun what hnumber).andThen (fun e he => by simp only [he])
    (fun e he => by simp only [he]) ?_
  intro t t' rest rest' _ _ ht ht' hlike hrest
  simp only [ht, ht', hsign]
  rcases readNumeral_like hlike (decide (ts.head?.map Token.kind = some .minus)) with
    ⟨n, hn, hn'⟩ | ⟨cause, hn, hn'⟩ | ⟨lexeme, hn, hn'⟩
  · simp only [hn, hn']
    exact .ok rfl hrest
  · simp only [hn, hn']
    exact .located (hE.inner hlike.place)
  · simp only [hn, hn']
    exact .notNumeral

theorem echoes_readStatement (hE : Bounds Q E stop stop') (ht : t.Like Q t')
    (h : Abreast Q B ts ts') :
    Echoes Q E B (Like Q) (readStatement stop t ts) (readStatement stop' t' ts') := by
  unfold readStatement
  rw [← ht.kind, ← ht.lexeme]
  cases hkind : t.kind with
  | spawn =>
    refine (echoes_expect hE .leftParen nofun .parenAfterSpawn h).andThen
      (fun e he => by simp only [he]) (fun e he => by simp only [he]) ?_
    intro _ _ r1 r1' _ _ h1 h1' _ hr1
    simp only [h1, h1']
    refine (echoes_readCoordinate hE .xCoordinate hr1).andThen (fun e he => by simp only [he])
      (fun e he => by simp only [he]) ?_
    rintro x _ r2 r2' _ _ h2 h2' rfl hr2
    simp only [h2, h2']
    refine (echoes_expect hE .comma nofun .commaBetweenCoordinates hr2).andThen
      (fun e he => by simp only [he]) (fun e he => by simp only [he]) ?_
    intro _ _ r3 r3' _ _ h3 h3' _ hr3
    simp only [h3, h3']
    refine (echoes_readCoordinate hE .yCoordinate hr3).andThen (fun e he => by simp only [he])
      (fun e he => by simp only [he]) ?_
    rintro y _ r4 r4' _ _ h4 h4' rfl hr4
    simp only [h4, h4']
    refine (echoes_expect hE .rightParen nofun .parenAfterCoordinates hr4).andThen
      (fun e he => by simp only [he]) (fun e he => by simp only [he]) ?_
    intro _ _ r5 r5' _ _ h5 h5' _ hr5
    simp only [h5, h5']
    exact .ok (.spawn ht.place) hr5
  | builtin b =>
    refine (echoes_readArguments hE t.lexeme h).andThen (fun e he => by simp only [he])
      (fun e he => by simp only [he]) ?_
    intro args args' rest rest' _ _ hargs hargs' hlike hrest
    simp only [hargs, hargs']
    exact .ok (.call hlike ht.place) hrest
  | goto =>
    refine (echoes_expect hE .leftBracket nofun .bracketAfterGoTo h).andThen
      (fun e he => by simp only [he]) (fun e he => by simp only [he]) ?_
    intro _ _ r1 r1' _ _ h1 h1' _ hr1
    simp only [h1, h1']
    refine (echoes_expect hE .identifier nofun .targetLabel hr1).andThen
      (fun e he => by simp only [he]) (fun e he => by simp only [he]) ?_
    intro name name' r2 r2' _ _ h2 h2' hname hr2
    simp only [h2, h2', ← hname.lexeme]
    refine (echoes_expect hE .rightBracket nofun .bracketAfterLabel hr2).andThen
      (fun e he => by simp only [he]) (fun e he => by simp only [he]) ?_
    intro _ _ r3 r3' _ _ h3 h3' _ hr3
    simp only [h3, h3']
    refine (echoes_expect hE .leftParen nofun .parenBeforeCondition hr3).andThen
      (fun e he => by simp only [he]) (fun e he => by simp only [he]) ?_
    intro _ _ r4 r4' _ _ h4 h4' _ hr4
    simp only [h4, h4']
    refine (echoes_readLevel hE .expression hr4).andThen (fun e he => by simp only [he])
      (fun e he => by simp only [he]) ?_
    intro condition condition' r5 r5' _ _ h5 h5' hlike hr5
    simp only [h5, h5']
    refine (echoes_expect hE .rightParen nofun .parenAfterCondition hr5).andThen
      (fun e he => by simp only [he]) (fun e he => by simp only [he]) ?_
    intro _ _ r6 r6' _ _ h6 h6' _ hr6
    simp only [h6, h6']
    exact .ok (.goto hlike ht.place) hr6
  | identifier =>
    have hlabel : Echoes Q E B (Like Q)
        (if t.lexeme.toList.any Text.isBlank then refuse .blankInLabel t.position
          else Except.ok (Parsed.mk (.label t.lexeme t.position) ts (Nat.lt_succ_self ts.length)))
        (if t.lexeme.toList.any Text.isBlank then refuse .blankInLabel t'.position
          else Except.ok
            (Parsed.mk (.label t.lexeme t'.position) ts' (Nat.lt_succ_self ts'.length))) := by
      split
      · exact .located (hE.inner ht.place)
      · exact .ok (.label ht.place) h
    dsimp only
    rw [← h.head?_kind]
    cases hhead : ts.head?.map Token.kind with
    | none => exact hlabel
    | some kind =>
      cases kind with
      | newline | leftBracket => exact hlabel
      | assign =>
        refine (echoes_readLevel hE .expression (h.drop hhead nofun)).andThen
          (fun e he => by simp only [he]) (fun e he => by simp only [he]) ?_
        intro expr expr' rest rest' _ _ hexpr hexpr' hlike hrest
        simp only [hexpr, hexpr']
        exact .ok (.assign hlike ht.place) hrest
      | _ => exact .located (hE.inner ht.place)
  | _ => exact .located (hE.inner ht.place)

/-! ### Statements and programs -/

theorem skipNewlines_of_newline (h : t.kind = .newline) :
    skipNewlines (t :: ts) = skipNewlines ts :=
  List.dropWhile_cons_of_pos (decide_eq_true h)

theorem skipNewlines_of_ne (h : t.kind ≠ .newline) : skipNewlines (t :: ts) = t :: ts :=
  List.dropWhile_cons_of_neg (by simpa using h)

/-- Two readings that come to the same: values in a relation, or the same refusal at places in a
relation. -/
inductive Concur {α : Type} (E : Position → Position → Prop) (V : α → α → Prop) :
    Except Refusal α → Except Refusal α → Prop
  | ok {a a' : α} (value : V a a') : Concur E V (.ok a) (.ok a')
  | located {cause : Cause} {p p' : Position} (place : E p p') :
    Concur E V (.error (.located ⟨cause, p⟩)) (.error (.located ⟨cause, p'⟩))
  | notNumeral {lexeme : String} :
    Concur E V (.error (.notNumeral lexeme)) (.error (.notNumeral lexeme))

inductive Paired (V : Tree → Tree → Prop) : List Tree → List Tree → Prop
  | nil : Paired V [] []
  | cons {s s' : Tree} {ss ss' : List Tree} (first : V s s') (others : Paired V ss ss') :
    Paired V (s :: ss) (s' :: ss')

/-- A relation between tokens that leads from line to line: behind the newlines in front they stand
abreast, and at the end of that line they are in the relation again. The places of a line have a
relation of their own. -/
def Leads (R : List Token → List Token → Prop) (E : Position → Position → Prop)
    (V : Tree → Tree → Prop) (stop stop' : Position) : Prop :=
  ∀ {us us' : List Token}, R us us' → ∃ Q, Bounds Q E stop stop' ∧
    (∀ {s s'}, Like Q s s' → V s s') ∧ Abreast Q R (skipNewlines us) (skipNewlines us')

variable {R : List Token → List Token → Prop} {V : Tree → Tree → Prop}

/-- Line by line, tokens in such a relation are read alike. -/
theorem concur_readStatements (hR : Leads R E V stop stop') {ts ts' : List Token} (h : R ts ts') :
    Concur E (Paired V) (readStatements stop (skipNewlines ts))
      (readStatements stop' (skipNewlines ts')) := by
  obtain ⟨Q, hbounds, hlike, habreast⟩ := hR h
  have hlength := length_skipNewlines_le ts
  have hfirst := List.head?_dropWhile_not (fun t : Token => decide (t.kind = .newline)) ts
  rw [show ts.dropWhile _ = skipNewlines ts from rfl] at hfirst
  generalize skipNewlines ts = us at habreast hlength hfirst ⊢
  generalize skipNewlines ts' = us' at habreast ⊢
  cases habreast with
  | nil =>
    rw [readStatements.eq_1 stop, readStatements.eq_1 stop']
    exact .ok .nil
  | newline like last behind => simp [last] at hfirst
  | @token t t' more more' like inner rest =>
    have hread := echoes_readStatement hbounds like rest
    rw [readStatements.eq_2 stop, readStatements.eq_2 stop']
    generalize readStatement stop t more = x at hread ⊢
    generalize readStatement stop' t' more' = x' at hread ⊢
    cases hread with
    | located place => exact .located place
    | notNumeral => exact .notNumeral
    | @ok s s' behind behind' hlt _ value abreast =>
      cases abreast with
      | nil => exact .ok (.cons (hlike value) .nil)
      | token like inner rest =>
        simp only [← like.kind, inner, if_false, ← like.lexeme]
        exact .located (hbounds.inner like.place)
      | @newline next next' rest rest' like last hrest =>
        simp only [← like.kind, last, if_true]
        have hshorter : rest.length < ts.length := by
          simp only [List.length_cons] at hlt hlength
          omega
        have hothers := concur_readStatements hR hrest
        generalize readStatements stop (skipNewlines rest) = y at hothers ⊢
        generalize readStatements stop' (skipNewlines rest') = y' at hothers ⊢
        cases hothers with
        | ok others => exact .ok (.cons (hlike value) others)
        | located place => exact .located place
        | notNumeral => exact .notNumeral
termination_by ts.length

theorem concur_parse (hR : Leads R E V (stopOf ts) (stopOf ts'))
    (hstop : E (stopOf ts) (stopOf ts')) (h : R (bodyOf ts) (bodyOf ts')) :
    Concur E (fun program program' => program.statements ≠ [] ∧
        Paired V program.statements program'.statements)
      (parse ts) (parse ts') := by
  have hread := concur_readStatements hR h
  unfold parse
  generalize readStatements (stopOf ts) (skipNewlines (bodyOf ts)) = x at hread ⊢
  generalize readStatements (stopOf ts') (skipNewlines (bodyOf ts')) = x' at hread ⊢
  cases hread with
  | located place => exact .located place
  | notNumeral => exact .notNumeral
  | ok value =>
    cases value with
    | nil => exact .located hstop
    | cons first others => exact .ok ⟨List.cons_ne_nil _ _, .cons first others⟩

end

end Tree

end Brushwork
