import Brushwork.Proofs.ParserSoundness

/-!
# What is derived is read

The grammar says which tokens make up an expression, and the parser takes off as many tokens as it
can. Both agree because the token behind an expression cannot go on with it. On a level that groups
to the left, the derivation ends with the last operand while the parser starts with the first;
there, what is read off is told by what the parser makes of the operands that are still to come.

Since the parser has one answer, a list of tokens derives one program at most. Numbers that the
parser does not read are no exception: with fewer digits the same tokens derive the same programs.
-/

namespace Brushwork

namespace Tree

open Grammar

def Gives {α : Type} {n : Nat} (x : Except Refusal (Parsed α n)) (a : α) (rest : List Token) :
    Prop :=
  ∃ h, x = .ok ⟨a, rest, h⟩

section

variable {stop : Position} {ts mid more rest : List Token} {a b : Tree} {op t : Token} {c : Chain}

theorem gives_expect (stop : Position) {kind : Token.Kind} (h : t.kind = kind) (what : Wanted)
    (rest : List Token) : Gives (expect stop kind what (t :: rest)) t rest :=
  ⟨_, if_pos h⟩

theorem gives_chain (hfirst : Gives (readLevel stop c.tighter ts) a mid)
    (hchain : Gives (readChain stop c a mid) b rest) :
    Gives (readLevel stop (.chain c) ts) b rest := by
  obtain ⟨h, hfirst⟩ := hfirst
  obtain ⟨h', hchain⟩ := hchain
  refine ⟨by omega, ?_⟩
  rw [readLevel]
  simp only [hfirst, hchain]

theorem gives_chain_end (h : ∀ t ∈ ts.head?, t.kind ∉ c.operators) :
    Gives (readChain stop c a ts) a ts := by
  refine ⟨Nat.lt_succ_self _, ?_⟩
  rw [readChain.eq_def]
  cases ts with
  | nil => rfl
  | cons op more => exact if_neg (h op rfl)

theorem gives_chain_more (hop : op.kind ∈ c.operators)
    (hright : Gives (readLevel stop c.tighter more) b mid) {d : Tree}
    (hchain : Gives (readChain stop c (.binary a op.lexeme b op.position) mid) d rest) :
    Gives (readChain stop c a (op :: more)) d rest := by
  obtain ⟨h, hright⟩ := hright
  obtain ⟨h', hchain⟩ := hchain
  refine ⟨by simp only [List.length_cons]; omega, ?_⟩
  rw [readChain]
  simp only [if_pos hop, hright, hchain]

theorem gives_comparison_end (h : ∀ t ∈ rest.head?, t.kind ∉ comparisons)
    (hfirst : Gives (readLevel stop (.chain .sum) ts) a rest) :
    Gives (readLevel stop .comparison ts) a rest := by
  obtain ⟨hlt, hfirst⟩ := hfirst
  refine ⟨hlt, ?_⟩
  rw [readLevel]
  rcases rest with _ | ⟨op, more⟩
  · simp only [hfirst]
  · simp only [hfirst, if_neg (h op rfl)]

theorem gives_comparison_more (hfirst : Gives (readLevel stop (.chain .sum) ts) a (op :: more))
    (hop : op.kind ∈ comparisons) (hsecond : Gives (readLevel stop (.chain .sum) more) b rest) :
    Gives (readLevel stop .comparison ts) (.binary a op.lexeme b op.position) rest := by
  obtain ⟨h, hfirst⟩ := hfirst
  obtain ⟨h', hsecond⟩ := hsecond
  refine ⟨by simp only [List.length_cons] at h; omega, ?_⟩
  rw [readLevel]
  simp only [hfirst, if_pos hop, hsecond]

theorem gives_power_end (h : ∀ t ∈ rest.head?, t.kind ≠ .power)
    (hbase : Gives (readLevel stop .sign ts) a rest) : Gives (readLevel stop .power ts) a rest := by
  obtain ⟨hlt, hbase⟩ := hbase
  refine ⟨hlt, ?_⟩
  rw [readLevel]
  rcases rest with _ | ⟨op, more⟩
  · simp only [hbase]
  · simp only [hbase, if_neg (h op rfl)]

theorem gives_power_more (hbase : Gives (readLevel stop .sign ts) a (op :: more))
    (hop : op.kind = .power) (hexponent : Gives (readLevel stop .power more) b rest) :
    Gives (readLevel stop .power ts) (.binary a op.lexeme b op.position) rest := by
  obtain ⟨h, hbase⟩ := hbase
  obtain ⟨h', hexponent⟩ := hexponent
  refine ⟨by simp only [List.length_cons] at h; omega, ?_⟩
  rw [readLevel]
  simp only [hbase, if_pos hop, hexponent]

theorem gives_sign (hop : op.kind ∈ signs) (h : Gives (readLevel stop .sign more) a rest) :
    Gives (readLevel stop .sign (op :: more)) (.unary op.lexeme a op.position) rest := by
  obtain ⟨h, hoperand⟩ := h
  refine ⟨by simp only [List.length_cons]; omega, ?_⟩
  rw [readLevel]
  simp only [if_pos hop, hoperand]

theorem gives_sign_primary (h : Gives (readLevel stop .primary ts) a rest) :
    Gives (readLevel stop .sign ts) a rest := by
  obtain ⟨hlt, h⟩ := h
  refine ⟨hlt, ?_⟩
  rcases ts with _ | ⟨t, more⟩
  · rw [readLevel, h]
  · by_cases hop : t.kind ∈ signs
    · rw [readLevel] at h
      simp only [signs, List.mem_cons, List.not_mem_nil, or_false] at hop
      rcases hop with hop | hop <;> simp only [hop] at h <;> cases h
    · rw [readLevel, if_neg hop, h]

theorem gives_paren {left right : Token} (hleft : left.kind = .leftParen)
    (hinner : Gives (readLevel stop .expression more) a (right :: rest))
    (hright : right.kind = .rightParen) :
    Gives (readLevel stop .primary (left :: more)) a rest := by
  obtain ⟨h, hinner⟩ := hinner
  obtain ⟨_, hexpect⟩ := gives_expect stop hright .parenAfterExpression rest
  refine ⟨by simp only [List.length_cons] at *; omega, ?_⟩
  rw [readLevel]
  simp only [hleft, hinner, hexpect]

theorem gives_call {b : Builtin} {args : List Tree} (hkind : t.kind = .builtin b)
    (hargs : Gives (readArguments stop t.lexeme more) args rest) :
    Gives (readLevel stop .primary (t :: more)) (.call t.lexeme args t.position) rest := by
  obtain ⟨h, hargs⟩ := hargs
  refine ⟨by simp only [List.length_cons]; omega, ?_⟩
  rw [readLevel]
  simp only [hkind, hargs]

theorem gives_boolean (hkind : t.kind = .boolean) :
    Gives (readLevel stop .primary (t :: rest)) (.literal (.bool (t.lexeme == "true")) t.position)
      rest := by
  refine ⟨Nat.lt_succ_self _, ?_⟩
  rw [readLevel]
  simp only [hkind]

theorem gives_string (hkind : t.kind = .string) :
    Gives (readLevel stop .primary (t :: rest)) (.literal (.text (unquote t.lexeme)) t.position)
      rest := by
  refine ⟨Nat.lt_succ_self _, ?_⟩
  rw [readLevel]
  simp only [hkind]

theorem gives_variable (hkind : t.kind = .identifier) :
    Gives (readLevel stop .primary (t :: rest)) (.variable t.lexeme t.position) rest := by
  refine ⟨Nat.lt_succ_self _, ?_⟩
  rw [readLevel]
  simp only [hkind]

theorem readNumeral_of_readable (ht : t.Readable) (hkind : t.kind = .number) {negative : Bool}
    (hleast : Int32.least ≤ signed negative t) (hgreatest : signed negative t ≤ Int32.greatest) :
    readNumeral t negative = .ok (signed negative t) := by
  rw [readNumeral_eq ht.1 hkind, if_neg ht.2, if_pos ⟨hleast, hgreatest⟩]

theorem least_le_decimal (t : Token) : Int32.least ≤ (t.decimal : Int) := by
  rw [Int32.least]
  omega

theorem gives_number (ht : t.Readable) (hkind : t.kind = .number)
    (hle : (t.decimal : Int) ≤ Int32.greatest) :
    Gives (readLevel stop .primary (t :: rest)) (.literal (.int t.decimal) t.position) rest := by
  have hnumeral : readNumeral t false = .ok (t.decimal : Int) :=
    readNumeral_of_readable ht hkind (least_le_decimal t) hle
  refine ⟨Nat.lt_succ_self _, ?_⟩
  rw [readLevel]
  simp only [hkind, hnumeral]

theorem gives_arguments_none {name : String} {left right : Token} (hleft : left.kind = .leftParen)
    (hright : right.kind = .rightParen) :
    Gives (readArguments stop name (left :: right :: rest)) [] rest := by
  obtain ⟨_, hexpect⟩ := gives_expect stop hleft (.parenAfterName name) (right :: rest)
  refine ⟨by simp only [List.length_cons]; omega, ?_⟩
  rw [readArguments]
  simp only [hexpect, List.head?_cons, Option.map_some, hright, if_true, List.drop_one,
    List.tail_cons]

theorem gives_arguments_some {name : String} {left right : Token} {args : List Tree}
    (hleft : left.kind = .leftParen) (hfirst : more.head?.map Token.kind ≠ some .rightParen)
    (hitems : Gives (readItems stop more) args (right :: rest))
    (hright : right.kind = .rightParen) :
    Gives (readArguments stop name (left :: more)) args rest := by
  obtain ⟨_, hopen⟩ := gives_expect stop hleft (.parenAfterName name) more
  obtain ⟨h, hitems⟩ := hitems
  obtain ⟨_, hclose⟩ := gives_expect stop hright .parenAfterArguments rest
  refine ⟨by simp only [List.length_cons] at *; omega, ?_⟩
  rw [readArguments]
  simp only [hopen, if_neg hfirst, hitems, hclose]

theorem gives_items_end (h : ∀ t ∈ rest.head?, t.kind ≠ .comma)
    (hfirst : Gives (readLevel stop .expression ts) a rest) :
    Gives (readItems stop ts) [a] rest := by
  obtain ⟨hlt, hfirst⟩ := hfirst
  refine ⟨hlt, ?_⟩
  rw [readItems]
  rcases rest with _ | ⟨t, more⟩
  · simp only [hfirst]
  · simp only [hfirst, if_neg (h t rfl)]

theorem gives_items_more {comma : Token} {args : List Tree}
    (hfirst : Gives (readLevel stop .expression ts) a (comma :: more))
    (hcomma : comma.kind = .comma) (hothers : Gives (readItems stop more) args rest) :
    Gives (readItems stop ts) (a :: args) rest := by
  obtain ⟨h, hfirst⟩ := hfirst
  obtain ⟨h', hothers⟩ := hothers
  refine ⟨by simp only [List.length_cons] at h; omega, ?_⟩
  rw [readItems]
  simp only [hfirst, if_pos hcomma, hothers]

/-- Tokens are read as an expression of a level whatever stands behind them, as long as it does not
go on with the expression. On a level that groups to the left, what stands behind them may be
further operands. -/
def Reads (stop : Position) : Level → List Token → Tree → Prop
  | .chain c, us, a => ∀ (mid rest : List Token) (b : Tree), Stops c.tighter mid →
      Gives (readChain stop c a mid) b rest → Gives (readLevel stop (.chain c) (us ++ mid)) b rest
  | level, us, a =>
    ∀ rest : List Token, Stops level rest → Gives (readLevel stop level (us ++ rest)) a rest

theorem Reads.gives {level : Level} {us : List Token} (h : Reads stop level us a)
    (hrest : Stops level rest) : Gives (readLevel stop level (us ++ rest)) a rest := by
  cases level with
  | chain c =>
    refine h rest rest a (hrest.mono (Nat.le_of_lt c.rank_tighter_lt)) (gives_chain_end ?_)
    intro t ht hop
    exact Nat.lt_irrefl _ (hrest t ht (joins_of_mem_operators hop))
  | comparison | power | sign | primary => exact h rest hrest

theorem reads_join {level left right : Level} {us vs : List Token}
    (hop : Joins op.kind level left right) (hfirst : Reads stop left us a)
    (hsecond : Reads stop right vs b) :
    Reads stop level (us ++ op :: vs) (.binary a op.lexeme b op.position) := by
  rcases hop.sort with ⟨c, rfl, rfl, rfl, hmem⟩ | ⟨rfl, rfl, rfl, hmem⟩ | ⟨rfl, rfl, rfl, hkind⟩
  -- the chain behind the left operand starts with this operator and goes on as the one behind the
  -- whole
  · intro mid rest d hmid hchain
    rw [List.append_assoc, List.cons_append]
    exact hfirst _ rest d (.of_joins hop c.rank_tighter_lt)
      (gives_chain_more hmem (hsecond.gives hmid) hchain)
  · intro rest hrest
    rw [List.append_assoc, List.cons_append]
    have hsum : (Level.chain .sum).rank < Level.comparison.rank := by decide
    exact gives_comparison_more (hfirst.gives (.of_joins hop hsum)) hmem
      (hsecond.gives (hrest.mono (Nat.le_of_lt hsum)))
  · intro rest hrest
    rw [List.append_assoc, List.cons_append]
    exact gives_power_more (hfirst _ (.of_joins hop (by decide))) hkind (hsecond rest hrest)

theorem reads_loosen {tight loose : Level} {us : List Token} (hnext : Loosens tight loose)
    (h : Reads stop tight us a) : Reads stop loose us a := by
  rcases loose with c | _ | _ | _ | _
  · intro mid rest b hmid hchain
    have : tight = c.tighter := by cases hnext <;> rfl
    subst this
    exact gives_chain (h.gives hmid) hchain
  · intro rest hrest
    cases hnext
    refine gives_comparison_end ?_ (h.gives (hrest.mono (by decide)))
    intro t ht hop
    exact Nat.lt_irrefl _ (hrest t ht (joins_of_mem_comparisons hop))
  · intro rest hrest
    cases hnext
    refine gives_power_end ?_ (h rest (hrest.mono (by decide)))
    intro t ht hop
    have hjoins : Joins t.kind .power .sign .power := hop ▸ .power
    exact Nat.lt_irrefl _ (hrest t ht hjoins)
  · intro rest hrest
    cases hnext
    exact gives_sign_primary (h rest (hrest.mono (by decide)))
  · cases hnext

variable (stop)

mutual

/-- What is derived as an expression is read as it. -/
theorem reads_of_expression :
    ∀ {level : Level} {us : List Token} {a : Tree}, Expression level us a →
    (∀ t ∈ us, t.Readable) → Reads stop level us a
  | _, _, _, .join operator first second, h => by
    obtain ⟨hus, hvs⟩ := List.forall_mem_append.1 h
    have hsecond := reads_of_expression second (List.forall_mem_cons.1 hvs).2
    exact reads_join operator (reads_of_expression first hus) hsecond
  | _, _, _, .loosen next expression, h => reads_loosen next (reads_of_expression expression h)
  | _, _, _, .sign kind operand, h => by
    intro rest hrest
    have hoperand := reads_of_expression operand (List.forall_mem_cons.1 h).2
    exact gives_sign (by simpa [signs, or_comm] using kind) (hoperand rest hrest)
  | _, _, _, .paren opening inner closing, h => by
    intro rest _
    have hus := (List.forall_mem_append.1 (List.forall_mem_cons.1 h).2).1
    rw [List.cons_append, List.append_assoc]
    exact gives_paren opening ((reads_of_expression inner hus).gives (.of_kind closing nofun))
      closing
  | _, _, _, .boolean kind, _ => fun _ _ => gives_boolean kind
  | _, _, _, .number kind small, h => by
    intro rest _
    exact gives_number (h _ List.mem_cons_self) kind small
  | _, _, _, .string kind, _ => fun _ _ => gives_string kind
  | _, _, _, .variable kind, _ => fun _ _ => gives_variable kind
  | _, _, _, .call kind arguments, h => by
    intro rest _
    exact gives_call kind (gives_of_arguments arguments (List.forall_mem_cons.1 h).2 _ rest)

theorem gives_of_arguments : ∀ {us : List Token} {args : List Tree}, Arguments us args →
    (∀ t ∈ us, t.Readable) → ∀ (name : String) (rest : List Token),
      Gives (readArguments stop name (us ++ rest)) args rest
  | _, _, .none opening closing, _ => fun _ _ => gives_arguments_none opening closing
  | _, _, .some opening items closing, h => by
    intro name rest
    have hus := (List.forall_mem_append.1 (List.forall_mem_cons.1 h).2).1
    obtain ⟨t, more, hstart, ht⟩ := items.starts
    rw [List.cons_append, List.append_assoc]
    refine gives_arguments_some opening ?_ (gives_of_items items hus _ (.of_kind closing nofun) ?_)
      closing
    · simpa [hstart] using ht
    · rintro _ ⟨⟩
      rw [closing]
      nofun

theorem gives_of_items : ∀ {us : List Token} {args : List Tree}, Items us args →
    (∀ t ∈ us, t.Readable) → ∀ rest : List Token, Stops .expression rest →
      (∀ t ∈ rest.head?, t.kind ≠ .comma) → Gives (readItems stop (us ++ rest)) args rest
  | _, _, .one first, h => by
    intro rest hrest hcomma
    exact gives_items_end hcomma ((reads_of_expression first h).gives hrest)
  | _, _, .more first separator others, h => by
    intro rest hrest hcomma
    obtain ⟨hus, hvs⟩ := List.forall_mem_append.1 h
    have hothers := gives_of_items others (List.forall_mem_cons.1 hvs).2 rest hrest hcomma
    rw [List.append_assoc, List.cons_append]
    exact gives_items_more ((reads_of_expression first hus).gives (.of_kind separator nofun))
      separator hothers

end

theorem gives_coordinate {negative : Bool} {n : Int} (what : Wanted)
    (hminus : decide (ts.head?.map Token.kind = some .minus) = negative)
    (hts : (if ts.head?.map Token.kind = some .minus then ts.drop 1 else ts) = t :: rest)
    (hkind : t.kind = .number) (hnumeral : readNumeral t negative = .ok n) :
    Gives (readCoordinate stop what ts) n rest := by
  unfold readCoordinate
  dsimp only
  split
  · rename_i e he
    exact absurd hkind ((expect_eq_error he).2 t rest hts)
  · rename_i u rest' hlt hnumber
    obtain ⟨rfl, rfl⟩ := List.cons.inj ((expect_eq_ok hnumber).1.symm.trans hts)
    rw [hminus, hnumeral]
    exact ⟨_, rfl⟩

theorem gives_of_coordinate {us : List Token} {n : Int} (h : Coordinate us n)
    (hus : ∀ t ∈ us, t.Readable) (what : Wanted) (rest : List Token) :
    Gives (readCoordinate stop what (us ++ rest)) n rest := by
  cases h with
  | @plain t kind small =>
    have hminus : ¬ ([t] ++ rest).head?.map Token.kind = some .minus := by simp [kind]
    have hnumeral : readNumeral t false = .ok (t.decimal : Int) :=
      readNumeral_of_readable (hus t List.mem_cons_self) kind (least_le_decimal t) small
    exact gives_coordinate stop what (decide_eq_false hminus) (if_neg hminus) kind hnumeral
  | @negative minus t sign kind small =>
    have hminus : ([minus, t] ++ rest).head?.map Token.kind = some .minus := by simp [sign]
    have hgreatest : -(t.decimal : Int) ≤ Int32.greatest := by
      rw [Int32.greatest]
      omega
    have hnumeral : readNumeral t true = .ok (-(t.decimal : Int)) :=
      readNumeral_of_readable (hus t (List.mem_cons_of_mem _ List.mem_cons_self)) kind
        small hgreatest
    exact gives_coordinate stop what (decide_eq_true hminus) (if_pos hminus) kind hnumeral

theorem gives_of_statement {us : List Token} {s : Tree} (h : Statement us s)
    (hus : ∀ t ∈ us, t.Readable) {rest : List Token} (hrest : ∀ t ∈ rest.head?, t.kind = .newline) :
    ∃ t more, us = t :: more ∧ Gives (readStatement stop t (more ++ rest)) s rest := by
  have hstops : Stops .expression rest := by
    rcases rest with _ | ⟨t, rest⟩
    · exact nofun
    · exact .of_kind (hrest t rfl) nofun
  cases h with
  | @spawn t left comma right us vs x y kind opening first separator second closing =>
    simp only [List.forall_mem_cons, List.forall_mem_append] at hus
    obtain ⟨-, -, hx, -, hy, -⟩ := hus
    obtain ⟨_, hopen⟩ :=
      gives_expect stop opening .parenAfterSpawn (us ++ comma :: (vs ++ right :: rest))
    obtain ⟨_, hfirst⟩ :=
      gives_of_coordinate stop first hx .xCoordinate (comma :: (vs ++ right :: rest))
    obtain ⟨_, hcomma⟩ := gives_expect stop separator .commaBetweenCoordinates (vs ++ right :: rest)
    obtain ⟨_, hsecond⟩ := gives_of_coordinate stop second hy .yCoordinate (right :: rest)
    obtain ⟨_, hclose⟩ := gives_expect stop closing .parenAfterCoordinates rest
    have htokens : left :: (us ++ comma :: (vs ++ [right])) ++ rest =
        left :: (us ++ comma :: (vs ++ right :: rest)) := by simp
    refine ⟨t, _, rfl, ?_⟩
    rw [htokens]
    refine ⟨by simp only [List.length_cons, List.length_append]; omega, ?_⟩
    unfold readStatement
    simp only [kind, hopen, hfirst, hcomma, hsecond, hclose]
  | @call t b us args kind arguments =>
    obtain ⟨hlt, hargs⟩ :=
      gives_of_arguments stop arguments (List.forall_mem_cons.1 hus).2 t.lexeme rest
    refine ⟨t, us, rfl, by omega, ?_⟩
    unfold readStatement
    simp only [kind, hargs]
  | @assign t arrow us a kind becomes value =>
    simp only [List.forall_mem_cons] at hus
    have hvalue : Gives (readLevel stop .expression ((arrow :: (us ++ rest)).drop 1)) a rest :=
      (reads_of_expression stop value hus.2.2).gives hstops
    obtain ⟨hlt, hvalue⟩ := hvalue
    refine ⟨t, arrow :: us,
      rfl, by simp only [List.cons_append, List.length_cons, List.length_append]; omega, ?_⟩
    unfold readStatement
    simp only [kind, List.cons_append, List.head?_cons, Option.map_some, becomes, hvalue]
  | @label t kind =>
    have hblank : ¬ t.lexeme.toList.any Text.isBlank = true := by
      rw [Bool.not_eq_true, List.any_eq_false]
      intro c hc
      rw [(hus t List.mem_cons_self).1.unbroken kind c hc]
      exact Bool.false_ne_true
    refine ⟨t, [], rfl, Nat.lt_succ_self _, ?_⟩
    unfold readStatement
    rcases rest with _ | ⟨next, rest⟩
    · simp only [kind, List.nil_append, List.head?_nil, Option.map_none, if_neg hblank]
    · simp only [kind, List.nil_append, List.head?_cons, Option.map_some, hrest next rfl,
        if_neg hblank]
  | @goto t left name right opening closing us a kind bracket target bracket' paren
    condition paren' =>
    simp only [List.forall_mem_cons, List.forall_mem_append] at hus
    obtain ⟨-, -, -, -, -, ha, -⟩ := hus
    obtain ⟨_, hleft⟩ := gives_expect stop bracket .bracketAfterGoTo
      (name :: right :: opening :: (us ++ closing :: rest))
    obtain ⟨_, hname⟩ :=
      gives_expect stop target .targetLabel (right :: opening :: (us ++ closing :: rest))
    obtain ⟨_, hright⟩ :=
      gives_expect stop bracket' .bracketAfterLabel (opening :: (us ++ closing :: rest))
    obtain ⟨_, hopen⟩ := gives_expect stop paren .parenBeforeCondition (us ++ closing :: rest)
    have hparen : Stops .expression (closing :: rest) := .of_kind paren' nofun
    obtain ⟨_, hcondition⟩ := (reads_of_expression stop condition ha).gives hparen
    obtain ⟨_, hclose⟩ := gives_expect stop paren' .parenAfterCondition rest
    have htokens : left :: name :: right :: opening :: (us ++ [closing]) ++ rest =
        left :: name :: right :: opening :: (us ++ closing :: rest) := by simp
    refine ⟨t, _, rfl, ?_⟩
    rw [htokens]
    refine ⟨by simp only [List.length_cons, List.length_append]; omega, ?_⟩
    unfold readStatement
    simp only [kind, hleft, hname, hright, hopen, hcondition, hclose]

theorem skipNewlines_append {us : List Token} (hus : ∀ t ∈ us, t.kind = .newline)
    (vs : List Token) : skipNewlines (us ++ vs) = skipNewlines vs :=
  List.dropWhile_append_of_pos fun t ht => decide_eq_true (hus t ht)

theorem skipNewlines_statements {us : List Token} {ss : List Tree} (h : Statements us ss) :
    skipNewlines us = us := by
  obtain ⟨t, more, rfl, ht⟩ := h.starts
  exact List.dropWhile_cons_of_neg (by simpa using ht)

theorem readStatements_of_statements {us : List Token} {ss : List Tree} (h : Statements us ss)
    (hus : ∀ t ∈ us, t.Readable) : readStatements stop us = .ok ss := by
  induction h with
  | @last us vs s statement trailing =>
    have hhead : ∀ t ∈ vs.head?, t.kind = .newline := fun t ht => trailing t (List.mem_of_head? ht)
    obtain ⟨t, more, rfl, hlt, hread⟩ :=
      gives_of_statement stop statement (List.forall_mem_append.1 hus).1 hhead
    rw [List.cons_append, readStatements]
    rcases vs with _ | ⟨next, vs⟩
    · simp only [hread]
    · obtain ⟨hnext, hvs⟩ := List.forall_mem_cons.1 trailing
      have hskip : skipNewlines vs = [] := by
        rw [← List.append_nil vs, skipNewlines_append hvs]
        rfl
      simp only [hread, if_pos hnext, hskip, readStatements]
  | @more us vs next ws s ss statement newline empty others ih =>
    obtain ⟨hfirst, hrest⟩ := List.forall_mem_append.1 hus
    have hws := (List.forall_mem_append.1 (List.forall_mem_cons.1 hrest).2).2
    have hhead : ∀ t ∈ (next :: (vs ++ ws)).head?, t.kind = .newline := by
      rintro _ ⟨⟩
      exact newline
    obtain ⟨t, more, rfl, hlt, hread⟩ := gives_of_statement stop statement hfirst hhead
    rw [List.cons_append, readStatements]
    simp only [hread, if_pos newline, skipNewlines_append empty, skipNewlines_statements others,
      ih hws]

theorem readStatements_of_derives {us : List Token} {program : Program} (h : Derives us program)
    (hus : ∀ t ∈ us, t.Readable) :
    ∃ s ss, readStatements stop (skipNewlines us) = .ok (s :: ss) ∧
      program = ⟨s :: ss, s.position⟩ := by
  cases h with
  | @program us vs s ss leading statements =>
    have hvs := (List.forall_mem_append.1 hus).2
    rw [skipNewlines_append leading, skipNewlines_statements statements]
    exact ⟨s, ss, readStatements_of_statements stop statements hvs, rfl⟩

end

/-- The grammar is unambiguous. -/
theorem derives_unique {us : List Token} {program program' : Program} (hplain : ∀ t ∈ us, t.Plain)
    (h : Derives us program) (h' : Derives us program') : program = program' := by
  have hbrief : ∀ t ∈ us.map Token.brief, t.Readable := by
    intro t ht
    obtain ⟨u, hu, rfl⟩ := List.mem_map.1 ht
    exact Token.readable_brief (hplain u hu)
  obtain ⟨s, ss, hread, rfl⟩ := readStatements_of_derives .whole h.brief hbrief
  obtain ⟨s', ss', hread', rfl⟩ := readStatements_of_derives .whole h'.brief hbrief
  rw [hread] at hread'
  cases hread'
  rfl

/-- What the parser does with plain tokens, whether or not an end token is among them: it reads the
program that they derive, which is the only one, and refuses everything else at its place, as long
as no number is overlong. -/
theorem parse_follows_grammar {ts : List Token} (hplain : ∀ t ∈ ts, t.Plain) :
    (∀ program, parse ts = .ok program ↔
      Derives (bodyOf ts) program ∧ ∀ t ∈ bodyOf ts, ¬ t.Overlong) ∧
    (∀ program program', Derives (bodyOf ts) program → Derives (bodyOf ts) program' →
      program = program') ∧
    ∀ e, parse ts = .error e →
      (∃ d, e = .located d) ∨ ∃ t ∈ bodyOf ts, t.Overlong ∧ e = .notNumeral t.lexeme := by
  have hbody : ∀ t ∈ bodyOf ts, t.Plain := fun t ht => hplain t ((List.takeWhile_subset _) ht)
  have hfollows := follows_parse ts hbody
  refine ⟨fun program => ⟨?_, ?_⟩, fun _ _ => derives_unique hbody, ?_⟩
  · intro hparse
    rw [hparse] at hfollows
    obtain ⟨us, hus, hderives, hshort⟩ := hfollows
    rw [hus, List.append_nil]
    exact ⟨hderives, hshort⟩
  · rintro ⟨hderives, hshort⟩
    have hreadable : ∀ t ∈ bodyOf ts, t.Readable := fun t ht => ⟨hbody t ht, hshort t ht⟩
    obtain ⟨s, ss, hread, rfl⟩ := readStatements_of_derives (stopOf ts) hderives hreadable
    rw [parse, hread]
  · intro e hparse
    rw [hparse] at hfollows
    cases e with
    | located d => exact Or.inl ⟨d, rfl⟩
    | notNumeral lexeme =>
      obtain ⟨t, ht, hlong, rfl⟩ := hfollows
      exact Or.inr ⟨t, ht, hlong, rfl⟩

/-- A zero may be written with 4300 digits. With one more, it still derives the program, but it is
not read. -/
theorem long_zero_is_not_read :
    let tokens (digits : Nat) : List Token :=
      [⟨"x", .identifier, ⟨1, 1⟩⟩, ⟨"<-", .assign, ⟨1, 3⟩⟩,
        ⟨String.ofList (List.replicate digits '0'), .number, ⟨1, 6⟩⟩]
    let program : Program := ⟨[.assign "x" (.literal (.int 0) ⟨1, 6⟩) ⟨1, 1⟩], ⟨1, 1⟩⟩
    parse (tokens 4300) = .ok program ∧ Derives (tokens 4301) program ∧
      parse (tokens 4301) ≠ .ok program := by
  intro tokens program
  have hplain : ∀ digits, 0 < digits → ∀ t ∈ tokens digits, t.Plain := by
    intro digits hpos
    simp only [tokens, List.forall_mem_cons, List.not_mem_nil, false_implies,
      implies_true, and_true]
    have hname : ∀ c ∈ "x".toList, Text.isBlank c = false := by simp [Text.isBlank]
    refine ⟨⟨nofun, nofun, fun _ => hname⟩, ⟨nofun, nofun, nofun⟩, ?_, ?_, nofun⟩
    · intro _ hempty
      have hlength := congrArg String.length hempty
      rw [String.length_ofList, List.length_replicate] at hlength
      exact Nat.ne_of_gt hpos hlength
    · intro _ c hc
      rw [String.toList_ofList] at hc
      rw [List.eq_of_mem_replicate hc]
      rfl
  have hlong : ∀ digits, (∀ t ∈ tokens digits, ¬ t.Overlong) ↔ digits ≤ 4300 := by
    intro digits
    simp [tokens, Token.Overlong, Numeral.mostDigits]
  have hderives : ∀ digits, Derives (tokens digits) program := by
    intro digits
    have hzero :
        Token.decimal ⟨String.ofList (List.replicate digits '0'), .number, ⟨1, 6⟩⟩ = 0 := by
      rw [Token.decimal, String.toList_ofList, Nat.ofDigitChars_replicate_zero, Nat.mul_zero]
    have hnumber :=
      Expression.number (t := ⟨String.ofList (List.replicate digits '0'), .number, ⟨1, 6⟩⟩) rfl
        (by rw [hzero]; decide)
    rw [hzero] at hnumber
    have hvalue : Expression .expression _ _ :=
      .loosen .conjunction (.loosen .comparison (.loosen .sum (.loosen .product (.loosen .power
        (.loosen .sign (.loosen .primary hnumber))))))
    have hstatement : Statement (tokens digits) _ := .assign rfl rfl hvalue
    have hstatements := Statements.last hstatement (List.forall_mem_nil _)
    exact .program (List.forall_mem_nil _) hstatements
  refine ⟨?_, hderives 4301, ?_⟩
  · exact ((parse_follows_grammar (hplain 4300 (by decide))).1 program).2
      ⟨hderives 4300, (hlong 4300).2 (Nat.le_refl _)⟩
  · intro hparse
    obtain ⟨-, hshort⟩ := ((parse_follows_grammar (hplain 4301 (by decide))).1 program).1 hparse
    exact absurd ((hlong 4301).1 hshort) (by decide)

end Tree

end Brushwork
