import Brushwork.Proofs.Grammar

/-!
# What the parser reads is derived

Each reading function takes some tokens off the front and derives its value from them. If it
refuses, it does so at a place of the program, or else one of the tokens is a number that has more
digits than are ever read. Reading one thing behind another is put together once, for all functions.
-/

namespace Brushwork

namespace Tree

open Grammar

/-- What reading plain tokens comes to: a value derived from the tokens taken off, none of them
overlong, or a refusal, which is at a place of the program or on account of an overlong number. -/
def Follows {α : Type} {n : Nat} (derives : List Token → α → Prop) (ts : List Token)
    (x : Except Refusal (Parsed α n)) : Prop :=
  (∀ t ∈ ts, t.Plain) →
    match x with
    | .ok ⟨a, rest, _⟩ => ∃ us, ts = us ++ rest ∧ derives us a ∧ ∀ t ∈ us, ¬ t.Overlong
    | .error (.located _) => True
    | .error (.notNumeral lexeme) => ∃ t ∈ ts, t.Overlong ∧ t.lexeme = lexeme

namespace Follows

variable {α β : Type} {n k : Nat} {derives : List Token → α → Prop}
  {derives' : List Token → β → Prop} {ts : List Token}

theorem located {e : Located Cause} :
    Follows derives ts (.error (.located e) : Except Refusal (Parsed α n)) := fun _ => trivial

theorem done {a : α} {h : ts.length < n} (ha : derives [] a) :
    Follows derives ts (.ok ⟨a, ts, h⟩ : Except Refusal (Parsed α n)) :=
  fun _ => ⟨[], rfl, ha, nofun⟩

theorem of_error {e : Refusal} (us : List Token)
    (h : Follows derives ts (.error e : Except Refusal (Parsed α n))) :
    Follows derives' (us ++ ts) (.error e : Except Refusal (Parsed β k)) := by
  intro hplain
  cases e with
  | located e => trivial
  | notNumeral lexeme =>
    obtain ⟨t, ht, hlong⟩ := h (List.forall_mem_append.1 hplain).2
    exact ⟨t, List.mem_append_right us ht, hlong⟩

theorem prepend (us : List Token) {y : Except Refusal (Parsed β k)} (hus : ∀ t ∈ us, ¬ t.Overlong)
    (hy : Follows (fun vs => derives' (us ++ vs)) ts y) : Follows derives' (us ++ ts) y := by
  rcases y with e | ⟨b, rest, h⟩
  · exact hy.of_error us
  · intro hplain
    obtain ⟨vs, rfl, hb, hvs⟩ := hy (List.forall_mem_append.1 hplain).2
    exact ⟨us ++ vs, (List.append_assoc ..).symm, hb, List.forall_mem_append.2 ⟨hus, hvs⟩⟩

theorem token {t : Token} {kind : Token.Kind} {y : Except Refusal (Parsed β k)} (ht : t.kind = kind)
    (hkind : kind ≠ .number) (hy : Follows (fun vs => derives' (t :: vs)) ts y) :
    Follows derives' (t :: ts) y :=
  prepend [t] (by simpa using Token.not_overlong ht hkind) hy

/-- To read `y` by reading `x` first: a refusal of `x` is one of `y`, and behind what `x` has read
the rest of `y` is to be followed. -/
theorem andThen {x : Except Refusal (Parsed α n)} {y : Except Refusal (Parsed β k)}
    (hx : Follows derives ts x) (herror : ∀ e, x = .error e → y = .error e)
    (hok : ∀ a us rest h, x = .ok ⟨a, rest, h⟩ → derives us a →
      Follows (fun vs => derives' (us ++ vs)) rest y) : Follows derives' ts y := by
  intro hplain
  rcases x with e | ⟨a, rest, h⟩
  · rw [herror e rfl]
    exact hx.of_error [] hplain
  · obtain ⟨us, rfl, ha, hus⟩ := hx hplain
    exact prepend us hus (hok a us rest h rfl ha) hplain

theorem mono {derives'' : List Token → α → Prop} {x : Except Refusal (Parsed α n)}
    (hx : Follows derives ts x) (h : ∀ us a, derives us a → derives'' us a) :
    Follows derives'' ts x := by
  refine hx.andThen (fun e he => he) ?_
  intro a us rest hlt hx' ha
  rw [hx']
  exact done (by simpa using h us a ha)

end Follows

def signed (negative : Bool) (t : Token) : Int := if negative then -t.decimal else t.decimal

theorem readNumeral_eq {t : Token} (ht : t.Plain) (hkind : t.kind = .number) (negative : Bool) :
    readNumeral t negative =
      if t.Overlong then .error (.notNumeral t.lexeme)
      else if Int32.least ≤ signed negative t ∧ signed negative t ≤ Int32.greatest then
        .ok (signed negative t)
      else refuse (.numberOutOfRange t.lexeme) t.position := by
  have hne : t.lexeme.toList ≠ [] := by
    intro h
    exact ht.nonempty hkind (String.toList_eq_nil_iff.1 h)
  rw [readNumeral, Numeral.read?_digits hne (ht.digits hkind), String.length_toList]
  by_cases hlong : Numeral.mostDigits < t.lexeme.length
  · rw [if_pos hlong, if_pos ⟨hkind, hlong⟩]
  · rw [if_neg hlong, if_neg fun h => hlong h.2]
    simp only [Bool.and_eq_true, decide_eq_true_eq]
    rfl

theorem Follows.numeral {β : Type} {k : Nat} {derives : List Token → β → Prop} {t : Token}
    {ts : List Token} {y : Except Refusal (Parsed β k)} (hkind : t.kind = .number) (negative : Bool)
    (herror : ∀ e, readNumeral t negative = .error e → y = .error e)
    (hok : readNumeral t negative = .ok (signed negative t) → Int32.least ≤ signed negative t →
      signed negative t ≤ Int32.greatest → Follows (fun vs => derives (t :: vs)) ts y) :
    Follows derives (t :: ts) y := by
  intro hplain
  rw [readNumeral_eq (hplain t List.mem_cons_self) hkind] at herror hok
  by_cases hlong : t.Overlong
  · rw [if_pos hlong] at herror
    rw [herror _ rfl]
    exact ⟨t, List.mem_cons_self, hlong, rfl⟩
  · rw [if_neg hlong] at herror hok
    by_cases hrange : Int32.least ≤ signed negative t ∧ signed negative t ≤ Int32.greatest
    · rw [if_pos hrange] at hok
      exact prepend [t] (by simpa using hlong) (hok rfl hrange.1 hrange.2) hplain
    · rw [if_neg hrange] at herror
      rw [herror _ rfl]
      trivial

section

variable (stop : Position)

theorem follows_expect (kind : Token.Kind) (hkind : kind ≠ .number) (what : Wanted)
    (ts : List Token) :
    Follows (fun us t => us = [t] ∧ t.kind = kind) ts (expect stop kind what ts) := by
  cases ts with
  | nil => exact .located
  | cons t rest =>
    rw [expect]
    split
    · rename_i ht
      exact .token ht hkind (.done ⟨rfl, ht⟩)
    · exact .located

mutual

/-- Every level derives what it reads. The recursion is that of the parser. -/
theorem follows_readLevel : ∀ (level : Level) (ts : List Token),
    Follows (Expression level) ts (readLevel stop level ts)
  | .chain c, ts => by
    have := c.rank_tighter_lt
    rw [readLevel]
    refine (follows_readLevel c.tighter ts).andThen (fun e he => by simp only [he]) ?_
    intro left us mid hlt hleft hfirst
    simp only [hleft]
    have hchain := follows_readChain c left mid (.loosen (loosens_tighter c) hfirst)
    refine hchain.andThen (fun e he => by simp only [he]) ?_
    intro tree vs rest _ htree hall
    simp only [htree]
    exact .done (by simpa using hall)
  | .comparison, ts => by
    rw [readLevel]
    refine (follows_readLevel (.chain .sum) ts).andThen (fun e he => by simp only [he]) ?_
    intro left us mid hlt hleft hfirst
    rcases mid with _ | ⟨op, more⟩
    · simp only [hleft]
      exact .done (by simpa using Expression.loosen .sum hfirst)
    · have hshorter : more.length + 1 < ts.length := hlt
      simp only [hleft]
      split
      · rename_i hop
        have hjoins := joins_of_mem_comparisons hop
        refine .token rfl hjoins.ne_number ?_
        refine (follows_readLevel (.chain .sum) more).andThen (fun e he => by simp only [he]) ?_
        intro right vs rest _ hright hsecond
        simp only [hright]
        exact .done (by simpa using Expression.join hjoins hfirst hsecond)
      · exact .done (by simpa using Expression.loosen .sum hfirst)
  | .power, ts => by
    rw [readLevel]
    refine (follows_readLevel .sign ts).andThen (fun e he => by simp only [he]) ?_
    intro base us mid hlt hbase hfirst
    rcases mid with _ | ⟨op, more⟩
    · simp only [hbase]
      exact .done (by simpa using Expression.loosen .sign hfirst)
    · have hshorter : more.length + 1 < ts.length := hlt
      simp only [hbase]
      split
      · rename_i hop
        have hjoins : Joins op.kind .power .sign .power := hop ▸ .power
        refine .token rfl hjoins.ne_number ?_
        refine (follows_readLevel .power more).andThen (fun e he => by simp only [he]) ?_
        intro exponent vs rest _ hexponent hsecond
        simp only [hexponent]
        exact .done (by simpa using Expression.join hjoins hfirst hsecond)
      · exact .done (by simpa using Expression.loosen .sign hfirst)
  | .sign, [] => by
    rw [readLevel]
    exact (follows_readLevel .primary []).mono fun us a h => .loosen .primary h
  | .sign, op :: more => by
    rw [readLevel]
    split
    · rename_i hop
      have hkind : op.kind = .plus ∨ op.kind = .minus := by simpa [signs, or_comm] using hop
      refine .token rfl (by rcases hkind with h | h <;> rw [h] <;> nofun) ?_
      refine (follows_readLevel .sign more).andThen (fun e he => by simp only [he]) ?_
      intro operand us rest _ hoperand hinner
      simp only [hoperand]
      exact .done (by simpa using Expression.sign hkind hinner)
    · exact (follows_readLevel .primary (op :: more)).mono fun us a h => .loosen .primary h
  | .primary, [] => by
    rw [readLevel]
    exact .located
  | .primary, t :: more => by
    rw [readLevel]
    split
    · rename_i hkind
      refine .token hkind nofun ?_
      refine (follows_readLevel .expression more).andThen (fun e he => by simp only [he]) ?_
      intro inner us mid _ hinner hexpression
      simp only [hinner]
      refine (follows_expect stop .rightParen nofun .parenAfterExpression mid).andThen
        (fun e he => by simp only [he]) ?_
      rintro right _ rest _ hright ⟨rfl, hclosing⟩
      simp only [hright]
      exact .done (by simpa using Expression.paren hkind hexpression hclosing)
    · rename_i hkind
      exact .token hkind nofun (.done (.boolean hkind))
    · rename_i hkind
      refine .numeral hkind false (fun e he => by simp only [he]) ?_
      intro hn _ hle
      simp only [hn]
      exact .done (.number hkind hle)
    · rename_i hkind
      exact .token hkind nofun (.done (.string hkind))
    · rename_i b hkind
      refine .token hkind nofun ?_
      refine (follows_readArguments t.lexeme more).andThen (fun e he => by simp only [he]) ?_
      intro args us rest _ hargs harguments
      simp only [hargs]
      exact .done (by simpa using Expression.call hkind harguments)
    · rename_i hkind
      exact .token hkind nofun (.done (.variable hkind))
    · exact .located
termination_by level ts => 10 * ts.length + level.rank
decreasing_by
  all_goals try simp
  all_goals omega

/-- A chain goes on with the expression `left`, which has been derived from `vs`. -/
theorem follows_readChain : ∀ (c : Chain) (left : Tree) (ts : List Token) {vs : List Token},
    Expression (.chain c) vs left →
      Follows (fun us => Expression (.chain c) (vs ++ us)) ts (readChain stop c left ts)
  | c, left, [], vs, hleft => by
    rw [readChain]
    exact .done (by simpa using hleft)
  | c, left, op :: more, vs, hleft => by
    have := c.tighter.rank_le
    rw [readChain]
    split
    · rename_i hop
      have hjoins := joins_of_mem_operators hop
      refine .token rfl hjoins.ne_number ?_
      refine (follows_readLevel c.tighter more).andThen (fun e he => by simp only [he]) ?_
      intro right us mid hlt hright hsecond
      simp only [hright]
      have hchain := follows_readChain c _ mid (.join hjoins hleft hsecond)
      refine hchain.andThen (fun e he => by simp only [he]) ?_
      intro tree ws rest _ htree hall
      simp only [htree]
      exact .done (by simpa using hall)
    · exact .done (by simpa using hleft)
termination_by _ _ ts => 10 * ts.length
decreasing_by
  all_goals simp only [List.length_cons]
  all_goals omega

theorem follows_readArguments (name : String) (ts : List Token) :
    Follows Arguments ts (readArguments stop name ts) := by
  rw [readArguments]
  refine (follows_expect stop .leftParen nofun (.parenAfterName name) ts).andThen
    (fun e he => by simp only [he]) ?_
  rintro left _ mid hlt hleft ⟨rfl, hopening⟩
  simp only [hleft]
  split
  · rename_i hright
    rcases mid with _ | ⟨right, rest⟩
    · cases hright
    · have hclosing : right.kind = .rightParen := by simpa using hright
      exact .token hclosing nofun (.done (.none hopening hclosing))
  · refine (follows_readItems mid).andThen (fun e he => by simp only [he]) ?_
    intro args us rest _ hargs hitems
    simp only [hargs]
    refine (follows_expect stop .rightParen nofun .parenAfterArguments rest).andThen
      (fun e he => by simp only [he]) ?_
    rintro right _ rest' _ hright ⟨rfl, hclosing⟩
    simp only [hright]
    exact .done (by simpa using Arguments.some hopening hitems hclosing)
termination_by 10 * ts.length

theorem follows_readItems (ts : List Token) : Follows Items ts (readItems stop ts) := by
  rw [readItems]
  refine (follows_readLevel .expression ts).andThen (fun e he => by simp only [he]) ?_
  intro first us mid hlt hfirst hexpression
  rcases mid with _ | ⟨t, more⟩
  · simp only [hfirst]
    exact .done (by simpa using Items.one hexpression)
  · have hshorter : more.length + 1 < ts.length := hlt
    simp only [hfirst]
    split
    · rename_i hcomma
      refine .token hcomma nofun ?_
      refine (follows_readItems more).andThen (fun e he => by simp only [he]) ?_
      intro others vs rest _ hothers hitems
      simp only [hothers]
      exact .done (by simpa using Items.more hexpression hcomma hitems)
    · exact .done (by simpa using Items.one hexpression)
termination_by 10 * ts.length + 8
decreasing_by
  all_goals try rw [Level.rank_expression]
  all_goals omega

end

variable {stop} in
theorem expect_eq_ok {kind : Token.Kind} {what : Wanted} {ts rest : List Token} {t : Token}
    {hlt : rest.length < ts.length} (h : expect stop kind what ts = .ok ⟨t, rest, hlt⟩) :
    ts = t :: rest ∧ t.kind = kind := by
  cases ts with
  | nil => cases h
  | cons t rest =>
    rw [expect] at h
    split at h
    · rename_i ht
      cases h
      exact ⟨rfl, ht⟩
    · cases h

variable {stop} in
theorem expect_eq_error {kind : Token.Kind} {what : Wanted} {ts : List Token} {e : Refusal}
    (h : expect stop kind what ts = .error e) :
    (∃ d, e = .located d) ∧ ∀ t rest, ts = t :: rest → t.kind ≠ kind := by
  cases ts with
  | nil =>
    cases h
    exact ⟨⟨_, rfl⟩, nofun⟩
  | cons t rest =>
    rw [expect] at h
    split at h
    · cases h
    · rename_i ht
      cases h
      refine ⟨⟨_, rfl⟩, ?_⟩
      rintro t rest ⟨⟩
      exact ht

theorem follows_readCoordinate (what : Wanted) (ts : List Token) :
    Follows Coordinate ts (readCoordinate stop what ts) := by
  unfold readCoordinate
  dsimp only
  split
  · rename_i e he
    obtain ⟨⟨d, rfl⟩, -⟩ := expect_eq_error he
    exact .located
  · rename_i t rest hlt hnumber
    obtain ⟨hts, hkind⟩ := expect_eq_ok hnumber
    clear hnumber
    by_cases hminus : ts.head?.map Token.kind = some .minus
    · rw [if_pos hminus] at hts
      rcases ts with _ | ⟨minus, more⟩
      · cases hminus
      · have hsign : minus.kind = .minus := by simpa using hminus
        have hmore : more = t :: rest := hts
        subst hmore
        refine .token hsign nofun
          (.numeral hkind true (fun e he => by simp only [hminus, decide_true, he]) ?_)
        intro hn hle _
        simp only [hminus, decide_true, hn]
        exact .done (.negative hsign hkind hle)
    · rw [if_neg hminus] at hts
      subst hts
      refine .numeral hkind false (fun e he => by simp only [hminus, decide_false, he]) ?_
      intro hn _ hle
      simp only [hminus, decide_false, hn]
      exact .done (.plain hkind hle)

theorem follows_readStatement (t : Token) (ts : List Token) :
    Follows Statement (t :: ts) (readStatement stop t ts) := by
  unfold readStatement
  split
  · rename_i hkind
    refine .token hkind nofun ?_
    refine (follows_expect stop .leftParen nofun .parenAfterSpawn ts).andThen
      (fun e he => by simp only [he]) ?_
    rintro left _ r1 _ h1 ⟨rfl, hopening⟩
    simp only [h1]
    refine (follows_readCoordinate stop .xCoordinate r1).andThen (fun e he => by simp only [he]) ?_
    intro x us r2 _ h2 hx
    simp only [h2]
    refine (follows_expect stop .comma nofun .commaBetweenCoordinates r2).andThen
      (fun e he => by simp only [he]) ?_
    rintro comma _ r3 _ h3 ⟨rfl, hcomma⟩
    simp only [h3]
    refine (follows_readCoordinate stop .yCoordinate r3).andThen (fun e he => by simp only [he]) ?_
    intro y vs r4 _ h4 hy
    simp only [h4]
    refine (follows_expect stop .rightParen nofun .parenAfterCoordinates r4).andThen
      (fun e he => by simp only [he]) ?_
    rintro right _ r5 _ h5 ⟨rfl, hclosing⟩
    simp only [h5]
    exact .done (by simpa using Statement.spawn hkind hopening hx hcomma hy hclosing)
  · rename_i b hkind
    refine .token hkind nofun ?_
    refine (follows_readArguments stop t.lexeme ts).andThen (fun e he => by simp only [he]) ?_
    intro args us rest _ hargs harguments
    simp only [hargs]
    exact .done (by simpa using Statement.call hkind harguments)
  · rename_i hkind
    refine .token hkind nofun ?_
    refine (follows_expect stop .leftBracket nofun .bracketAfterGoTo ts).andThen
      (fun e he => by simp only [he]) ?_
    rintro left _ r1 _ h1 ⟨rfl, hleft⟩
    simp only [h1]
    refine (follows_expect stop .identifier nofun .targetLabel r1).andThen
      (fun e he => by simp only [he]) ?_
    rintro name _ r2 _ h2 ⟨rfl, hname⟩
    simp only [h2]
    refine (follows_expect stop .rightBracket nofun .bracketAfterLabel r2).andThen
      (fun e he => by simp only [he]) ?_
    rintro right _ r3 _ h3 ⟨rfl, hright⟩
    simp only [h3]
    refine (follows_expect stop .leftParen nofun .parenBeforeCondition r3).andThen
      (fun e he => by simp only [he]) ?_
    rintro opening _ r4 _ h4 ⟨rfl, hopening⟩
    simp only [h4]
    refine (follows_readLevel stop .expression r4).andThen (fun e he => by simp only [he]) ?_
    intro condition us r5 _ h5 hcondition
    simp only [h5]
    refine (follows_expect stop .rightParen nofun .parenAfterCondition r5).andThen
      (fun e he => by simp only [he]) ?_
    rintro closing _ r6 _ h6 ⟨rfl, hclosing⟩
    simp only [h6]
    exact .done
      (by simpa using Statement.goto hkind hleft hname hright hopening hcondition hclosing)
  · rename_i hkind
    refine .token hkind nofun ?_
    split
    · rename_i harrow
      rcases ts with _ | ⟨arrow, more⟩
      · cases harrow
      · have hbecomes : arrow.kind = .assign := by simpa using harrow
        refine .token hbecomes nofun ?_
        refine (follows_readLevel stop .expression ((arrow :: more).drop 1)).andThen
          (fun e he => by simp only [he]) ?_
        intro expr us rest _ hexpr hvalue
        simp only [hexpr]
        exact .done (by simpa using Statement.assign hkind hbecomes hvalue)
    iterate 3
      · split
        · exact .located
        · exact .done (.label hkind)
    · exact .located
  · exact .located

theorem Follows.newlines {β : Type} {k : Nat} {derives : List Token → β → Prop} {ts : List Token}
    {y : Except Refusal (Parsed β k)}
    (hy : ∀ us, (∀ t ∈ us, t.kind = .newline) →
      Follows (fun vs => derives (us ++ vs)) (skipNewlines ts) y) : Follows derives ts y := by
  have hus : ∀ t ∈ ts.takeWhile fun t => t.kind = .newline, t.kind = .newline := by
    intro t ht
    exact of_decide_eq_true (List.all_eq_true.1 List.all_takeWhile t ht)
  have hall := prepend _ (fun t ht => Token.not_overlong (hus t ht) nofun) (hy _ hus)
  rwa [skipNewlines, List.takeWhile_append_dropWhile] at hall

def whole {α : Type} (x : Except Refusal α) : Except Refusal (Parsed α 1) :=
  x.map fun a => ⟨a, [], Nat.one_pos⟩

theorem eq_of_whole_eq_ok {α : Type} {x : Except Refusal α} {r : Parsed α 1} (h : whole x = .ok r) :
    x = .ok r.value := by
  cases x with
  | error e => cases h
  | ok a =>
    cases h
    rfl

theorem eq_of_whole_eq_error {α : Type} {x : Except Refusal α} {e : Refusal}
    (h : whole x = .error e) : x = .error e := by
  cases x with
  | error e =>
    cases h
    rfl
  | ok a => cases h

theorem follows_readStatements : ∀ ts : List Token,
    Follows (fun us ss => us = [] ∧ ss = [] ∨ Statements us ss) ts (whole (readStatements stop ts))
  | [] => by
    rw [readStatements]
    exact .done (Or.inl ⟨rfl, rfl⟩)
  | t :: more => by
    rw [readStatements]
    refine (follows_readStatement stop t more).andThen (fun e he => by simp only [he]; rfl) ?_
    intro s us mid hlt hs hstatement
    rcases mid with _ | ⟨next, rest⟩
    · simp only [hs]
      exact .done (Or.inr (.last hstatement nofun))
    · simp only [hs]
      split
      · rename_i hnewline
        refine .token hnewline (by decide) (.newlines fun vs hvs => ?_)
        have := length_skipNewlines_le rest
        have hshorter : rest.length + 1 < more.length + 1 := hlt
        refine (follows_readStatements (skipNewlines rest)).andThen
          (fun e he => by simp only [eq_of_whole_eq_error he]; rfl) ?_
        intro others ws left hleft hothers hlines
        obtain rfl : left = [] := List.eq_nil_of_length_eq_zero (by omega)
        simp only [eq_of_whole_eq_ok hothers]
        refine .done (Or.inr ?_)
        rcases hlines with ⟨rfl, rfl⟩ | hlines
        · have htrailing : ∀ t ∈ next :: vs, t.kind = .newline :=
            List.forall_mem_cons.2 ⟨hnewline, hvs⟩
          simpa using Statements.last hstatement htrailing
        · simpa using Statements.more hstatement hnewline hvs hlines
      · exact .located
termination_by ts => ts.length
decreasing_by
  simp only [List.length_cons]
  omega

theorem follows_parse (ts : List Token) : Follows Derives (bodyOf ts) (whole (parse ts)) := by
  rw [parse]
  refine .newlines fun us hus => ?_
  refine (follows_readStatements (stopOf ts) (skipNewlines (bodyOf ts))).andThen
    (fun e he => by simp only [eq_of_whole_eq_error he]; rfl) ?_
  intro statements vs left hleft hstatements hlines
  obtain rfl : left = [] := List.eq_nil_of_length_eq_zero (by omega)
  simp only [eq_of_whole_eq_ok hstatements]
  rcases statements with _ | ⟨s, ss⟩
  · exact .located
  · rcases hlines with ⟨-, hnil⟩ | hlines
    · cases hnil
    · exact .done (by simpa using Derives.program hus hlines)

end

end Tree

end Brushwork
