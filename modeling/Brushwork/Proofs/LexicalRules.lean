import Brushwork.Proofs.Lines

/-!
# The texts of the lexical rules

Every rule describes a class of texts, and no text belongs to two of them, since its first character
tells the rule. Between a text of a rule and a longer one of the same rule there is no gap: one more
character already makes a text of the rule. So a text is the longest one at its place if and only if
the next character does not extend it. The winning rule has found the longest text of all rules.
-/

namespace Brushwork.Token

def isSpace (c : Char) : Bool := c = ' ' || c = '\t' || c = '\r'

namespace Rule

def Describes : Rule → List Char → Prop
  | .word, text => ∃ c cs, text = c :: cs ∧ isWordStart c = true ∧ ∀ d ∈ cs, isWordChar d = true
  | .number, text => text ≠ [] ∧ ∀ c ∈ text, c.isDigit = true
  | .operator, text => ∃ k ∈ Kind.operators, k.symbol.toList = text
  | .punctuation, text => ∃ k ∈ Kind.punctuation, k.symbol.toList = text
  | .blank, text => text ≠ [] ∧ ∀ c ∈ text, isSpace c = true
  | .string, text => ∃ body, text = '"' :: (body ++ ['"']) ∧ ∀ c ∈ body, c ≠ '"' ∧ c ≠ '\n'
  | .newline, text => text = ['\n']

/-- The only rule that can describe a text with this first character. -/
def ofFirst (c : Char) : Rule :=
  if isWordStart c then .word
  else if c.isDigit then .number
  else if isSpace c then .blank
  else if c = '"' then .string
  else if c = '\n' then .newline
  else if c ∈ ['(', ')', '[', ']', ','] then .punctuation
  else .operator

end Rule

theorem isWordChar_of_isWordStart {c : Char} (h : isWordStart c = true) : isWordChar c = true := by
  grind [isWordStart, isWordChar, Char.isAlphanum]

theorem isWordStart_of_isDigit {c : Char} (h : c.isDigit = true) : isWordStart c = false := by
  have halpha : c.isAlpha = false := by
    delta Char.isAlpha Char.isUpper Char.isLower
    grind [Char.isDigit]
  have hscore : c ≠ '_' := by
    rintro rfl
    cases h
  simp [isWordStart, halpha, hscore]

theorem eq_of_isSpace {c : Char} (h : isSpace c = true) : c = ' ' ∨ c = '\t' ∨ c = '\r' := by
  simpa [isSpace, or_assoc] using h

theorem length_symbol_le {k : Kind} (h : k ∈ Kind.operators) : k.symbol.toList.length ≤ 2 := by
  have hall : ∀ k ∈ Kind.operators, k.symbol.toList.length ≤ 2 := by decide
  exact hall k h

theorem length_symbol_punctuation {k : Kind} (h : k ∈ Kind.punctuation) :
    k.symbol.toList.length = 1 := by
  have hall : ∀ k ∈ Kind.punctuation, k.symbol.toList.length = 1 := by decide
  exact hall k h

namespace Rule.Describes

variable {rule rule' : Rule} {text : List Char} {c : Char} {cs : List Char}

theorem ne_nil (h : rule.Describes text) : text ≠ [] := by
  cases rule with
  | word =>
    obtain ⟨c, cs, rfl, -⟩ := h
    exact List.cons_ne_nil c cs
  | number => exact h.1
  | blank => exact h.1
  | operator =>
    have hall : ∀ k ∈ Kind.operators, k.symbol.toList ≠ [] := by decide
    obtain ⟨k, hk, rfl⟩ := h
    exact hall k hk
  | punctuation =>
    have hall : ∀ k ∈ Kind.punctuation, k.symbol.toList ≠ [] := by decide
    obtain ⟨k, hk, rfl⟩ := h
    exact hall k hk
  | string =>
    obtain ⟨body, rfl, -⟩ := h
    exact List.cons_ne_nil _ _
  | newline =>
    rw [show text = ['\n'] from h]
    exact List.cons_ne_nil _ _

theorem ofFirst_eq (h : rule.Describes (c :: cs)) : ofFirst c = rule := by
  have hfixed : ∀ {kinds : List Kind} {rule : Rule},
      (∀ k ∈ kinds, k.symbol.toList.head?.map ofFirst = some rule) →
      (∃ k ∈ kinds, k.symbol.toList = c :: cs) → ofFirst c = rule := by
    rintro kinds rule hkinds ⟨k, hk, hsymbol⟩
    have := hkinds k hk
    rw [hsymbol] at this
    simpa using this
  cases rule with
  | word =>
    obtain ⟨d, ds, heq, hstart, -⟩ := h
    cases heq
    exact if_pos hstart
  | number =>
    have hdigit := h.2 c List.mem_cons_self
    simp [ofFirst, isWordStart_of_isDigit hdigit, hdigit]
  | blank =>
    rcases eq_of_isSpace (h.2 c List.mem_cons_self) with rfl | rfl | rfl <;> decide
  | operator => exact hfixed (by decide) h
  | punctuation => exact hfixed (by decide) h
  | string =>
    obtain ⟨body, heq, -⟩ := h
    cases heq
    decide
  | newline =>
    cases (h : c :: cs = ['\n'])
    decide

/-- No text belongs to two rules, nor do two texts that start alike. -/
theorem rule_unique {cs' : List Char} (h : rule.Describes (c :: cs))
    (h' : rule'.Describes (c :: cs')) : rule = rule' :=
  h.ofFirst_eq.symm.trans h'.ofFirst_eq

/-- On the way from a text of a rule to a longer one, the next character already makes a text of the
rule. -/
theorem extend (h : rule.Describes text) (h' : rule.Describes (text ++ c :: cs)) :
    rule.Describes (text ++ [c]) := by
  have hpart : ∀ {p : Char → Bool} {ds : List Char}, (∀ d ∈ ds ++ c :: cs, p d = true) →
      ∀ d ∈ ds ++ [c], p d = true := by
    intro p ds hall d hd
    apply hall d
    simp only [List.mem_append, List.mem_cons, List.not_mem_nil, or_false] at hd ⊢
    exact hd.imp_right Or.inl
  cases rule with
  | word =>
    obtain ⟨first, others, rfl, hfirst, hothers⟩ := h
    obtain ⟨first', others', heq, -, hothers'⟩ := h'
    cases heq
    exact ⟨first, others ++ [c], rfl, hfirst, hpart hothers'⟩
  | number => exact ⟨by simp, hpart h'.2⟩
  | blank => exact ⟨by simp, hpart h'.2⟩
  | operator =>
    have hpos := List.length_pos_iff.2 h.ne_nil
    obtain ⟨k, hk, hsymbol⟩ := h'
    have hlength := length_symbol_le hk
    rw [hsymbol, List.length_append, List.length_cons] at hlength
    obtain rfl : cs = [] := List.eq_nil_of_length_eq_zero (by omega)
    exact ⟨k, hk, hsymbol⟩
  | punctuation =>
    have hpos := List.length_pos_iff.2 h.ne_nil
    obtain ⟨k, hk, hsymbol⟩ := h'
    have hlength := length_symbol_punctuation hk
    rw [hsymbol, List.length_append, List.length_cons] at hlength
    omega
  | string =>
    obtain ⟨body, rfl, hbody⟩ := h
    obtain ⟨body', heq, hbody'⟩ := h'
    have heq' : body ++ '"' :: c :: cs = body' ++ ['"'] := by simpa using heq
    rcases List.append_eq_append_iff.1 heq' with ⟨as, rfl, has⟩ | ⟨bs, rfl, hbs⟩
    · rcases as with _ | ⟨a, as⟩
      · cases has
      · obtain ⟨rfl, -⟩ := List.cons.inj has
        have hquote := hbody' '"' (by simp)
        exact absurd rfl hquote.1
    · have hlength := congrArg List.length hbs
      simp only [List.length_cons, List.length_append, List.length_nil] at hlength
      omega
  | newline =>
    cases (h : text = ['\n'])
    cases (h' : ['\n'] ++ c :: cs = ['\n'])

theorem not_snoc (hc : isSpace c = true ∨ c = '\n') (hrule : rule ≠ .blank) (htext : text ≠ []) :
    ¬ rule.Describes (text ++ [c]) := by
  intro h
  have hmem : c ∈ text ++ [c] := by simp
  have hnone : isWordChar c = false ∧ c.isDigit = false := by
    rcases hc.imp_left eq_of_isSpace with (rfl | rfl | rfl) | rfl <;> decide
  obtain ⟨hword, hdigit⟩ := hnone
  have hgap : (isSpace c || c = '\n') = true := by simpa using hc
  have hfixed :
      ∀ {kinds : List Kind},
        (∀ k ∈ kinds, k.symbol.toList.any (fun d => isSpace d || d = '\n') = false) →
      ¬ ∃ k ∈ kinds, k.symbol.toList = text ++ [c] := by
    rintro kinds hkinds ⟨k, hk, hsymbol⟩
    exact List.any_eq_false.1 (hkinds k hk) c (hsymbol ▸ hmem) hgap
  cases rule with
  | word =>
    obtain ⟨first, others, heq, hfirst, hothers⟩ := h
    rw [heq, List.mem_cons] at hmem
    rcases hmem with rfl | hmem
    · cases hword.symm.trans (isWordChar_of_isWordStart hfirst)
    · cases hword.symm.trans (hothers c hmem)
  | number => cases hdigit.symm.trans (h.2 c hmem)
  | blank => exact hrule rfl
  | operator => exact hfixed (by decide) h
  | punctuation => exact hfixed (by decide) h
  | string =>
    obtain ⟨body, heq, -⟩ := h
    have heq' : text ++ [c] = ('"' :: body) ++ ['"'] := heq
    obtain ⟨-, hlast⟩ := List.append_inj' heq' rfl
    cases hlast
    exact absurd hc (by decide)
  | newline =>
    have hlength := congrArg List.length (show text ++ [c] = ['\n'] from h)
    rw [List.length_append] at hlength
    exact htext (List.eq_nil_of_length_eq_zero (by simpa using hlength))

theorem newline_notMem (h : rule.Describes text) (hrule : rule ≠ .newline) : '\n' ∉ text := by
  have hfixed : ∀ {kinds : List Kind}, (∀ k ∈ kinds, '\n' ∉ k.symbol.toList) →
      (∃ k ∈ kinds, k.symbol.toList = text) → '\n' ∉ text := by
    rintro kinds hkinds ⟨k, hk, rfl⟩
    exact hkinds k hk
  cases rule with
  | word =>
    obtain ⟨first, others, rfl, hfirst, hothers⟩ := h
    intro hmem
    rcases List.mem_cons.1 hmem with rfl | hmem
    · cases hfirst
    · cases hothers _ hmem
  | number =>
    intro hmem
    cases h.2 _ hmem
  | blank =>
    intro hmem
    cases h.2 _ hmem
  | operator => exact hfixed (by decide) h
  | punctuation => exact hfixed (by decide) h
  | string =>
    obtain ⟨body, rfl, hbody⟩ := h
    intro hmem
    have hinner : '\n' ∈ body := by simpa using hmem
    exact (hbody _ hinner).2 rfl
  | newline => exact absurd rfl hrule

end Rule.Describes

/-! ### What a rule finds -/

namespace Rule

variable {cs text other : List Char} {kinds : List Kind}

theorem length_le_takeWhile {p : Char → Bool} (h : other <+: cs) (hp : ∀ c ∈ other, p c = true) :
    other.length ≤ (cs.takeWhile p).length := by
  obtain ⟨rest, rfl⟩ := h
  rw [List.takeWhile_append_of_pos hp, List.length_append]
  exact Nat.le_add_right _ _

theorem fixed_cases (kinds : List Kind) (cs : List Char) :
    fixed kinds cs = [] ∨ fixed kinds cs <+: cs ∧
      ∃ k ∈ kinds, k.symbol.toList = fixed kinds cs := by
  unfold fixed
  cases hfind : (kinds.map fun k => k.symbol.toList).find? fun s => s.isPrefixOf cs with
  | none => exact Or.inl rfl
  | some s =>
    right
    have hleads := List.find?_some hfind
    obtain ⟨k, hk, hsymbol⟩ := List.mem_map.1 (List.mem_of_find?_eq_some hfind)
    exact ⟨List.isPrefixOf_iff_prefix.1 hleads, k, hk, hsymbol⟩

/-- Among fixed lexemes, the longer ones of which come first, the first one found is the longest. -/
theorem length_le_fixed (hsorted : (kinds.map fun k => k.symbol.toList).Pairwise fun a b =>
    b.length ≤ a.length) {k : Kind} (hk : k ∈ kinds) (h : k.symbol.toList <+: cs) :
    k.symbol.toList.length ≤ (fixed kinds cs).length := by
  have hmem : k.symbol.toList ∈ kinds.map fun k => k.symbol.toList := List.mem_map_of_mem hk
  unfold fixed
  cases hfind : (kinds.map fun k => k.symbol.toList).find? fun s => s.isPrefixOf cs with
  | none => exact absurd (List.isPrefixOf_iff_prefix.2 h) (List.find?_eq_none.1 hfind _ hmem)
  | some s =>
    obtain ⟨-, before, after, hsplit, hbefore⟩ := List.find?_eq_some_iff_append.1 hfind
    rw [hsplit] at hmem hsorted
    rw [List.mem_append, List.mem_cons] at hmem
    rcases hmem with hmem | hmem | hmem
    · have := hbefore _ hmem
      rw [List.isPrefixOf_iff_prefix.2 h] at this
      cases this
    · rw [hmem]
      exact Nat.le_refl _
    · exact (List.pairwise_cons.1 (List.pairwise_append.1 hsorted).2.1).1 _ hmem

def isInner (c : Char) : Bool := c ≠ '"' && c ≠ '\n'

theorem piece_string (cs : List Char) :
    piece .string ('"' :: cs) =
      if (cs.dropWhile isInner).head? = some '"' then '"' :: (cs.takeWhile isInner ++ ['"'])
      else [] := by
  have hrest : cs.drop (cs.takeWhile isInner).length = cs.dropWhile isInner := by
    calc cs.drop (cs.takeWhile isInner).length
        = (cs.takeWhile isInner ++ cs.dropWhile isInner).drop (cs.takeWhile isInner).length := by
          rw [List.takeWhile_append_dropWhile]
      _ = cs.dropWhile isInner := List.drop_left
  rw [← hrest]
  rfl

theorem piece_cases (rule : Rule) (cs : List Char) :
    rule.piece cs = [] ∨ rule.piece cs <+: cs ∧ rule.Describes (rule.piece cs) := by
  have htake : ∀ {p : Char → Bool}, cs.takeWhile p = [] ∨
      cs.takeWhile p <+: cs ∧ cs.takeWhile p ≠ [] ∧ ∀ c ∈ cs.takeWhile p, p c = true := by
    intro p
    by_cases h : cs.takeWhile p = []
    · exact Or.inl h
    · exact Or.inr ⟨List.takeWhile_prefix p, h, List.all_eq_true.1 List.all_takeWhile⟩
  cases rule with
  | word =>
    rcases cs with _ | ⟨c, cs⟩
    · exact Or.inl rfl
    · by_cases hstart : isWordStart c = true
      · right
        have hword : piece .word (c :: cs) = c :: cs.takeWhile isWordChar := by
          simp [piece, hstart, isWordChar_of_isWordStart hstart]
        rw [hword]
        refine ⟨(List.prefix_cons_inj c).2 (List.takeWhile_prefix _), c, _, rfl, hstart, ?_⟩
        exact List.all_eq_true.1 List.all_takeWhile
      · left
        simp [piece, hstart]
  | number => exact htake
  | operator => exact fixed_cases _ cs
  | punctuation => exact fixed_cases _ cs
  | blank => exact htake
  | string =>
    rcases cs with _ | ⟨c, cs⟩
    · exact Or.inl rfl
    · by_cases hquote : c = '"'
      · subst hquote
        rw [piece_string]
        split
        · rename_i hclose
          right
          have hbody : ∀ d ∈ cs.takeWhile isInner, d ≠ '"' ∧ d ≠ '\n' := by
            intro d hd
            simpa [isInner] using List.all_eq_true.1 List.all_takeWhile d hd
          obtain ⟨rest, hrest⟩ := List.head?_eq_some_iff.1 hclose
          refine ⟨⟨rest, ?_⟩, _, rfl, hbody⟩
          rw [List.cons_append, List.append_assoc, List.singleton_append, ← hrest,
            List.takeWhile_append_dropWhile]
        · exact Or.inl rfl
      · left
        simp [piece, hquote]
  | newline =>
    rcases cs with _ | ⟨c, cs⟩
    · exact Or.inl rfl
    · by_cases hline : c = '\n'
      · subst hline
        exact Or.inr ⟨(List.prefix_cons_inj _).2 List.nil_prefix, rfl⟩
      · left
        simp [piece, hline]

theorem length_le_piece {rule : Rule} (hother : other <+: cs) (h : rule.Describes other) :
    other.length ≤ (rule.piece cs).length := by
  cases rule with
  | word =>
    obtain ⟨c, ds, rfl, hstart, hds⟩ := h
    have hcs : cs.head?.any isWordStart = true := by
      obtain ⟨rest, rfl⟩ := hother
      exact hstart
    rw [piece, if_pos hcs]
    apply length_le_takeWhile hother
    intro d hd
    rcases List.mem_cons.1 hd with rfl | hd
    · exact isWordChar_of_isWordStart hstart
    · exact hds d hd
  | number => exact length_le_takeWhile hother h.2
  | operator =>
    obtain ⟨k, hk, rfl⟩ := h
    exact length_le_fixed (by decide) hk hother
  | punctuation =>
    obtain ⟨k, hk, rfl⟩ := h
    exact length_le_fixed (by decide) hk hother
  | blank => exact length_le_takeWhile hother h.2
  | string =>
    obtain ⟨body, rfl, hbody⟩ := h
    obtain ⟨rest, rfl⟩ := hother
    have hinner : ∀ c ∈ body, isInner c = true := by simpa [isInner] using hbody
    have hquote : isInner '"' = false := by decide
    have htake : (body ++ '"' :: rest).takeWhile isInner = body := by
      rw [List.takeWhile_append_of_pos hinner, List.takeWhile_cons_of_neg (by simp [hquote]),
        List.append_nil]
    have hdrop : (body ++ '"' :: rest).dropWhile isInner = '"' :: rest := by
      rw [List.dropWhile_append_of_pos hinner, List.dropWhile_cons_of_neg (by simp [hquote])]
    rw [List.cons_append, List.append_assoc, List.singleton_append, piece_string, hdrop, htake]
    exact Nat.le_refl _
  | newline =>
    cases (h : other = ['\n'])
    obtain ⟨rest, rfl⟩ := hother
    exact Nat.le_refl _

end Rule

/-! ### The longest text of all -/

/-- The longest text at the start of another that belongs to any rule. -/
structure Longest (cs text : List Char) : Prop where
  leads : text <+: cs
  described : ∃ rule : Rule, rule.Describes text
  maximal : ∀ {other : List Char} {rule : Rule}, other <+: cs → rule.Describes other →
    other.length ≤ text.length

section

variable {cs text text' rest : List Char} {rule : Rule}

theorem Longest.unique (h : Longest cs text) (h' : Longest cs text') : text = text' := by
  obtain ⟨rule, hrule⟩ := h.described
  obtain ⟨rule', hrule'⟩ := h'.described
  have hle := h'.maximal h.leads hrule
  have hge := h.maximal h'.leads hrule'
  exact (List.prefix_of_prefix_length_le h.leads h'.leads hle).eq_of_length
    (Nat.le_antisymm hle hge)

/-- A text is the longest if and only if the next character does not extend it. -/
theorem longest_append_iff (h : rule.Describes text) :
    Longest (text ++ rest) text ↔ ∀ c ∈ rest.head?, ¬ rule.Describes (text ++ [c]) := by
  constructor
  · intro hlongest c hc hextended
    obtain ⟨more, rfl⟩ := List.head?_eq_some_iff.1 hc
    have hle : (text ++ [c]).length ≤ text.length := hlongest.maximal ⟨more, by simp⟩ hextended
    rw [List.length_append, List.length_singleton] at hle
    omega
  · intro hnext
    refine ⟨List.prefix_append text rest, ⟨rule, h⟩, ?_⟩
    intro other rule' hother hrule'
    rcases Nat.le_total other.length text.length with hle | hle
    · exact hle
    · obtain ⟨extra, rfl⟩ :=
        List.prefix_of_prefix_length_le (List.prefix_append text rest) hother hle
      rcases extra with _ | ⟨c, extra⟩
      · simp
      · obtain ⟨first, others, rfl⟩ := List.exists_cons_of_ne_nil h.ne_nil
        obtain rfl := h.rule_unique hrule'
        obtain ⟨more, hmore⟩ := hother
        have hhead : rest.head? = some c := by
          rw [List.append_assoc, List.append_cancel_left_eq] at hmore
          rw [← hmore]
          rfl
        exact absurd (h.extend hrule') (hnext c hhead)

theorem length_le_munch (rule : Rule) (cs : List Char) :
    (rule.piece cs).length ≤ (munch cs).2.length := by
  have hfold : ∀ (rules : List Rule) (best : Rule × List Char),
      let last := rules.foldl (fun best rule =>
        let text := rule.piece cs
        if best.2.length < text.length then (rule, text) else best) best
      best.2.length ≤ last.2.length ∧ ∀ rule ∈ rules, (rule.piece cs).length ≤ last.2.length := by
    intro rules
    induction rules with
    | nil => exact fun best => ⟨Nat.le_refl _, nofun⟩
    | cons first rules ih =>
      intro best
      obtain ⟨hbest, hrules⟩ :=
        ih (if best.2.length < (first.piece cs).length then (first, first.piece cs) else best)
      have hstep :
          best.2.length ≤ (if best.2.length < (first.piece cs).length
            then (first, first.piece cs) else best).2.length ∧
          (first.piece cs).length ≤ (if best.2.length < (first.piece cs).length
            then (first, first.piece cs) else best).2.length := by
        split <;> simp <;> omega
      refine ⟨Nat.le_trans hstep.1 hbest, ?_⟩
      intro rule hrule
      rcases List.mem_cons.1 hrule with rfl | hrule
      · exact Nat.le_trans hstep.2 hbest
      · exact hrules rule hrule
  exact (hfold Rule.all (.word, [])).2 rule (by cases rule <;> decide)

/-- The winning rule has found the longest text. -/
theorem longest_munch (h : (munch cs).2 ≠ []) :
    (munch cs).1.Describes (munch cs).2 ∧ Longest cs (munch cs).2 := by
  rcases munch_piece cs with hnil | hpiece
  · exact absurd hnil h
  · rcases (munch cs).1.piece_cases cs with hnil | ⟨hleads, hdescribes⟩
    · exact absurd (hpiece.trans hnil) h
    · rw [← hpiece] at hleads hdescribes
      refine ⟨hdescribes, hleads, ⟨_, hdescribes⟩, ?_⟩
      intro other rule hother hrule
      exact Nat.le_trans (rule.length_le_piece hother hrule) (length_le_munch rule cs)

theorem munch_eq (h : rule.Describes text) (hlongest : Longest (text ++ rest) text) :
    munch (text ++ rest) = (rule, text) := by
  have hne : (munch (text ++ rest)).2 ≠ [] := by
    intro hnil
    have hle := Nat.le_trans (rule.length_le_piece (List.prefix_append text rest) h)
      (length_le_munch rule (text ++ rest))
    rw [hnil] at hle
    exact h.ne_nil (List.eq_nil_of_length_eq_zero (Nat.le_zero.1 hle))
  obtain ⟨hdescribes, hlongest'⟩ := longest_munch hne
  rw [hlongest'.unique hlongest] at hdescribes
  refine Prod.ext ?_ (hlongest'.unique hlongest)
  obtain ⟨c, cs, rfl⟩ := List.exists_cons_of_ne_nil h.ne_nil
  exact hdescribes.rule_unique h

theorem munch_eq_nil_iff :
    (munch cs).2 = [] ↔ ∀ (text : List Char) (rule : Rule), text <+: cs →
    ¬ rule.Describes text := by
  constructor
  · intro hnil text rule htext hrule
    have hle := Nat.le_trans (rule.length_le_piece htext hrule) (length_le_munch rule cs)
    rw [hnil] at hle
    exact hrule.ne_nil (List.eq_nil_of_length_eq_zero (Nat.le_zero.1 hle))
  · intro hnone
    by_cases hnil : (munch cs).2 = []
    · exact hnil
    · obtain ⟨hdescribes, hlongest⟩ := longest_munch hnil
      exact absurd hdescribes (hnone _ _ hlongest.leads)

end

end Brushwork.Token
