import Brushwork.Proofs.Grammar
import Brushwork.Proofs.Lexing

/-!
# Reading a text piece by piece

A text that can be read is made of blanks and lexemes. Whether a lexeme is the longest at its place,
and what kind it is of, depends on the character behind it alone, and a blank or an end of the line
there does no harm. So carriage returns may be put before newlines, and newlines behind the text,
without another effect on the tokens than the one that is meant, and lexemes with spaces between
them are read as they are.
-/

namespace Brushwork.Token

/-- The tokens of a text from a place on, lexeme by lexeme. Blanks are skipped in runs of any
length. -/
inductive Scans : List Char → Position → List Token → Prop
  | nil {p : Position} : Scans [] p [⟨"", .endOfFile, p⟩]
  | token {rule : Rule} {text rest : List Char} {kind : Kind} {p : Position} {tokens : List Token}
      (described : rule.Describes text) (longest : Longest (text ++ rest) text)
      (classified : rule.classify text rest.head? = .ok (some kind))
      (more : Scans rest (p.advance text) tokens) :
    Scans (text ++ rest) p (⟨String.ofList text, kind, p⟩ :: tokens)
  | skip {gap rest : List Char} {p : Position} {tokens : List Token}
      (blanks : ∀ c ∈ gap, isSpace c = true) (more : Scans rest (p.advance gap) tokens) :
      Scans (gap ++ rest) p tokens

section

variable {rule : Rule} {text gap rest : List Char}

theorem munch_append {c : Char} {cs : List Char} (h : rule.Describes (c :: cs))
    (hlongest : Longest (c :: cs ++ rest) (c :: cs)) :
    munch (c :: (cs ++ rest)) = (rule, c :: cs) ∧ (cs ++ rest).drop cs.length = rest := by
  have hmunch := munch_eq h hlongest
  rw [List.cons_append] at hmunch
  exact ⟨hmunch, List.drop_left⟩

theorem scan_token {kind : Kind} {p : Position} {tokens : List Token} (h : rule.Describes text)
    (hlongest : Longest (text ++ rest) text)
    (hclassify : rule.classify text rest.head? = .ok (some kind))
    (hmore : scan rest (p.advance text) = .ok tokens) :
    scan (text ++ rest) p = .ok (⟨String.ofList text, kind, p⟩ :: tokens) := by
  obtain ⟨c, cs, rfl⟩ := List.exists_cons_of_ne_nil h.ne_nil
  obtain ⟨hmunch, hdrop⟩ := munch_append h hlongest
  rw [List.cons_append, scan.eq_2]
  simp only [hmunch, hdrop, hclassify, hmore]

theorem scan_blanks (hgap : ∀ c ∈ gap, isSpace c = true)
    (hrest : ∀ c ∈ rest.head?, isSpace c = false) (p : Position) :
    scan (gap ++ rest) p = scan rest (p.advance gap) := by
  by_cases hempty : gap = []
  · rw [hempty]
    rfl
  · have hblank : Rule.blank.Describes gap := ⟨hempty, hgap⟩
    have hlongest : Longest (gap ++ rest) gap := by
      rw [longest_append_iff hblank]
      rintro c hc ⟨-, hall⟩
      have hspace := hall c (by simp)
      rw [hrest c hc] at hspace
      cases hspace
    obtain ⟨c, cs, rfl⟩ := List.exists_cons_of_ne_nil hempty
    obtain ⟨hmunch, hdrop⟩ := munch_append hblank hlongest
    rw [List.cons_append, scan.eq_2]
    simp only [hmunch, hdrop, Rule.classify]
    cases scan rest (p.advance (c :: cs)) <;> rfl

theorem scan_skip (hgap : ∀ c ∈ gap, isSpace c = true) (p : Position) :
    scan (gap ++ rest) p = scan rest (p.advance gap) := by
  have hrun : ∀ c ∈ rest.takeWhile isSpace, isSpace c = true :=
    fun c hc => List.all_eq_true.1 List.all_takeWhile c hc
  have hmore : ∀ c ∈ (rest.dropWhile isSpace).head?, isSpace c = false := by
    intro c hc
    have hnot := List.head?_dropWhile_not isSpace rest
    rw [hc] at hnot
    exact hnot
  have hsplit := List.takeWhile_append_dropWhile (p := isSpace) (l := rest)
  have hboth : ∀ c ∈ gap ++ rest.takeWhile isSpace, isSpace c = true :=
    List.forall_mem_append.2 ⟨hgap, hrun⟩
  calc scan (gap ++ rest) p
      = scan ((gap ++ rest.takeWhile isSpace) ++ rest.dropWhile isSpace) p := by
        rw [List.append_assoc, hsplit]
    _ = scan (rest.dropWhile isSpace) (p.advance (gap ++ rest.takeWhile isSpace)) :=
      scan_blanks hboth hmore p
    _ = scan (rest.dropWhile isSpace) ((p.advance gap).advance (rest.takeWhile isSpace)) := by
      rw [Position.advance_append]
    _ = scan (rest.takeWhile isSpace ++ rest.dropWhile isSpace) (p.advance gap) :=
      (scan_blanks hrun hmore _).symm
    _ = scan rest (p.advance gap) := by rw [hsplit]

end

theorem scan_eq_ok_iff {cs : List Char} {p : Position} {tokens : List Token} :
    scan cs p = .ok tokens ↔ Scans cs p tokens := by
  constructor
  · intro h
    fun_induction scan cs p generalizing tokens with
    | case1 =>
      cases h
      exact .nil
    | case2 => cases h
    | case3 => cases h
    | case4 => cases h
    | case5 c cs p rule d text hmunch rest tokens hscan k hclassify =>
      rename_i ih
      cases h
      obtain ⟨hsplit, hdescribes, hlongest⟩ := munch_cons hmunch
      rw [hsplit]
      exact .token hdescribes hlongest hclassify (ih hscan)
    | case6 c cs p rule d text hmunch rest tokens hscan hclassify =>
      rename_i ih
      cases h
      obtain ⟨hsplit, hdescribes, hlongest⟩ := munch_cons hmunch
      obtain rfl := rule_of_classify_none hdescribes hclassify
      rw [hsplit]
      exact .skip hdescribes.2 (ih hscan)
  · intro h
    induction h with
    | nil => rw [scan]
    | token described longest classified _ ih => exact scan_token described longest classified ih
    | skip blanks _ ih => rw [scan_skip blanks, ih]

/-! ### Ends of lexemes -/

section

variable {rule : Rule} {text rest rest' : List Char} {kind : Kind} {p : Position}
  {tokens : List Token}

theorem classify_of_makes {next : Option Char} (h : rule.Makes text kind)
    (hnext : ∀ c ∈ next, isSpace c = true ∨ c = '\n') :
    rule.classify text next = .ok (some kind) := by
  have hfind :
      ∀ {kinds : List Kind},
        (∀ k ∈ kinds, kinds.find? (fun j => j.symbol.toList = k.symbol.toList) = some k) →
      kind ∈ kinds ∧ kind.symbol.toList = text → kinds.find? (fun k => k.symbol.toList = text) =
        some kind := by
    rintro kinds hkinds ⟨hmem, rfl⟩
    exact hkinds kind hmem
  cases rule with
  | word =>
    have hkeywords : ∀ e ∈ Kind.keywords, Kind.keywords.lookup e.1 = some e.2 := by decide
    have hparen : next ≠ some '(' := by
      rintro rfl
      exact absurd (hnext '(' rfl) (by decide)
    simp only [Rule.classify]
    rcases h with hkeyword | ⟨rfl, hnone⟩
    · rw [hkeywords _ hkeyword]
    · rw [lookup_keywords_eq_none_iff.2 hnone]
      exact if_neg hparen
  | number =>
    obtain rfl : kind = .number := h
    cases next with
    | none => rfl
    | some c =>
      have hletter : ¬ (Text.isLetter c || c = '_') = true := by
        rcases (hnext c rfl).imp_left eq_of_isSpace with (rfl | rfl | rfl) | rfl <;> decide +kernel
      exact if_neg hletter
  | operator => exact congrArg Except.ok (hfind (by decide) h)
  | punctuation => exact congrArg Except.ok (hfind (by decide) h)
  | blank => exact h.elim
  | string | newline => rw [show kind = _ from h, Rule.classify]

theorem Rule.Makes.ne_blank (h : rule.Makes text kind) : rule ≠ .blank := by
  rintro rfl
  exact h

theorem Scans.lexeme (described : rule.Describes text) (makes : rule.Makes text kind)
    (hend : ∀ c ∈ rest.head?, isSpace c = true ∨ c = '\n')
    (more : Scans rest (p.advance text) tokens) :
    Scans (text ++ rest) p (⟨String.ofList text, kind, p⟩ :: tokens) := by
  have hlongest : Longest (text ++ rest) text := by
    rw [longest_append_iff described]
    intro c hc
    exact Rule.Describes.not_snoc (hend c hc) makes.ne_blank described.ne_nil
  exact .token described hlongest (classify_of_makes makes hend) more

/-- What stands behind a lexeme may be replaced, if the next character stays or the lexeme ends
there anyway. -/
theorem Scans.retoken (described : rule.Describes text) (longest : Longest (text ++ rest) text)
    (classified : rule.classify text rest.head? = .ok (some kind))
    (hhead : rest'.head? = rest.head? ∨ ∀ c ∈ rest'.head?, isSpace c = true ∨ c = '\n')
    (more : Scans rest' (p.advance text) tokens) :
    Scans (text ++ rest') p (⟨String.ofList text, kind, p⟩ :: tokens) := by
  rcases hhead with hhead | hend
  · rw [longest_append_iff described] at longest
    exact .token described ((longest_append_iff described).2 (hhead ▸ longest))
      (hhead ▸ classified) more
  · exact .lexeme described (makes_of_classify classified) hend more

theorem Scans.newline (more : Scans rest (p.advance ['\n']) tokens) :
    Scans ('\n' :: rest) p (⟨"\n", .newline, p⟩ :: tokens) := by
  have hdescribed : Rule.newline.Describes ['\n'] := rfl
  have hlongest : Longest (['\n'] ++ rest) ['\n'] := by
    rw [longest_append_iff hdescribed]
    intro c _ h
    cases (h : ['\n'] ++ [c] = ['\n'])
  exact .token hdescribed hlongest rfl more

end

theorem newline_notMem_blanks {gap : List Char} (h : ∀ c ∈ gap, isSpace c = true) : '\n' ∉ gap := by
  intro hmem
  cases h _ hmem

def bare (t : Token) : Kind × String := (t.kind, t.lexeme)

/-- A text with a carriage return put before every newline. -/
def withReturns (cs : List Char) : List Char :=
  cs.flatMap fun c => if c = '\n' then ['\r', '\n'] else [c]

theorem withReturns_append {cs ds : List Char} (h : '\n' ∉ cs) :
    withReturns (cs ++ ds) = cs ++ withReturns ds := by
  induction cs with
  | nil => rfl
  | cons c cs ih =>
    obtain ⟨hc, hcs⟩ := not_or.1 (mt List.mem_cons.2 h)
    have hstep : withReturns (c :: cs ++ ds) = [c] ++ withReturns (cs ++ ds) := by
      simp [withReturns, Ne.symm hc]
    rw [hstep, ih hcs]
    rfl

theorem head?_withReturns (cs : List Char) :
    (withReturns cs).head? = cs.head? ∨ ∀ c ∈ (withReturns cs).head?, isSpace c = true ∨
    c = '\n' := by
  cases cs with
  | nil => exact Or.inl rfl
  | cons c cs =>
    by_cases hc : c = '\n'
    · subst hc
      refine Or.inr ?_
      rintro c ⟨⟩
      exact Or.inl rfl
    · exact Or.inl (by simp [withReturns, hc])

theorem Scans.withReturns {cs : List Char} {p : Position} {tokens : List Token}
    (h : Scans cs p tokens) (q : Position) :
    ∃ tokens', Scans (withReturns cs) q tokens' ∧ tokens'.map bare = tokens.map bare := by
  induction h generalizing q with
  | nil => exact ⟨_, .nil, rfl⟩
  | @token rule text rest kind p tokens described longest classified more ih =>
    by_cases hrule : rule = .newline
    · subst hrule
      obtain rfl : text = ['\n'] := described
      cases classified
      obtain ⟨tokens', hscans, hbare⟩ := ih ((q.advance ['\r']).advance ['\n'])
      have hreturn : ∀ c ∈ ['\r'], isSpace c = true := List.forall_mem_singleton.2 rfl
      have hboth :
          Scans (['\r'] ++ '\n' :: Token.withReturns rest) q
            (⟨"\n", .newline, q.advance ['\r']⟩ :: tokens') :=
        .skip hreturn (.newline hscans)
      exact ⟨_, hboth, congrArg (List.cons _) hbare⟩
    · rw [withReturns_append (described.newline_notMem hrule)]
      obtain ⟨tokens', hscans, hbare⟩ := ih (q.advance text)
      exact ⟨_, .retoken described longest classified (head?_withReturns rest) hscans,
        congrArg (List.cons _) hbare⟩
  | @skip gap rest p tokens blanks more ih =>
    rw [withReturns_append (newline_notMem_blanks blanks)]
    obtain ⟨tokens', hscans, hbare⟩ := ih (q.advance gap)
    exact ⟨tokens', .skip blanks hscans, hbare⟩

/-- Newlines behind a text make newline tokens before the end token, and change no other. -/
theorem Scans.append_newlines {cs : List Char} {p : Position} {tokens : List Token}
    (h : Scans cs p tokens) (n : Nat) :
    ∃ front stop lines stop', tokens = front ++ [⟨"", .endOfFile, stop⟩] ∧
      (∀ t ∈ front, t.kind ≠ .endOfFile) ∧
      (∀ t ∈ lines, t.kind = .newline) ∧
      Scans (cs ++ List.replicate n '\n') p (front ++ (lines ++ [⟨"", .endOfFile, stop'⟩])) := by
  induction h with
  | @nil p =>
    have hlines : ∀ (n : Nat) (p : Position), ∃ lines stop', (∀ t ∈ lines, t.kind = .newline) ∧
        Scans (List.replicate n '\n') p (lines ++ [⟨"", .endOfFile, stop'⟩]) := by
      intro n
      induction n with
      | zero => exact fun p => ⟨[], p, nofun, .nil⟩
      | succ n ih =>
        intro p
        obtain ⟨lines, stop', hlines, hscans⟩ := ih (p.advance ['\n'])
        exact ⟨_ :: lines, stop', List.forall_mem_cons.2 ⟨rfl, hlines⟩, .newline hscans⟩
    obtain ⟨lines, stop', hall, hscans⟩ := hlines n p
    exact ⟨[], p, lines, stop', rfl, nofun, hall, hscans⟩
  | @token rule text rest kind p tokens described longest classified more ih =>
    obtain ⟨front, stop, lines, stop', rfl, hfront, hlines, hscans⟩ := ih
    have hhead : (rest ++ List.replicate n '\n').head? = rest.head? ∨
        ∀ c ∈ (rest ++ List.replicate n '\n').head?, isSpace c = true ∨ c = '\n' := by
      cases rest with
      | nil => exact Or.inr fun c hc => Or.inr (List.eq_of_mem_replicate (List.mem_of_head? hc))
      | cons d rest => exact Or.inl rfl
    have hkind := (makes_of_classify classified).ne_endOfFile
    rw [List.append_assoc]
    exact ⟨_ :: front, stop, lines, stop', rfl, List.forall_mem_cons.2 ⟨hkind, hfront⟩, hlines,
      .retoken described longest classified hhead hscans⟩
  | @skip gap rest p tokens blanks more ih =>
    obtain ⟨front, stop, lines, stop', rfl, hfront, hlines, hscans⟩ := ih
    rw [List.append_assoc]
    exact ⟨front, stop, lines, stop', rfl, hfront, hlines, .skip blanks hscans⟩

/-! ### Lexemes of scanned tokens -/

theorem isBlank_of_isWordChar {c : Char} (h : isWordChar c = true) : Text.isBlank c = false := by
  have hrange : 48 ≤ c.toNat ∧ c.toNat ≤ 122 := by
    delta isWordChar Char.isAlphanum Char.isAlpha Char.isUpper Char.isLower Char.isDigit at h
    simp only [Bool.or_eq_true, Bool.and_eq_true, decide_eq_true_eq, ge_iff_le,
      UInt32.le_iff_toNat_le] at h
    rcases h with ((⟨hlow, hhigh⟩ | ⟨hlow, hhigh⟩) | ⟨hlow, hhigh⟩) | rfl
    · exact ⟨Nat.le_trans (by decide) hlow, Nat.le_trans hhigh (by decide)⟩
    · exact ⟨Nat.le_trans (by decide) hlow, Nat.le_trans hhigh (by decide)⟩
    · exact ⟨Nat.le_trans (by decide) hlow, Nat.le_trans hhigh (by decide)⟩
    · decide
  rw [Bool.eq_false_iff]
  intro hblank
  simp only [Text.isBlank, Bool.or_eq_true, Bool.and_eq_true, decide_eq_true_eq,
    beq_iff_eq] at hblank
  omega

theorem Rule.Makes.plain {rule : Rule} {text : List Char} {kind : Kind}
    (hmakes : rule.Makes text kind) (hdescribed : rule.Describes text) (p : Position) :
    Plain ⟨String.ofList text, kind, p⟩ := by
  have hother : kind ≠ .number → kind ≠ .identifier → Plain ⟨String.ofList text, kind, p⟩ :=
    fun hnumber hname =>
      ⟨fun h => absurd h hnumber, fun h => absurd h hnumber, fun h => absurd h hname⟩
  cases rule with
  | word =>
    have hkeywords : ∀ e ∈ Kind.keywords, e.2 ≠ .number ∧ e.2 ≠ .identifier := by decide
    rcases hmakes with hkeyword | ⟨rfl, -⟩
    · exact hother (hkeywords _ hkeyword).1 (hkeywords _ hkeyword).2
    · obtain ⟨first, others, rfl, hfirst, hothers⟩ := hdescribed
      refine ⟨nofun, nofun, fun _ c hc => isBlank_of_isWordChar ?_⟩
      rw [String.toList_ofList] at hc
      rcases List.mem_cons.1 hc with rfl | hc
      · exact isWordChar_of_isWordStart hfirst
      · exact hothers c hc
  | number =>
    obtain rfl : kind = .number := hmakes
    refine ⟨fun _ hempty => hdescribed.1 ?_, fun _ c hc => hdescribed.2 c ?_, nofun⟩
    · rw [← String.toList_ofList (l := text), show String.ofList text = "" from hempty]
      rfl
    · rwa [String.toList_ofList] at hc
  | operator =>
    have hoperators : ∀ k ∈ Kind.operators, k ≠ .number ∧ k ≠ .identifier := by decide
    exact hother (hoperators _ hmakes.1).1 (hoperators _ hmakes.1).2
  | punctuation =>
    have hpunctuation : ∀ k ∈ Kind.punctuation, k ≠ .number ∧ k ≠ .identifier := by decide
    exact hother (hpunctuation _ hmakes.1).1 (hpunctuation _ hmakes.1).2
  | blank => exact hmakes.elim
  | string | newline =>
    rw [show kind = _ from hmakes]
    exact ⟨nofun, nofun, nofun⟩

theorem Scans.plain {cs : List Char} {p : Position} {tokens : List Token} (h : Scans cs p tokens) :
    ∀ t ∈ tokens, t.Plain := by
  induction h with
  | nil => exact List.forall_mem_cons.2 ⟨⟨nofun, nofun, nofun⟩, nofun⟩
  | token described _ classified _ ih =>
    exact List.forall_mem_cons.2 ⟨(makes_of_classify classified).plain described _, ih⟩
  | skip _ _ ih => exact ih

/-! ### Lexemes with spaces between them -/

def IsLexeme (e : Kind × String) : Prop :=
  ∃ rule : Rule, rule.Describes e.2.toList ∧ rule.Makes e.2.toList e.1

theorem Scans.spaced_lexeme {e : Kind × String} {cs : List Char} {p : Position}
    {tokens : List Token} (h : IsLexeme e)
    (more : Scans cs ((p.advance e.2.toList).advance [' ']) tokens) :
    Scans (e.2.toList ++ ' ' :: cs) p (⟨e.2, e.1, p⟩ :: tokens) := by
  obtain ⟨rule, hdescribed, hmakes⟩ := h
  have hspace : ∀ c ∈ [' '], isSpace c = true := List.forall_mem_singleton.2 rfl
  have hend : ∀ c ∈ (' ' :: cs).head?, isSpace c = true ∨ c = '\n' := by
    rintro c ⟨⟩
    exact Or.inl rfl
  have hscans : Scans (e.2.toList ++ ' ' :: cs) p (⟨String.ofList e.2.toList, e.1, p⟩ :: tokens) :=
    .lexeme hdescribed hmakes hend (.skip hspace more)
  rwa [String.ofList_toList] at hscans

/-- Lexemes in a row, a space between each two of them, are read as they are. -/
theorem exists_scans_spaced {es : List (Kind × String)} (h : ∀ e ∈ es, IsLexeme e) (p : Position) :
    ∃ front stop, Scans (" ".intercalate (es.map Prod.snd)).toList p
      (front ++ [⟨"", .endOfFile, stop⟩]) ∧
      front.map bare = es := by
  rw [String.toList_intercalate, List.map_map]
  induction es generalizing p with
  | nil => exact ⟨[], p, .nil, rfl⟩
  | cons e es ih =>
    obtain ⟨hlexeme, hmore⟩ := List.forall_mem_cons.1 h
    cases es with
    | nil =>
      obtain ⟨rule, hdescribed, hmakes⟩ := hlexeme
      have hscans : Scans (e.2.toList ++ []) p _ := .lexeme hdescribed hmakes nofun .nil
      rw [List.append_nil, String.ofList_toList] at hscans
      rw [List.map_singleton, List.intercalate_singleton]
      exact ⟨[_], _, hscans, rfl⟩
    | cons e' es =>
      obtain ⟨front, stop, hscans, hfront⟩ := ih hmore ((p.advance e.2.toList).advance [' '])
      simp only [List.map_cons, List.intercalate_cons_cons, List.append_assoc,
        Function.comp_apply] at hscans ⊢
      exact ⟨_ :: front, stop, .spaced_lexeme hlexeme hscans, congrArg (List.cons e) hfront⟩

/-! ### Tokens written out again -/

def spaced (tokens : List Token) : String := " ".intercalate (tokens.map lexeme)

theorem Scans.ne_nil {cs : List Char} {p : Position} {tokens : List Token} (h : Scans cs p tokens) :
    tokens ≠ [] := by
  induction h with
  | nil => exact List.cons_ne_nil _ _
  | token => exact List.cons_ne_nil _ _
  | skip _ _ ih => exact ih

/-- By induction on the scan: whatever stood behind a lexeme before, a space there ends it and
leaves its kind. -/
theorem Scans.respaced {cs : List Char} {p : Position} {tokens : List Token} (h : Scans cs p tokens)
    (q : Position) :
    ∃ tokens', Scans (spaced tokens).toList q tokens' ∧ tokens'.map bare = tokens.map bare := by
  induction h generalizing q with
  | nil => exact ⟨_, .nil, rfl⟩
  | @token rule text rest kind p tokens described longest classified more ih =>
    have hlexeme : IsLexeme (kind, String.ofList text) := by
      refine ⟨rule, ?_, ?_⟩
      · rwa [String.toList_ofList]
      · rw [String.toList_ofList]
        exact makes_of_classify classified
    have hspaced : (spaced (⟨String.ofList text, kind, p⟩ :: tokens)).toList =
        (String.ofList text).toList ++ ' ' :: (spaced tokens).toList := by
      rw [spaced, List.map_cons,
        String.intercalate_cons_of_ne_nil (mt List.map_eq_nil_iff.1 more.ne_nil),
        String.toList_append, String.toList_append, List.append_assoc]
      rfl
    obtain ⟨tokens', hscans, hbare⟩ := ih ((q.advance (String.ofList text).toList).advance [' '])
    rw [hspaced]
    exact ⟨_, .spaced_lexeme hlexeme hscans, congrArg (List.cons (kind, String.ofList text)) hbare⟩
  | skip _ _ ih => exact ih q

/-- Tokens written with single spaces between their lexemes are read back as they were, up to
places. -/
theorem spaced_tokens_are_read_back {source : String} {tokens : List Token}
    (h : tokenize source = .ok tokens) :
    ∃ tokens', tokenize (spaced tokens) = .ok tokens' ∧ tokens'.map bare = tokens.map bare := by
  obtain ⟨tokens', hscans, hbare⟩ := (scan_eq_ok_iff.1 h).respaced Position.start
  exact ⟨tokens', scan_eq_ok_iff.2 hscans, hbare⟩

/-- Lexemes that stand close together, and a string with what would be lexemes outside of it. -/
theorem dense_tokens_are_read_back :
    ∃ tokens, tokenize "x<-y**-1\n\t\"a(**\r\"<=Size(007)" = .ok tokens ∧
      spaced tokens = "x <- y ** - 1 \n \"a(**\r\" <= Size ( 007 ) " ∧
      ∃ tokens', tokenize (spaced tokens) = .ok tokens' ∧ tokens'.map bare = tokens.map bare := by
  have hspaced : (tokenize "x<-y**-1\n\t\"a(**\r\"<=Size(007)").toOption.map spaced =
      some "x <- y ** - 1 \n \"a(**\r\" <= Size ( 007 ) " := by decide +kernel
  cases htokens : tokenize "x<-y**-1\n\t\"a(**\r\"<=Size(007)" with
  | error e =>
    rw [htokens] at hspaced
    cases hspaced
  | ok tokens =>
    rw [htokens] at hspaced
    exact ⟨tokens, rfl, Option.some.inj hspaced, spaced_tokens_are_read_back htokens⟩

end Brushwork.Token
