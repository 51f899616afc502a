import Brushwork.Proofs.LexicalRules

/-!
# Reading a text into tokens

Scanning moves through a text from one longest lexeme to the next. It fails at the first place that
has a defect: no rule has a text there, a number runs into a letter, or an unknown word stands
before an opening parenthesis. If there is no such place, the text falls into segments, each of them
blanks and a lexeme, and every token stands where counting lines and columns finds the start of its
lexeme.
-/

namespace Brushwork

namespace Position

/-- The place behind a text. Its line counts the newlines of the text, its column the characters
since the last one. -/
def behind (before : List Char) : Position :=
  ⟨1 + before.count '\n', 1 + (before.reverse.takeWhile fun c => c ≠ '\n').length⟩

theorem advance_start (before : List Char) : start.advance before = behind before := by
  obtain ⟨cs, rfl⟩ : ∃ cs : List Char, before = cs.reverse := ⟨before.reverse, by simp⟩
  induction cs with
  | nil => rfl
  | cons c cs ih =>
    rw [List.reverse_cons, advance_append, ih, advance_cons, advance_nil, after]
    by_cases hc : c = '\n'
    · subst hc
      simp [behind, Int.add_assoc]
    · simp [behind, hc, Int.add_assoc]

end Position

namespace Token

namespace Rule

/-- The kind of the token that a text of a rule makes. -/
def Makes : Rule → List Char → Kind → Prop
  | .word, text, kind => (String.ofList text, kind) ∈ Kind.keywords ∨
      kind = .identifier ∧ ∀ k, (String.ofList text, k) ∉ Kind.keywords
  | .number, _, kind => kind = .number
  | .operator, text, kind => kind ∈ Kind.operators ∧ kind.symbol.toList = text
  | .punctuation, text, kind => kind ∈ Kind.punctuation ∧ kind.symbol.toList = text
  | .blank, _, _ => False
  | .string, _, kind => kind = .string
  | .newline, _, kind => kind = .newline

end Rule

/-- A text that cannot be read on, with the defect of its start. -/
inductive Defective : List Char → Defect → Prop
  | unmatched {c : Char} {cs : List Char}
      (none : ∀ (text : List Char) (rule : Rule), text <+: c :: cs → ¬ rule.Describes text) :
      Defective (c :: cs) (.unmatched c)
  | number {digits rest : List Char} {c : Char} (longest : Longest (digits ++ c :: rest) digits)
      (digital : Rule.number.Describes digits) (next : Text.isLetter c = true ∨ c = '_') :
      Defective (digits ++ c :: rest) (.digitFirst (String.ofList digits) c)
  | word {word rest : List Char} (longest : Longest (word ++ '(' :: rest) word)
      (wordy : Rule.word.Describes word) (unknown : ∀ k, (String.ofList word, k) ∉ Kind.keywords) :
      Defective (word ++ '(' :: rest) (.notKeyword (String.ofList word))

/-- The places that scanning a text comes to, with what is before and behind each of them. Going on
with the longest lexeme does not depend on defects. -/
inductive Scanned : (text before rest : List Char) → Prop
  | here {cs : List Char} : Scanned cs [] cs
  | on {text rest before cs : List Char} (longest : Longest (text ++ rest) text)
      (more : Scanned rest before cs) : Scanned (text ++ rest) (text ++ before) cs

theorem lookup_keywords_eq_none_iff {s : String} :
    Kind.keywords.lookup s = none ↔ ∀ k, (s, k) ∉ Kind.keywords := by
  rw [List.lookup_eq_none_iff]
  constructor
  · intro h k hk
    simpa using h (s, k) hk
  · rintro h ⟨s', k⟩ hk
    rw [bne_iff_ne]
    rintro rfl
    exact h k hk

section

variable {rule : Rule} {text rest cs before : List Char} {c : Char} {defect : Defect}

/-- The defect of a place with a longest text is the one that its kind is refused for. -/
theorem defective_append_iff (h : rule.Describes text) (hlongest : Longest (text ++ rest) text) :
    Defective (text ++ rest) defect ↔ rule.classify text rest.head? = .error defect := by
  constructor
  · intro hdefective
    generalize hcs : text ++ rest = cs at hdefective
    have hsame : ∀ {text' rest' : List Char} {rule' : Rule}, cs = text' ++ rest' →
          Longest cs text' →
        rule'.Describes text' → text = text' ∧ rest = rest' ∧ rule = rule' := by
      rintro text' rest' rule' rfl hlongest' h'
      obtain rfl := Longest.unique (hcs ▸ hlongest) hlongest'
      obtain ⟨d, ds, rfl⟩ := List.exists_cons_of_ne_nil h.ne_nil
      exact ⟨rfl, List.append_cancel_left hcs, h.rule_unique h'⟩
    cases hdefective with
    | unmatched none =>
      rw [← hcs] at none
      exact absurd h (none _ _ (List.prefix_append text rest))
    | number longest digital next =>
      obtain ⟨rfl, rfl, rfl⟩ := hsame rfl longest digital
      simp [Rule.classify, next]
    | word longest wordy unknown =>
      obtain ⟨rfl, rfl, rfl⟩ := hsame rfl longest wordy
      simp [Rule.classify, lookup_keywords_eq_none_iff.2 unknown]
  · intro hclassify
    cases rule with
    | word =>
      simp only [Rule.classify] at hclassify
      split at hclassify
      · cases hclassify
      · rename_i hlookup
        split at hclassify
        · rename_i hparen
          cases hclassify
          obtain ⟨more, rfl⟩ := List.head?_eq_some_iff.1 hparen
          exact .word hlongest h (lookup_keywords_eq_none_iff.1 hlookup)
        · cases hclassify
    | number =>
      simp only [Rule.classify] at hclassify
      split at hclassify
      · rename_i c hnext
        split at hclassify
        · rename_i hletter
          cases hclassify
          obtain ⟨more, rfl⟩ := List.head?_eq_some_iff.1 hnext
          exact .number hlongest h (by simpa using hletter)
        · cases hclassify
      · cases hclassify
    | operator | punctuation | blank | string | newline => cases hclassify

theorem defective_cons_iff (hnone : (munch (c :: cs)).2 = []) :
    Defective (c :: cs) defect ↔ defect = .unmatched c := by
  have hnone := munch_eq_nil_iff.1 hnone
  constructor
  · intro hdefective
    generalize hcs : c :: cs = text at hdefective
    cases hdefective with
    | unmatched =>
      cases hcs
      rfl
    | number longest digital => exact absurd digital (hnone _ _ (hcs ▸ longest.leads))
    | word longest wordy => exact absurd wordy (hnone _ _ (hcs ▸ longest.leads))
  · rintro rfl
    exact .unmatched hnone

theorem not_defective_nil : ¬ Defective [] defect := by
  intro h
  generalize hcs : ([] : List Char) = cs at h
  cases h with
  | unmatched => cases hcs
  | number => exact absurd hcs (by simp)
  | word => exact absurd hcs (by simp)

/-- Behind the start of a text, scanning comes to the places behind its longest lexeme. -/
theorem Scanned.cases_longest (h : Scanned (text ++ rest) before cs)
    (hlongest : Longest (text ++ rest) text) :
    before = [] ∧ cs = text ++ rest ∨ ∃ more, before = text ++ more ∧ Scanned rest more cs := by
  generalize hall : text ++ rest = all at h
  cases h with
  | here => exact Or.inl ⟨rfl, rfl⟩
  | on longest more =>
    right
    obtain rfl := Longest.unique (hall ▸ hlongest) longest
    obtain rfl := List.append_cancel_left hall
    exact ⟨_, rfl, more⟩

theorem Scanned.eq_start (h : Scanned text before cs) (hnone : (munch text).2 = []) :
    before = [] ∧ cs = text := by
  cases h with
  | here => exact ⟨rfl, rfl⟩
  | on longest =>
    obtain ⟨rule, hrule⟩ := longest.described
    exact absurd hrule (munch_eq_nil_iff.1 hnone _ _ longest.leads)

theorem Scanned.eq_append (h : Scanned text before cs) : text = before ++ cs := by
  induction h with
  | here => rfl
  | on _ _ ih => rw [ih, List.append_assoc]

theorem munch_cons {d : Char} (h : munch (c :: cs) = (rule, d :: text)) :
    c :: cs = (d :: text) ++ cs.drop text.length ∧ rule.Describes (d :: text) ∧
      Longest ((d :: text) ++ cs.drop text.length) (d :: text) := by
  have hne : (munch (c :: cs)).2 ≠ [] := by
    rw [h]
    exact List.cons_ne_nil d text
  have hmunch := longest_munch hne
  rw [h] at hmunch
  obtain ⟨hdescribes, hlongest⟩ := hmunch
  have hsplit : c :: cs = (d :: text) ++ cs.drop text.length :=
    (List.prefix_iff_eq_append.1 hlongest.leads).symm
  exact ⟨hsplit, hdescribes, hsplit ▸ hlongest⟩

end

/-! ### Failures -/

def FirstDefect (place : List Char → Position) (source : List Char) (e : Located Defect) : Prop :=
  ∃ before rest, Scanned source before rest ∧ Defective rest e.cause ∧ e.position = place before ∧
    ∀ {before' rest' defect}, Scanned source before' rest' → Defective rest' defect →
      before.length ≤ before'.length

theorem firstDefect_of_scan {cs : List Char} {p : Position} {e : Located Defect}
    (h : scan cs p = .error e) : FirstDefect p.advance cs e := by
  fun_induction scan cs p with
  | case1 => cases h
  | case2 c cs p rule hmunch =>
    cases h
    have hnone : (munch (c :: cs)).2 = [] := by rw [hmunch]
    exact ⟨[], _, .here, (defective_cons_iff hnone).2 rfl, rfl, fun _ _ => Nat.zero_le _⟩
  | case3 c cs p rule d text hmunch rest defect hclassify =>
    cases h
    obtain ⟨hsplit, hdescribes, hlongest⟩ := munch_cons hmunch
    rw [hsplit]
    exact ⟨[], _, .here, (defective_append_iff hdescribes hlongest).2 hclassify, rfl, fun _ _ =>
      Nat.zero_le _⟩
  | case4 c cs p rule d text hmunch rest kind hclassify e' hscan ih =>
    cases h
    obtain ⟨hsplit, hdescribes, hlongest⟩ := munch_cons hmunch
    obtain ⟨before, behind, hscanned, hdefective, hposition, hfirst⟩ := ih hscan
    rw [hsplit]
    refine ⟨(d :: text) ++ before, behind, .on hlongest hscanned, hdefective, ?_, ?_⟩
    · rw [hposition, Position.advance_append]
    · intro before' rest' defect hscanned' hdefective'
      rcases hscanned'.cases_longest hlongest with ⟨rfl, rfl⟩ | ⟨more, rfl, hmore⟩
      · rw [defective_append_iff hdescribes hlongest, hclassify] at hdefective'
        cases hdefective'
      · have := hfirst hmore hdefective'
        rw [List.length_append, List.length_append]
        omega
  | case5 => cases h
  | case6 => cases h

/-! ### Successes -/

/-- Blanks that are skipped and the token behind them. -/
structure Segment where
  gap : List Char
  token : Token

def Segment.text (s : Segment) : List Char := s.gap ++ s.token.lexeme.toList

def written (segments : List Segment) : List Char := segments.flatMap Segment.text

structure Segment.Stands (place : List Char → Position) (before : List Segment) (s : Segment)
    (after : List Segment) : Prop where
  blanks : ∀ c ∈ s.gap, isSpace c = true
  position : s.token.position = place (written before ++ s.gap)
  /-- The end token is the last one, and no other one is last. -/
  kind : s.token.kind = .endOfFile ↔ after = []
  last : after = [] → s.token.lexeme = ""
  longest : after ≠ [] → Longest (s.token.lexeme.toList ++ written after) s.token.lexeme.toList
  named : after ≠ [] →
    ∃ rule : Rule, rule.Describes s.token.lexeme.toList ∧
    rule.Makes s.token.lexeme.toList s.token.kind

/-- A text cut into segments, each of which stands in its place. -/
structure Segmented (place : List Char → Position) (source : List Char) (segments : List Segment) :
    Prop where
  nonempty : segments ≠ []
  source : written segments = source
  stands : ∀ before s after, segments = before ++ s :: after → s.Stands place before after

section

variable {source gap text rest : List Char} {segments : List Segment} {p : Position} {rule : Rule}
  {kind : Kind}

theorem segmented_nil (p : Position) : Segmented p.advance [] [⟨[], ⟨"", .endOfFile, p⟩⟩] := by
  refine ⟨by simp, rfl, ?_⟩
  intro before s after hsplit
  obtain ⟨rfl, hs⟩ | ⟨before', rfl, hs⟩ := List.append_eq_cons_iff.1 hsplit.symm
  · cases hs
    exact ⟨nofun, rfl, by simp, fun _ => rfl, by simp, by simp⟩
  · exact absurd hs (by simp)

theorem Rule.Makes.ne_endOfFile (h : rule.Makes text kind) : kind ≠ .endOfFile := by
  cases rule with
  | word =>
    have hall : ∀ e ∈ Kind.keywords, e.2 ≠ .endOfFile := by decide
    rcases h with h | ⟨rfl, -⟩
    · exact hall _ h
    · nofun
  | operator =>
    have hall : Kind.endOfFile ∉ Kind.operators := by decide
    rintro rfl
    exact hall h.1
  | punctuation =>
    have hall : Kind.endOfFile ∉ Kind.punctuation := by decide
    rintro rfl
    exact hall h.1
  | blank => exact h.elim
  | number | string | newline =>
    rw [show kind = _ from h]
    nofun

theorem Segmented.token (h : Segmented (p.advance text).advance rest segments)
    (hlongest : Longest (text ++ rest) text) (hdescribes : rule.Describes text)
    (hmakes : rule.Makes text kind) :
    Segmented p.advance (text ++ rest) (⟨[], ⟨String.ofList text, kind, p⟩⟩ :: segments) := by
  obtain ⟨hnonempty, rfl, hstands⟩ := h
  refine ⟨by simp, by simp [written, Segment.text], ?_⟩
  intro before s after hsplit
  obtain ⟨rfl, hs⟩ | ⟨before', rfl, hs⟩ := List.append_eq_cons_iff.1 hsplit.symm
  · cases hs
    refine ⟨nofun, rfl, ?_, ?_, ?_, ?_⟩
    · exact ⟨fun h => absurd h hmakes.ne_endOfFile, fun h => absurd h hnonempty⟩
    · exact fun h => absurd h hnonempty
    · exact fun _ => by simpa using hlongest
    · exact fun _ => ⟨rule, by simpa using hdescribes, by simpa using hmakes⟩
  · obtain ⟨hblanks, hposition, hkind, hlast, hlongest', hnamed⟩ := hstands _ _ _ hs
    refine ⟨hblanks, ?_, hkind, hlast, hlongest', hnamed⟩
    rw [hposition, ← Position.advance_append]
    simp [written, Segment.text]

theorem Segmented.skip (h : Segmented (p.advance gap).advance rest segments)
    (hgap : ∀ c ∈ gap, isSpace c = true) :
    ∃ segments', segments'.map Segment.token = segments.map Segment.token ∧
      Segmented p.advance (gap ++ rest) segments' := by
  obtain ⟨hnonempty, rfl, hstands⟩ := h
  obtain ⟨first, segments, rfl⟩ := List.exists_cons_of_ne_nil hnonempty
  refine ⟨⟨gap ++ first.gap, first.token⟩ :: segments,
    rfl, by simp, by simp [written, Segment.text], ?_⟩
  intro before s after hsplit
  obtain ⟨rfl, hs⟩ | ⟨before', rfl, hs⟩ := List.append_eq_cons_iff.1 hsplit.symm
  · cases hs
    obtain ⟨hblanks, hposition, hkind, hlast, hlongest, hnamed⟩ := hstands [] _ _ rfl
    refine ⟨?_, ?_, hkind, hlast, hlongest, hnamed⟩
    · intro c hc
      rcases List.mem_append.1 hc with hc | hc
      · exact hgap c hc
      · exact hblanks c hc
    · rw [hposition, ← Position.advance_append]
      rfl
  · obtain ⟨hblanks, hposition, hkind, hlast, hlongest, hnamed⟩ :=
      hstands (first :: before') _ _ (congrArg _ hs)
    refine ⟨hblanks, ?_, hkind, hlast, hlongest, hnamed⟩
    rw [hposition, ← Position.advance_append]
    simp [written, Segment.text]

theorem makes_of_classify {next : Option Char} (h : rule.classify text next = .ok (some kind)) :
    rule.Makes text kind := by
  cases rule with
  | word =>
    simp only [Rule.classify] at h
    split at h
    · rename_i k hlookup
      obtain rfl : k = kind := by simpa using h
      obtain ⟨before, after, hsplit, -⟩ := List.lookup_eq_some_iff.1 hlookup
      exact Or.inl (by rw [hsplit]; simp)
    · rename_i hlookup
      split at h
      · cases h
      · cases h
        exact Or.inr ⟨rfl, lookup_keywords_eq_none_iff.1 hlookup⟩
  | number =>
    simp only [Rule.classify] at h
    split at h
    · split at h <;> cases h
      rfl
    · cases h
      rfl
  | operator =>
    have hfind := Except.ok.inj h
    exact ⟨List.mem_of_find?_eq_some hfind, by simpa using List.find?_some hfind⟩
  | punctuation =>
    have hfind := Except.ok.inj h
    exact ⟨List.mem_of_find?_eq_some hfind, by simpa using List.find?_some hfind⟩
  | blank => cases h
  | string | newline =>
    cases h
    rfl

theorem rule_of_classify_none {next : Option Char} (hdescribes : rule.Describes text)
    (h : rule.classify text next = .ok none) : rule = .blank := by
  cases rule with
  | word =>
    simp only [Rule.classify] at h
    split at h
    · cases h
    · split at h <;> cases h
  | number =>
    simp only [Rule.classify] at h
    split at h
    · split at h <;> cases h
    · cases h
  | operator =>
    obtain ⟨k, hk, hsymbol⟩ := hdescribes
    exact absurd hsymbol (by simpa using List.find?_eq_none.1 (Except.ok.inj h) k hk)
  | punctuation =>
    obtain ⟨k, hk, hsymbol⟩ := hdescribes
    exact absurd hsymbol (by simpa using List.find?_eq_none.1 (Except.ok.inj h) k hk)
  | blank => rfl
  | string | newline => cases h

end

theorem segmented_of_scan {cs : List Char} {p : Position} {tokens : List Token}
    (h : scan cs p = .ok tokens) :
    (∃ segments, segments.map Segment.token = tokens ∧ Segmented p.advance cs segments) ∧
      ∀ {before rest defect}, Scanned cs before rest → ¬ Defective rest defect := by
  fun_induction scan cs p generalizing tokens with
  | case1 p =>
    cases h
    refine ⟨⟨_, rfl, segmented_nil p⟩, ?_⟩
    intro before rest defect hscanned
    obtain ⟨-, rfl⟩ := hscanned.eq_start rfl
    exact not_defective_nil
  | case2 => cases h
  | case3 => cases h
  | case4 => cases h
  | case5 c cs p rule d text hmunch rest tokens hscan k hclassify =>
    rename_i ih
    cases h
    obtain ⟨hsplit, hdescribes, hlongest⟩ := munch_cons hmunch
    obtain ⟨⟨segments, rfl, hsegmented⟩, hclean⟩ := ih hscan
    rw [hsplit]
    refine ⟨⟨_, rfl, hsegmented.token hlongest hdescribes (makes_of_classify hclassify)⟩, ?_⟩
    intro before rest' defect hscanned hdefective
    rcases hscanned.cases_longest hlongest with ⟨rfl, rfl⟩ | ⟨more, rfl, hmore⟩
    · rw [defective_append_iff hdescribes hlongest, hclassify] at hdefective
      cases hdefective
    · exact hclean hmore hdefective
  | case6 c cs p rule d text hmunch rest tokens hscan hclassify =>
    rename_i ih
    cases h
    obtain ⟨hsplit, hdescribes, hlongest⟩ := munch_cons hmunch
    obtain rfl := rule_of_classify_none hdescribes hclassify
    obtain ⟨⟨segments, rfl, hsegmented⟩, hclean⟩ := ih hscan
    obtain ⟨segments', hsame, hsegmented'⟩ := hsegmented.skip hdescribes.2
    rw [hsplit]
    refine ⟨⟨segments', hsame, hsegmented'⟩, ?_⟩
    intro before rest' defect hscanned hdefective
    rcases hscanned.cases_longest hlongest with ⟨rfl, rfl⟩ | ⟨more, rfl, hmore⟩
    · rw [defective_append_iff hdescribes hlongest, hclassify] at hdefective
      cases hdefective
    · exact hclean hmore hdefective

/-- The last token, and no other one, is an end token, and it stands behind the text. -/
theorem Segmented.ending {place : List Char → Position} {source : List Char}
    {segments : List Segment} (h : Segmented place source segments) :
    ∃ front, segments.map Segment.token = front ++ [⟨"", .endOfFile, place source⟩] ∧
      ∀ t ∈ front, t.kind ≠ .endOfFile := by
  obtain ⟨hnonempty, rfl, hstands⟩ := h
  obtain ⟨front, ⟨gap, ⟨lexeme, kind, position⟩⟩, rfl⟩ : ∃ front last, segments = front ++ [last] :=
    ⟨_, _, (List.dropLast_concat_getLast hnonempty).symm⟩
  obtain ⟨-, hposition, hkind, hlast, -, -⟩ := hstands _ _ _ rfl
  obtain rfl : kind = .endOfFile := hkind.2 rfl
  obtain rfl : lexeme = "" := hlast rfl
  have hwritten :
      written (front ++ [⟨gap, ⟨"", .endOfFile, position⟩⟩]) = written front ++ gap := by
    simp [written, Segment.text]
  refine ⟨front.map Segment.token, ?_, ?_⟩
  · rw [hwritten, ← hposition]
    simp
  · intro t ht heof
    obtain ⟨s, hs, rfl⟩ := List.mem_map.1 ht
    obtain ⟨before, after, rfl⟩ := List.append_of_mem hs
    have hinner := (hstands before s _ (List.append_assoc ..)).kind.1 heof
    exact absurd hinner (by simp)

/-- What tokens have to do with the text they are read from. -/
structure Lexed (source : List Char) (tokens : List Token) : Prop where
  /-- The text falls into blanks and lexemes, and each token stands where its lexeme starts. -/
  segments :
    ∃ segments, segments.map Segment.token = tokens ∧ Segmented Position.behind source segments
  /-- There is one end token, behind the text. -/
  ending : ∃ front, tokens = front ++ [⟨"", .endOfFile, Position.behind source⟩] ∧
    ∀ t ∈ front, t.kind ≠ .endOfFile

theorem lexed_of_tokenize {source : String} {tokens : List Token}
    (h : tokenize source = .ok tokens) : Lexed source.toList tokens := by
  obtain ⟨⟨segments, rfl, hsegmented⟩, -⟩ := segmented_of_scan h
  rw [funext Position.advance_start] at hsegmented
  exact ⟨⟨segments, rfl, hsegmented⟩, hsegmented.ending⟩

theorem firstDefect_of_tokenize {source : String} {e : Located Defect}
    (h : tokenize source = .error e) : FirstDefect Position.behind source.toList e := by
  have hfirst := firstDefect_of_scan h
  rwa [funext Position.advance_start] at hfirst

theorem tokenize_is_lossless (source : String) :
    ((∃ tokens, tokenize source = .ok tokens) ↔
      ∀ before rest, Scanned source.toList before rest → ∀ defect, ¬ Defective rest defect) ∧
    (∀ tokens, tokenize source = .ok tokens → Lexed source.toList tokens) ∧
    ∀ e, tokenize source = .error e → FirstDefect Position.behind source.toList e := by
  refine ⟨⟨?_, ?_⟩, fun _ => lexed_of_tokenize, fun _ => firstDefect_of_tokenize⟩
  · rintro ⟨tokens, h⟩ before rest hscanned defect
    exact (segmented_of_scan h).2 hscanned
  · intro hclean
    cases h : tokenize source with
    | ok tokens => exact ⟨tokens, rfl⟩
    | error e =>
      obtain ⟨before, rest, hscanned, hdefective, -⟩ := firstDefect_of_tokenize h
      exact absurd hdefective (hclean before rest hscanned _)

/-- A string may hold a carriage return. A letter behind digits is found before the unknown word
behind it. -/
theorem letter_behind_digits_is_first :
    (∃ tokens, tokenize "x <-\t\"a\r\" \r\n" = .ok tokens ∧
      Lexed "x <-\t\"a\r\" \r\n".toList tokens) ∧
    ∃ e, tokenize "a\n 7é go(" = .error e ∧ e = ⟨.digitFirst "7" 'é', ⟨2, 2⟩⟩ ∧
      FirstDefect Position.behind "a\n 7é go(".toList e := by
  obtain ⟨-, hlexed, -⟩ := tokenize_is_lossless "x <-\t\"a\r\" \r\n"
  obtain ⟨-, -, hfirst⟩ := tokenize_is_lossless "a\n 7é go("
  constructor
  · have hok : (tokenize "x <-\t\"a\r\" \r\n").isOk = true := by decide +kernel
    cases htokens : tokenize "x <-\t\"a\r\" \r\n" with
    | ok tokens => exact ⟨tokens, rfl, hlexed tokens htokens⟩
    | error e =>
      rw [htokens] at hok
      cases hok
  · have herror : (match tokenize "a\n 7é go(" with
        | .ok _ => none
        | .error e => some e) = some ⟨.digitFirst "7" 'é', ⟨2, 2⟩⟩ := by decide +kernel
    cases htokens : tokenize "a\n 7é go(" with
    | ok tokens =>
      rw [htokens] at herror
      cases herror
    | error e =>
      rw [htokens] at herror
      exact ⟨e, rfl, Option.some.inj herror, hfirst e htokens⟩

end Token

end Brushwork
