import Brushwork.Proofs.LikePrograms
import Brushwork.Proofs.ParserCompleteness
import Brushwork.Proofs.Scanning
import Brushwork.Source

/-!
# Layout

Blanks, carriage returns and empty lines lay a program out, and no more. Two texts whose tokens have
the same gist are compiled to programs that differ in places alone, or are refused for the same
cause. Carriage returns before newlines keep the gist, and newlines behind a program keep the
program as it is.
-/

namespace Brushwork

namespace Token

/-- Kinds and lexemes of tokens, with one newline of each run. Behind a newline, and at the start,
none counts. -/
def gist : (blank : Bool) → List Token → List (Kind × String)
  | _, [] => []
  | blank, t :: ts =>
    if t.kind = .newline then
      if blank then gist true ts else t.bare :: gist true ts
    else t.bare :: gist false ts

section

variable {ts ts' : List Token}

theorem gist_map_bare (h : ts.map bare = ts'.map bare) (blank : Bool) :
    gist blank ts = gist blank ts' := by
  induction ts generalizing ts' blank with
  | nil =>
    cases ts' with
    | nil => rfl
    | cons => cases h
  | cons t ts ih =>
    cases ts' with
    | nil => cases h
    | cons t' ts' =>
      obtain ⟨hfirst, hrest⟩ := List.cons.inj h
      have hkind : t.kind = t'.kind := congrArg Prod.fst hfirst
      simp only [gist, hkind, hfirst, ih hrest]

@[simp] theorem gist_skipNewlines (ts : List Token) (blank : Bool) :
    gist blank (Tree.skipNewlines ts) = gist true ts := by
  induction ts with
  | nil => rfl
  | cons t ts ih =>
    by_cases ht : t.kind = .newline
    · rw [Tree.skipNewlines_of_newline ht, ih]
      simp only [gist, ht, if_true]
    · rw [Tree.skipNewlines_of_ne ht]
      simp only [gist, ht, if_false]

theorem gist_bodyOf (ts : List Token) (blank : Bool) :
    gist blank (Tree.bodyOf ts) = (gist blank ts).takeWhile fun e => e.1 ≠ .endOfFile := by
  induction ts generalizing blank with
  | nil => rfl
  | cons t ts ih =>
    by_cases hend : t.kind = .endOfFile
    · have hbody : Tree.bodyOf (t :: ts) = [] := List.takeWhile_cons_of_neg (by simp [hend])
      rw [hbody]
      simp [gist, hend, bare]
    · have hbody : Tree.bodyOf (t :: ts) = t :: Tree.bodyOf ts :=
        List.takeWhile_cons_of_pos (by simp [hend])
      rw [hbody]
      by_cases hnewline : t.kind = .newline
      · cases blank with
        | true => simp [gist, hnewline, ih]
        | false => simp [gist, hnewline, ih, bare]
      · simp [gist, hnewline, ih, bare, hend]

/-- Tokens of one gist stand abreast up to the end of the line, and behind it they have one gist
again. -/
theorem abreast_of_gist (h : gist false ts = gist false ts') :
    Abreast (fun _ _ => True) (fun us us' => gist true us = gist true us') ts ts' := by
  induction ts generalizing ts' with
  | nil =>
    cases ts' with
    | nil => exact .nil
    | cons t' ts' =>
      simp only [gist] at h
      split at h <;> cases h
  | cons t ts ih =>
    cases ts' with
    | nil =>
      simp only [gist] at h
      split at h <;> cases h
    | cons t' ts' =>
      have hfirst :
          ∀ (u : Token) (us : List Token), ∃ more, gist false (u :: us) = u.bare :: more := by
        intro u us
        simp only [gist]
        split
        · exact ⟨_, rfl⟩
        · exact ⟨_, rfl⟩
      obtain ⟨more, hmore⟩ := hfirst t ts
      obtain ⟨more', hmore'⟩ := hfirst t' ts'
      have hbare : t.bare = t'.bare := (List.cons.inj (hmore.symm.trans (h.trans hmore'))).1
      have hkind : t.kind = t'.kind := congrArg Prod.fst hbare
      have hlike : t.Like (fun _ _ => True) t' := ⟨hkind, congrArg Prod.snd hbare, trivial⟩
      simp only [gist, ← hkind] at h
      by_cases hnewline : t.kind = .newline
      · simp only [hnewline, if_true] at h
        exact .newline hlike hnewline (List.cons.inj h).2
      · simp only [hnewline, if_false] at h
        exact .token hlike hnewline (ih (List.cons.inj h).2)

end

end Token

namespace Tree

theorem Paired.likeAll {Q : Position → Position → Prop} {ss ss' : List Tree}
    (h : Paired (Like Q) ss ss') : LikeAll Q ss ss' := by
  induction h with
  | nil => exact .nil
  | cons first _ ih => exact .cons first ih

theorem concur_of_gist {ts ts' : List Token} (h : Token.gist true ts = Token.gist true ts') :
    Concur (fun _ _ => True) (fun program program' => program.statements ≠ [] ∧
      Paired (Like fun _ _ => True) program.statements program'.statements)
      (parse ts) (parse ts') := by
  have hleads : Leads (fun us us' => Token.gist true us = Token.gist true us') (fun _ _ => True)
      (Like fun _ _ => True) (stopOf ts) (stopOf ts') := by
    intro us us' hus
    refine ⟨_, ⟨fun h => h, trivial⟩, fun h => h, Token.abreast_of_gist ?_⟩
    rw [Token.gist_skipNewlines, Token.gist_skipNewlines, hus]
  have hbody : Token.gist true (bodyOf ts) = Token.gist true (bodyOf ts') := by
    rw [Token.gist_bodyOf, Token.gist_bodyOf, h]
  exact concur_parse hleads trivial hbody

end Tree

theorem Grammar.Statements.append_newlines {us vs : List Token} {ss : List Tree}
    (h : Statements us ss) (hvs : ∀ t ∈ vs, t.kind = .newline) : Statements (us ++ vs) ss := by
  induction h with
  | last statement trailing =>
    rw [List.append_assoc]
    exact .last statement (List.forall_mem_append.2 ⟨trailing, hvs⟩)
  | more statement newline empty _ ih =>
    rw [List.append_assoc, List.cons_append, List.append_assoc]
    exact .more statement newline empty ih

theorem Grammar.Derives.append_newlines {us vs : List Token} {program : Program}
    (h : Derives us program) (hvs : ∀ t ∈ vs, t.kind = .newline) : Derives (us ++ vs) program := by
  cases h with
  | program leading statements =>
    rw [List.append_assoc]
    exact .program leading (statements.append_newlines hvs)

namespace Tree

theorem bodyOf_append {front : List Token} (h : ∀ t ∈ front, t.kind ≠ .endOfFile) (p : Position) :
    bodyOf (front ++ [⟨"", .endOfFile, p⟩]) = front := by
  have hpos : ∀ t ∈ front, decide (t.kind ≠ .endOfFile) = true :=
    fun t ht => decide_eq_true (h t ht)
  rw [bodyOf, List.takeWhile_append_of_pos hpos]
  simp

theorem parse_append_newlines {front lines : List Token} {p q : Position} {program : Program}
    (hplain : ∀ t ∈ front, t.Plain) (hfront : ∀ t ∈ front, t.kind ≠ .endOfFile)
    (hlines : ∀ t ∈ lines, t.kind = .newline)
    (h : parse (front ++ [⟨"", .endOfFile, p⟩]) = .ok program) :
    parse (front ++ (lines ++ [⟨"", .endOfFile, q⟩])) = .ok program := by
  have hend : ∀ t ∈ front ++ lines, t.kind ≠ .endOfFile := by
    refine List.forall_mem_append.2 ⟨hfront, fun t ht => ?_⟩
    rw [hlines t ht]
    nofun
  have hnewline : ∀ t ∈ lines, t.Readable := by
    intro t ht
    have hkind := hlines t ht
    refine ⟨⟨?_, ?_, ?_⟩, Token.not_overlong hkind nofun⟩
    all_goals
      rw [hkind]
      nofun
  have hfollows := follows_parse (front ++ [⟨"", .endOfFile, p⟩])
  rw [bodyOf_append hfront, h] at hfollows
  obtain ⟨us, hus, hderives, hshort⟩ := hfollows hplain
  obtain rfl : front = us := hus.trans (List.append_nil us)
  have hreadable : ∀ t ∈ front ++ lines, t.Readable :=
    List.forall_mem_append.2 ⟨fun t ht => ⟨hplain t ht, hshort t ht⟩, hnewline⟩
  obtain ⟨s, ss, hread, rfl⟩ :=
    readStatements_of_derives (stopOf (front ++ lines ++ [⟨"", .endOfFile, q⟩]))
    (hderives.append_newlines hlines) hreadable
  rw [← List.append_assoc, parse, bodyOf_append hend, hread]

end Tree

namespace Source

open Token (tokenize gist)
open Machine (execute Matches)

/-- Two texts that come to the same: programs that differ in places alone, refusals for the same
cause, or a number of too many digits. -/
inductive Concur : Except Rejection Program → Except Rejection Program → Prop
  | compiled {program program' : Program}
      (like : Tree.LikeAll (fun _ _ => True) program.statements program'.statements) :
    Concur (.ok program) (.ok program')
  | refused {cause : Tree.Cause} {p p' : Position} :
    Concur (.error (.parsing (.located ⟨cause, p⟩))) (.error (.parsing (.located ⟨cause, p'⟩)))
  | overlong {lexeme : String} (long : Numeral.mostDigits < lexeme.length) :
    Concur (.error (.parsing (.notNumeral lexeme))) (.error (.parsing (.notNumeral lexeme)))

variable {source source' : String} {tokens tokens' : List Token} {program program' : Program}

theorem plain_of_tokenize (h : tokenize source = .ok tokens) : ∀ t ∈ tokens, t.Plain :=
  (Token.scan_eq_ok_iff.1 h).plain

theorem compile_of_tokenize (h : tokenize source = .ok tokens) :
    compile source = (Tree.parse tokens).mapError .parsing := by
  rw [compile, h]
  dsimp only
  cases Tree.parse tokens <;> rfl

theorem compile_eq_ok_iff :
    compile source = .ok program ↔ ∃ tokens, tokenize source = .ok tokens ∧
      Tree.parse tokens = .ok program := by
  constructor
  · intro h
    cases htokens : tokenize source with
    | error e =>
      rw [compile, htokens] at h
      cases h
    | ok tokens =>
      rw [compile_of_tokenize htokens] at h
      cases hparse : Tree.parse tokens with
      | error e =>
        rw [hparse] at h
        cases h
      | ok program' =>
        rw [hparse] at h
        cases h
        exact ⟨tokens, rfl, hparse⟩
  · rintro ⟨tokens, htokens, hparse⟩
    rw [compile_of_tokenize htokens, hparse]
    rfl

theorem concur_compile (h : tokenize source = .ok tokens) (h' : tokenize source' = .ok tokens')
    (hgist : gist true tokens = gist true tokens') : Concur (compile source) (compile source') := by
  have hparse := Tree.concur_of_gist hgist
  have hplain := plain_of_tokenize h
  rw [compile_of_tokenize h, compile_of_tokenize h']
  have hlong := Tree.follows_parse tokens fun t ht => hplain t (List.takeWhile_subset _ ht)
  generalize Tree.parse tokens = x at hparse hlong ⊢
  generalize Tree.parse tokens' = x' at hparse ⊢
  cases hparse with
  | ok value => exact .compiled value.2.likeAll
  | located => exact .refused
  | notNumeral =>
    obtain ⟨t, -, hoverlong, rfl⟩ := hlong
    exact .overlong hoverlong.2

theorem compile_append_newlines (h : compile source = .ok program) (n : Nat) :
    compile (source ++ String.ofList (List.replicate n '\n')) = .ok program := by
  obtain ⟨tokens, htokens, hparse⟩ := compile_eq_ok_iff.1 h
  obtain ⟨front, stop, lines, stop', rfl, hfront, hlines, hscans⟩ :=
    (Token.scan_eq_ok_iff.1 htokens).append_newlines n
  have htokens' : tokenize (source ++ String.ofList (List.replicate n '\n')) =
      .ok (front ++ (lines ++ [⟨"", .endOfFile, stop'⟩])) := by
    rw [tokenize, String.toList_append, String.toList_ofList]
    exact Token.scan_eq_ok_iff.2 hscans
  have hplain : ∀ t ∈ front, t.Plain :=
    fun t ht => plain_of_tokenize htokens t (List.mem_append_left _ ht)
  exact compile_eq_ok_iff.2 ⟨_, htokens', Tree.parse_append_newlines hplain hfront hlines hparse⟩

theorem layout_keeps_meaning (h : tokenize source = .ok tokens)
    (h' : tokenize source' = .ok tokens') (hgist : gist true tokens = gist true tokens') :
    Concur (compile source) (compile source') ∧
    (∀ {program program'}, compile source = .ok program → compile source' = .ok program' →
      ∀ {n m outcome m₁ events outcome' m₁' events'},
        execute n program {} m = (outcome, m₁, events) →
        execute n program' {} m = (outcome', m₁', events') →
        Matches program program' (fun m m' => ∃ line, m' = m.past line)
          (fun e e' => e'.cause = e.cause) outcome m₁ outcome' m₁') ∧
    (∃ returned, tokenize (String.ofList (Token.withReturns source.toList)) = .ok returned ∧
      gist true returned = gist true tokens) ∧
    ∀ {program}, compile source = .ok program →
      ∀ n, compile (source ++ String.ofList (List.replicate n '\n')) = .ok program := by
  have hconcur := concur_compile h h' hgist
  refine ⟨hconcur, ?_, ?_, fun hprogram n => compile_append_newlines hprogram n⟩
  · intro program program' hprogram hprogram' n m outcome m₁ events outcome' m₁' events' hrun hrun'
    rw [hprogram, hprogram'] at hconcur
    cases hconcur with
    | compiled like =>
      have hends :=
        (Machine.lockstep_like like).execute (w := {}) (Or.inl rfl) rfl
          ⟨m.state.lastLine, rfl⟩ hrun hrun'
      cases hends with
      | chunk machines => exact .chunk machines
      | failed faults machines => exact .failed faults.1 machines
      | givenUp machines => exact .givenUp machines
  · obtain ⟨returned, hscans, hbare⟩ := (Token.scan_eq_ok_iff.1 h).withReturns Position.start
    refine ⟨returned, ?_, Token.gist_map_bare hbare true⟩
    rw [tokenize, String.toList_ofList]
    exact Token.scan_eq_ok_iff.2 hscans

/-- Empty lines, blanks and a carriage return, in a program that jumps back once. -/
theorem spread_program_keeps_meaning :
    let spread := "\n\nSpawn( 0, 0 )\r\n\n\tback\nx <- GetActualX()\n\n\nGoTo [back] (x < 0)"
    let dense := "Spawn(0,0)\nback\nx<-GetActualX()\nGoTo[back](x<0)"
    Concur (compile dense) (compile spread) ∧
    (∃ program program', compile dense = .ok program ∧ compile spread = .ok program' ∧
      compile (dense ++ String.ofList (List.replicate 2 '\n')) = .ok program ∧
      ∀ {m outcome m₁ events outcome' m₁' events'}, execute 9 program {} m = (outcome, m₁, events) →
        execute 9 program' {} m = (outcome', m₁', events') →
        Matches program program' (fun m m' => ∃ line, m' = m.past line)
          (fun e e' => e'.cause = e.cause) outcome m₁ outcome' m₁') ∧
    ∃ returned, tokenize (String.ofList (Token.withReturns dense.toList)) = .ok returned := by
  intro spread dense
  have hsame :
      (tokenize dense).toOption.map (gist true) = (tokenize spread).toOption.map (gist true) ∧
      (tokenize dense).isOk = true := by decide +kernel
  have hok : (compile dense).isOk = true ∧ (compile spread).isOk = true := by decide +kernel
  cases htokens : tokenize dense with
  | error e =>
    rw [htokens] at hsame
    cases hsame.2
  | ok tokens =>
    cases htokens' : tokenize spread with
    | error e =>
      rw [htokens, htokens'] at hsame
      cases hsame.1
    | ok tokens' =>
      rw [htokens, htokens'] at hsame
      obtain ⟨hconcur, hruns, ⟨returned, hreturned, -⟩, hnewlines⟩ :=
        layout_keeps_meaning htokens htokens' (Option.some.inj hsame.1)
      refine ⟨hconcur, ?_, returned, hreturned⟩
      cases hprogram : compile dense with
      | error e => simp [hprogram, Except.isOk, Except.toBool] at hok
      | ok program =>
        cases hprogram' : compile spread with
        | error e => simp [hprogram', Except.isOk, Except.toBool] at hok
        | ok program' =>
          exact ⟨program, program', rfl, rfl, hnewlines hprogram 2, hruns hprogram hprogram'⟩

end Source

end Brushwork
