import Brushwork.Proofs.Atomicity
import Brushwork.Proofs.LikePrograms
import Brushwork.Proofs.Places
import Brushwork.Source

/-!
# Diagnostics

Whatever goes wrong with a text is told with a place of that text. A defect of the lexemes stands
where scanning has come to. Refusals of the parser, reports of the analysis and faults of a run
speak of the start of a token, and a fault of the line of the statement that fails. One report is
about the program as a whole: the one that `Spawn` is missing.
-/

namespace Brushwork

namespace Typing

variable {S : Position → Prop} {symbols : Table String Ty}

theorem position_of_argumentReport {index : Nat} {name : String} {params : List Ty} {got : Ty}
    {p : Position} (hp : S p) : ∀ r ∈ argumentReport index name params got p, S r.position := by
  cases params with
  | nil => exact List.forall_mem_nil _
  | cons wanted params =>
    rw [argumentReport]
    split
    · exact List.forall_mem_nil _
    · exact List.forall_mem_singleton.2 hp

theorem position_of_concludeCall (name : String) (count : Nat) {p : Position}
    {reports : List Report} (hp : S p) (hreports : ∀ r ∈ reports, S r.position) :
    ∀ r ∈ (concludeCall name count p reports).2, S r.position := by
  unfold concludeCall
  split
  · exact List.forall_mem_append.2 ⟨hreports, List.forall_mem_singleton.2 hp⟩
  · refine List.forall_mem_append.2 ⟨?_, hreports⟩
    split
    · exact List.forall_mem_nil _
    · exact List.forall_mem_singleton.2 hp

mutual

/-- Reports on an expression speak of places in it. The recursion is that of inference. -/
theorem position_of_infer : ∀ (t : Tree) {ty : Ty} {reports : List Report}, t.All S →
    infer symbols t = .ok (ty, reports) → ∀ r ∈ reports, S r.position
  | .literal v p, _, _, _, h => by
    rw [infer] at h
    cases h
    exact List.forall_mem_nil _
  | .variable name p, _, _, ht, h => by
    rw [infer] at h
    split at h
    · cases h
      exact List.forall_mem_nil _
    · cases h
      exact List.forall_mem_singleton.2 ht.position
  | .unary op t p, _, _, ht, h => by
    cases ht with
    | unary inner place =>
      rw [infer] at h
      split at h
      · cases h
      · rename_i ty reports hinfer
        have hreports := position_of_infer t inner hinfer
        split at h
        · cases h
          exact hreports
        · split at h
          · cases h
            exact hreports
          · cases h
            exact List.forall_mem_append.2 ⟨hreports, List.forall_mem_singleton.2 place⟩
  | .binary l op r p, _, _, ht, h => by
    cases ht with
    | binary first second place =>
      rw [infer] at h
      split at h
      · cases h
      · rename_i leftTy leftReports hleft
        split at h
        · cases h
        · rename_i rightTy rightReports hright
          have hreports : ∀ r ∈ leftReports ++ rightReports, S r.position :=
            List.forall_mem_append.2
              ⟨position_of_infer l first hleft, position_of_infer r second hright⟩
          dsimp only at h
          split at h
          · cases h
            exact hreports
          · split at h
            · cases h
              exact hreports
            · cases h
              exact List.forall_mem_append.2 ⟨hreports, List.forall_mem_singleton.2 place⟩
  | .call name args p, _, _, ht, h => by
    cases ht with
    | call arguments place =>
      rw [infer] at h
      split at h
      · cases h
      · rename_i argumentReports harguments
        have hcall := position_of_concludeCall name args.length place
          (position_of_inferArguments args arguments harguments)
        split at h
        rename_i ty reports hconclude
        rw [hconclude] at hcall
        split at h
        · cases h
          exact List.forall_mem_append.2 ⟨hcall, List.forall_mem_singleton.2 place⟩
        · cases h
          exact hcall
  | .program _ _, _, _, ht, _ | .missing, _, _, ht, _ => by cases ht
  | .spawn _ _ _, _, _, _, h | .assign _ _ _, _, _, _, h | .label _ _, _, _, _, h
  | .goto _ _ _, _, _, _, h => by
    cases h

theorem position_of_inferArguments :
    ∀ (args : List Tree) {name : String} {index : Nat} {params : List Ty}
    {reports : List Report}, Tree.LikeAll (fun p _ => S p) args args →
      inferArguments symbols name index params args = .ok reports → ∀ r ∈ reports, S r.position
  | [], _, _, _, _, _, h => by
    rw [inferArguments] at h
    cases h
    exact List.forall_mem_nil _
  | arg :: args, name, index, params, _, hargs, h => by
    cases hargs with
    | cons first others =>
      rw [inferArguments] at h
      split at h
      · cases h
      · rename_i ty reports hfirst
        split at h
        · cases h
        · rename_i more hothers
          cases h
          have hreports := position_of_infer arg first hfirst
          have hmore := position_of_inferArguments args others hothers
          exact List.forall_mem_append.2
            ⟨List.forall_mem_append.2 ⟨hreports, position_of_argumentReport first.position⟩, hmore⟩

end

theorem position_of_collectLabels (labels : Table String Nat) (index : Nat) {statements : List Tree}
    (h : ∀ s ∈ statements, S s.position) :
    ∀ r ∈ (collectLabels labels index statements).2, S r.position := by
  fun_induction collectLabels labels index statements with
  | case1 => exact List.forall_mem_nil _
  | case2 labels index name p statements hknown labels' reports hmore ih =>
    obtain ⟨hfirst, hothers⟩ := List.forall_mem_cons.1 h
    rw [hmore] at ih
    exact List.forall_mem_cons.2 ⟨hfirst, ih hothers⟩
  | case3 labels index name p statements hnew ih => exact ih (List.forall_mem_cons.1 h).2
  | case4 labels index s statements hs ih => exact ih (List.forall_mem_cons.1 h).2

theorem position_of_checkStatement {labels : Table String Nat} {s s' : Progress} {t : Tree}
    {reports : List Report} (ht : t.All S) (h : checkStatement labels s t = .ok (s', reports)) :
    ∀ r ∈ reports, S r.position := by
  cases ht with
  | spawn place =>
    cases h
    split
    · exact List.forall_mem_singleton.2 place
    · split
      · exact List.forall_mem_singleton.2 place
      · exact List.forall_mem_nil _
  | assign value place =>
    rw [checkStatement] at h
    split at h
    · cases h
    · rename_i hinfer
      cases h
      exact position_of_infer _ value hinfer
  | label =>
    cases h
    exact List.forall_mem_nil _
  | goto decision place =>
    rw [checkStatement] at h
    split at h
    · cases h
    · rename_i ty reports hinfer
      cases h
      refine List.forall_mem_append.2
        ⟨List.forall_mem_append.2 ⟨?_, position_of_infer _ decision hinfer⟩, ?_⟩
      · split
        · exact List.forall_mem_nil _
        · exact List.forall_mem_singleton.2 place
      · split
        · exact List.forall_mem_nil _
        · exact List.forall_mem_singleton.2 decision.position
  | @call name args _ p _ arguments place =>
    rw [checkStatement, inferCall] at h
    split at h
    · cases h
    · rename_i hcall
      split at hcall
      · cases hcall
      · rename_i harguments
        cases h
        have hreports := position_of_concludeCall name args.length place
          (position_of_inferArguments args arguments harguments)
        rwa [Except.ok.inj hcall] at hreports
  | _ => cases h

theorem position_of_checkStatements {labels : Table String Nat} {s last : Progress}
    {statements : List Tree} {reports : List Report} (hstatements : ∀ t ∈ statements, t.Placed S)
    (h : checkStatements labels s statements = .ok (last, reports)) :
    ∀ r ∈ reports, S r.position := by
  induction statements generalizing s reports with
  | nil =>
    cases h
    exact List.forall_mem_nil _
  | cons t statements ih =>
    obtain ⟨⟨line, ht⟩, hothers⟩ := List.forall_mem_cons.1 hstatements
    rw [checkStatements] at h
    split at h
    · cases h
    · rename_i hfirst
      split at h
      · cases h
      · rename_i hrest
        cases h
        exact List.forall_mem_append.2
          ⟨fun r hr => (position_of_checkStatement ht hfirst r hr).1, ih hothers hrest⟩

theorem position_of_analyze {program : Program} {a : Analysis} (hnonempty : program.statements ≠ [])
    (hstatements : ∀ s ∈ program.statements, s.Placed S) (h : analyze program = .ok a) :
    ∀ r ∈ a.reports, r = ⟨.noSpawn, .whole⟩ ∨ S r.position := by
  have hpositions : ∀ s ∈ program.statements, S s.position := by
    intro s hs
    obtain ⟨line, hall⟩ := hstatements s hs
    exact hall.position.1
  have hlabels := position_of_collectLabels .empty 0 hpositions
  rw [analyze, if_neg (by simpa using hnonempty)] at h
  dsimp only at h
  split at h
  · cases h
  · rename_i last reports hcheck
    cases h
    have hreports := position_of_checkStatements hstatements hcheck
    refine List.forall_mem_append.2 ⟨List.forall_mem_append.2 ⟨?_, ?_⟩, ?_⟩
    · exact fun r hr => Or.inr (hlabels r hr)
    · exact fun r hr => Or.inr (hreports r hr)
    · split
      · exact List.forall_mem_nil _
      · exact List.forall_mem_singleton.2 (Or.inl rfl)

end Typing

namespace Machine

open Config (Walk)

/-- The statement that a run fails at: the one that it has come to and that fails there, or else a
label that an earlier statement has declared. -/
inductive FailsAt (program : Program) (w : Window) (m : Machine) (e : Located Fault)
    (m' : Machine) : Tree → Prop
  | step {is : List Nat} {pointer : Nat} {s : Tree}
      (walk :
        Walk program ⟨m.withLabels m'.state.labels, startIndex program w.start⟩ is ⟨m', pointer⟩)
      (here : program.statements[pointer]? = some s) (fails : Machine.step s m' = .error e m') :
    FailsAt program w m e m' s
  | label {name : String} {p : Position} (cause : e = ⟨.labelTwice name, p⟩)
      (twice : program.DeclaresTwice name p) :
    FailsAt program w m e m' (.label name p)

/-- A fault speaks of a place of the statement that fails. -/
theorem position_of_execute {S : Position → Prop} {program : Program}
    (h : ∀ s ∈ program.statements, s.Placed S) {n : Nat} {w : Window} {m m' : Machine}
    {e : Located Fault} {events : List Event}
    (hrun : execute n program w m = (.failed e, m', events)) :
    S e.position ∧ ∃ s ∈ program.statements, FailsAt program w m e m' s ∧
      s.position.line = e.position.line := by
  cases htabulate : tabulate 0 .empty program.statements with
  | mk labels failure =>
    cases failure with
    | none =>
      obtain ⟨pointer, s, hwalk, hs, hstep⟩ := (interrupted_of_tabulate htabulate hrun).stopped
      have hmem := List.mem_of_getElem? hs
      obtain ⟨line, hall⟩ := h s hmem
      obtain ⟨hfails, -⟩ := step_error_iff.1 hstep
      obtain ⟨p', -, hplace, hline⟩ := hfails.congruent Tree.Like.congruent hall.congruent id id
      exact ⟨hplace, s, hmem, .step hwalk hs hstep, hall.position.2.trans hline.symm⟩
    | some e' =>
      rw [execute_of_tabulate htabulate] at hrun
      cases hrun
      obtain ⟨cause, p⟩ := e
      obtain ⟨name, rfl, htwice⟩ := declaresTwice_of_tabulate htabulate
      have hmem : .label name p ∈ program.statements := by
        obtain ⟨i, j, q, -, -, hj⟩ := htwice
        exact List.mem_of_getElem? hj
      obtain ⟨line, hall⟩ := h _ hmem
      exact ⟨hall.position.1, _, hmem, .label rfl htwice, rfl⟩

end Machine

namespace Source

open Machine (execute FailsAt)

def rejection? (source : String) : Option Rejection :=
  match compile source with
  | .error e => some e
  | .ok _ => none

@[simp] theorem rejection?_eq_some_iff {source : String} {e : Rejection} :
    rejection? source = some e ↔ compile source = .error e := by
  unfold rejection?
  cases compile source <;> simp

/-- What compiling a text has to do with its places. -/
def Told (source : String) : Except Rejection Program → Prop
  | .error (.lexing e) => Points source e.position
  | .error (.parsing (.located e)) => StartsToken source e.position
  | .error (.parsing (.notNumeral _)) => True
  | .ok program => program.statements ≠ [] ∧ ∀ s ∈ program.statements, s.Placed (StartsToken source)

theorem told_compile (source : String) : Told source (compile source) := by
  unfold compile
  split
  · rename_i e htokens
    obtain ⟨before, rest, hscanned, -, hposition, -⟩ := Token.firstDefect_of_tokenize htokens
    have hpoints := points_behind hscanned.eq_append
    rwa [← hposition] at hpoints
  · rename_i tokens htokens
    obtain ⟨front, rfl, -⟩ := (Token.lexed_of_tokenize htokens).ending
    have hparse := Tree.concur_of_lined (Token.scan_eq_ok_iff.1 htokens).lined
      (fun t ht => startsToken_of_mem htokens ht)
      (List.mem_append_right front (List.mem_singleton_self _)) rfl
    generalize Tree.parse _ = x at hparse ⊢
    cases hparse with
    | located place => exact place
    | notNumeral => trivial
    | ok value => exact ⟨value.1, value.2.forall_mem⟩

theorem diagnostics_point_into_source (source : String) :
    (∀ {e}, compile source = .error (.lexing e) → Points source e.position) ∧
    (∀ {e}, compile source = .error (.parsing (.located e)) →
      Points source e.position ∧ StartsToken source e.position) ∧
    (∀ {diagnostics}, check source = .ok diagnostics → ∀ d ∈ diagnostics,
      d = diagnose ⟨.noSpawn, .whole⟩ ∨
        Points source d.position ∧ (d.stage = .lexing ∨ StartsToken source d.position)) ∧
    ∀ {program}, compile source = .ok program →
      ∀ {n w m e m' events}, execute n program w m = (.failed e, m', events) →
        Points source e.position ∧ StartsToken source e.position ∧
          ∃ s ∈ program.statements, FailsAt program w m e m' s ∧
          s.position.line = e.position.line := by
  have htold := told_compile source
  refine ⟨?_, ?_, ?_, ?_⟩
  · intro e h
    rw [h] at htold
    exact htold
  · intro e h
    rw [h] at htold
    exact ⟨StartsToken.points htold, htold⟩
  · intro diagnostics h
    unfold check at h
    generalize compile source = x at h htold
    split at h
    · cases h
    · rename_i e hother
      cases h
      refine List.forall_mem_singleton.2 (Or.inr ?_)
      cases e with
      | lexing e => exact ⟨htold, Or.inl rfl⟩
      | parsing e =>
        cases e with
        | located e => exact ⟨StartsToken.points htold, Or.inr htold⟩
        | notNumeral lexeme => exact absurd rfl (hother lexeme)
    · split at h
      · cases h
      · rename_i analysis hanalyze
        cases h
        intro d hd
        obtain ⟨r, hr, rfl⟩ := List.mem_map.1 hd
        rcases Typing.position_of_analyze htold.1 htold.2 hanalyze r hr with rfl | hstarts
        · exact Or.inl rfl
        · exact Or.inr ⟨hstarts.points, Or.inr hstarts⟩
  · intro program h n w m e m' events hrun
    rw [h] at htold
    obtain ⟨hstarts, hfails⟩ := Machine.position_of_execute htold.2 hrun
    exact ⟨hstarts.points, hstarts, hfails⟩

/-- An unknown character, a parenthesis that is left open, and a sum whose left operand divides by
zero and whose right one is a truth value. -/
theorem faulty_texts_are_pointed_at :
    let unreadable := "Spawn(0, 0)\n\tx <- 7 @"
    let unclosed := "Spawn(0, 0)\nx <- (7"
    let faulty := "x <- 7\n\n y <- x / (x - 7) + true"
    let m : Machine := ⟨{}, { grid := .blank 3 2 }⟩
    (∃ e, compile unreadable = .error (.lexing e) ∧ e.position = ⟨2, 9⟩ ∧
      Points unreadable e.position) ∧
    (∃ e, compile unclosed = .error (.parsing (.located e)) ∧ e.position = ⟨2, 8⟩ ∧
      Points unclosed e.position ∧ StartsToken unclosed e.position) ∧
    (∃ diagnostics, check faulty = .ok diagnostics ∧ ∃ d ∈ diagnostics, d.position = ⟨3, 19⟩ ∧
      Points faulty d.position ∧ StartsToken faulty d.position) ∧
    ∃ program e m' events, compile faulty = .ok program ∧
      execute 9 program {} m = (.failed e, m', events) ∧ e.position = ⟨3, 9⟩ ∧
      Points faulty e.position ∧ StartsToken faulty e.position ∧
      ∃ s ∈ program.statements,
        FailsAt program {} m e m' s ∧ s.position.line = e.position.line := by
  intro unreadable unclosed faulty m
  refine ⟨?_, ?_, ?_, ?_⟩
  · have hcompile : compile unreadable = .error (.lexing ⟨.unmatched '@', ⟨2, 9⟩⟩) :=
      rejection?_eq_some_iff.1 (by decide +kernel)
    exact ⟨_, hcompile, rfl, (diagnostics_point_into_source unreadable).1 hcompile⟩
  · have hcompile :
        compile unclosed =
          .error (.parsing (.located ⟨.wanted .parenAfterExpression none, ⟨2, 8⟩⟩)) :=
      rejection?_eq_some_iff.1 (by decide +kernel)
    exact ⟨_, hcompile, rfl, (diagnostics_point_into_source unclosed).2.1 hcompile⟩
  · have hfound : (check faulty).toOption.any (List.any · fun d =>
        d.stage = .analysis ∧ d.position = ⟨3, 19⟩) = true := by decide +kernel
    cases hcheck : check faulty with
    | error e =>
      rw [hcheck] at hfound
      cases hfound
    | ok diagnostics =>
      rw [hcheck] at hfound
      obtain ⟨d, hd, hplace⟩ := List.any_eq_true.1 hfound
      obtain ⟨hstage, hposition⟩ := of_decide_eq_true hplace
      refine ⟨diagnostics, rfl, d, hd, hposition, ?_⟩
      rcases (diagnostics_point_into_source faulty).2.2.1 hcheck d hd with
        rfl | ⟨hpoints, hlexing | hstarts⟩
      · cases hposition
      · cases hstage.symm.trans hlexing
      · exact ⟨hpoints, hstarts⟩
  · have hfails : (compile faulty).toOption.any (fun program =>
        (execute 9 program {} m).1 = .failed ⟨.divisionByZero, ⟨3, 9⟩⟩) = true := by decide +kernel
    cases hcompile : compile faulty with
    | error e =>
      rw [hcompile] at hfails
      cases hfails
    | ok program =>
      rw [hcompile] at hfails
      have hrun :
          execute 9 program {} m =
            (.failed ⟨.divisionByZero, ⟨3, 9⟩⟩, (execute 9 program {} m).2) :=
        Prod.ext (of_decide_eq_true hfails) rfl
      exact ⟨program, _, _, _, rfl, hrun, rfl,
        (diagnostics_point_into_source faulty).2.2.2 hcompile hrun⟩

end Source

end Brushwork
