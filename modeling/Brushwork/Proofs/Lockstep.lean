import Brushwork.Proofs.Walk

/-!
# Two runs side by side

Two programs with as many statements each are run on two machines that are kept in a relation. If
every statement of one does to its machine what the statement of the same number in the other does,
or both fail, then the runs jump to the same places, stop at the same place and leave machines in
the relation.
-/

namespace Brushwork.Machine

/-- What two programs need for their runs to go on side by side: a relation of machines that
statements of the same number preserve, and one of the faults with which both fail. -/
structure Lockstep (program program' : Program) (R : Machine → Machine → Prop)
    (E : Located Fault → Located Fault → Prop) : Prop where
  length : program.statements.length = program'.statements.length
  effect : ∀ {i : Nat} {s s' : Tree} {m m' m₁ : Machine} {target : Option Int},
    program.statements[i]? = some s → program'.statements[i]? = some s' → R m m' →
    Effect s m target m₁ →
      ∃ m₁', Effect s' m' target m₁' ∧ R (m₁.past s.position.line) (m₁'.past s'.position.line)
  fails : ∀ {i : Nat} {s s' : Tree} {m m' : Machine} {e : Located Fault},
    program.statements[i]? = some s → program'.statements[i]? = some s' → R m m' → Fails s m e →
      ∃ e', Fails s' m' e' ∧ E e e'
  labels : ∀ {labels : Table String Int}, tabulate 0 .empty program.statements = (labels, none) →
    tabulate 0 .empty program'.statements = (labels, none)
  twice : ∀ {labels : Table String Int} {e : Located Fault},
    tabulate 0 .empty program.statements = (labels, some e) →
      ∃ e', tabulate 0 .empty program'.statements = (labels, some e') ∧ E e e'
  withLabels :
    ∀ {m m' : Machine} (labels : Table String Int), R m m' →
    R (m.withLabels labels) (m'.withLabels labels)
  aim : ∀ {m m' : Machine} (q : Int), R m m' → R (m.aim q) (m'.aim q)

/-- A window that is not bounded, or two programs whose statements stand on the same lines. -/
def Window.Indifferent (w : Window) (program program' : Program) : Prop :=
  w.bounded = false ∨ ∀ i, program.line? i = program'.line? i

/-- Two chunks that end the same way, with outcome and machine of each: both rest at the same
statement, both fail, or both are given up. -/
inductive Matches (program program' : Program) (R : Machine → Machine → Prop)
    (E : Located Fault → Located Fault → Prop) : Outcome → Machine → Outcome → Machine → Prop
  | chunk {m m' : Machine} {pointer : Nat} (machines : R (m.aim pointer) (m'.aim pointer)) :
    Matches program program' R E (.chunk (report program m.state pointer)) (m.aim pointer)
      (.chunk (report program' m'.state pointer)) (m'.aim pointer)
  | failed {m m' : Machine} {e e' : Located Fault} (faults : E e e') (machines : R m m') :
    Matches program program' R E (.failed e) m (.failed e') m'
  | givenUp {m m' : Machine} (machines : R m m') :
    Matches program program' R E .givenUp m .givenUp m'

structure Run.Abreast (R : Machine → Machine → Prop) (r r' : Run) : Prop where
  machine : R r.machine r'.machine
  pointer : r.pointer = r'.pointer
  executed : r.executed = r'.executed

inductive Progress.Abreast (R : Machine → Machine → Prop)
    (E : Located Fault → Located Fault → Prop) : Progress → Progress → Prop
  | stopped {r r' : Run} (runs : r.Abreast R r') : Progress.Abreast R E (.stopped r) (.stopped r')
  | advanced {r r' : Run} (runs : r.Abreast R r') :
    Progress.Abreast R E (.advanced r) (.advanced r')
  | failed {e e' : Located Fault} {r r' : Run} (faults : E e e') (runs : r.Abreast R r') :
    Progress.Abreast R E (.failed e r) (.failed e' r')

inductive Ending.Abreast (R : Machine → Machine → Prop) (E : Located Fault → Located Fault → Prop) :
    Ending → Ending → Prop
  | rested {r r' : Run} (runs : r.Abreast R r') : Ending.Abreast R E (.rested r) (.rested r')
  | failed {e e' : Located Fault} {r r' : Run} (faults : E e e') (runs : r.Abreast R r') :
    Ending.Abreast R E (.failed e r) (.failed e' r')
  | givenUp {r r' : Run} (runs : r.Abreast R r') : Ending.Abreast R E (.givenUp r) (.givenUp r')

section

variable {program program' : Program} {R : Machine → Machine → Prop}
  {E : Located Fault → Located Fault → Prop} {w : Window} {m m' : Machine} {r r' : Run}

theorem Run.Abreast.next (h : r.Abreast R r') (hstep : Lockstep program program' R E)
    (hw : w.Indifferent program program') :
    Progress.Abreast R E (r.next program w) (r'.next program' w) := by
  obtain ⟨m, pointer, executed, jumps⟩ := r
  obtain ⟨m', pointer', executed', jumps'⟩ := r'
  obtain ⟨hmachine, rfl, rfl⟩ : R m m' ∧ pointer = pointer' ∧ executed = executed' :=
    ⟨h.machine, h.pointer, h.executed⟩
  rw [Run.next, Run.next]
  cases hs : program.statements[pointer]? with
  | none =>
    have hs' : program'.statements[pointer]? = none := by
      rw [List.getElem?_eq_none_iff, ← hstep.length]
      exact List.getElem?_eq_none_iff.1 hs
    rw [hs']
    exact .stopped ⟨hmachine, rfl, rfl⟩
  | some s =>
    obtain ⟨s', hs'⟩ : ∃ s', program'.statements[pointer]? = some s' := by
      obtain ⟨hlt, -⟩ := List.getElem?_eq_some_iff.1 hs
      exact ⟨_, List.getElem?_eq_getElem (hstep.length ▸ hlt)⟩
    have hadmits : w.admits executed s.position.line = w.admits executed s'.position.line := by
      rcases hw with hunbounded | hlines
      · simp [Window.admits, hunbounded]
      · have hline := hlines pointer
        rw [Program.line?, Program.line?, hs, hs'] at hline
        exact congrArg (w.admits executed) (Option.some.inj hline)
    have hholds :
        ∀ i, w.holds ((program.line? i).getD 0) = w.holds ((program'.line? i).getD 0) := by
      intro i
      rcases hw with hunbounded | hlines
      · simp [Window.holds, hunbounded]
      · rw [hlines i]
    rw [hs']
    dsimp only
    rw [← hadmits]
    split
    · cases hrun : step s m with
      | error e m₁ =>
        obtain ⟨hfails, rfl⟩ := step_error_iff.1 hrun
        obtain ⟨e', hfails', hfaults⟩ := hstep.fails hs hs' hmachine hfails
        rw [step_error_iff.2 ⟨hfails', rfl⟩]
        exact .failed hfaults ⟨hmachine, rfl, rfl⟩
      | ok target m₁ =>
        obtain ⟨m₁', heffect', hmachine'⟩ := hstep.effect hs hs' hmachine (step_ok_iff.1 hrun)
        rw [step_ok_iff.2 heffect']
        cases target with
        | none => exact .advanced ⟨hmachine', rfl, rfl⟩
        | some index =>
          dsimp only
          rw [← hholds]
          split
          · exact .advanced ⟨hmachine', rfl, rfl⟩
          · exact .stopped ⟨hmachine', rfl, rfl⟩
    · exact .stopped ⟨hmachine, rfl, rfl⟩

theorem Run.Abreast.finish (h : r.Abreast R r') (hstep : Lockstep program program' R E)
    (hw : w.Indifferent program program') (n : Nat) :
    Ending.Abreast R E (r.finish program w n) (r'.finish program' w n) := by
  induction n generalizing r r' with
  | zero => exact .givenUp h
  | succ n ih =>
    have hnext := h.next hstep hw
    rw [Run.finish, Run.finish]
    generalize r.next program w = progress at hnext
    generalize r'.next program' w = progress' at hnext
    cases hnext with
    | stopped runs => exact .rested runs
    | advanced runs => exact ih runs
    | failed faults runs => exact .failed faults runs

/-- Side by side, two chunks end the same way. -/
theorem Lockstep.execute (h : Lockstep program program' R E) (hw : w.Indifferent program program')
    (hstart : startIndex program w.start = startIndex program' w.start) (hm : R m m') {n : Nat}
    {outcome outcome' : Outcome} {m₁ m₁' : Machine} {events events' : List Event}
    (hrun : execute n program w m = (outcome, m₁, events))
    (hrun' : execute n program' w m' = (outcome', m₁', events')) :
    Matches program program' R E outcome m₁ outcome' m₁' := by
  rcases hindexed : tabulate 0 .empty program.statements with ⟨labels, _ | e⟩
  · have hlabelled :
        Run.Abreast R { machine := m.withLabels labels, pointer := startIndex program w.start }
        { machine := m'.withLabels labels, pointer := startIndex program' w.start } :=
      ⟨h.withLabels labels hm, hstart, rfl⟩
    have hend := hlabelled.finish h hw n
    simp only [Machine.execute, indexLabels_eq, hindexed] at hrun
    simp only [Machine.execute, indexLabels_eq, h.labels hindexed] at hrun'
    generalize Run.finish program w n _ = ending at hend hrun
    generalize Run.finish program' w n _ = ending' at hend hrun'
    cases hend with
    | failed faults runs =>
      cases hrun
      cases hrun'
      exact .failed faults runs.machine
    | givenUp runs =>
      cases hrun
      cases hrun'
      exact .givenUp runs.machine
    | @rested r r' runs =>
      obtain ⟨m₂, pointer, executed, jumps⟩ := r
      obtain ⟨m₂', pointer', executed', jumps'⟩ := r'
      obtain rfl : pointer = pointer' := runs.pointer
      cases hrun
      cases hrun'
      exact @Matches.chunk _ _ _ _ m₂ m₂' pointer (h.aim pointer runs.machine)
  · obtain ⟨e', hindexed', hfaults⟩ := h.twice hindexed
    simp only [Machine.execute, indexLabels_eq, hindexed] at hrun
    simp only [Machine.execute, indexLabels_eq, hindexed'] at hrun'
    cases hrun
    cases hrun'
    exact .failed hfaults (h.withLabels labels hm)

end

end Brushwork.Machine
