import Brushwork.Proofs.Chunks

/-!
# Failures

A statement that fails changes nothing. A chunk declares the labels of its program before anything
else, so it fails in one of two ways. If a label is declared twice, it has changed the labels and no
more. Otherwise some of its statements have succeeded one after the other, the next one fails, and
the machine is the one that those statements left.
-/

namespace Brushwork

namespace Program

/-- A table has the labels of a program, each with the number of its statement. -/
def Lists (program : Program) (labels : Table String Int) : Prop :=
  ∀ name index, labels.get? name = some index ↔
    ∃ i p, index = Int.ofNat i ∧ program.statements[i]? = some (.label name p)

/-- Two statements declare one label, the second of them at a given place. -/
def DeclaresTwice (program : Program) (name : String) (p : Position) : Prop :=
  ∃ (i j : Nat) (q : Position), i < j ∧ program.statements[i]? = some (.label name q) ∧
    program.statements[j]? = some (.label name p)

end Program

namespace Machine

section

variable {index : Nat} {labels labels' : Table String Int} {statements : List Tree}

theorem get?_tabulate (h : tabulate index labels statements = (labels', none)) (name : String)
    (target : Int) :
    labels'.get? name = some target ↔ labels.get? name = some target ∨
      ∃ i p, target = Int.ofNat (index + i) ∧ statements[i]? = some (.label name p) := by
  fun_induction tabulate index labels statements with
  | case1 index labels =>
    cases h
    simp
  | case2 => cases h
  | case3 index labels name' p statements hnew ih =>
    have hfresh : labels.get? name' = none := by simpa [Table.contains] using hnew
    rw [ih h, Table.get?_insert]
    constructor
    · rintro (hget | ⟨i, q, rfl, hi⟩)
      · split at hget
        · rename_i hname
          cases hget
          exact Or.inr ⟨0, p, rfl, by rw [hname]; rfl⟩
        · exact Or.inl hget
      · exact Or.inr ⟨i + 1, q, by rw [Nat.add_assoc, Nat.add_comm 1 i], hi⟩
    · rintro (hget | ⟨_ | i, q, rfl, hi⟩)
      · have hother : name ≠ name' := by
          rintro rfl
          cases hfresh.symm.trans hget
        exact Or.inl (by rw [if_neg hother]; exact hget)
      · cases hi
        exact Or.inl (if_pos rfl)
      · exact Or.inr ⟨i, q, by rw [Nat.add_assoc, Nat.add_comm 1 i], hi⟩
  | case4 index labels s statements hs ih =>
    rw [ih h]
    apply or_congr_right
    constructor
    · rintro ⟨i, p, rfl, hi⟩
      exact ⟨i + 1, p, by rw [Nat.add_assoc, Nat.add_comm 1 i], hi⟩
    · rintro ⟨_ | i, p, rfl, hi⟩
      · cases hi
        exact absurd rfl (hs name p)
      · exact ⟨i, p, by rw [Nat.add_assoc, Nat.add_comm 1 i], hi⟩

theorem twice_of_tabulate {e : Located Fault}
    (h : tabulate index labels statements = (labels', some e)) :
    ∃ (name : String) (j : Nat), e.cause = .labelTwice name ∧
      statements[j]? = some (.label name e.position) ∧
      (labels.contains name = true ∨ ∃ i < j, ∃ q, statements[i]? = some (.label name q)) := by
  fun_induction tabulate index labels statements with
  | case1 => cases h
  | case2 index labels name p statements htwice =>
    cases h
    exact ⟨name, 0, rfl, rfl, Or.inl htwice⟩
  | case3 index labels name' p statements hnew ih =>
    obtain ⟨name, j, hcause, hj, hbefore⟩ := ih h
    refine ⟨name, j + 1, hcause, hj, ?_⟩
    rcases hbefore with hbefore | ⟨i, hi, q, hq⟩
    · by_cases hname : name = name'
      · subst hname
        exact Or.inr ⟨0, Nat.succ_pos j, p, rfl⟩
      · rw [Table.contains, Table.get?_insert, if_neg hname] at hbefore
        exact Or.inl hbefore
    · exact Or.inr ⟨i + 1, Nat.succ_lt_succ hi, q, hq⟩
  | case4 index labels s statements hs ih =>
    obtain ⟨name, j, hcause, hj, hbefore⟩ := ih h
    refine ⟨name, j + 1, hcause, hj, hbefore.imp_right ?_⟩
    rintro ⟨i, hi, q, hq⟩
    exact ⟨i + 1, Nat.succ_lt_succ hi, q, hq⟩

end

section

variable {program : Program} {m m₁ : Machine} {e : Located Fault}

theorem tabulate_of_indexLabels_ok (h : indexLabels program m = .ok () m₁) :
    ∃ labels, tabulate 0 .empty program.statements = (labels, none) ∧ m₁ = m.withLabels labels := by
  rw [indexLabels_eq] at h
  split at h
  · rename_i labels hindexed
    cases h
    exact ⟨labels, hindexed, rfl⟩
  · cases h

theorem tabulate_of_indexLabels_error (h : indexLabels program m = .error e m₁) :
    ∃ labels, tabulate 0 .empty program.statements = (labels, some e) ∧
      m₁ = m.withLabels labels := by
  rw [indexLabels_eq] at h
  split at h
  · cases h
  · rename_i labels e' hindexed
    cases h
    exact ⟨labels, hindexed, rfl⟩

theorem lists_of_tabulate {labels : Table String Int}
    (h : tabulate 0 .empty program.statements = (labels, none)) : program.Lists labels := by
  intro name index
  simp [get?_tabulate h name index]

theorem declaresTwice_of_tabulate {labels : Table String Int}
    (h : tabulate 0 .empty program.statements = (labels, some e)) :
    ∃ name, e.cause = .labelTwice name ∧ program.DeclaresTwice name e.position := by
  obtain ⟨name, j, hcause, hj, hbefore | ⟨i, hi, q, hq⟩⟩ := twice_of_tabulate h
  · cases hbefore
  · exact ⟨name, hcause, i, j, q, hi, hq, hj⟩

end

namespace Config.Walk

variable {program : Program} {c d : Config} {is : List Nat}

theorem pointer_eq (h : Walk program c is d) :
    d.machine.state.pointer = c.machine.state.pointer :=
  h.induct (P := fun c' => c'.machine.state.pointer = c.machine.state.pointer) rfl
    fun hc hmoves => hmoves.pointer_eq.trans hc

/-- The last line is that of the last statement, or the old one if there was no statement. -/
theorem lastLine_eq (h : Walk program c is d) :
    is = [] ∧ d.machine.state.lastLine = c.machine.state.lastLine ∨
      ∃ i, is.getLast? = some i ∧ program.line? i = some d.machine.state.lastLine := by
  induction h with
  | nil => exact Or.inl ⟨rfl, rfl⟩
  | @cons c c₁ c₂ is first rest ih =>
    right
    rcases ih with ⟨rfl, hline⟩ | ⟨i, hi, hline⟩
    · obtain ⟨hs, heffect⟩ := first
      exact ⟨_, rfl, by rw [hline]; exact congrArg _ hs⟩
    · exact ⟨i, by rw [List.getLast?_cons, hi]; rfl, hline⟩

end Config.Walk

open Config

/-- What a chunk that starts at a line leaves when it fails behind the statements listed. -/
structure Interrupted (program : Program) (start : Int) (is : List Nat) (m : Machine)
    (e : Located Fault) (m' : Machine) : Prop where
  /-- The statements succeed one after the other, from the labelled machine to the one that is left,
  and there the next statement fails. -/
  stopped : ∃ pointer s,
    Walk program ⟨m.withLabels m'.state.labels, startIndex program start⟩ is ⟨m', pointer⟩ ∧
      program.statements[pointer]? = some s ∧ step s m' = .error e m'
  labels : program.Lists m'.state.labels
  lastLine : is = [] ∧ m'.state.lastLine = m.state.lastLine ∨
    ∃ i, is.getLast? = some i ∧ program.line? i = some m'.state.lastLine
  pointer : m'.state.pointer = m.state.pointer

theorem interrupted_of_tabulate {program : Program} {labels : Table String Int} {n : Nat}
    {w : Window} {m m' : Machine} {e : Located Fault} {events : List Event}
    (hindexed : tabulate 0 .empty program.statements = (labels, none))
    (hrun : execute n program w m = (.failed e, m', events)) :
    Interrupted program w.start (trail n program w m) m e m' := by
  have hchunk := chunked_of_execute (c := ⟨m.withLabels labels, startIndex program w.start⟩)
    (q := m.state.pointer) (indexLabels_of_tabulate hindexed m) rfl hrun
  cases hchunk with
  | @failed c _ walk breaks =>
    have hpointer : c.machine.state.pointer = m.state.pointer := walk.pointer_eq
    have hlabels : c.machine.state.labels = labels := walk.labels_eq
    have hmachine : c.machine.aim m.state.pointer = c.machine := by rw [← hpointer]; rfl
    rw [hmachine]
    obtain ⟨hs, hfails⟩ := breaks
    refine ⟨⟨_, _, ?_, hs, step_error_iff.2 ⟨hfails, rfl⟩⟩, ?_, walk.lastLine_eq, hpointer⟩
    · rw [hlabels]
      exact walk
    · rw [hlabels]
      exact lists_of_tabulate hindexed

theorem failures_are_atomic :
    (∀ {s m e m'}, step s m = .error e m' → m' = m) ∧
    (∀ {n program w m m₁ e m' events}, indexLabels program m = .ok () m₁ →
      execute n program w m = (.failed e, m', events) →
        Interrupted program w.start (trail n program w m) m e m') ∧
    ∀ {n program w m m₁ e}, indexLabels program m = .error e m₁ →
      execute n program w m = (.failed e, m₁, []) ∧ m₁ = m.withLabels m₁.state.labels ∧
        ∃ name, e.cause = .labelTwice name ∧ program.DeclaresTwice name e.position := by
  refine ⟨?_, ?_, ?_⟩
  · intro s m e m' h
    exact (step_error_iff.1 h).2
  · intro n program w m m₁ e m' events hlabels hrun
    obtain ⟨labels, hindexed, -⟩ := tabulate_of_indexLabels_ok hlabels
    exact interrupted_of_tabulate hindexed hrun
  · intro n program w m m₁ e hlabels
    obtain ⟨labels, hindexed, rfl⟩ := tabulate_of_indexLabels_error hlabels
    exact ⟨by rw [execute, hlabels], rfl, declaresTwice_of_tabulate hindexed⟩

/-- A line in no direction fails behind a spawn and an assignment; a second program has its label
twice. -/
theorem bad_direction_is_atomic :
    let m : Machine := ⟨{}, { grid := .blank 3 2 }⟩
    let drawn : Program :=
      ⟨[.spawn 1 0 ⟨1, 1⟩, .assign "n" (.literal (.int 2) ⟨2, 6⟩) ⟨2, 1⟩,
        .call "DrawLine" [.variable "n" ⟨3, 10⟩, .literal (.int 0) ⟨3, 13⟩,
          .literal (.int 1) ⟨3, 16⟩] ⟨3, 1⟩], ⟨1, 1⟩⟩
    let labelled : Program := ⟨[.label "a" ⟨1, 1⟩, .label "b" ⟨2, 1⟩, .label "a" ⟨3, 1⟩], ⟨1, 1⟩⟩
    (∃ m₁ m' events, indexLabels drawn m = .ok () m₁ ∧
      execute 9 drawn {} m = (.failed ⟨.canvas (.direction 2 0), ⟨3, 1⟩⟩, m', events) ∧
      Interrupted drawn 1 [0, 1] m ⟨.canvas (.direction 2 0), ⟨3, 1⟩⟩ m') ∧
    ∃ e m₁, indexLabels labelled m = .error e m₁ ∧ execute 9 labelled {} m = (.failed e, m₁, []) ∧
      m₁ = m.withLabels m₁.state.labels ∧
      ∃ name, e.cause = .labelTwice name ∧ labelled.DeclaresTwice name e.position := by
  intro m drawn labelled
  obtain ⟨-, hinterrupted, htwice⟩ := failures_are_atomic
  constructor
  · obtain ⟨m₁, hlabels⟩ : ∃ m₁, indexLabels drawn m = .ok () m₁ := ⟨_, rfl⟩
    obtain ⟨m', events, hrun⟩ : ∃ m' events, execute 9 drawn {} m =
        (.failed ⟨.canvas (.direction 2 0), ⟨3, 1⟩⟩, m', events) := ⟨_, _, rfl⟩
    exact ⟨m₁, m', events, hlabels, hrun, hinterrupted hlabels hrun⟩
  · obtain ⟨e, m₁, hlabels⟩ : ∃ e m₁, indexLabels labelled m = .error e m₁ := ⟨_, _, rfl⟩
    exact ⟨e, m₁, hlabels, htwice hlabels⟩

end Machine

end Brushwork
