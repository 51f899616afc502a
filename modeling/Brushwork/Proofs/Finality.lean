import Brushwork.Proofs.Windows

/-!
# Behind the end of a program

A chunk that comes to the end of its program reports the line behind the last statement that the
machine has executed. If the chunk has executed a statement itself, then the last one of the program
was the last, and going on at that line does nothing. A chunk that starts behind the end executes
none, and then the line is left over from an earlier run, or from none at all: it may lie in the
program, and going on there starts the program again.
-/

namespace Brushwork

def Program.EndsBy (program : Program) (line : Int) : Prop :=
  ∀ s ∈ program.statements, s.position.line ≤ line

instance (program : Program) (line : Int) : Decidable (program.EndsBy line) :=
  inferInstanceAs (Decidable (∀ s ∈ program.statements, s.position.line ≤ line))

namespace Machine

open Config

theorem startIndex_eq_length_iff {program : Program} (hlaid : program.Laid) (line : Int) :
    startIndex program line = program.statements.length ↔ program.EndsBy (line - 1) := by
  unfold startIndex Program.EndsBy
  split
  · rename_i hfirst
    constructor
    · intro hempty
      rw [List.eq_nil_of_length_eq_zero hempty.symm]
      nofun
    · intro hends
      cases hstatements : program.statements with
      | nil => rfl
      | cons s statements =>
        have hs : program.statements[0]? = some s := by rw [hstatements]; rfl
        have hlow := hlaid.add_le hs
        have hhigh := hends s (by rw [hstatements]; exact List.mem_cons_self)
        omega
  · rw [List.findIdx_eq_length]
    apply forall₂_congr
    intro s _
    rw [decide_eq_false_iff_not]
    omega

namespace Config

variable {program : Program} {c d : Config} {is : List Nat}

theorem Moves.pointer_cases (h : Moves program c d)
    (hlabels : program.Lists c.machine.state.labels) :
    d.pointer = c.pointer + 1 ∨ d.pointer < program.statements.length := by
  obtain ⟨-, heffect⟩ := h
  cases heffect with
  | jump value holds label => exact Or.inr (hlabels.toNat_lt label)
  | _ => exact Or.inl rfl

theorem Walk.pointer_le (h : Walk program c is d) (hlabels : program.Lists c.machine.state.labels)
    (hc : c.pointer ≤ program.statements.length) : d.pointer ≤ program.statements.length := by
  induction h with
  | nil => exact hc
  | cons first _ ih =>
    have hlt := Nat.lt_of_not_le first.not_halted
    apply ih
    · rw [first.labels_eq]
      exact hlabels
    · rcases first.pointer_cases hlabels with hnext | hjump
      · omega
      · exact Nat.le_of_lt hjump

/-- A walk that comes to the end has executed the last statement of the program last. -/
theorem Walk.endsBy_lastLine (h : Walk program c is d)
    (hlabels : program.Lists c.machine.state.labels) (hlaid : program.Laid)
    (hhalted : d.Halted program) (hne : is ≠ []) : program.EndsBy d.machine.state.lastLine := by
  induction h with
  | nil => exact absurd rfl hne
  | @cons c c₁ c₂ is first rest ih =>
    cases rest with
    | nil =>
      have hnext := (first.pointer_cases hlabels).resolve_right (Nat.not_lt.2 hhalted)
      have hlast : program.statements.length ≤ c.pointer + 1 := hnext ▸ hhalted
      obtain ⟨hs, -⟩ := first
      intro s' hs'
      obtain ⟨j, hj⟩ := List.getElem?_of_mem hs'
      have hle := Nat.le_of_lt_succ (Nat.lt_of_lt_of_le (List.getElem?_eq_some_iff.1 hj).1 hlast)
      rcases Nat.lt_or_eq_of_le hle with hlt | rfl
      · exact Int.le_of_lt (hlaid.lt hj hs hlt)
      · cases hj.symm.trans hs
        exact Int.le_refl _
    | cons second rest =>
      apply ih _ hhalted (List.cons_ne_nil _ _)
      rw [first.labels_eq]
      exact hlabels

end Config

/-- Going on behind a chunk does nothing, whatever the budget: no statement is executed, the report
is the same and the machine is as it was. -/
def Final (program : Program) (c : Chunk) (m : Machine) : Prop :=
  ∀ (budget : Int) (k : Nat), 0 < k → trail k program ⟨c.nextLine, budget⟩ m = [] ∧
    ∃ events, execute k program ⟨c.nextLine, budget⟩ m = (.chunk c, m, events)

/-- Going on behind a chunk starts the program again: it does not come to the end without a
statement. -/
def Restarts (program : Program) (c : Chunk) (m : Machine) : Prop :=
  ∀ (budget : Int) (k : Nat) (c' : Chunk) (m' : Machine) (events : List Event),
    execute k program ⟨c.nextLine, budget⟩ m = (.chunk c', m', events) → c'.finished = true →
      trail k program ⟨c.nextLine, budget⟩ m ≠ []

section

variable {program : Program} {labels : Table String Int} {m : Machine} {pointer : Nat}

theorem nextLine_of_halted (s : State) (h : program.statements.length ≤ pointer) :
    (report program s pointer).nextLine = s.lastLine + 1 := by
  have hnone : program.line? pointer = none := by simpa [Program.line?] using h
  rw [report, hnone]
  rfl

/-- The end of a program is final for a machine whose last line is the last one of the program. -/
theorem final_of_endsBy (hlaid : program.Laid)
    (hindexed : tabulate 0 .empty program.statements = (labels, none))
    (hlabels : m.state.labels = labels) (hends : program.EndsBy m.state.lastLine) :
    Final program (report program m.state program.statements.length)
      (m.aim program.statements.length) := by
  have hsame :
      (m.aim program.statements.length).withLabels labels = m.aim program.statements.length := by
    rw [← hlabels]
    rfl
  have hindex :
      indexLabels program (m.aim program.statements.length) = .ok ()
        (m.aim program.statements.length) :=
    (indexLabels_of_tabulate hindexed _).trans (congrArg _ hsame)
  have hstart : startIndex program (m.state.lastLine + 1) = program.statements.length := by
    rw [startIndex_eq_length_iff hlaid, Int.add_sub_cancel]
    exact hends
  intro budget k hk
  rw [nextLine_of_halted _ (Nat.le_refl _)]
  have hnext : Run.next program ⟨m.state.lastLine + 1, budget⟩
      { machine := m.aim program.statements.length,
        pointer := startIndex program (m.state.lastLine + 1) } =
        .stopped { machine := m.aim program.statements.length,
                   pointer := startIndex program (m.state.lastLine + 1) } := by
    rw [Run.next, hstart, List.getElem?_eq_none (Nat.le_refl _)]
  obtain ⟨hexecute, htrail⟩ := execute_of_stopped hindex .nil hk hnext
  rw [if_pos rfl, List.append_nil] at htrail
  dsimp only at hexecute
  rw [hstart] at hexecute
  exact ⟨htrail, _, hexecute⟩

/-- Where the last line of a machine lies before the end of a program, going on starts the program
again. -/
theorem restarts_of_not_endsBy (hlaid : program.Laid)
    (hindexed : tabulate 0 .empty program.statements = (labels, none))
    (hends : ¬ program.EndsBy m.state.lastLine) :
    Restarts program (report program m.state program.statements.length)
      (m.aim program.statements.length) := by
  intro budget k c' m' events h hfinished hidle
  rw [nextLine_of_halted _ (Nat.le_refl _)] at h hidle
  have hindex := indexLabels_of_tabulate hindexed (m.aim program.statements.length)
  have hchunk := chunked_of_execute
    (c := ⟨m.withLabels labels, startIndex program (m.state.lastLine + 1)⟩) hindex rfl h
  rw [hidle] at hchunk
  cases hchunk with
  | rested walk =>
    cases walk with
    | nil =>
      have hend := Nat.le_antisymm (startIndex_le program _) (report_finished_iff.1 hfinished)
      rw [startIndex_eq_length_iff hlaid, Int.add_sub_cancel] at hend
      exact hends hend

end

/-- The end of a program is final behind a chunk that has executed a statement, and behind one that
has executed none if the last line of its machine was the end of the program or behind it. Otherwise
it is not. -/
theorem finished_is_final_unless_idle {source : String} {program : Program} {n : Nat} {w : Window}
    {m m' : Machine} {c : Chunk} {events : List Event}
    (hsource : Source.compile source = .ok program)
    (h : execute n program w m = (.chunk c, m', events)) (hfinished : c.finished = true) :
    ((trail n program w m ≠ [] ∨ program.EndsBy m.state.lastLine) → Final program c m') ∧
    (¬ (trail n program w m ≠ [] ∨ program.EndsBy m.state.lastLine) → Restarts program c m') := by
  have hlaid := Source.laid_of_compile hsource
  rcases hindexed : tabulate 0 .empty program.statements with ⟨labels, _ | e⟩
  · have hchunk := chunked_of_execute (c := ⟨m.withLabels labels, startIndex program w.start⟩)
      (indexLabels_of_tabulate hindexed m) rfl h
    generalize trail n program w m = is at hchunk ⊢
    cases hchunk with
    | @rested d walk halted started =>
      obtain ⟨m₁, pointer⟩ := d
      have hlists : program.Lists (m.withLabels labels).state.labels := lists_of_tabulate hindexed
      have hlabels : m₁.state.labels = labels := walk.labels_eq
      obtain rfl : pointer = program.statements.length :=
        Nat.le_antisymm (walk.pointer_le hlists (startIndex_le program w.start))
          (report_finished_iff.1 hfinished)
      have hends :
          is ≠ [] ∨ program.EndsBy m.state.lastLine ↔ program.EndsBy m₁.state.lastLine := by
        rcases walk.lastLine_eq with ⟨rfl, hsame⟩ | ⟨i, hi, -⟩
        · rw [show m₁.state.lastLine = m.state.lastLine from hsame]
          exact or_iff_right fun hne => hne rfl
        · have hne : is ≠ [] := List.ne_nil_of_mem (List.mem_of_getLast? hi)
          have hlast := walk.endsBy_lastLine hlists hlaid (Nat.le_refl _) hne
          exact ⟨fun _ => hlast, fun _ => Or.inl hne⟩
      rw [hends]
      exact ⟨final_of_endsBy hlaid hindexed hlabels, restarts_of_not_endsBy hlaid hindexed⟩
  · rw [execute_of_tabulate hindexed] at h
    cases h

def twoLines : String := "Spawn(0, 0)\nx <- 1"

/-- A fresh machine that starts behind the end of a program is told to go on at its first line,
where the program is then executed. The end is final behind a run from that line. -/
theorem start_behind_end_restarts :
    ∃ program m₁ events₁ m₂ events₂,
      Source.compile twoLines = .ok program ∧
      execute 3 program ⟨10, -1⟩ ⟨{}, { grid := .blank 3 2 }⟩ =
        (.chunk ⟨0, 0, 0, 2, 1, true⟩, m₁, events₁) ∧
      Restarts program ⟨0, 0, 0, 2, 1, true⟩ m₁ ∧
      execute 3 program ⟨1, -1⟩ m₁ = (.chunk ⟨0, 0, 2, 2, 3, true⟩, m₂, events₂) ∧
      trail 3 program ⟨1, -1⟩ m₁ = [0, 1] ∧ Final program ⟨0, 0, 2, 2, 3, true⟩ m₂ := by
  have hruns : (Source.compile twoLines).toOption.any (fun program =>
      let first := execute 3 program ⟨10, -1⟩ ⟨{}, { grid := .blank 3 2 }⟩
      decide (first.1 = .chunk ⟨0, 0, 0, 2, 1, true⟩) &&
        decide (trail 3 program ⟨10, -1⟩ ⟨{}, { grid := .blank 3 2 }⟩ = []) &&
        !decide (program.EndsBy 0) &&
        decide ((execute 3 program ⟨1, -1⟩ first.2.1).1 = .chunk ⟨0, 0, 2, 2, 3, true⟩) &&
        decide (trail 3 program ⟨1, -1⟩ first.2.1 = [0, 1])) = true := by
    decide +kernel
  cases hsource : Source.compile twoLines with
  | error e =>
    rw [hsource] at hruns
    cases hruns
  | ok program =>
    rw [hsource] at hruns
    dsimp only [Except.toOption, Option.any] at hruns
    rcases hfirst :
      execute 3 program ⟨10, -1⟩ ⟨{}, { grid := .blank 3 2 }⟩ with ⟨outcome₁, m₁, events₁⟩
    rcases hsecond : execute 3 program ⟨1, -1⟩ m₁ with ⟨outcome₂, m₂, events₂⟩
    simp only [hfirst, hsecond, Bool.and_eq_true, Bool.not_eq_true', decide_eq_true_eq,
      decide_eq_false_iff_not] at hruns
    obtain ⟨⟨⟨⟨rfl, hidle⟩, hends⟩, rfl⟩, htrail⟩ := hruns
    have hrestarts := (finished_is_final_unless_idle hsource hfirst rfl).2
      (not_or.2 ⟨fun hne => hne hidle, hends⟩)
    have hfinal := (finished_is_final_unless_idle hsource hsecond rfl).1
      (Or.inl (by rw [htrail]; exact List.cons_ne_nil _ _))
    exact ⟨program, m₁, events₁, m₂, events₂, rfl, hfirst, hrestarts, hsecond, htrail, hfinal⟩

end Machine

end Brushwork
