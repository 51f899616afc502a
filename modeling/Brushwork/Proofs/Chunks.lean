import Brushwork.Proofs.Lines
import Brushwork.Proofs.Walk

/-!
# Chunks and the run in one go

A program may be run in chunks, each of which resumes at the line that the one before it reports. A
chunk stops where its budget or its window ends, after a jump out of the window, or behind the last
statement; all that is kept of where it stopped is a line. Statements stand on rising lines, so the
line leads back to the statement, and the chunks together walk the way of the run in one go.

Both are compared with a third account, the verdict of a program, which knows of walks only. A run
in one go gives the verdict. A chain of chunks gives it too, since every chunk behind the first
executes a statement, and only a machine that fails shows in its pointer that it was run in chunks.
-/

namespace Brushwork.Machine

open Config

/-- Unfinished chunks in a row. The first starts at line one, and each other at the line that the
one before it reports. Kept are their number, the machine and the line after them, and the
statements they executed. -/
inductive Chain (program : Program) (budget : Nat → Int) (m : Machine) :
    Nat → Machine → Int → List Nat → Prop
  | start : Chain program budget m 0 m 1 []
  | next {k n : Nat} {m₁ m₂ : Machine} {line : Int} {is : List Nat} {c : Chunk}
      {events : List Event} (before : Chain program budget m k m₁ line is)
      (chunk : execute n program ⟨line, budget k⟩ m₁ = (.chunk c, m₂, events))
      (unfinished : c.finished = false) :
    Chain program budget m (k + 1) m₂ c.nextLine (is ++ trail n program ⟨line, budget k⟩ m₁)

def Outcome.isLast : Outcome → Bool
  | .chunk c => c.finished
  | .failed _ => true
  | .givenUp => false

/-- The last chunk behind a chain has this outcome and leaves this machine. -/
def Concludes (program : Program) (budget : Nat → Int) (m : Machine) (outcome : Outcome)
    (m' : Machine) : Prop :=
  ∃ k m₁ line is n events, Chain program budget m k m₁ line is ∧
    execute n program ⟨line, budget k⟩ m₁ = (outcome, m', events) ∧ outcome.isLast = true

/-- What becomes of a program from its first statement on, told without windows. -/
inductive Verdict (program : Program) (m : Machine) : Outcome → Machine → Prop
  | mislabelled {labels : Table String Int} {e : Located Fault}
      (indexed : tabulate 0 .empty program.statements = (labels, some e)) :
    Verdict program m (.failed e) (m.withLabels labels)
  | finished {labels : Table String Int} {is : List Nat} {d : Config}
      (indexed : tabulate 0 .empty program.statements = (labels, none))
      (walk : Walk program ⟨m.withLabels labels, 0⟩ is d) (halted : d.Halted program) :
    Verdict program m (.chunk (report program d.machine.state d.pointer)) (d.machine.aim d.pointer)
  | failed {labels : Table String Int} {is : List Nat} {d : Config} {e : Located Fault}
      (indexed : tabulate 0 .empty program.statements = (labels, none))
      (walk : Walk program ⟨m.withLabels labels, 0⟩ is d) (breaks : d.Breaks program e) :
    Verdict program m (.failed e) (d.machine.aim m.state.pointer)

section

variable {program : Program} {w : Window} {m m' : Machine} {labels : Table String Int}
  {budget : Nat → Int}

theorem indexLabels_of_tabulate (h : tabulate 0 .empty program.statements = (labels, none))
    (m : Machine) : indexLabels program m = .ok () (m.withLabels labels) := by
  rw [indexLabels_eq, h]

theorem execute_of_tabulate {e : Located Fault}
    (h : tabulate 0 .empty program.statements = (labels, some e)) (n : Nat) (w : Window)
    (m : Machine) : execute n program w m = (.failed e, m.withLabels labels, []) := by
  rw [execute, indexLabels_eq, h]

theorem Chain.eq_start {e : Located Fault} {k : Nat} {line : Int} {is : List Nat}
    (h : Chain program budget m k m' line is)
    (hindexed : tabulate 0 .empty program.statements = (labels, some e)) :
    k = 0 ∧ m' = m ∧ line = 1 ∧ is = [] := by
  cases h with
  | start => exact ⟨rfl, rfl, rfl, rfl⟩
  | next before chunk unfinished =>
    rw [execute_of_tabulate hindexed] at chunk
    cases chunk

theorem Chunked.of_halted {n : Nat} {c d : Config} {q : Int} {is js : List Nat} {outcome : Outcome}
    (h : Chunked n program w c q is outcome m') (hw : w.bounded = false)
    (walk : Walk program c js d) (halted : d.Halted program) (hn : js.length < n) :
    outcome = .chunk (report program d.machine.state d.pointer) ∧ m' = d.machine.aim d.pointer := by
  cases h with
  | rested walk' halted' _ =>
    obtain ⟨-, rfl⟩ := walk.unique walk' (Or.inl halted) (Or.inl (halted' hw))
    exact ⟨rfl, rfl⟩
  | failed walk' breaks =>
    obtain ⟨-, rfl⟩ := walk.unique walk' (Or.inl halted) (Or.inr ⟨_, breaks⟩)
    exact absurd halted breaks.not_halted
  | givenUp walk' long =>
    have := walk.length_le walk' (Or.inl halted)
    omega

theorem Chunked.of_breaks {n : Nat} {c d : Config} {q : Int} {is js : List Nat} {outcome : Outcome}
    {e : Located Fault} (h : Chunked n program w c q is outcome m') (hw : w.bounded = false)
    (walk : Walk program c js d) (breaks : d.Breaks program e) (hn : js.length < n) :
    outcome = .failed e ∧ m' = d.machine.aim q := by
  cases h with
  | rested walk' halted' _ =>
    obtain ⟨-, rfl⟩ := walk.unique walk' (Or.inr ⟨e, breaks⟩) (Or.inl (halted' hw))
    exact absurd (halted' hw) breaks.not_halted
  | failed walk' breaks' =>
    obtain ⟨-, rfl⟩ := walk.unique walk' (Or.inr ⟨e, breaks⟩) (Or.inr ⟨_, breaks'⟩)
    rw [breaks.unique breaks']
    exact ⟨rfl, rfl⟩
  | givenUp walk' long =>
    have := walk.length_le walk' (Or.inr ⟨e, breaks⟩)
    omega

/-- A run in one go that is not given up gives the verdict, and with patience enough it is not given
up. -/
theorem verdict_iff {outcome : Outcome} :
    Verdict program m outcome m' ↔
      outcome ≠ .givenUp ∧ ∃ n events, execute n program {} m = (outcome, m', events) := by
  constructor
  · intro h
    cases h with
    | mislabelled indexed =>
      exact ⟨nofun, 0, [], execute_of_tabulate indexed 0 {} m⟩
    | @finished labels is d indexed walk halted =>
      rcases hrun : execute (is.length + 1) program {} m with ⟨outcome, m', events⟩
      have hchunk := chunked_of_execute (c := ⟨m.withLabels labels, 0⟩)
        (indexLabels_of_tabulate indexed m) rfl hrun
      obtain ⟨rfl, rfl⟩ := hchunk.of_halted rfl walk halted (Nat.lt_succ_self _)
      exact ⟨nofun, _, _, hrun⟩
    | @failed labels is d e indexed walk breaks =>
      rcases hrun : execute (is.length + 1) program {} m with ⟨outcome, m', events⟩
      have hchunk := chunked_of_execute (c := ⟨m.withLabels labels, 0⟩)
        (indexLabels_of_tabulate indexed m) rfl hrun
      obtain ⟨rfl, rfl⟩ := hchunk.of_breaks rfl walk breaks (Nat.lt_succ_self _)
      exact ⟨nofun, _, _, hrun⟩
  · rintro ⟨hnot, n, events, h⟩
    rcases hindexed : tabulate 0 .empty program.statements with ⟨labels, _ | e⟩
    · have hchunk := chunked_of_execute (c := ⟨m.withLabels labels, 0⟩)
        (indexLabels_of_tabulate hindexed m) rfl h
      cases hchunk with
      | rested walk halted _ => exact .finished hindexed walk (halted rfl)
      | failed walk breaks => exact .failed hindexed walk breaks
      | givenUp => exact absurd rfl hnot
    · rw [execute_of_tabulate hindexed] at h
      cases h
      exact .mislabelled hindexed

theorem Verdict.unique {outcome outcome' : Outcome} {m₁ m₂ : Machine}
    (h : Verdict program m outcome m₁) (h' : Verdict program m outcome' m₂) :
    outcome = outcome' ∧ m₁ = m₂ := by
  cases h with
  | mislabelled indexed =>
    cases h' with
    | mislabelled indexed' =>
      cases indexed.symm.trans indexed'
      exact ⟨rfl, rfl⟩
    | finished indexed' | failed indexed' => cases indexed.symm.trans indexed'
  | finished indexed walk halted =>
    cases h' with
    | mislabelled indexed' => cases indexed.symm.trans indexed'
    | finished indexed' walk' halted' =>
      cases indexed.symm.trans indexed'
      obtain ⟨-, rfl⟩ := walk.unique walk' (Or.inl halted) (Or.inl halted')
      exact ⟨rfl, rfl⟩
    | failed indexed' walk' breaks' =>
      cases indexed.symm.trans indexed'
      obtain ⟨-, rfl⟩ := walk.unique walk' (Or.inl halted) (Or.inr ⟨_, breaks'⟩)
      exact absurd halted breaks'.not_halted
  | failed indexed walk breaks =>
    cases h' with
    | mislabelled indexed' => cases indexed.symm.trans indexed'
    | finished indexed' walk' halted' =>
      cases indexed.symm.trans indexed'
      obtain ⟨-, rfl⟩ := walk.unique walk' (Or.inr ⟨_, breaks⟩) (Or.inl halted')
      exact absurd halted' breaks.not_halted
    | failed indexed' walk' breaks' =>
      cases indexed.symm.trans indexed'
      obtain ⟨-, rfl⟩ := walk.unique walk' (Or.inr ⟨_, breaks⟩) (Or.inr ⟨_, breaks'⟩)
      rw [breaks.unique breaks']
      exact ⟨rfl, rfl⟩

/-- Where a chain stands: at the end of a walk from the first statement. -/
structure Reached (program : Program) (labels : Table String Int) (m m' : Machine) (line : Int)
    (is : List Nat) (c : Config) : Prop where
  walk : Walk program ⟨m.withLabels labels, 0⟩ is c
  start : startIndex program line = c.pointer
  machine : m'.withLabels labels = c.machine.aim m'.state.pointer

theorem Reached.chunked {line b : Int} {is : List Nat} {c : Config} {n : Nat} {outcome : Outcome}
    {m'' : Machine} {events : List Event}
    (h : Reached program labels m m' line is c)
    (hindexed : tabulate 0 .empty program.statements = (labels, none))
    (hrun : execute n program ⟨line, b⟩ m' = (outcome, m'', events)) :
    Chunked n program ⟨line, b⟩ c m'.state.pointer (trail n program ⟨line, b⟩ m') outcome m'' :=
  chunked_of_execute (h.machine ▸ indexLabels_of_tabulate hindexed m') h.start hrun

@[simp] theorem report_finished_iff {s : State} {pointer : Nat} :
    (report program s pointer).finished = true ↔ program.statements.length ≤ pointer := by
  simp [report]

theorem line?_of_unfinished {s : State} {pointer : Nat}
    (h : (report program s pointer).finished = false) :
    program.line? pointer = some (report program s pointer).nextLine := by
  have hlt : pointer < program.statements.length := by simpa [report] using h
  simp [report, Program.line?, hlt]

theorem Reached.next {line line' : Int} {is js : List Nat} {c c' : Config}
    (h : Reached program labels m m' line is c) (hlaid : program.Laid)
    (walk : Walk program c js c') (hline : program.line? c'.pointer = some line') :
    Reached program labels m (c'.machine.aim c'.pointer) line' (is ++ js) c' := by
  refine ⟨h.walk.append walk, startIndex_line hlaid hline, ?_⟩
  have hlabels : c'.machine.state.labels = labels := (h.walk.append walk).labels_eq
  rw [← hlabels]
  rfl

/-- Behind the first chunk a chain resumes at the very line of the statement that comes next. -/
theorem Chain.reached {k : Nat} {line : Int} {is : List Nat}
    (h : Chain program budget m k m' line is) (hlaid : program.Laid)
    (hindexed : tabulate 0 .empty program.statements = (labels, none)) :
    ∃ c, Reached program labels m m' line is c ∧ (k = 0 ∨ program.line? c.pointer = some line) := by
  induction h with
  | start => exact ⟨⟨m.withLabels labels, 0⟩, ⟨.nil, rfl, rfl⟩, Or.inl rfl⟩
  | next before chunk unfinished ih =>
    obtain ⟨c, hc, -⟩ := ih
    cases hc.chunked hindexed chunk with
    | @rested c' walk halted started =>
      have hline := line?_of_unfinished unfinished
      exact ⟨c', hc.next hlaid walk hline, Or.inr hline⟩

/-- The last chunk of a chain gives the verdict, but for the pointer of a machine that failed. -/
theorem Concludes.verdict {outcome : Outcome} (h : Concludes program budget m outcome m')
    (hlaid : program.Laid) :
    ∃ m'', Verdict program m outcome m'' ∧
      ((∃ c, outcome = .chunk c ∧ m' = m'') ∨ ∃ e q, outcome = .failed e ∧ m' = m''.aim q) := by
  obtain ⟨k, m₁, line, is, n, events, hchain, hrun, hlast⟩ := h
  rcases hindexed : tabulate 0 .empty program.statements with ⟨labels, _ | e⟩
  · obtain ⟨c, hc, -⟩ := hchain.reached hlaid hindexed
    cases hc.chunked hindexed hrun with
    | rested walk halted started =>
      have hhalted := report_finished_iff.1 hlast
      exact ⟨_, .finished hindexed (hc.walk.append walk) hhalted, Or.inl ⟨_, rfl, rfl⟩⟩
    | failed walk breaks =>
      exact ⟨_, .failed hindexed (hc.walk.append walk) breaks, Or.inr ⟨_, _, rfl, rfl⟩⟩
    | givenUp => cases hlast
  · obtain ⟨rfl, rfl, rfl, -⟩ := hchain.eq_start hindexed
    rw [execute_of_tabulate hindexed] at hrun
    cases hrun
    exact ⟨_, .mislabelled hindexed, Or.inr ⟨e, m₁.state.pointer, rfl, rfl⟩⟩

theorem Window.admits_start {line b : Int} (hb : b = -1 ∨ 1 ≤ b) :
    (⟨line, b⟩ : Window).admits 0 line = true := by
  rcases hb with rfl | hb
  · rfl
  · have hstop : line < line + b := by omega
    have hbudget : (0 : Int) < b := by omega
    simp [Window.admits, Window.stop, hstop, hbudget]

/-- If the walk ends, one more chunk of a chain is the last, or it leads on and executes a statement
if it starts at the very line of one. -/
theorem Reached.resume {k : Nat} {line : Int} {is js : List Nat} {c d : Config}
    (hc : Reached program labels m m' line is c) (hchain : Chain program budget m k m' line is)
    (hlaid : program.Laid) (hindexed : tabulate 0 .empty program.statements = (labels, none))
    (hbudget : ∀ k, budget k = -1 ∨ 1 ≤ budget k)
    (walk : Walk program ⟨m.withLabels labels, 0⟩ js d) (hstuck : d.Stuck program) :
    (∃ outcome m'', Concludes program budget m outcome m'') ∨
      ∃ m'' line' is' c', Chain program budget m (k + 1) m'' line' is' ∧
        Reached program labels m m'' line' is' c' ∧ program.line? c'.pointer = some line' ∧
        (program.line? c.pointer = some line → is.length < is'.length) := by
  rcases hrun : execute (js.length + 1) program ⟨line, budget k⟩ m' with ⟨outcome, m'', events⟩
  have hchunk := hc.chunked hindexed hrun
  cases hchunk with
  | @rested c' walk' halted started =>
    cases hfinished : (report program c'.machine.state c'.pointer).finished with
    | true => exact Or.inl ⟨_, _, k, m', line, is, _, _, hchain, hrun, hfinished⟩
    | false =>
      have hline := line?_of_unfinished hfinished
      refine Or.inr ⟨_, _, _, c', .next hchain hrun hfinished, hc.next hlaid walk' hline, hline, ?_⟩
      intro hplaced
      have hne := started line hplaced (Window.admits_start (hbudget k))
      have hpos := List.length_pos_iff.2 hne
      rw [List.length_append]
      omega
  | failed walk' breaks => exact Or.inl ⟨_, _, k, m', line, is, _, _, hchain, hrun, rfl⟩
  | givenUp walk' long =>
    have hle := walk.length_le (hc.walk.append walk') hstuck
    rw [List.length_append] at hle
    omega

theorem Reached.concludes {k : Nat} {line : Int} {is js : List Nat} {c d : Config}
    (hc : Reached program labels m m' line is c) (hplaced : program.line? c.pointer = some line)
    (hchain : Chain program budget m k m' line is)
    (hlaid : program.Laid) (hindexed : tabulate 0 .empty program.statements = (labels, none))
    (hbudget : ∀ k, budget k = -1 ∨ 1 ≤ budget k)
    (walk : Walk program ⟨m.withLabels labels, 0⟩ js d) (hstuck : d.Stuck program) :
    ∃ outcome m'', Concludes program budget m outcome m'' := by
  -- each chunk leaves fewer of the statements of the walk
  induction hleft : js.length - is.length using Nat.strongRecOn generalizing k m' line is c with
  | ind left ih =>
    rcases hc.resume hchain hlaid hindexed hbudget walk hstuck with
      hdone | ⟨m'', line', is', c', hchain', hc', hplaced', hmore⟩
    · exact hdone
    · have hlt := hmore hplaced
      have hle := walk.length_le hc'.walk hstuck
      exact ih (js.length - is'.length) (by omega) hc' hplaced' hchain' rfl

theorem Verdict.concludes {outcome : Outcome} (h : Verdict program m outcome m')
    (hlaid : program.Laid) (hbudget : ∀ k, budget k = -1 ∨ 1 ≤ budget k) :
    ∃ outcome' m'', Concludes program budget m outcome' m'' := by
  have hwalk : ∀ {labels is d}, tabulate 0 .empty program.statements = (labels, none) →
      Walk program ⟨m.withLabels labels, 0⟩ is d → d.Stuck program →
      ∃ outcome' m'', Concludes program budget m outcome' m'' := by
    intro labels is d hindexed walk hstuck
    have hstart : Reached program labels m m 1 [] ⟨m.withLabels labels, 0⟩ := ⟨.nil, rfl, rfl⟩
    rcases hstart.resume .start hlaid hindexed hbudget walk hstuck with
      hdone | ⟨m'', line', is', c', hchain', hc', hplaced', -⟩
    · exact hdone
    · exact hc'.concludes hplaced' hchain' hlaid hindexed hbudget walk hstuck
  cases h with
  | @mislabelled labels e indexed =>
    exact ⟨.failed e, m.withLabels labels, 0, m, 1, [], 0, [], .start,
      execute_of_tabulate indexed 0 _ m, rfl⟩
  | finished indexed walk halted => exact hwalk indexed walk (Or.inl halted)
  | failed indexed walk breaks => exact hwalk indexed walk (Or.inr ⟨_, breaks⟩)

theorem Chunked.exists_walk {n : Nat} {c : Config} {q : Int} {is : List Nat} {outcome : Outcome}
    (h : Chunked n program w c q is outcome m') :
    ∃ d q', Walk program c is d ∧ m' = d.machine.aim q' ∧
      ∀ e, outcome = .failed e → d.Breaks program e := by
  cases h with
  | @rested c' walk =>
    refine ⟨c', c'.pointer, walk, rfl, ?_⟩
    intro e he
    cases he
  | @failed c' _ walk breaks =>
    refine ⟨c', q, walk, rfl, ?_⟩
    intro e he
    cases he
    exact breaks
  | @givenUp c' walk =>
    refine ⟨c', q, walk, rfl, ?_⟩
    intro e he
    cases he

/-- A chunk of a chain ends where a walk from the first statement does, and if it fails then the
walk breaks. -/
theorem Chain.exists_walk {k n : Nat} {line : Int} {is : List Nat} {outcome : Outcome}
    {m'' : Machine} {events : List Event} (h : Chain program budget m k m' line is)
    (hlaid : program.Laid) (hindexed : tabulate 0 .empty program.statements = (labels, none))
    (hrun : execute n program ⟨line, budget k⟩ m' = (outcome, m'', events)) :
    ∃ js d q, Walk program ⟨m.withLabels labels, 0⟩ js d ∧ m'' = d.machine.aim q ∧
      ∀ e, outcome = .failed e → d.Breaks program e := by
  obtain ⟨c, hc, -⟩ := h.reached hlaid hindexed
  obtain ⟨d, q, walk, hmachine, hbreaks⟩ := (hc.chunked hindexed hrun).exists_walk
  exact ⟨_, d, q, hc.walk.append walk, hmachine, hbreaks⟩

theorem Chunked.isPrefix {n : Nat} {c d : Config} {q : Int} {is js : List Nat} {outcome : Outcome}
    (h : Chunked n program w c q is outcome m') (hw : w.bounded = false)
    (walk : Walk program c js d) (hn : js.length ≤ n) : js <+: is := by
  have hstuck : ∀ {d'}, Walk program c is d' → Stuck program d' → js <+: is := by
    intro d' walk' hd'
    rcases walk.compare walk' with ⟨ks, rfl, -⟩ | ⟨ks, rfl, hks⟩
    · exact List.prefix_append js ks
    · obtain ⟨rfl, -⟩ := hks.eq_of_stuck hd'
      simp
  cases h with
  | rested walk' halted' => exact hstuck walk' (Or.inl (halted' hw))
  | failed walk' breaks => exact hstuck walk' (Or.inr ⟨_, breaks⟩)
  | givenUp walk' long =>
    rcases walk.compare walk' with ⟨ks, rfl, -⟩ | ⟨ks, rfl, hks⟩
    · exact List.prefix_append js ks
    · rw [List.length_append] at hn
      obtain rfl : ks = [] := List.length_eq_zero_iff.1 (by omega)
      simp

theorem Chain.isPrefix {k n N : Nat} {line : Int} {is : List Nat}
    (h : Chain program budget m k m' line is) (hlaid : program.Laid)
    (hN : (is ++ trail n program ⟨line, budget k⟩ m').length ≤ N) :
    is ++ trail n program ⟨line, budget k⟩ m' <+: trail N program {} m := by
  rcases hindexed : tabulate 0 .empty program.statements with ⟨labels, _ | e⟩
  · obtain ⟨c, hc, -⟩ := h.reached hlaid hindexed
    rcases hrun : execute n program ⟨line, budget k⟩ m' with ⟨outcome, m₁, events⟩
    obtain ⟨d, -, walk, -⟩ := (hc.chunked hindexed hrun).exists_walk
    rcases hrun' : execute N program {} m with ⟨outcome', m₂, events'⟩
    have hchunk := chunked_of_execute (c := ⟨m.withLabels labels, 0⟩)
      (indexLabels_of_tabulate hindexed m) rfl hrun'
    exact hchunk.isPrefix rfl (hc.walk.append walk) hN
  · obtain ⟨-, -, -, rfl⟩ := h.eq_start hindexed
    rw [trail, indexLabels_eq, hindexed]
    exact List.nil_prefix

end

/-- What a program does in chunks, against what it does in one go. -/
structure Agreement (program : Program) (budget : Nat → Int) (m : Machine) : Prop where
  /-- The statements that the chunks execute are the first ones of the run in one go, which may be
  endless. -/
  statements : ∀ {k m' line is}, Chain program budget m k m' line is → ∀ n N,
    (is ++ trail n program ⟨line, budget k⟩ m').length ≤ N →
      is ++ trail n program ⟨line, budget k⟩ m' <+: trail N program {} m
  /-- The chunks finish if and only if the run in one go does, with the same report and the same
  machine. -/
  finishes : ∀ {c m'}, Concludes program budget m (.chunk c) m' ↔
    ∃ n events, execute n program {} m = (.chunk c, m', events)
  /-- If the run in one go fails, so do the chunks, with the same machine but for its pointer. -/
  fails : ∀ {n e m' events}, execute n program {} m = (.failed e, m', events) →
    ∃ q, Concludes program budget m (.failed e) (m'.aim q)
  /-- If the chunks fail, so does the run in one go, with the same machine but for its pointer. -/
  failed : ∀ {e m'}, Concludes program budget m (.failed e) m' →
    ∃ n q events, execute n program {} m = (.failed e, m'.aim q, events)

theorem chunks_agree_with_one_run {source : String} {program : Program}
    (hsource : Source.compile source = .ok program) (m : Machine) {budget : Nat → Int}
    (hbudget : ∀ k, budget k = -1 ∨ 1 ≤ budget k) : Agreement program budget m := by
  have hlaid := Source.laid_of_compile hsource
  constructor
  · intro k m' line is hchain n N hN
    exact hchain.isPrefix hlaid hN
  · intro c m'
    constructor
    · intro h
      obtain ⟨m'', hverdict, ⟨_, -, rfl⟩ | ⟨_, _, h', -⟩⟩ := h.verdict hlaid
      · exact (verdict_iff.1 hverdict).2
      · cases h'
    · intro h
      have hverdict : Verdict program m (.chunk c) m' := verdict_iff.2 ⟨nofun, h⟩
      obtain ⟨outcome, m₁, hends⟩ := hverdict.concludes hlaid hbudget
      obtain ⟨m₂, hverdict', hsame⟩ := hends.verdict hlaid
      obtain ⟨rfl, rfl⟩ := hverdict.unique hverdict'
      rcases hsame with ⟨_, -, rfl⟩ | ⟨_, _, h', -⟩
      · exact hends
      · cases h'
  · intro n e m' events h
    have hverdict : Verdict program m (.failed e) m' := verdict_iff.2 ⟨nofun, n, events, h⟩
    obtain ⟨outcome, m₁, hends⟩ := hverdict.concludes hlaid hbudget
    obtain ⟨m₂, hverdict', hsame⟩ := hends.verdict hlaid
    obtain ⟨rfl, rfl⟩ := hverdict.unique hverdict'
    rcases hsame with ⟨_, h', -⟩ | ⟨_, q, -, rfl⟩
    · cases h'
    · exact ⟨q, hends⟩
  · intro e m' h
    obtain ⟨m₁, hverdict, ⟨_, h', -⟩ | ⟨_, q, -, rfl⟩⟩ := h.verdict hlaid
    · cases h'
    · obtain ⟨-, n, events, hrun⟩ := verdict_iff.1 hverdict
      exact ⟨n, m₁.state.pointer, events, hrun⟩

/-- A loop that is left and entered by chunks of one and of two lines, with an empty line in front
of it. -/
theorem loop_agrees_in_chunks :
    ∃ program,
      Source.compile "Spawn(0, 0)\n\ni <- 0\nloop\ni <- i + 1\nGoTo[loop](i < 3)" = .ok program ∧
        (∀ k : Nat, (if k % 2 = 0 then 1 else 2 : Int) = -1 ∨
          1 ≤ (if k % 2 = 0 then 1 else 2 : Int)) ∧
        Agreement program (fun k => if k % 2 = 0 then 1 else 2)
          ⟨{}, { grid := .blank 3 2 }⟩ := by
  have hbudget : ∀ k : Nat,
      (if k % 2 = 0 then 1 else 2 : Int) = -1 ∨ 1 ≤ (if k % 2 = 0 then 1 else 2 : Int) := by
    intro k
    split <;> decide
  cases hsource : Source.compile "Spawn(0, 0)\n\ni <- 0\nloop\ni <- i + 1\nGoTo[loop](i < 3)" with
  | error e =>
    have hok : (Source.compile
        "Spawn(0, 0)\n\ni <- 0\nloop\ni <- i + 1\nGoTo[loop](i < 3)").isOk = true := by
      decide +kernel
    rw [hsource] at hok
    cases hok
  | ok program => exact ⟨program, rfl, hbudget, chunks_agree_with_one_run hsource _ hbudget⟩

end Brushwork.Machine
