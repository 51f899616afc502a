import Brushwork.Proofs.Atomicity

/-!
# Chunks in a bounded window

A budget bounds a chunk twice: it may execute that many statements, and it may look at that many
lines from its start on. Where the window begins is tested only at a jump. That no statement in
front of it is executed all the same is an invariant of the run: a chunk starts at its first line or
behind it, going on leads to a higher line, and a jump that leads out of the window is the last
thing that happens. Every statement uses up some of the budget, so the chunk ends.
-/

namespace Brushwork

theorem Program.Lists.toNat_lt {program : Program} {labels : Table String Int} {name : String}
    {index : Int} (h : program.Lists labels) (hlabel : labels.get? name = some index) :
    index.toNat < program.statements.length := by
  obtain ⟨i, p, rfl, hi⟩ := (h name index).1 hlabel
  exact (List.getElem?_eq_some_iff.1 hi).1

namespace Machine

open Config

def Window.Covers (w : Window) (line : Int) : Prop := w.start ≤ line ∧ line < w.stop

theorem Window.covers_of_admits {w : Window} {executed : Nat} {line : Int} (hw : w.bounded = true)
    (hlow : w.start ≤ line) (h : w.admits executed line = true) :
    w.Covers line ∧ executed < w.budget := by
  simp only [admits, hw, Bool.not_true, Bool.false_or, Bool.and_eq_true, decide_eq_true_eq] at h
  exact ⟨⟨hlow, h.2⟩, h.1⟩

theorem Window.not_admits {w : Window} {executed : Nat} {line : Int}
    (h : w.admits executed line = false) : w.budget ≤ executed ∨ w.stop ≤ line := by
  simp only [admits, Bool.or_eq_false_iff, Bool.and_eq_false_iff, decide_eq_false_iff_not] at h
  omega

theorem Window.holds_iff {w : Window} (hw : w.bounded = true) (line : Int) :
    w.holds line = true ↔ w.Covers line := by
  simp [holds, Covers, hw]

namespace Run

variable (program : Program) (w : Window)

inductive Jumps : Run → Run → Prop
  | intro {m : Machine} {pointer executed : Nat} {events events' : List Event} {target : String}
      {condition : Tree} {p : Position} {index : Int}
      (statement : program.statements[pointer]? = some (.goto target condition p))
      (taken : step (.goto target condition p) m = .ok (some index) m)
      (label : m.state.labels.get? target = some index) :
    Jumps ⟨m, pointer, executed, events⟩ ⟨m.past p.line, index.toNat, executed + 1, events'⟩

/-- What a window makes of a run at its next statement. -/
inductive Ruled (r : Run) : Progress → Prop
  | halted (halted : r.config.Halted program) : Ruled r (.stopped r)
  | refused {line : Int} (statement : program.line? r.pointer = some line)
      (refused : w.admits r.executed line = false) : Ruled r (.stopped r)
  | failed {line : Int} {e : Located Fault} (statement : program.line? r.pointer = some line)
      (admitted : w.admits r.executed line = true) (breaks : r.config.Breaks program e) :
      Ruled r (.failed e r)
  | passed {line : Int} {r' : Run} (statement : program.line? r.pointer = some line)
      (admitted : w.admits r.executed line = true) (moves : r.config.Moves program r'.config)
      (pointer : r'.pointer = r.pointer + 1) (count : r'.executed = r.executed + 1) :
      Ruled r (.advanced r')
  | jumped {line : Int} {r' : Run} (statement : program.line? r.pointer = some line)
      (admitted : w.admits r.executed line = true) (jumps : r.Jumps program r')
      (held : w.holds ((program.line? r'.pointer).getD 0) = true) : Ruled r (.advanced r')
  | left {line : Int} {r' : Run} (statement : program.line? r.pointer = some line)
      (admitted : w.admits r.executed line = true) (jumps : r.Jumps program r')
      (held : w.holds ((program.line? r'.pointer).getD 0) = false) : Ruled r (.stopped r')

theorem ruled_next (r : Run) : Ruled program w r (r.next program w) := by
  obtain ⟨m, pointer, executed, events⟩ := r
  rw [next]
  split
  · rename_i hs
    exact .halted (List.getElem?_eq_none_iff.1 hs)
  · rename_i s hs
    have hline : program.line? pointer = some s.position.line := congrArg _ hs
    split
    · rename_i hadmits
      split
      · rename_i e m' hstep
        obtain ⟨hfails, rfl⟩ := step_error_iff.1 hstep
        exact .failed hline hadmits (.intro hs hfails)
      · rename_i target state canvas hstep
        have heffect := step_ok_iff.1 hstep
        split
        · exact .passed hline hadmits (.intro hs heffect) rfl rfl
        · rename_i index
          cases heffect with
          | jump value holds label =>
            dsimp only
            split
            · rename_i hholds
              exact .jumped hline hadmits (.intro hs hstep label) hholds
            · rename_i hholds
              exact .left hline hadmits (.intro hs hstep label) (by simpa using hholds)
    · rename_i hadmits
      exact .refused hline (by simpa using hadmits)

/-- A run goes on for some statements, each of which the window admits. -/
inductive Stays : Run → List Nat → Run → Prop
  | nil {r : Run} : Stays r [] r
  | cons {r r₁ r₂ : Run} {is : List Nat} (first : r.next program w = .advanced r₁)
      (rest : Stays r₁ is r₂) :
    Stays r (r.pointer :: is) r₂

variable {program w} {r r' : Run} {is : List Nat}

theorem Stays.finish_eq (h : Stays program w r is r') (n : Nat) :
    r.finish program w (is.length + n) = r'.finish program w n := by
  induction h with
  | nil => rw [List.length_nil, Nat.zero_add]
  | cons first _ ih =>
    rw [List.length_cons, Nat.succ_add, finish, first]
    exact ih

theorem Stays.trail_eq (h : Stays program w r is r') (n : Nat) :
    r.trail program w (is.length + n) = is ++ r'.trail program w n := by
  induction h with
  | nil => rw [List.length_nil, Nat.zero_add, List.nil_append]
  | cons first _ ih =>
    rw [List.length_cons, Nat.succ_add, trail, first]
    exact congrArg _ ih

theorem Jumps.moves (h : r.Jumps program r') : r.config.Moves program r'.config := by
  obtain ⟨hstatement, htaken, -⟩ := h
  exact .intro hstatement (step_ok_iff.1 htaken)

theorem Stays.walk (h : Stays program w r is r') : r.config.Walk program is r'.config := by
  induction h with
  | nil => exact .nil
  | @cons r r₁ r₂ is first _ ih =>
    have hruled := ruled_next program w r
    rw [first] at hruled
    cases hruled with
    | passed _ _ moves => exact .cons moves ih
    | jumped _ _ jumps => exact .cons jumps.moves ih

/-- Where a run can be that has not left its window: jumps lead to statements, and the next
statement does not stand in front of the window. -/
structure Within (program : Program) (w : Window) (r : Run) : Prop where
  labels : program.Lists r.machine.state.labels
  pointer : r.pointer ≤ program.statements.length
  low : ∀ line, program.line? r.pointer = some line → w.start ≤ line

theorem Jumps.pointer_lt (h : r.Jumps program r') (hlabels : program.Lists r.machine.state.labels) :
    r'.pointer < program.statements.length := by
  obtain ⟨-, -, label⟩ := h
  exact hlabels.toNat_lt label

theorem Jumps.labels_eq (h : r.Jumps program r') :
    r'.machine.state.labels = r.machine.state.labels := by
  obtain ⟨-⟩ := h
  rfl

theorem Jumps.count (h : r.Jumps program r') : r'.executed = r.executed + 1 := by
  obtain ⟨-⟩ := h
  rfl

/-- The statement that a run executes lies in the window and uses up some of the budget, and the run
is within the window behind it. -/
theorem Within.advance (h : r.Within program w) (hlaid : program.Laid) (hw : w.bounded = true)
    (hnext : r.next program w = .advanced r') :
    (∃ line, program.line? r.pointer = some line ∧ w.Covers line) ∧ r.executed < w.budget ∧
      r'.executed = r.executed + 1 ∧ r'.Within program w := by
  have hruled := ruled_next program w r
  rw [hnext] at hruled
  cases hruled with
  | passed statement admitted moves pointer count =>
    obtain ⟨hcovers, hbudget⟩ := Window.covers_of_admits hw (h.low _ statement) admitted
    refine ⟨⟨_, statement, hcovers⟩, hbudget, count, ?_⟩
    obtain ⟨s, hs, rfl⟩ := Option.map_eq_some_iff.1 statement
    refine ⟨?_, ?_, ?_⟩
    · rw [show r'.machine.state.labels = r.machine.state.labels from moves.labels_eq]
      exact h.labels
    · rw [pointer]
      exact (List.getElem?_eq_some_iff.1 hs).1
    · intro line hline
      obtain ⟨s', hs', rfl⟩ := Option.map_eq_some_iff.1 hline
      have hlt := hlaid.lt hs hs' (by omega)
      exact Int.le_of_lt (Int.lt_of_le_of_lt hcovers.1 hlt)
  | jumped statement admitted jumps held =>
    obtain ⟨hcovers, hbudget⟩ := Window.covers_of_admits hw (h.low _ statement) admitted
    refine ⟨⟨_, statement, hcovers⟩, hbudget, jumps.count, ?_,
      Nat.le_of_lt (jumps.pointer_lt h.labels), ?_⟩
    · rw [jumps.labels_eq]
      exact h.labels
    · intro line hline
      rw [hline] at held
      exact ((Window.holds_iff hw line).1 held).1

theorem Stays.within (h : Stays program w r is r') (hr : r.Within program w) (hlaid : program.Laid)
    (hw : w.bounded = true) :
    r'.Within program w ∧ r'.executed = r.executed + is.length ∧
      (is = [] ∨ r'.executed ≤ w.budget) ∧
      ∀ i ∈ is, ∃ line, program.line? i = some line ∧ w.Covers line := by
  induction h with
  | nil => exact ⟨hr, rfl, Or.inl rfl, nofun⟩
  | cons first _ ih =>
    obtain ⟨hcovered, hbudget, hcount, hr₁⟩ := hr.advance hlaid hw first
    obtain ⟨hr₂, hexecuted, hmost, hall⟩ := ih hr₁
    refine ⟨hr₂, by rw [hexecuted, hcount, List.length_cons]; omega, Or.inr ?_, ?_⟩
    · rcases hmost with rfl | hmost
      · rw [hexecuted, hcount]
        exact Int.add_one_le_of_lt hbudget
      · exact hmost
    · exact List.forall_mem_cons.2 ⟨hcovered, hall⟩

/-- In a bounded window a run goes on for some time and then does not. -/
theorem Within.exists_stays (h : r.Within program w) (hlaid : program.Laid)
    (hw : w.bounded = true) :
    ∃ is r', Stays program w r is r' ∧ ∀ r'', r'.next program w ≠ .advanced r'' := by
  -- what is left of the budget falls with every statement
  induction hleft : (w.budget - r.executed).toNat using Nat.strongRecOn generalizing r with
  | ind left ih =>
    by_cases hnext : ∃ r₁, r.next program w = .advanced r₁
    · obtain ⟨r₁, hnext⟩ := hnext
      obtain ⟨-, hbudget, hcount, hr₁⟩ := h.advance hlaid hw hnext
      obtain ⟨is, r', hstays, hlast⟩ := ih (w.budget - r₁.executed).toNat (by omega) hr₁ rfl
      exact ⟨_, r', .cons hnext hstays, hlast⟩
    · exact ⟨[], r, .nil, fun r'' h => hnext ⟨r'', h⟩⟩

end Run

theorem startIndex_le (program : Program) (line : Int) :
    startIndex program line ≤ program.statements.length := by
  unfold startIndex
  split
  · exact Nat.zero_le _
  · exact List.findIdx_le_length

theorem le_line_startIndex {program : Program} (hlaid : program.Laid) {start line : Int}
    (h : program.line? (startIndex program start) = some line) : start ≤ line := by
  obtain ⟨s, hs, rfl⟩ := Option.map_eq_some_iff.1 h
  unfold startIndex at hs
  split at hs
  · have := hlaid.add_le hs
    omega
  · obtain ⟨hlt, rfl⟩ := List.getElem?_eq_some_iff.1 hs
    simpa using List.findIdx_getElem (w := hlt)

/-- The last statement of those listed is a jump that was taken, to a line out of the window. -/
def JumpedOut (program : Program) (w : Window) (is : List Nat) (c : Chunk) (m' : Machine) : Prop :=
  ∃ i target condition p m₁, is.getLast? = some i ∧
    program.statements[i]? = some (.goto target condition p) ∧
    step (.goto target condition p) m₁ = .ok (some c.pointer) m₁ ∧
    m' = (m₁.past p.line).aim c.pointer ∧ ¬ w.Covers c.nextLine

/-- Some statements lead from the start of a chunk, with the labels declared, to a machine and a
statement. -/
def Reaches (program : Program) (w : Window) (m : Machine) (is : List Nat) (m' : Machine)
    (pointer : Nat) : Prop :=
  Walk program ⟨m.withLabels m'.state.labels, startIndex program w.start⟩ is ⟨m', pointer⟩

/-- What a chunk reports agrees with where its statements lead and with why it stopped there. -/
structure Justified (program : Program) (w : Window) (m : Machine) (is : List Nat) (c : Chunk)
    (m' : Machine) : Prop where
  /-- The machine is the one that the statements lead to, with its pointer set. -/
  reached : ∃ m₁, Reaches program w m is m₁ c.pointer ∧ m' = m₁.aim c.pointer
  pointer : m'.state.pointer = c.pointer
  finished : c.finished = true ↔ c.pointer = program.statements.length
  resumes : c.finished = false → program.line? c.pointer = some c.nextLine
  reason : c.finished = false →
    w.budget ≤ is.length ∨ w.stop ≤ c.nextLine ∨ JumpedOut program w is c m'

/-- What a chunk in a bounded window comes to that executes the statements listed. -/
structure Bounded (program : Program) (w : Window) (m : Machine) (is : List Nat) (outcome : Outcome)
    (m' : Machine) : Prop where
  few : is.length ≤ max w.budget 0
  covered : ∀ i ∈ is, ∃ line, program.line? i = some line ∧ w.Covers line
  /-- It returns, or a label is declared twice, or a statement of the window fails. -/
  ends : (∃ c, outcome = .chunk c ∧ Justified program w m is c m') ∨
    (∃ e, outcome = .failed e ∧ is = [] ∧ indexLabels program m = .error e m') ∨
    ∃ e i line, outcome = .failed e ∧ Reaches program w m is m' i ∧ program.line? i = some line ∧
      w.Covers line ∧ (is.length : Int) < w.budget ∧ Breaks program ⟨m', i⟩ e

section

variable {program : Program} {w : Window} {r r' : Run} {is : List Nat} {m : Machine}
  {labels : Table String Int}

/-- A run that rests where it is has come to the end of the program, of the budget or of the
window. -/
theorem justified_rest (h : r.Within program w)
    (hreaches : Reaches program w m is r.machine r.pointer) (hcount : r.executed = is.length)
    (hstop : r.config.Halted program ∨
      ∃ line, program.line? r.pointer = some line ∧ w.admits r.executed line = false) :
    Justified program w m is (report program r.machine.state r.pointer)
      (r.machine.aim r.pointer) := by
  have hpointer := h.pointer
  refine ⟨⟨_, hreaches, rfl⟩, rfl, ?_, line?_of_unfinished, ?_⟩
  · rw [report_finished_iff]
    exact ⟨fun hle => Nat.le_antisymm hpointer hle, fun heq => Nat.le_of_eq heq.symm⟩
  · intro hunfinished
    have hline := line?_of_unfinished hunfinished
    rcases hstop with hhalted | ⟨line, hline', hrefused⟩
    · cases (halted_iff.1 hhalted).symm.trans hline
    · cases hline'.symm.trans hline
      rw [hcount] at hrefused
      rcases Window.not_admits hrefused with hbudget | hbehind
      · exact Or.inl hbudget
      · exact Or.inr (Or.inl hbehind)

theorem justified_jump (h : r.Within program w)
    (hreaches : Reaches program w m is r.machine r.pointer) (hw : w.bounded = true)
    (hjumps : r.Jumps program r') (hheld : w.holds ((program.line? r'.pointer).getD 0) = false) :
    Justified program w m (is ++ [r.pointer]) (report program r'.machine.state r'.pointer)
      (r'.machine.aim r'.pointer) := by
  have hlt := hjumps.pointer_lt h.labels
  have hreaches' : Reaches program w m (is ++ [r.pointer]) r'.machine r'.pointer := by
    rw [Reaches, hjumps.labels_eq]
    exact hreaches.append (.cons hjumps.moves .nil)
  refine ⟨⟨_, hreaches', rfl⟩, rfl, ?_, line?_of_unfinished, ?_⟩
  · rw [report_finished_iff]
    constructor
    · intro hle
      exact absurd hlt (Nat.not_lt.2 hle)
    · intro heq
      exact Nat.le_of_eq heq.symm
  · intro hunfinished
    have hline := line?_of_unfinished hunfinished
    have hout : ¬ w.Covers (report program r'.machine.state r'.pointer).nextLine := by
      rw [hline, Option.getD_some] at hheld
      rw [← Window.holds_iff hw, hheld]
      exact Bool.false_ne_true
    obtain ⟨hstatement, htaken, hlabel⟩ := hjumps
    obtain ⟨i, -, rfl, -⟩ := (h.labels _ _).1 hlabel
    exact Or.inr (Or.inr ⟨_, _, _, _, _, List.getLast?_concat, hstatement, htaken, rfl, hout⟩)

theorem within_start (hlaid : program.Laid)
    (hindexed : tabulate 0 .empty program.statements = (labels, none))
    (w : Window) (m : Machine) :
    Run.Within program w
      { machine := m.withLabels labels, pointer := startIndex program w.start } where
  labels := lists_of_tabulate hindexed
  pointer := startIndex_le program w.start
  low _ := le_line_startIndex hlaid

/-- A chunk that stays for fewer statements than it has patience for, and then stops. -/
theorem execute_of_stopped {m₀ : Machine} {n : Nat} (hlabels : indexLabels program m = .ok () m₀)
    (h : Run.Stays program w { machine := m₀, pointer := startIndex program w.start } is r)
    (hn : is.length < n) (hnext : r.next program w = .stopped r') :
    execute n program w m =
      (.chunk (report program r'.machine.state r'.pointer), r'.machine.aim r'.pointer,
        .started w.start w.budget (startIndex program w.start) ::
          (r'.jumps.reverse ++
            [.ended r'.pointer (report program r'.machine.state r'.pointer).finished])) ∧
    trail n program w m = is ++ if r'.executed = r.executed then [] else [r.pointer] := by
  obtain ⟨k, rfl⟩ := Nat.exists_eq_add_of_lt hn
  have hfinish := h.finish_eq (k + 1)
  have htrail := h.trail_eq (k + 1)
  rw [Run.finish, hnext] at hfinish
  rw [Run.trail, hnext] at htrail
  rw [execute, trail, hlabels, Nat.add_assoc]
  dsimp only
  rw [hfinish]
  exact ⟨rfl, htrail⟩

@[inherit_doc execute_of_stopped]
theorem execute_of_failed {m₀ : Machine} {n : Nat} {e : Located Fault}
    (hlabels : indexLabels program m = .ok () m₀)
    (h : Run.Stays program w { machine := m₀, pointer := startIndex program w.start } is r)
    (hn : is.length < n) (hnext : r.next program w = .failed e r') :
    execute n program w m =
      (.failed e, r'.machine,
        .started w.start w.budget (startIndex program w.start) :: r'.jumps.reverse) ∧
      trail n program w m = is := by
  obtain ⟨k, rfl⟩ := Nat.exists_eq_add_of_lt hn
  have hfinish := h.finish_eq (k + 1)
  have htrail := h.trail_eq (k + 1)
  rw [Run.finish, hnext] at hfinish
  rw [Run.trail, hnext] at htrail
  rw [execute, trail, hlabels, Nat.add_assoc]
  dsimp only
  rw [hfinish]
  exact ⟨rfl, htrail.trans (List.append_nil is)⟩

theorem bounded_of_tabulate {n : Nat} {outcome : Outcome} {m' : Machine} {events : List Event}
    (hlaid : program.Laid) (hw : w.bounded = true)
    (hindexed : tabulate 0 .empty program.statements = (labels, none)) (hn : max w.budget 0 < n)
    (h : execute n program w m = (outcome, m', events)) :
    Bounded program w m (trail n program w m) outcome m' := by
  have hlabels := indexLabels_of_tabulate hindexed m
  have hstart := within_start hlaid hindexed w m
  obtain ⟨is, r, hstays, hlast⟩ := hstart.exists_stays hlaid hw
  obtain ⟨hwithin, hcount, hmost, hcovered⟩ := hstays.within hstart hlaid hw
  have hcount : r.executed = is.length := by rw [hcount, Nat.zero_add]
  have hreaches : Reaches program w m is r.machine r.pointer := by
    rw [Reaches, show r.machine.state.labels = labels from hstays.walk.labels_eq]
    exact hstays.walk
  have hfew : is.length ≤ max w.budget 0 := by
    rcases hmost with rfl | hmost
    · exact Int.le_max_right _ _
    · rw [hcount] at hmost
      exact Int.le_trans hmost (Int.le_max_left _ _)
  have hpatience : is.length < n := by omega
  have hruled := Run.ruled_next program w r
  generalize hnext : r.next program w = progress at hruled
  cases hruled with
  | halted halted =>
    obtain ⟨hexecute, htrail⟩ := execute_of_stopped hlabels hstays hpatience hnext
    rw [if_pos rfl, List.append_nil] at htrail
    cases h.symm.trans hexecute
    rw [htrail]
    exact ⟨hfew, hcovered, Or.inl ⟨_, rfl, justified_rest hwithin hreaches hcount (Or.inl halted)⟩⟩
  | refused statement refused =>
    obtain ⟨hexecute, htrail⟩ := execute_of_stopped hlabels hstays hpatience hnext
    rw [if_pos rfl, List.append_nil] at htrail
    cases h.symm.trans hexecute
    rw [htrail]
    exact ⟨hfew, hcovered,
      Or.inl ⟨_, rfl, justified_rest hwithin hreaches hcount (Or.inr ⟨_, statement, refused⟩)⟩⟩
  | failed statement admitted breaks =>
    obtain ⟨hexecute, htrail⟩ := execute_of_failed hlabels hstays hpatience hnext
    obtain ⟨hcovers, hbudget⟩ := Window.covers_of_admits hw (hwithin.low _ statement) admitted
    rw [hcount] at hbudget
    cases h.symm.trans hexecute
    rw [htrail]
    exact ⟨hfew, hcovered,
      Or.inr (Or.inr ⟨_, _, _, rfl, hreaches, statement, hcovers, hbudget, breaks⟩)⟩
  | passed => exact absurd hnext (hlast _)
  | jumped => exact absurd hnext (hlast _)
  | left statement admitted jumps held =>
    obtain ⟨hexecute, htrail⟩ := execute_of_stopped hlabels hstays hpatience hnext
    obtain ⟨hcovers, hbudget⟩ := Window.covers_of_admits hw (hwithin.low _ statement) admitted
    rw [hcount] at hbudget
    have hmore := jumps.count
    rw [if_neg (by omega)] at htrail
    cases h.symm.trans hexecute
    rw [htrail]
    refine ⟨?_, ?_, Or.inl ⟨_, rfl, justified_jump hwithin hreaches hw jumps held⟩⟩
    · rw [List.length_append, List.length_singleton]
      omega
    · exact List.forall_mem_append.2 ⟨hcovered, List.forall_mem_singleton.2 ⟨_, statement, hcovers⟩⟩

end

/-- A chunk with a budget ends as soon as it has more patience than that, and it stays in its
window. -/
theorem bounded_chunk_stays_in_window {source : String} {program : Program} {n : Nat} {w : Window}
    {m m' : Machine} {outcome : Outcome} {events : List Event}
    (hsource : Source.compile source = .ok program) (hw : w.budget ≠ -1) (hn : max w.budget 0 < n)
    (h : execute n program w m = (outcome, m', events)) :
    Bounded program w m (trail n program w m) outcome m' := by
  rcases hindexed : tabulate 0 .empty program.statements with ⟨labels, _ | e⟩
  · exact bounded_of_tabulate (Source.laid_of_compile hsource) (decide_eq_true hw) hindexed hn h
  · have hlabels : indexLabels program m = .error e (m.withLabels labels) := by
      rw [indexLabels_eq, hindexed]
    rw [execute_of_tabulate hindexed] at h
    cases h
    rw [trail, hlabels]
    exact ⟨Int.le_max_right _ _, fun _ hi => absurd hi List.not_mem_nil,
      Or.inr (Or.inl ⟨e, rfl, rfl, hlabels⟩)⟩

def farJump : String := "Spawn(0, 0)\nGoTo[far](true)\nx <- 1\nx <- 2\nfar\ny <- 3"

/-- In a window of three lines it executes two statements and goes on at its fifth line. -/
theorem far_jump_stays_in_window :
    ∃ program m' events,
      Source.compile farJump = .ok program ∧
      execute 4 program ⟨1, 3⟩ ⟨{}, { grid := .blank 3 2 }⟩ =
        (.chunk ⟨0, 0, 2, 4, 5, false⟩, m', events) ∧
      Bounded program ⟨1, 3⟩ ⟨{}, { grid := .blank 3 2 }⟩ [0, 1]
        (.chunk ⟨0, 0, 2, 4, 5, false⟩) m' := by
  have hruns : (Source.compile farJump).toOption.any (fun program =>
      decide ((execute 4 program ⟨1, 3⟩ ⟨{}, { grid := .blank 3 2 }⟩).1 =
          .chunk ⟨0, 0, 2, 4, 5, false⟩) &&
        decide (trail 4 program ⟨1, 3⟩ ⟨{}, { grid := .blank 3 2 }⟩ = [0, 1])) = true := by
    decide +kernel
  cases hsource : Source.compile farJump with
  | error e =>
    rw [hsource] at hruns
    cases hruns
  | ok program =>
    rw [hsource] at hruns
    dsimp only [Except.toOption, Option.any] at hruns
    rw [Bool.and_eq_true, decide_eq_true_eq, decide_eq_true_eq] at hruns
    obtain ⟨houtcome, htrail⟩ := hruns
    rcases hrun : execute 4 program ⟨1, 3⟩ ⟨{}, { grid := .blank 3 2 }⟩ with ⟨outcome, m', events⟩
    obtain rfl : outcome = .chunk ⟨0, 0, 2, 4, 5, false⟩ := by
      rw [← houtcome, hrun]
    have hbounded := bounded_chunk_stays_in_window hsource (by decide) (by decide) hrun
    rw [htrail] at hbounded
    exact ⟨program, m', events, rfl, hrun, hbounded⟩

end Machine

end Brushwork
