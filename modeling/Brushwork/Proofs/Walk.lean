import Brushwork.Proofs.Effect

/-!
# Walks through a program

Without windows, a program leads from one configuration to the next, breaks at a statement that
fails, or has halted behind its last statement. A walk is a sequence of such moves, and there is
only one way to go. Every chunk follows a walk: its window decides where it stops and never what it
does.
-/

namespace Brushwork.Machine

section

variable {m : Machine}

/-- The labels of statements from number `index` on, added to a table, and the fault of the first
one that is there already. -/
def tabulate (index : Nat) (labels : Table String Int) :
    List Tree → Table String Int × Option (Located Fault)
  | [] => (labels, none)
  | .label name p :: statements =>
    if labels.contains name then (labels, some ⟨.labelTwice name, p⟩)
    else tabulate (index + 1) (labels.insert name index) statements
  | _ :: statements => tabulate (index + 1) labels statements

def withLabels (m : Machine) (labels : Table String Int) : Machine :=
  ⟨{ m.state with labels }, m.canvas⟩

theorem declareLabels_eq (index : Nat) (statements : List Tree) (m : Machine) :
    declareLabels index statements m =
      match tabulate index m.state.labels statements with
      | (labels, none) => .ok () (m.withLabels labels)
      | (labels, some e) => .error e (m.withLabels labels) := by
  induction statements generalizing index m with
  | nil => rfl
  | cons s statements ih =>
    cases s with
    | label name p =>
      by_cases hname : m.state.labels.contains name
      · simp only [declareLabels, tabulate, bind, EStateM.bind, inspect, State.declareLabel,
          if_pos hname]
        rfl
      · simp only [declareLabels, tabulate, bind, EStateM.bind, inspect, State.declareLabel,
          if_neg hname]
        exact ih (index + 1) (m.withLabels (m.state.labels.insert name index))
    | _ => exact ih (index + 1) m

theorem indexLabels_eq (program : Program) (m : Machine) :
    indexLabels program m =
      match tabulate 0 .empty program.statements with
      | (labels, none) => .ok () (m.withLabels labels)
      | (labels, some e) => .error e (m.withLabels labels) :=
  declareLabels_eq 0 program.statements (m.withLabels .empty)

end

def past (m : Machine) (lastLine : Int) : Machine := ⟨{ m.state with lastLine }, m.canvas⟩

structure Config where
  machine : Machine
  pointer : Nat

namespace Config

def land (pointer : Nat) : Option Int → Nat
  | none => pointer + 1
  | some index => index.toNat

variable (program : Program)

def Halted (c : Config) : Prop := program.statements.length ≤ c.pointer

inductive Moves : Config → Config → Prop
  | intro {m m' : Machine} {pointer : Nat} {s : Tree} {target : Option Int}
      (statement : program.statements[pointer]? = some s) (effect : Effect s m target m') :
    Moves ⟨m, pointer⟩ ⟨m'.past s.position.line, land pointer target⟩

inductive Breaks : Config → Located Fault → Prop
  | intro {m : Machine} {pointer : Nat} {s : Tree} {e : Located Fault}
      (statement : program.statements[pointer]? = some s) (fails : Fails s m e) :
    Breaks ⟨m, pointer⟩ e

/-- Some statements are executed one after another; the list has their numbers. -/
inductive Walk : Config → List Nat → Config → Prop
  | nil {c : Config} : Walk c [] c
  | cons {c c₁ c₂ : Config} {is : List Nat} (first : Moves program c c₁) (rest : Walk c₁ is c₂) :
    Walk c (c.pointer :: is) c₂

variable {program} {c c₁ c₂ d : Config} {is js : List Nat} {e e' : Located Fault}

theorem halted_iff : Halted program c ↔ program.line? c.pointer = none := by
  simp [Halted, Program.line?]

theorem Moves.not_halted (h : Moves program c d) : ¬ Halted program c := by
  obtain ⟨hs, -⟩ := h
  intro hhalted
  rw [List.getElem?_eq_none hhalted] at hs
  cases hs

theorem Breaks.not_halted (h : Breaks program c e) : ¬ Halted program c := by
  obtain ⟨hs, -⟩ := h
  intro hhalted
  rw [List.getElem?_eq_none hhalted] at hs
  cases hs

theorem Moves.unique (h : Moves program c c₁) (h' : Moves program c c₂) : c₁ = c₂ := by
  obtain ⟨hs, heffect⟩ := h
  cases h' with
  | intro hs' heffect' =>
    rw [hs] at hs'
    cases hs'
    rw [← step_ok_iff] at heffect heffect'
    rw [heffect] at heffect'
    cases heffect'
    rfl

theorem Moves.not_breaks (h : Moves program c d) (e : Located Fault) : ¬ Breaks program c e := by
  obtain ⟨hs, heffect⟩ := h
  rintro ⟨hs', hfails⟩
  rw [hs] at hs'
  cases hs'
  have herror := step_error_iff.2 ⟨hfails, rfl⟩
  rw [step_ok_iff.2 heffect] at herror
  cases herror

theorem Breaks.unique (h : Breaks program c e) (h' : Breaks program c e') : e = e' := by
  obtain ⟨hs, hfails⟩ := h
  cases h' with
  | intro hs' hfails' =>
    rw [hs] at hs'
    cases hs'
    have herror := step_error_iff.2 ⟨hfails', rfl⟩
    rw [step_error_iff.2 ⟨hfails, rfl⟩] at herror
    cases herror
    rfl

namespace Walk

theorem append (h : Walk program c is c₁) (h' : Walk program c₁ js c₂) :
    Walk program c (is ++ js) c₂ := by
  induction h with
  | nil => exact h'
  | cons first _ ih => exact .cons first (ih h')

/-- Of two walks from one place, one goes on where the other ends. -/
theorem compare (h : Walk program c is c₁) (h' : Walk program c js c₂) :
    (∃ ks, js = is ++ ks ∧ Walk program c₁ ks c₂) ∨ ∃ ks, is = js ++ ks ∧
    Walk program c₂ ks c₁ := by
  induction h generalizing js with
  | nil => exact Or.inl ⟨js, rfl, h'⟩
  | cons first rest ih =>
    cases h' with
    | nil => exact Or.inr ⟨_, rfl, .cons first rest⟩
    | cons first' rest' =>
      obtain rfl := first.unique first'
      rcases ih rest' with ⟨ks, rfl, hks⟩ | ⟨ks, rfl, hks⟩
      · exact Or.inl ⟨ks, rfl, hks⟩
      · exact Or.inr ⟨ks, rfl, hks⟩

/-- What one statement preserves, a walk preserves. -/
theorem induct {P : Config → Prop} (h : Walk program c is d) (hc : P c)
    (hstep : ∀ {c c' : Config}, P c → Moves program c c' → P c') : P d := by
  induction h with
  | nil => exact hc
  | cons first _ ih => exact ih (hstep hc first)

end Walk

def Stuck (program : Program) (c : Config) : Prop := Halted program c ∨ ∃ e, Breaks program c e

theorem Walk.eq_of_stuck (h : Walk program c is d) (hc : Stuck program c) : is = [] ∧ d = c := by
  cases h with
  | nil => exact ⟨rfl, rfl⟩
  | cons first rest =>
    rcases hc with hhalted | ⟨e, hbreaks⟩
    · exact absurd hhalted first.not_halted
    · exact absurd hbreaks (first.not_breaks e)

/-- Two walks that end where nothing goes on are one. -/
theorem Walk.unique (h : Walk program c is c₁) (h' : Walk program c js c₂) (h₁ : Stuck program c₁)
    (h₂ : Stuck program c₂) : is = js ∧ c₁ = c₂ := by
  rcases h.compare h' with ⟨ks, rfl, hks⟩ | ⟨ks, rfl, hks⟩
  · obtain ⟨rfl, rfl⟩ := hks.eq_of_stuck h₁
    exact ⟨(List.append_nil _).symm, rfl⟩
  · obtain ⟨rfl, rfl⟩ := hks.eq_of_stuck h₂
    exact ⟨List.append_nil _, rfl⟩

theorem Walk.length_le (h : Walk program c is c₁) (h' : Walk program c js c₂)
    (h₁ : Stuck program c₁) : js.length ≤ is.length := by
  rcases h.compare h' with ⟨ks, rfl, hks⟩ | ⟨ks, rfl, hks⟩
  · obtain ⟨rfl, -⟩ := hks.eq_of_stuck h₁
    simp
  · simp

def aim (c : Config) (q : Int) : Config := ⟨c.machine.aim q, c.pointer⟩

theorem Moves.aim (h : Moves program c d) (q : Int) : Moves program (c.aim q) (d.aim q) := by
  obtain ⟨hs, heffect⟩ := h
  exact .intro hs (heffect.aim q)

theorem Breaks.aim (h : Breaks program c e) (q : Int) : Breaks program (c.aim q) e := by
  obtain ⟨hs, hfails⟩ := h
  exact .intro hs (hfails.aim q)

theorem Walk.aim (h : Walk program c is d) (q : Int) : Walk program (c.aim q) is (d.aim q) := by
  induction h with
  | nil => exact .nil
  | cons first _ ih => exact .cons (first.aim q) ih

theorem Moves.labels_eq (h : Moves program c d) :
    d.machine.state.labels = c.machine.state.labels := by
  obtain ⟨-, heffect⟩ := h
  exact heffect.labels_eq

theorem Walk.labels_eq (h : Walk program c is d) :
    d.machine.state.labels = c.machine.state.labels :=
  h.induct (P := fun c' => c'.machine.state.labels = c.machine.state.labels) rfl
    fun hc hmoves => hmoves.labels_eq.trans hc

theorem Moves.pointer_eq (h : Moves program c d) :
    d.machine.state.pointer = c.machine.state.pointer := by
  obtain ⟨-, heffect⟩ := h
  exact heffect.pointer_eq

theorem Walk.of_aim {q : Int} (h : Walk program (c.aim q) is d) :
    ∃ c', d = c'.aim q ∧ Walk program c is c' := by
  have hpointer : d.machine.state.pointer = q :=
    h.induct (P := fun c' => c'.machine.state.pointer = q) rfl
      fun hc hmoves => hmoves.pointer_eq.trans hc
  refine ⟨d.aim c.machine.state.pointer, ?_, h.aim c.machine.state.pointer⟩
  rw [← hpointer]
  rfl

end Config

namespace Run

variable (program : Program) (w : Window)

def config (r : Run) : Config := ⟨r.machine, r.pointer⟩

def Jumped (labels : Table String Int) (event : Event) : Prop :=
  ∃ source name index, labels.get? name = some index ∧
    event = .jumped source ((program.line? index.toNat).getD 0)

/-- What can become of a run at its next statement. -/
inductive Next (r : Run) : Progress → Prop
  | halted (halted : r.config.Halted program) : Next r (.stopped r)
  | refused {line : Int} (statement : program.line? r.pointer = some line)
      (refused : w.admits r.executed line = false) : Next r (.stopped r)
  | failed {e : Located Fault} (breaks : r.config.Breaks program e) : Next r (.failed e r)
  | moved {r' : Run} (moves : r.config.Moves program r'.config)
      (count : r'.executed = r.executed + 1)
      (jumps : ∀ event ∈ r'.jumps,
        event ∈ r.jumps ∨ Jumped program r.machine.state.labels event) :
    Next r (.advanced r')
  | left {r' : Run} (bounded : w.bounded = true) (moves : r.config.Moves program r'.config)
      (count : r'.executed = r.executed + 1)
      (jumps : ∀ event ∈ r'.jumps, event ∈ r.jumps ∨ Jumped program r.machine.state.labels event) :
    Next r (.stopped r')

theorem next_spec (r : Run) : Next program w r (r.next program w) := by
  obtain ⟨m, pointer, executed, jumps⟩ := r
  rw [next]
  split
  · rename_i hs
    exact .halted (List.getElem?_eq_none_iff.1 hs)
  · rename_i s hs
    split
    · split
      · rename_i e m' hstep
        obtain ⟨hfails, rfl⟩ := step_error_iff.1 hstep
        exact .failed (.intro hs hfails)
      · rename_i target state canvas hstep
        have heffect := step_ok_iff.1 hstep
        have hmoves := Config.Moves.intro hs heffect
        split
        · exact .moved hmoves rfl fun event hevent => Or.inl hevent
        · rename_i index
          have hjumps :
              ∀ event ∈ Event.jumped s.position.line ((program.line? index.toNat).getD 0) :: jumps,
              event ∈ jumps ∨ Jumped program m.state.labels event := by
            intro event hevent
            rw [List.mem_cons] at hevent
            rcases hevent with rfl | hold
            · cases heffect with
              | jump value holds label => exact Or.inr ⟨_, _, _, label, rfl⟩
            · exact Or.inl hold
          dsimp only
          split
          · exact .moved hmoves rfl hjumps
          · rename_i hholds
            refine .left ?_ hmoves rfl hjumps
            simp only [Window.holds] at hholds
            cases hbounded : w.bounded <;> simp [hbounded] at hholds ⊢
    · rename_i hadmits
      refine .refused (congrArg _ hs) ?_
      simpa using hadmits

def trail : (patience : Nat) → Run → List Nat
  | 0, _ => []
  | patience + 1, r =>
    match r.next program w with
    | .stopped r' => if r'.executed = r.executed then [] else [r.pointer]
    | .failed _ _ => []
    | .advanced r' => r.pointer :: trail patience r'

/-- A run follows its trail. It rests behind the program or at the edge of a bounded window, and at
once only if its first statement is not admitted. -/
theorem finish_spec (n : Nat) (r : Run) :
    ∃ r', r.config.Walk program (r.trail program w n) r'.config ∧
      (∀ event ∈ r'.jumps, event ∈ r.jumps ∨ Jumped program r.machine.state.labels event) ∧
      (r.finish program w n = .rested r' ∧ (w.bounded = false → r'.config.Halted program) ∧
          (∀ line, program.line? r.pointer = some line → w.admits r.executed line = true →
            r.trail program w n ≠ []) ∨
        (∃ e, r.finish program w n = .failed e r' ∧ r'.config.Breaks program e) ∨
        r.finish program w n = .givenUp r' ∧ (r.trail program w n).length = n) := by
  induction n generalizing r with
  | zero => exact ⟨r, .nil, fun _ => Or.inl, Or.inr (Or.inr ⟨rfl, rfl⟩)⟩
  | succ n ih =>
    have hnext := next_spec program w r
    simp only [trail, finish]
    generalize r.next program w = progress at hnext ⊢
    cases hnext with
    | halted halted =>
      simp only [if_true]
      refine ⟨r, .nil, fun _ => Or.inl, Or.inl ⟨rfl, fun _ => halted, ?_⟩⟩
      intro line hline
      cases (Config.halted_iff.1 halted).symm.trans hline
    | refused statement refused =>
      simp only [if_true]
      refine ⟨r, .nil, fun _ => Or.inl, Or.inl ⟨rfl, ?_, ?_⟩⟩
      · intro hbounded
        simp [Window.admits, hbounded] at refused
      · intro line hline hadmits
        rw [statement] at hline
        cases hline
        rw [refused] at hadmits
        cases hadmits
    | failed breaks => exact ⟨r, .nil, fun _ => Or.inl, Or.inr (Or.inl ⟨_, rfl, breaks⟩)⟩
    | @moved r' moves count jumps =>
      obtain ⟨r'', hwalk, hjumps, hend⟩ := ih r'
      have hlabels : r'.machine.state.labels = r.machine.state.labels := moves.labels_eq
      rw [hlabels] at hjumps
      refine ⟨r'', .cons moves hwalk, ?_, ?_⟩
      · intro event hevent
        rcases hjumps event hevent with hold | hnew
        · exact jumps event hold
        · exact Or.inr hnew
      rcases hend with ⟨hrested, hhalted, -⟩ | ⟨e, hfailed, hbreaks⟩ | ⟨hgiven, hlength⟩
      · exact Or.inl ⟨hrested, hhalted, fun _ _ _ => List.cons_ne_nil _ _⟩
      · exact Or.inr (Or.inl ⟨e, hfailed, hbreaks⟩)
      · exact Or.inr (Or.inr ⟨hgiven, congrArg _ hlength⟩)
    | @left r' bounded moves count jumps =>
      have hcount : r'.executed ≠ r.executed := by omega
      simp only [if_neg hcount]
      refine ⟨r', .cons moves .nil, jumps, Or.inl ⟨rfl, ?_, fun _ _ _ => List.cons_ne_nil _ _⟩⟩
      intro hunbounded
      rw [bounded] at hunbounded
      cases hunbounded

end Run

/-- The numbers of the statements that a chunk executes, in order. -/
def trail (patience : Nat) (program : Program) (w : Window) (m : Machine) : List Nat :=
  match indexLabels program m with
  | .error _ _ => []
  | .ok _ m => Run.trail program w patience { machine := m, pointer := startIndex program w.start }

/-- How a chunk can end that starts at a configuration, but for the pointer `q` of its machine, and
executes the statements listed. -/
inductive Chunked (patience : Nat) (program : Program) (w : Window) (c : Config) (q : Int)
    (is : List Nat) : Outcome → Machine → Prop
  | rested {c' : Config} (walk : c.Walk program is c')
      (halted : w.bounded = false → c'.Halted program)
      (started : ∀ line, program.line? c.pointer = some line → w.admits 0 line = true → is ≠ []) :
    Chunked patience program w c q is (.chunk (report program c'.machine.state c'.pointer))
      (c'.machine.aim c'.pointer)
  | failed {c' : Config} {e : Located Fault} (walk : c.Walk program is c')
      (breaks : c'.Breaks program e) :
    Chunked patience program w c q is (.failed e) (c'.machine.aim q)
  | givenUp {c' : Config} (walk : c.Walk program is c') (long : is.length = patience) :
    Chunked patience program w c q is .givenUp (c'.machine.aim q)

theorem chunked_of_execute {n : Nat} {program : Program} {w : Window} {m m' : Machine} {c : Config}
    {q : Int} {outcome : Outcome} {events : List Event}
    (hlabels : indexLabels program m = .ok () (c.machine.aim q))
    (hstart : startIndex program w.start = c.pointer)
    (h : execute n program w m = (outcome, m', events)) :
    Chunked n program w c q (trail n program w m) outcome m' := by
  obtain ⟨⟨machine, pointer, executed, jumps⟩, hwalk, -, hend⟩ :=
    Run.finish_spec program w n { machine := c.machine.aim q, pointer := c.pointer }
  simp only [execute, hlabels, hstart] at h
  simp only [trail, hlabels, hstart]
  -- the machine's own pointer is taken out of the walk and put back at its end
  obtain ⟨c', hc', hback⟩ := Config.Walk.of_aim (c := c) hwalk
  obtain ⟨rfl, rfl⟩ : machine = c'.machine.aim q ∧ pointer = c'.pointer := by
    cases hc'
    exact ⟨rfl, rfl⟩
  rcases hend with ⟨hrested, hhalted, hstarted⟩ | ⟨e, hfailed, hbreaks⟩ | ⟨hgiven, hlength⟩
  · rw [hrested] at h
    cases h
    exact .rested hback hhalted hstarted
  · rw [hfailed] at h
    cases h
    exact .failed hback (hbreaks.aim c'.machine.state.pointer)
  · rw [hgiven] at h
    cases h
    exact .givenUp hback hlength

/-- Whatever becomes of a chunk, it leaves the machine that its statements lead to, but for the
pointer. -/
theorem walk_of_execute {n : Nat} {program : Program} {w : Window} {m m' : Machine}
    {outcome : Outcome} {events : List Event} (h : execute n program w m = (outcome, m', events)) :
    ∃ labels c q, Config.Walk program ⟨m.withLabels labels, startIndex program w.start⟩
      (trail n program w m) c ∧ m' = c.machine.aim q := by
  rcases hindexed : tabulate 0 .empty program.statements with ⟨labels, _ | e⟩
  · have hlabels : indexLabels program m = .ok () (m.withLabels labels) := by
      rw [indexLabels_eq, hindexed]
    have hchunk := chunked_of_execute (c := ⟨m.withLabels labels, startIndex program w.start⟩)
      (q := m.state.pointer) hlabels rfl h
    cases hchunk with
    | rested walk | failed walk | givenUp walk => exact ⟨labels, _, _, walk, rfl⟩
  · have hlabels : indexLabels program m = .error e (m.withLabels labels) := by
      rw [indexLabels_eq, hindexed]
    rw [execute, hlabels] at h
    cases h
    rw [trail, hlabels]
    exact ⟨labels, _, m.state.pointer, .nil, rfl⟩

/-- A property that the statements of a program keep, and that has nothing to do with labels and
notes on the run. -/
structure Lasting (program : Program) (P : Machine → Prop) : Prop where
  effect : ∀ {s m target m'}, s ∈ program.statements → Effect s m target m' → P m → P m'
  labelled : ∀ {m} (labels : Table String Int), P m → P (m.withLabels labels)
  noted : ∀ {m} (line pointer : Int → Int), P m → P (m.noted line pointer)

section

variable {program : Program} {P : Machine → Prop}

theorem Lasting.walk (h : Lasting program P) {c d : Config} {is : List Nat}
    (hwalk : c.Walk program is d) (hc : P c.machine) : P d.machine := by
  apply hwalk.induct (P := fun c => P c.machine) hc
  intro c c' hc hmoves
  obtain ⟨hs, heffect⟩ := hmoves
  exact h.noted (fun _ => _) id (h.effect (List.mem_of_getElem? hs) heffect hc)

/-- Whatever a chunk does, and however it ends, a lasting property lasts. -/
theorem Lasting.execute (h : Lasting program P) {n : Nat} {w : Window} {m m' : Machine}
    {outcome : Outcome} {events : List Event} (hrun : execute n program w m = (outcome, m', events))
    (hm : P m) : P m' := by
  obtain ⟨labels, c, q, walk, rfl⟩ := walk_of_execute hrun
  exact h.noted id (fun _ => q) (h.walk walk (h.labelled labels hm))

end

/-- Every jump of a chunk leads to a label. -/
theorem jumped_of_execute {n : Nat} {program : Program} {w : Window} {m m₀ m' : Machine}
    {outcome : Outcome} {events : List Event} (hlabels : indexLabels program m = .ok () m₀)
    (h : execute n program w m = (outcome, m', events)) {source line : Int}
    (hevent : .jumped source line ∈ events) :
    ∃ name index, m₀.state.labels.get? name = some index ∧
      line = (program.line? index.toNat).getD 0 := by
  obtain ⟨r', -, hjumps, hend⟩ :=
    Run.finish_spec program w n { machine := m₀, pointer := startIndex program w.start }
  have hmem : Event.jumped source line ∈ r'.jumps := by
    simp only [execute, hlabels] at h
    rcases hend with ⟨hrested, -⟩ | ⟨e, hfailed, -⟩ | ⟨hgiven, -⟩
    · rw [hrested] at h
      cases h
      simpa using hevent
    · rw [hfailed] at h
      cases h
      simpa using hevent
    · rw [hgiven] at h
      cases h
      simpa using hevent
  rcases hjumps _ hmem with hold | ⟨source', name, index, hlabel, heq⟩
  · cases hold
  · cases heq
    exact ⟨name, index, hlabel, rfl⟩

end Brushwork.Machine
