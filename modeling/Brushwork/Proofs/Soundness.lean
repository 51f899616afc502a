import Brushwork.Proofs.Structure

/-!
# Soundness of the types of accepted programs

The analysis learns the types of variables from the statements in their order, and a run may visit
them in another. If all assignments to a variable agree on its type and jumps lead back, then in
front of every statement a run has at least the variables that the analysis knows of there, with the
types that it gives them. No fault is left but those of arithmetic and those of drawing.

Arithmetic wraps around, but the cursor does not, so that a program can get hold of integers of any
size. With those, two faults of drawing come up that are not reported at their place: a ring may be
too large to be measured, and the complaint about a direction may have to name an integer that is
too long to be written.
-/

namespace Brushwork

namespace Draw

theorem isWritable_of_isDirection {dx dy : Int} (h : IsDirection dx dy) :
    Numeral.isWritable dx = true ∧ Numeral.isWritable dy = true := by
  have hone : 1 < Nat.pow 10 Numeral.mostDigits := by
    rw [Nat.pow_eq]
    exact Nat.one_lt_pow (by decide) (by decide)
  obtain ⟨⟨hdx, hdx'⟩, hdy, hdy'⟩ := h
  simp only [Numeral.isWritable, decide_eq_true_eq]
  omega

theorem error_of_requireDirection {dx dy : Int} {d : Draw Unit} {e e' : Easel}
    {fault : Canvas.Fault} (h : (do requireDirection dx dy; d) e = .error fault e') :
    ¬ IsDirection dx dy ∧ fault = .direction dx dy ∨
      IsDirection dx dy ∧ d e = .error fault e' := by
  simp only [bind, EStateM.bind, requireDirection] at h
  by_cases hdirection : IsDirection dx dy
  · rw [if_pos hdirection] at h
    exact Or.inr ⟨hdirection, h⟩
  · rw [if_neg hdirection] at h
    cases h
    exact Or.inl ⟨hdirection, rfl⟩

end Draw

namespace Machine

open Config Typing

/-- The faults that are left to a program with types: those of arithmetic, and a colour, size,
direction or radius that the canvas refuses, reported at their place. -/
def Fault.isDocumented : Fault → Bool
  | .divisionByZero | .moduloByZero | .canvas (.color _) | .canvas .size | .canvas .radius => true
  | .canvas (.direction dx dy) => (Fault.canvas (.direction dx dy)).isPlaced
  | _ => false

/-- The arguments with which an instruction is refused without a report at its place. -/
inductive Overtaxed (canvas : Canvas) : Builtin → List Value → Prop
  | ring {dx dy radius : Int} (directed : Draw.IsDirection dx dy) (positive : 0 < radius)
      (paints : canvas.brush.paints = true) (large : ¬ Grid.Measurable radius) :
    Overtaxed canvas .drawCircle [.int dx, .int dy, .int radius]
  | direction {b : Builtin} {dx dy : Int} {vs : List Value}
      (moving : b = .drawLine ∨ b = .drawCircle ∨ b = .drawRectangle)
      (long : Numeral.isWritable dx = false ∨ Numeral.isWritable dy = false) :
    Overtaxed canvas b (.int dx :: .int dy :: vs)

def Overtaxes (m : Machine) : Tree → Prop
  | .call name args _ =>
    ∃ b vs, Builtin.ofName? name = some b ∧ evalAll m args = .ok vs ∧ Overtaxed m.canvas b vs
  | _ => False

section

variable {canvas : Canvas} {b : Builtin} {vs : List Value} {dx dy : Int}

/-- A refused direction is reported at its place unless it is too long to be written. -/
theorem isDocumented_direction_iff (hmoving : b = .drawLine ∨ b = .drawCircle ∨ b = .drawRectangle)
    (hdirection : ¬ Draw.IsDirection dx dy) :
    (Fault.canvas (.direction dx dy)).isDocumented = true ↔
      ¬ Overtaxed canvas b (.int dx :: .int dy :: vs) := by
  have hwritable : (Fault.canvas (.direction dx dy)).isDocumented = true ↔
      ¬ (Numeral.isWritable dx = false ∨ Numeral.isWritable dy = false) := by
    simp [Fault.isDocumented, Fault.isPlaced, Fault.integers, Canvas.Fault.integers]
  rw [hwritable]
  apply not_congr
  constructor
  · exact .direction hmoving
  · intro h
    cases h with
    | ring directed => exact absurd directed hdirection
    | direction _ long => exact long

/-- A drawing that is refused is reported at its place unless its arguments overtax it. -/
theorem Drawing.isDocumented_iff {d : Draw Unit} (h : Drawing b vs d) {pen : Pen} {e' : Easel}
    {fault : Canvas.Fault} (hrefused : d ⟨canvas, pen⟩ = .error fault e') :
    (Fault.canvas fault).isDocumented = true ↔ ¬ Overtaxed canvas b vs := by
  cases h with
  | color text =>
    have hfault : fault = .color text := by
      rw [Draw.setColor] at hrefused
      cases hcolor : Rgba.ofText? text with
      | none =>
        rw [hcolor] at hrefused
        cases hrefused
        rfl
      | some color =>
        rw [hcolor] at hrefused
        cases hrefused
    subst hfault
    exact iff_of_true rfl nofun
  | size n =>
    have hfault : fault = .size := by
      rw [Draw.setSize] at hrefused
      by_cases hn : n ≤ 0
      · rw [if_pos hn] at hrefused
        cases hrefused
        rfl
      · rw [if_neg hn] at hrefused
        cases hrefused
    subst hfault
    exact iff_of_true rfl nofun
  | line dx dy length =>
    rcases Draw.error_of_requireDirection hrefused with ⟨hdirection, rfl⟩ | ⟨-, hrest⟩
    · exact isDocumented_direction_iff (Or.inl rfl) hdirection
    · exact absurd hrest (Draw.steps_ne_error dx dy _ _ _ _)
  | rectangle dx dy distance width height =>
    rcases Draw.error_of_requireDirection hrefused with ⟨hdirection, rfl⟩ | ⟨-, hrest⟩
    · exact isDocumented_direction_iff (Or.inr (Or.inr rfl)) hdirection
    · cases hrest
  | circle dx dy radius =>
    rcases Draw.error_of_requireDirection hrefused with ⟨hdirection, rfl⟩ | ⟨hdirection, hrest⟩
    · exact isDocumented_direction_iff (Or.inr (Or.inl rfl)) hdirection
    · split at hrest
      · rename_i hradius
        cases hrest
        refine iff_of_true rfl ?_
        intro h
        cases h with
        | ring _ positive => omega
        | direction _ long => simp [Draw.isWritable_of_isDirection hdirection] at long
      · rename_i hradius
        simp only [bind, EStateM.bind, Draw.requireMeasurable] at hrest
        split at hrest
        · cases hrest
        · rename_i hmeasure
          split at hmeasure
          · rename_i hlarge
            cases hmeasure
            cases hrest
            rw [Bool.and_eq_true, Bool.not_eq_true', decide_eq_false_iff_not] at hlarge
            exact iff_of_false nofun
              (not_not_intro (.ring hdirection (by omega) hlarge.1 hlarge.2))
          · cases hmeasure
  | fill | setCursor => cases hrefused

end

/-- All variables of a machine are in a table, with the types of their values. -/
def Stored (m : Machine) (symbols : Table String Ty) : Prop :=
  ∀ name v, m.state.values.get? name = some v →
    ∃ s : String, name = s ∧ symbols.get? s = some v.ty

theorem Fits.mono {m : Machine} {symbols symbols' : Table String Ty} (h : m.Fits symbols')
    (hsub : ∀ name ty, symbols.get? name = some ty → symbols'.get? name = some ty) :
    m.Fits symbols := by
  intro name ty hget
  exact h (hsub name ty hget)

theorem Fits.assign {m : Machine} {symbols : Table String Ty} (h : m.Fits symbols) (name : String)
    (v : Value) (canvas : Canvas) :
    Fits ⟨m.state.setVariable name v, canvas⟩ (symbols.insert name v.ty) := by
  intro other ty hget
  rw [Table.get?_insert] at hget
  simp only [State.setVariable, Table.get?_insert, Text.ofString_inj]
  split at hget
  · rename_i hname
    cases hget
    exact ⟨v, if_pos hname, rfl⟩
  · rename_i hname
    rw [if_neg hname]
    exact h hget

theorem Stored.assign {m : Machine} {symbols : Table String Ty} (h : m.Stored symbols)
    {name : String} {v : Value} (canvas : Canvas) (hname : symbols.get? name = some v.ty) :
    Stored ⟨m.state.setVariable name v, canvas⟩ symbols := by
  intro other v' hget
  simp only [State.setVariable, Table.get?_insert] at hget
  split at hget
  · rename_i hother
    cases hget
    exact ⟨name, hother, hname⟩
  · exact h other v' hget

/-- Where a run can be if assignments agree on types and jumps lead back. -/
structure WellTyped (program : Program) (a : Analysis) (c : Config) : Prop where
  orderly : Orderly a c
  fits : c.machine.Fits (symbolsAt program.statements c.pointer)
  stored : c.machine.Stored a.symbols

section

variable {program : Program} {a : Analysis} {c c' : Config} {e : Located Fault}

theorem Orderly.jump_lt (h : Accepted program a) (hback : program.JumpsBack) (hc : Orderly a c)
    {target : String} {condition : Tree} {p : Position} {index : Int}
    (hs : program.statements[c.pointer]? = some (.goto target condition p))
    (hlabel : c.machine.state.labels.get? target = some index) :
    ∃ j < c.pointer, index = Int.ofNat j := by
  have hlt := (List.getElem?_eq_some_iff.1 hs).1
  have htarget : program.statements[c.pointer]?.bind Tree.target? = some target := by
    rw [hs]
    rfl
  obtain ⟨j, hj, hjlabel⟩ := hback c.pointer hlt target htarget
  obtain ⟨t, ht, htlabel⟩ := Option.bind_eq_some_iff.1 hjlabel
  cases t with
  | label name q =>
    cases htlabel
    have hcollected := get?_collectLabels_of_label h.labels ht
    rw [hc.get?_labels, hcollected] at hlabel
    cases hlabel
    exact ⟨j, hj, by rw [Nat.zero_add]⟩
  | _ => cases htlabel

theorem WellTyped.moves (h : Accepted program a) (hconsistent : Consistent program)
    (hback : program.JumpsBack) (hc : WellTyped program a c) (hmoves : c.Moves program c') :
    WellTyped program a c' := by
  have horderly := hc.orderly.moves h hmoves
  obtain ⟨horderly', hfits, hstored⟩ := hc
  cases hmoves with
  | @intro m m' i s target hs heffect =>
    have hlt := (List.getElem?_eq_some_iff.1 hs).1
    have hnext := symbolsAt_succ hs
    cases heffect with
    | @assign name expr p _ v value =>
      cases h.proper hs with
      | assign typed inferred =>
        obtain rfl := (accords_of_eval _ value).kept hfits _ typed
        have hlearn := learn_assign inferred name p
        have hfits' : Fits ⟨m.state.setVariable name v, m.canvas⟩
            (symbolsAt program.statements (i + 1)) := by
          rw [hnext, hlearn]
          exact hfits.assign name v m.canvas
        refine ⟨horderly, hfits', ?_⟩
        apply hstored.assign m.canvas
        rw [h.symbols]
        apply hconsistent.symbolsAt_mono hlt
        rw [hnext, hlearn, Table.get?_insert, if_pos rfl]
    | jump value holds label =>
      obtain ⟨j, hj, rfl⟩ := horderly'.jump_lt h hback hs label
      refine ⟨horderly, ?_, hstored⟩
      exact hfits.mono fun name ty => hconsistent.symbolsAt_mono (Nat.le_of_lt hj)
    | _ =>
      refine ⟨horderly, ?_, hstored⟩
      show Fits _ (symbolsAt program.statements (i + 1))
      rw [hnext]
      exact hfits

theorem WellTyped.walk (h : Accepted program a) (hconsistent : Consistent program)
    (hback : program.JumpsBack) (canvas : Canvas) {is : List Nat}
    (hwalk : Walk program ⟨withLabels ⟨{}, canvas⟩ (a.labels.map Int.ofNat), 0⟩ is c) :
    WellTyped program a c := by
  have hfits : Fits (withLabels ⟨{}, canvas⟩ (a.labels.map Int.ofNat))
      (symbolsAt program.statements 0) := by
    intro name ty hget
    cases hget
  have hstored : Stored (withLabels ⟨{}, canvas⟩ (a.labels.map Int.ofNat)) a.symbols := by
    intro name v hget
    cases hget
  exact hwalk.induct ⟨⟨rfl, fun _ => rfl⟩, hfits, hstored⟩
    fun hc hmoves => hc.moves h hconsistent hback hmoves

theorem WellTyped.aim (hc : WellTyped program a c) (q : Int) : WellTyped program a (c.aim q) :=
  ⟨⟨hc.orderly.labels, hc.orderly.fresh⟩, hc.fits, hc.stored⟩

/-- The faults of arithmetic and of drawing, and which of them are reported as documented. -/
structure Explained (m : Machine) (s : Tree) (fault : Fault) : Prop where
  kind : fault.isArithmetic = true ∨ ∃ refusal, fault = .canvas refusal
  documented : fault.isDocumented = true ↔ ¬ Overtaxes m s

theorem Explained.of_isArithmetic {m : Machine} {s : Tree} {fault : Fault}
    (h : fault.isArithmetic = true) (hs : ¬ Overtaxes m s) : Explained m s fault := by
  refine ⟨Or.inl h, iff_of_true ?_ hs⟩
  cases fault with
  | divisionByZero | moduloByZero => rfl
  | _ => cases h

theorem WellTyped.breaks (h : Accepted program a) (hc : WellTyped program a c)
    (hbreaks : c.Breaks program e) :
    ∃ s ∈ program.statements, step s c.machine = .error e c.machine ∧
      Explained c.machine s e.cause := by
  obtain ⟨⟨hlabels, hfresh⟩, hfits, -⟩ := hc
  cases hbreaks with
  | @intro m i s e hs hfails =>
    refine ⟨s, List.mem_of_getElem? hs, step_error_iff.2 ⟨hfails, rfl⟩, ?_⟩
    have hstructural := Orderly.breaks h ⟨hlabels, hfresh⟩ (.intro hs hfails)
    have heval {t : Tree} {ty : Ty} {e : Located Fault} (typed : HasType _ t ty)
        (value : eval m t = .error e) : e.cause.isArithmetic = true :=
      (excuses_of_eval _ value).isArithmetic ⟨⟨ty, typed⟩, hfits⟩ ⟨ty, typed⟩
    cases h.proper hs with
    | spawn =>
      cases hfails with
      | spawn | stray => cases hstructural
    | label =>
      cases hfails with
      | stray => cases hstructural
    | assign typed =>
      cases hfails with
      | assign value => exact .of_isArithmetic (heval typed value) nofun
      | stray => cases hstructural
    | goto declared typed =>
      cases hfails with
      | condition value => exact .of_isArithmetic (heval typed value) nofun
      | decision value decision =>
        have htype := (accords_of_eval _ value).kept hfits _ typed
        have hkind := ((answers_asCondition (Q := Eq) rfl _).of_error decision).1
        exact (hkind.elim trivial (by rw [htype]; exact nofun) trivial).elim
      | target | stray => cases hstructural
    | @call name args p b builtin typed =>
      have hresolve : resolve name args.length p = .ok b :=
        resolve_eq_ok_iff.2 ⟨builtin, typed.length_eq⟩
      have hvalues {vs : List Value} (values : evalAll m args = .ok vs) :
          vs.map Value.ty = b.params ∧ vs.length = b.params.length :=
        have haccord := accordAll_of_evalAll _ values
        ⟨haccord.kept hfits _ typed, haccord.length.trans typed.length_eq⟩
      cases hfails with
      | builtin builtin' => cases hresolve.symm.trans builtin'
      | values builtin' values =>
        have hkind := (excuses_of_evalAll _ values).isArithmetic ⟨⟨_, typed⟩, hfits⟩ ⟨_, typed⟩
        refine .of_isArithmetic hkind ?_
        rintro ⟨_, _, -, hvalues', -⟩
        cases hvalues'.symm.trans values
      | drawing builtin' values void drawing =>
        cases hresolve.symm.trans builtin'
        obtain ⟨htypes, hlength⟩ := hvalues values
        have hkind := ((answers_drawing (Q := Eq) rfl _ _).of_error drawing).1
        exact (hkind.elim trivial ⟨htypes, void⟩ ⟨hlength, void⟩).elim
      | refused builtin' values void drawing refused =>
        cases hresolve.symm.trans builtin'
        refine ⟨Or.inr ⟨_, rfl⟩, (drawing.isDocumented_iff refused).trans (not_congr ?_)⟩
        constructor
        · intro hovertaxed
          exact ⟨b, _, builtin, values, hovertaxed⟩
        · rintro ⟨b', vs', hb', hvs', hovertaxed⟩
          cases builtin.symm.trans hb'
          cases values.symm.trans hvs'
          exact hovertaxed
      | query builtin' values notVoid answer =>
        cases hresolve.symm.trans builtin'
        obtain ⟨htypes, hlength⟩ := hvalues values
        have hkind := ((answers_query (Q := Eq) rfl _ _ _).of_error answer).1
        exact (hkind.elim trivial htypes ⟨hlength, notVoid⟩).elim
      | stray => cases hstructural

end

/-- What the types of an accepted program promise of a chunk. -/
structure Conforms (program : Program) (a : Analysis) (outcome : Outcome) (m : Machine) : Prop where
  /-- Every variable has the type that the analysis gives it. -/
  stored : m.Stored a.symbols
  /-- If the chunk fails, then for arithmetic or drawing, and as documented unless its statement
  overtaxes the canvas. -/
  faults : ∀ e, outcome = .failed e →
    ∃ s ∈ program.statements, step s m = .error e m ∧ Explained m s e.cause

theorem checked_program_conforms {source : String} (hcheck : Source.check source = .ok []) :
    ∃ program a, Source.compile source = .ok program ∧ analyze program = .ok a ∧
      (Consistent program → program.JumpsBack →
        ∀ {canvas : Canvas} {m' m'' : Machine} {budget : Nat → Int} {k n : Nat} {line : Int}
          {is : List Nat} {outcome : Outcome} {events : List Event},
          Chain program budget ⟨{}, canvas⟩ k m' line is →
            execute n program ⟨line, budget k⟩ m' = (outcome, m'', events) →
              Conforms program a outcome m'') := by
  obtain ⟨program, a, hprogram, ha, haccepted⟩ := Source.accepted_of_check hcheck
  refine ⟨program, a, hprogram, ha, ?_⟩
  intro hconsistent hback canvas m' m'' budget k n line is outcome events hchain hrun
  have hlaid := Source.laid_of_compile hprogram
  obtain ⟨js, d, q, hwalk, rfl, hbreaks⟩ := hchain.exists_walk hlaid haccepted.tabulate hrun
  have hd := (WellTyped.walk haccepted hconsistent hback canvas hwalk).aim q
  refine ⟨hd.stored, ?_⟩
  intro e he
  exact hd.breaks haccepted ((hbreaks e he).aim q)

/-- A loop that doubles the column of the cursor until it is too large for a radius. -/
def doublingLoop : String :=
  "Spawn(1, 0)\ni <- 0\nloop\nDrawRectangle(1, 0, GetActualX(), 0, 0)\ni <- i + 1\n" ++
    "GoTo[loop](i < 512)\nr <- GetActualX()\nSetCursor(0, 0)\nDrawCircle(0, 0, r)"

/-- The loop has types and jumps back, and yet it fails with a fault that is not documented. -/
theorem doubling_loop_overtaxes :
    ∃ program a e m s events,
      Source.check doublingLoop = .ok [] ∧ Consistent program ∧ program.JumpsBack ∧
      execute 2100 program {} ⟨{}, { grid := .blank 3 2 }⟩ = (.failed e, m, events) ∧
      Conforms program a (.failed e) m ∧
      s ∈ program.statements ∧ e.cause.isDocumented = false ∧ Overtaxes m s := by
  have hcheck : Source.check doublingLoop = .ok [] := Source.check_eq_nil (by decide +kernel)
  obtain ⟨program, a, hprogram, -, hconforms⟩ := checked_program_conforms hcheck
  have hruns : (Source.compile doublingLoop).toOption.any (fun program =>
      decide (Consistent program) && decide program.JumpsBack &&
        match (execute 2100 program {} ⟨{}, { grid := .blank 3 2 }⟩).1 with
        | .failed e => !e.cause.isDocumented
        | _ => false) = true := by
    decide +kernel
  rw [hprogram] at hruns
  dsimp only [Except.toOption, Option.any] at hruns
  rcases hrun : execute 2100 program {} ⟨{}, { grid := .blank 3 2 }⟩ with ⟨outcome, m, events⟩
  rw [hrun] at hruns
  simp only [Bool.and_eq_true, decide_eq_true_eq] at hruns
  obtain ⟨⟨hconsistent, hback⟩, hfault⟩ := hruns
  cases outcome with
  | failed e =>
    rw [Bool.not_eq_true'] at hfault
    have hstart : Chain program (fun _ => -1) ⟨{}, { grid := .blank 3 2 }⟩ 0 _ 1 [] := .start
    have hchunk := hconforms hconsistent hback hstart hrun
    obtain ⟨s, hs, -, hexplained⟩ := hchunk.faults e rfl
    have hovertaxes : Overtaxes m s := by
      by_cases hovertaxes : Overtaxes m s
      · exact hovertaxes
      · rw [hexplained.documented.2 hovertaxes] at hfault
        cases hfault
    exact ⟨program, a, e, m, s, events, hcheck, hconsistent, hback, hrun, hchunk, hs, hfault,
      hovertaxes⟩
  | chunk | givenUp => cases hfault

end Machine

end Brushwork
