import Brushwork.Proofs.Clipping
import Brushwork.Proofs.Easel
import Brushwork.Proofs.Lockstep

/-!
# Programs that do not look at the canvas

Three queries look at the canvas: its size, the number of pixels of a colour, and whether all have
one colour. A program that calls none of them runs on any two canvases alike. Without a fill, whose
extent depends on what is there already, the two pictures are cut from one and the same: where they
agreed at first they agree at the end.
-/

namespace Brushwork

mutual

def Tree.calls : Tree → List String
  | .program statements _ => callsAll statements
  | .assign _ expr _ => expr.calls
  | .goto _ condition _ => condition.calls
  | .call name args _ => name :: callsAll args
  | .binary left _ right _ => left.calls ++ right.calls
  | .unary _ operand _ => operand.calls
  | .spawn .. | .label .. | .literal .. | .variable .. | .missing => []

def Tree.callsAll : List Tree → List String
  | [] => []
  | t :: ts => t.calls ++ callsAll ts

end

def Program.calls (p : Program) : List String := Tree.callsAll p.statements

theorem Tree.calls_subset_callsAll {t : Tree} {ts : List Tree} (h : t ∈ ts) :
    t.calls ⊆ callsAll ts := by
  induction ts with
  | nil => cases h
  | cons u us ih =>
    rw [callsAll]
    rcases List.mem_cons.1 h with rfl | h
    · exact List.subset_append_left _ _
    · exact fun name hname => List.mem_append_right _ (ih h hname)

def Builtin.looksAtCanvas : Builtin → Bool
  | .getCanvasSize | .getColorCount | .isCanvasColor => true
  | _ => false

def Blind (calls : List String) : Prop := ∀ b : Builtin, b.looksAtCanvas = true → b.name ∉ calls

theorem Blind.mono {calls calls' : List String} (h : Blind calls) (hsub : calls' ⊆ calls) :
    Blind calls' :=
  fun b hb hmem => h b hb (hsub hmem)

/-- Two easels with the same pen and brush. If `clipped`, their grids agree wherever both have a
pixel. -/
structure Easel.Twin (clipped : Prop) (e e' : Easel) : Prop where
  pen : e.pen = e'.pen
  brush : e.canvas.brush = e'.canvas.brush
  grid : clipped → e.canvas.grid.Agree e'.canvas.grid

namespace Draw

variable {clipped : Prop}

inductive Twins (clipped : Prop) :
    EStateM.Result Canvas.Fault Easel Unit → EStateM.Result Canvas.Fault Easel Unit → Prop
  | ok {e e' : Easel} (easels : e.Twin clipped e') : Twins clipped (.ok () e) (.ok () e')
  | error {fault : Canvas.Fault} {e e' : Easel} (easels : e.Twin clipped e') :
    Twins clipped (.error fault e) (.error fault e')

/-- A drawing that does the same on twins. -/
def Parallel (clipped : Prop) (d : Draw Unit) : Prop :=
  ∀ e e' : Easel, e.Twin clipped e' → Twins clipped (d e) (d e')

theorem Parallel.bind {d d' : Draw Unit} (h : Parallel clipped d) (h' : Parallel clipped d') :
    Parallel clipped (do d; d') := by
  intro e e' he
  have hfirst := h e e' he
  simp only [Bind.bind, EStateM.bind]
  generalize d e = result at hfirst
  generalize d e' = result' at hfirst
  cases hfirst with
  | ok easels => exact h' _ _ easels
  | error easels => exact .error easels

theorem parallel_throw (fault : Canvas.Fault) : Parallel clipped (throw fault) :=
  fun _ _ he => .error he

theorem parallel_modify {f : Easel → Easel}
    (hf : ∀ grid grid' brush pen, (clipped → grid.Agree grid') →
      (f ⟨⟨grid, brush⟩, pen⟩).Twin clipped (f ⟨⟨grid', brush⟩, pen⟩)) :
    Parallel clipped (modify f) := by
  rintro ⟨⟨grid, brush⟩, pen⟩ ⟨⟨grid', brush'⟩, pen'⟩ ⟨hpen, hbrush, hgrid⟩
  obtain rfl : pen = pen' := hpen
  obtain rfl : brush = brush' := hbrush
  exact .ok (hf grid grid' brush pen hgrid)

theorem parallel_requireDirection (dx dy : Int) : Parallel clipped (requireDirection dx dy) := by
  unfold requireDirection
  split
  · exact fun _ _ he => .ok he
  · exact parallel_throw _

theorem parallel_requireMeasurable (radius : Int) :
    Parallel clipped (requireMeasurable radius) := by
  intro e e' he
  unfold requireMeasurable
  rw [← he.brush]
  split
  · exact .error he
  · exact .ok he

theorem parallel_setCursor (x y : Int) : Parallel clipped (setCursor x y) := by
  apply parallel_modify
  intro grid grid' brush pen hgrid
  exact ⟨rfl, rfl, hgrid⟩

theorem parallel_moveBy (dx dy : Int) : Parallel clipped (moveBy dx dy) := by
  apply parallel_modify
  intro grid grid' brush pen hgrid
  exact ⟨rfl, rfl, hgrid⟩

theorem parallel_setColor (text : Text) : Parallel clipped (setColor text) := by
  unfold setColor
  split
  · exact parallel_throw _
  · apply parallel_modify
    intro grid grid' brush pen hgrid
    exact ⟨rfl, rfl, hgrid⟩

theorem parallel_setSize (size : Int) : Parallel clipped (setSize size) := by
  unfold setSize
  split
  · exact parallel_throw _
  · apply parallel_modify
    intro grid grid' brush pen hgrid
    exact ⟨rfl, rfl, hgrid⟩

theorem parallel_paint {f : Brush → Pen → Grid → Grid}
    (hf : clipped → ∀ (brush : Brush) (pen : Pen) {g g' : Grid}, g.Agree g' →
      (f brush pen g).Agree (f brush pen g')) :
    Parallel clipped (paint f) := by
  apply parallel_modify
  intro grid grid' brush pen hgrid
  dsimp only
  split
  · exact ⟨rfl, rfl, fun hclipped => hf hclipped brush pen (hgrid hclipped)⟩
  · exact ⟨rfl, rfl, hgrid⟩

theorem parallel_steps (dx dy : Int) (n : Nat) : Parallel clipped (steps dx dy n) := by
  induction n with
  | zero => exact fun _ _ he => .ok he
  | succ n ih =>
    apply Parallel.bind (parallel_paint _) ((parallel_moveBy dx dy).bind ih)
    intro _ brush pen g g' hg
    exact (Grid.Paints.stamp _ _ _ _).agree hg

theorem parallel_line (dx dy length : Int) : Parallel clipped (line dx dy length) :=
  (parallel_requireDirection dx dy).bind (parallel_steps dx dy length.toNat)

theorem parallel_rectangle (dx dy distance width height : Int) :
    Parallel clipped (rectangle dx dy distance width height) := by
  apply (parallel_requireDirection dx dy).bind
  apply (parallel_moveBy _ _).bind
  apply parallel_paint
  intro _ brush pen g g' hg
  exact (Grid.Paints.stamps _ _ _ _ _ _ _ _ _).agree hg

theorem parallel_circle (dx dy radius : Int) : Parallel clipped (circle dx dy radius) := by
  apply (parallel_requireDirection dx dy).bind
  split
  · exact parallel_throw _
  · apply (parallel_requireMeasurable radius).bind
    apply (parallel_moveBy _ _).bind
    apply parallel_paint
    intro _ brush pen g g' hg
    exact (Grid.Paints.stamps _ _ _ _ _ _ _ _ _).agree hg

end Draw

namespace Machine

/-- Only a fill depends on what is on the grid. -/
theorem Drawing.parallel {clipped : Prop} {b : Builtin} {vs : List Value} {d : Draw Unit}
    (h : Drawing b vs d) (hfill : clipped → b ≠ .fill) : d.Parallel clipped := by
  cases h with
  | color text => exact Draw.parallel_setColor text
  | size n => exact Draw.parallel_setSize n
  | line dx dy length => exact Draw.parallel_line dx dy length
  | circle dx dy radius => exact Draw.parallel_circle dx dy radius
  | rectangle dx dy distance width height =>
    exact Draw.parallel_rectangle dx dy distance width height
  | fill => exact Draw.parallel_paint fun hclipped => absurd rfl (hfill hclipped)
  | setCursor x y => exact Draw.parallel_setCursor x y

/-- Two machines in the same state with the same brush. If `clipped`, their grids agree wherever
both have a pixel. -/
structure Twin (clipped : Prop) (m m' : Machine) : Prop where
  state : m.state = m'.state
  brush : m.canvas.brush = m'.canvas.brush
  grid : clipped → m.canvas.grid.Agree m'.canvas.grid

theorem name_of_resolve {name : String} {count : Nat} {p : Position} {b : Builtin}
    (h : resolve name count p = .ok b) : b.name = name := by
  unfold resolve at h
  split at h
  · cases h
  · rename_i b' hname
    split at h
    · cases h
      simpa using List.find?_some hname
    · cases h

theorem looksAtCanvas_of_resolve {name : String} {args : List Tree} {count : Nat} {p q : Position}
    {b : Builtin} (hblind : Blind (Tree.call name args q).calls)
    (h : resolve name count p = .ok b) : b.looksAtCanvas = false := by
  rw [Bool.eq_false_iff]
  intro hlooks
  exact hblind b hlooks (name_of_resolve h ▸ List.mem_cons_self)

theorem ne_fill_of_resolve {clipped : Prop} {name : String} {args : List Tree} {count : Nat}
    {p q : Position} {b : Builtin}
    (hfill : clipped → Builtin.fill.name ∉ (Tree.call name args q).calls)
    (h : resolve name count p = .ok b) : clipped → b ≠ .fill := by
  rintro hclipped rfl
  exact hfill hclipped (name_of_resolve h ▸ List.mem_cons_self)

namespace Twin

variable {clipped : Prop} {m m' : Machine}

theorem query (h : Twin clipped m m') {b : Builtin} (hb : b.looksAtCanvas = false) (p : Position)
    (vs : List Value) : query m b p vs = query m' b p vs := by
  have hcolor : ∀ text, m.canvas.isBrushColor text = m'.canvas.isBrushColor text := by
    intro text
    rw [Canvas.isBrushColor, h.brush, Canvas.isBrushColor]
  have hsize : ∀ size, m.canvas.isBrushSize size = m'.canvas.isBrushSize size := by
    intro size
    rw [Canvas.isBrushSize, h.brush, Canvas.isBrushSize]
  cases b with
  | getCanvasSize | getColorCount | isCanvasColor => cases hb
  | _ => rcases vs with _ | ⟨v, _ | ⟨w, vs⟩⟩ <;> simp only [Machine.query, h.state, hcolor, hsize]

mutual

theorem eval (h : Twin clipped m m') : ∀ t : Tree, Blind t.calls → eval m t = eval m' t
  | .literal _ _, _ => by simp only [Machine.eval]
  | .variable name p, _ => by simp only [Machine.eval, h.state]
  | .unary op operand p, hblind => by simp only [Machine.eval, h.eval operand hblind]
  | .binary left op right p, hblind => by
    have hleft := hblind.mono (List.subset_append_left left.calls right.calls)
    have hright := hblind.mono (List.subset_append_right left.calls right.calls)
    simp only [Machine.eval, h.eval left hleft, h.eval right hright]
  | .call name args p, hblind => by
    have hargs := hblind.mono (List.subset_cons_self name (Tree.callsAll args))
    simp only [Machine.eval, h.evalAll args hargs]
    split
    · rfl
    · cases hb : resolve name args.length p with
      | error e => rfl
      | ok b =>
        have hlooks := looksAtCanvas_of_resolve hblind hb
        simp only [bind, Except.bind, h.query hlooks]
  | .program _ _, _ | .spawn _ _ _, _ | .assign _ _ _, _ | .label _ _, _ | .goto _ _ _, _
  | .missing, _ => by
    simp only [Machine.eval]

theorem evalAll (h : Twin clipped m m') :
    ∀ ts : List Tree, Blind (Tree.callsAll ts) → evalAll m ts = evalAll m' ts
  | [], _ => by simp only [Machine.evalAll]
  | t :: ts, hblind => by
    have hfirst := hblind.mono (List.subset_append_left t.calls (Tree.callsAll ts))
    have hrest := hblind.mono (List.subset_append_right t.calls (Tree.callsAll ts))
    simp only [Machine.evalAll, h.eval t hfirst, h.evalAll ts hrest]

end

theorem arguments (h : Twin clipped m m') {name : String} {args : List Tree} {p : Position}
    (hblind : Blind (Tree.call name args p).calls) :
    Machine.evalAll m args = Machine.evalAll m' args :=
  h.evalAll args (hblind.mono (List.subset_cons_self name (Tree.callsAll args)))

theorem easel (h : Twin clipped m m') :
    Easel.Twin clipped ⟨m.canvas, m.state.pen⟩ ⟨m'.canvas, m'.state.pen⟩ :=
  ⟨by rw [h.state], h.brush, h.grid⟩

end Twin

section

variable {clipped : Prop} {s : Tree} {m m' m₁ : Machine} {target : Option Int} {e : Located Fault}

theorem Effect.twin (h : Effect s m target m₁) (hm : Twin clipped m m') (hblind : Blind s.calls)
    (hfill : clipped → Builtin.fill.name ∉ s.calls) :
    ∃ m₁', Effect s m' target m₁' ∧ Twin clipped m₁ m₁' := by
  have ⟨hstate, hbrush, hgrid⟩ := hm
  cases h with
  | spawn fresh => exact ⟨_, .spawn (hstate ▸ fresh), by rw [hstate], hbrush, hgrid⟩
  | @assign name expr p m v value =>
    have hexpr := hm.eval expr hblind
    exact ⟨_, .assign (hexpr ▸ value), by rw [hstate], hbrush, hgrid⟩
  | @instruct name args p m b vs d canvas pen builtin values void drawing drawn =>
    have hdrawn := drawing.parallel (ne_fill_of_resolve hfill builtin) _ _ hm.easel
    rw [drawn] at hdrawn
    generalize hresult : d ⟨m'.canvas, m'.state.pen⟩ = result at hdrawn
    cases hdrawn with
    | @ok _ easel easels =>
      obtain ⟨canvas', pen'⟩ := easel
      obtain ⟨hpen, hbrush', hgrid'⟩ := easels
      obtain rfl : pen = pen' := hpen
      exact ⟨_, .instruct builtin (hm.arguments hblind ▸ values) void drawing hresult,
        by rw [hstate], hbrush', hgrid'⟩
  | query builtin values notVoid answer =>
    have hlooks := looksAtCanvas_of_resolve hblind builtin
    exact ⟨m', .query builtin (hm.arguments hblind ▸ values) notVoid
      (hm.query hlooks _ _ ▸ answer), hm⟩
  | @pass target condition p m v value fails =>
    have hcondition := hm.eval condition hblind
    exact ⟨m', .pass (hcondition ▸ value) fails, hm⟩
  | @jump target condition p m v index value holds label =>
    have hcondition := hm.eval condition hblind
    exact ⟨m', .jump (hcondition ▸ value) holds (hstate ▸ label), hm⟩
  | label => exact ⟨m', .label, hm⟩

theorem Fails.twin (h : Fails s m e) (hm : Twin clipped m m') (hblind : Blind s.calls)
    (hfill : clipped → Builtin.fill.name ∉ s.calls) : Fails s m' e := by
  have hstate := hm.state
  cases h with
  | spawn spawned => exact .spawn (hstate ▸ spawned)
  | @assign name expr p m e value =>
    have hexpr := hm.eval expr hblind
    exact .assign (hexpr ▸ value)
  | builtin builtin => exact .builtin builtin
  | values builtin values => exact .values builtin (hm.arguments hblind ▸ values)
  | drawing builtin values void drawing =>
    exact .drawing builtin (hm.arguments hblind ▸ values) void drawing
  | @refused name args p m b vs d fault builtin values void drawing refused =>
    have hrefused := drawing.parallel (ne_fill_of_resolve hfill builtin) _ _ hm.easel
    rw [refused] at hrefused
    generalize hresult : d ⟨m'.canvas, m'.state.pen⟩ = result at hrefused
    cases hrefused with
    | error easels =>
      obtain rfl := drawing.atomic hresult
      exact .refused builtin (hm.arguments hblind ▸ values) void drawing hresult
  | query builtin values notVoid answer =>
    have hlooks := looksAtCanvas_of_resolve hblind builtin
    exact .query builtin (hm.arguments hblind ▸ values) notVoid (hm.query hlooks _ _ ▸ answer)
  | @condition target condition p m e value =>
    have hcondition := hm.eval condition hblind
    exact .condition (hcondition ▸ value)
  | @decision target condition p m v e value decision =>
    have hcondition := hm.eval condition hblind
    exact .decision (hcondition ▸ value) decision
  | @target target condition p m v value holds label =>
    have hcondition := hm.eval condition hblind
    exact .target (hcondition ▸ value) holds (hstate ▸ label)
  | stray stray => exact .stray stray

end

/-- A program that does not look at the canvas runs on two twins alike. -/
theorem lockstep_twin {clipped : Prop} {program : Program} (hblind : Blind program.calls)
    (hfill : clipped → Builtin.fill.name ∉ program.calls) :
    Lockstep program program (Twin clipped) Eq where
  length := rfl
  effect := by
    intro i s s' m m' m₁ target hs hs' hm heffect
    cases hs.symm.trans hs'
    have hsub := Tree.calls_subset_callsAll (List.mem_of_getElem? hs)
    obtain ⟨m₁', heffect', hstate, hbrush, hgrid⟩ :=
      heffect.twin hm (hblind.mono hsub) fun hclipped hmem => hfill hclipped (hsub hmem)
    exact ⟨m₁', heffect', by rw [past, hstate]; rfl, hbrush, hgrid⟩
  fails := by
    intro i s s' m m' e hs hs' hm hfails
    cases hs.symm.trans hs'
    have hsub := Tree.calls_subset_callsAll (List.mem_of_getElem? hs)
    exact ⟨e, hfails.twin hm (hblind.mono hsub) fun hclipped hmem =>
      hfill hclipped (hsub hmem), rfl⟩
  labels h := h
  twice h := ⟨_, h, rfl⟩
  withLabels labels h := ⟨by rw [withLabels, h.state]; rfl, h.brush, h.grid⟩
  aim q h := ⟨by rw [aim, h.state]; rfl, h.brush, h.grid⟩

theorem twin_of_attach {s : State} {c c' : Canvas} {m m' : Machine} (h : attach ⟨s, c⟩ = .ok () m)
    (h' : attach ⟨s, c'⟩ = .ok () m') : Twin (c.grid.Agree c'.grid) m m' := by
  obtain ⟨color, hcolor, -, rfl⟩ := attach_ok_iff.1 h
  obtain ⟨color', hcolor', -, rfl⟩ := attach_ok_iff.1 h'
  cases hcolor.symm.trans hcolor'
  exact ⟨rfl, rfl, id⟩

theorem canvas_does_not_leak {program : Program} {s : State} {c c' : Canvas} {m m' : Machine}
    (hblind : ∀ b : Builtin, b.looksAtCanvas = true → b.name ∉ program.calls)
    (h : attach ⟨s, c⟩ = .ok () m) (h' : attach ⟨s, c'⟩ = .ok () m') (n : Nat) (w : Window) :
    ∃ outcome m₁ m₁' events events', execute n program w m = (outcome, m₁, events) ∧
      execute n program w m' = (outcome, m₁', events') ∧ m₁.state = m₁'.state ∧
      (Builtin.fill.name ∉ program.calls → c.grid.Agree c'.grid →
        m₁.canvas.grid.Agree m₁'.canvas.grid) := by
  have htwin := twin_of_attach h h'
  have hclipped : Twin (Builtin.fill.name ∉ program.calls ∧ c.grid.Agree c'.grid) m m' :=
    ⟨htwin.state, htwin.brush, fun hclipped => htwin.grid hclipped.2⟩
  rcases hrun : execute n program w m with ⟨outcome, m₁, events⟩
  rcases hrun' : execute n program w m' with ⟨outcome', m₁', events'⟩
  have hends :=
    (lockstep_twin hblind And.left).execute (Or.inr fun _ => rfl) rfl hclipped hrun hrun'
  have hsame :
      outcome = outcome' ∧ Twin (Builtin.fill.name ∉ program.calls ∧ c.grid.Agree c'.grid)
        m₁ m₁' := by
    cases hends with
    | @chunk m₁ m₁' pointer machines =>
      have hreport :
          report program (m₁.aim pointer).state pointer = report program (m₁'.aim pointer).state
            pointer := by
        rw [machines.state]
      exact ⟨congrArg Outcome.chunk hreport, machines⟩
    | failed faults machines => exact ⟨by rw [faults], machines⟩
    | givenUp machines => exact ⟨rfl, machines⟩
  obtain ⟨rfl, hstate, -, hgrid⟩ := hsame
  exact ⟨outcome, m₁, m₁', events, events', rfl, rfl, hstate, fun hfill hagree =>
    hgrid ⟨hfill, hagree⟩⟩

/-- A thick line leaves a canvas on its right and another one nowhere, before a line in no direction
fails on both. -/
theorem thick_line_does_not_leak :
    let program : Program :=
      ⟨[.spawn 2 0 ⟨1, 1⟩, .call "Size" [.literal (.int 3) ⟨2, 6⟩] ⟨2, 1⟩,
        .call "DrawLine" [.literal (.int 1) ⟨3, 10⟩, .literal (.int 0) ⟨3, 13⟩,
          .literal (.int 2) ⟨3, 16⟩] ⟨3, 1⟩,
        .call "DrawLine" [.call "GetActualX" [] ⟨4, 10⟩, .literal (.int 0) ⟨4, 24⟩,
          .literal (.int 1) ⟨4, 27⟩] ⟨4, 1⟩], ⟨1, 1⟩⟩
    let c : Canvas := { grid := .blank 3 2 }
    let c' : Canvas := ⟨.blank 7 5, ⟨.white, 9⟩⟩
    ∃ m m' m₁ m₁' events events', attach ⟨{}, c⟩ = .ok () m ∧ attach ⟨{}, c'⟩ = .ok () m' ∧
      execute 9 program {} m = (.failed ⟨.canvas (.direction 4 0), ⟨4, 1⟩⟩, m₁, events) ∧
      execute 9 program {} m' = (.failed ⟨.canvas (.direction 4 0), ⟨4, 1⟩⟩, m₁', events') ∧
      m₁.state = m₁'.state ∧ m₁.canvas.grid.Agree m₁'.canvas.grid := by
  intro program c c'
  have hcalls : ∀ b ∈ Builtin.all, b.looksAtCanvas = true → b.name ∉ program.calls := by decide
  have hwhite : ∀ {width height : Nat} {x y : Int}, (Grid.blank width height).Inside x y →
      (Grid.blank width height).get? x y = some .white := by
    intro width height x y hinside
    rw [Grid.get?, dif_pos hinside]
    simp [Grid.blank]
  obtain ⟨m, hm⟩ : ∃ m, attach ⟨{}, c⟩ = .ok () m := ⟨_, rfl⟩
  obtain ⟨m', hm'⟩ : ∃ m', attach ⟨{}, c'⟩ = .ok () m' := ⟨_, rfl⟩
  obtain ⟨outcome, m₁, m₁', events, events', hrun, hrun', hstate, hgrid⟩ :=
    canvas_does_not_leak (fun b => hcalls b (Builtin.mem_all b)) hm hm' 9 {}
  obtain rfl : outcome = .failed ⟨.canvas (.direction 4 0), ⟨4, 1⟩⟩ := by
    cases hm
    exact (congrArg Prod.fst hrun).symm
  refine ⟨m, m', m₁, m₁', events, events', hm, hm', hrun, hrun', hstate, hgrid (by decide) ?_⟩
  intro x y hinside hinside'
  rw [hwhite hinside, hwhite hinside']

end Machine

end Brushwork
