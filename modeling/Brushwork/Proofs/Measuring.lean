import Brushwork.Proofs.Atomicity
import Brushwork.Proofs.Inference
import Brushwork.Proofs.Soundness

/-!
# Rings that cannot be measured

Of all faults of a run only one is never reported with a message of its own: that of a ring too
large to be measured. Expressions do not draw, and no other instruction measures anything, so a run
ends with this fault exactly if it comes to an instruction for such a ring.
-/

namespace Brushwork.Machine

/-- An instruction for a ring that cannot be measured, although it would leave a trace. -/
inductive Unmeasured (m : Machine) : Tree → Prop
  | intro {name : String} {args : List Tree} {p : Position} {dx dy radius : Int}
      (builtin : Builtin.ofName? name = some .drawCircle)
      (values : evalAll m args = .ok [.int dx, .int dy, .int radius])
      (directed : Draw.IsDirection dx dy) (positive : 0 < radius)
      (paints : m.canvas.brush.paints = true) (large : ¬ Grid.Measurable radius) :
    Unmeasured m (.call name args p)

theorem unmeasured_of_circle {dx dy radius : Int} {e e' : Easel}
    (h : Draw.circle dx dy radius e = .error .unmeasurable e') :
    Draw.IsDirection dx dy ∧ 0 < radius ∧ e.canvas.brush.paints = true ∧
      ¬ Grid.Measurable radius := by
  rcases Draw.error_of_requireDirection h with ⟨-, hfault⟩ | ⟨hdirection, hrest⟩
  · cases hfault
  · split at hrest
    · cases hrest
    · rename_i hradius
      simp only [bind, EStateM.bind, Draw.requireMeasurable] at hrest
      split at hrest
      · cases hrest
      · rename_i hmeasure
        split at hmeasure
        · rename_i hlarge
          rw [Bool.and_eq_true, Bool.not_eq_true', decide_eq_false_iff_not] at hlarge
          exact ⟨hdirection, Int.not_le.1 hradius, hlarge⟩
        · cases hmeasure

theorem circle_of_unmeasured {dx dy radius : Int} {e : Easel} (hdirection : Draw.IsDirection dx dy)
    (hpositive : 0 < radius) (hpaints : e.canvas.brush.paints = true)
    (hlarge : ¬ Grid.Measurable radius) : Draw.circle dx dy radius e = .error .unmeasurable e := by
  have hmeasure : (e.canvas.brush.paints && !decide (Grid.Measurable radius)) = true := by
    rw [hpaints, decide_eq_false hlarge]
    rfl
  simp only [Draw.circle, Draw.requireDirection, if_pos hdirection, if_neg (Int.not_le.2 hpositive),
    Draw.requireMeasurable, bind, EStateM.bind, pure, EStateM.pure, if_pos hmeasure]

theorem Unmeasured.fails {m : Machine} {s : Tree} (h : Unmeasured m s) :
    Fails s m ⟨.canvas .unmeasurable, s.position⟩ := by
  cases h with
  | @intro name args p dx dy radius builtin values directed positive paints large =>
    have hresolve : resolve name args.length p = .ok .drawCircle :=
      resolve_eq_ok_iff.2 ⟨builtin, (accordAll_of_evalAll .empty values).length.symm⟩
    exact .refused hresolve values rfl (.circle dx dy radius)
      (circle_of_unmeasured directed positive paints large)

theorem Drawing.unmeasured {b : Builtin} {vs : List Value} {d : Draw Unit} (h : Drawing b vs d)
    {e e' : Easel} (hrefused : d e = .error .unmeasurable e') :
    b = .drawCircle ∧ ∃ dx dy radius, vs = [.int dx, .int dy, .int radius] ∧
      Draw.IsDirection dx dy ∧ 0 < radius ∧ e.canvas.brush.paints = true ∧
      ¬ Grid.Measurable radius := by
  cases h with
  | color text =>
    rw [Draw.setColor] at hrefused
    cases hcolor : Rgba.ofText? text <;> rw [hcolor] at hrefused <;> cases hrefused
  | size n =>
    rw [Draw.setSize] at hrefused
    by_cases hn : n ≤ 0
    · rw [if_pos hn] at hrefused
      cases hrefused
    · rw [if_neg hn] at hrefused
      cases hrefused
  | line dx dy length =>
    rcases Draw.error_of_requireDirection hrefused with ⟨-, hfault⟩ | ⟨-, hrest⟩
    · cases hfault
    · exact absurd hrest (Draw.steps_ne_error dx dy _ _ _ _)
  | rectangle dx dy distance width height =>
    rcases Draw.error_of_requireDirection hrefused with ⟨-, hfault⟩ | ⟨-, hrest⟩
    · cases hfault
    · cases hrest
  | circle dx dy radius => exact ⟨rfl, dx, dy, radius, rfl, unmeasured_of_circle hrefused⟩
  | fill | setCursor => cases hrefused

/-- A statement fails because a ring cannot be measured exactly if it asks for one. -/
theorem Fails.unmeasurable_iff {m : Machine} {s : Tree} {e : Located Fault} (h : Fails s m e) :
    e.cause = .canvas .unmeasurable ↔ Unmeasured m s := by
  constructor
  · intro hcause
    have haside {exact fit formed : Prop} (hkind : Excused exact fit formed e.cause) :
        Unmeasured m s :=
      absurd hcause (hkind.ne_canvas _)
    cases h with
    | spawn | target | stray => cases hcause
    | assign value => exact haside (excuses_of_eval .empty value)
    | builtin builtin => exact haside ((answers_resolve (Q := Eq) rfl _ _).of_error builtin).1
    | values _ values => exact haside (excuses_of_evalAll .empty values)
    | drawing _ _ _ drawing => exact haside ((answers_drawing (Q := Eq) rfl _ _).of_error drawing).1
    | query _ _ _ answer => exact haside ((answers_query (Q := Eq) rfl m _ _).of_error answer).1
    | condition value => exact haside (excuses_of_eval .empty value)
    | decision _ decision =>
      exact haside ((answers_asCondition (Q := Eq) rfl _).of_error decision).1
    | refused builtin values _ drawing refused =>
      cases hcause
      obtain ⟨rfl, dx, dy, radius, rfl, hdirection, hpositive, hpaints, hlarge⟩ :=
        drawing.unmeasured refused
      exact .intro (resolve_eq_ok_iff.1 builtin).1 values hdirection hpositive hpaints hlarge
  · intro hring
    have hstep := step_error_iff.2 ⟨h, rfl⟩
    rw [step_error_iff.2 ⟨hring.fails, rfl⟩] at hstep
    cases hstep
    rfl

/-- A run that fails because a ring cannot be measured has come to a statement that asks for one. -/
theorem execute_unmeasurable_iff {n : Nat} {program : Program} {w : Window} {m m' : Machine}
    {e : Located Fault} {events : List Event}
    (h : execute n program w m = (.failed e, m', events)) :
    e.cause = .canvas .unmeasurable ↔ ∃ s ∈ program.statements, step s m' = .error e m' ∧
      Unmeasured m' s := by
  constructor
  · intro hcause
    rcases hindexed : tabulate 0 .empty program.statements with ⟨labels, _ | e'⟩
    · obtain ⟨⟨pointer, s, -, hs, hstep⟩, -⟩ := interrupted_of_tabulate hindexed h
      exact ⟨s, List.mem_of_getElem? hs, hstep,
        (step_error_iff.1 hstep).1.unmeasurable_iff.1 hcause⟩
    · rw [execute_of_tabulate hindexed] at h
      cases h
      obtain ⟨name, hname, -⟩ := declaresTwice_of_tabulate hindexed
      rw [hname] at hcause
      cases hcause
  · rintro ⟨s, -, hstep, hring⟩
    exact (step_error_iff.1 hstep).1.unmeasurable_iff.2 hring

end Brushwork.Machine
