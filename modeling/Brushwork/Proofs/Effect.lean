import Brushwork.Proofs.Evaluation
import Brushwork.Machine.Run

/-!
# What a statement does

Executing a statement is told again by two relations: `Effect` for a statement that succeeds, with
the machine it leaves and the jump it asks for, and `Fails` for one that does not. A statement that
fails leaves the machine as it was, since every drawing looks for a reason to refuse before it
touches the easel.
-/

namespace Brushwork

namespace Draw

/-- A drawing that leaves the easel alone when it refuses. -/
def Atomic (d : Draw Unit) : Prop := ∀ {e fault e'}, d e = .error fault e' → e' = e

theorem atomic_modify (f : Easel → Easel) : Atomic (modify f) := by
  intro e fault e' h
  cases h

theorem atomic_throw (fault : Canvas.Fault) : Atomic (throw fault) := by
  intro e fault' e' h
  cases h
  rfl

structure IsCheck (d : Draw Unit) : Prop where
  passed : ∀ {e e'}, d e = .ok () e' → e' = e
  refused : Atomic d

theorem IsCheck.atomic_bind {d d' : Draw Unit} (h : IsCheck d) (h' : Atomic d') :
    Atomic (do d; d') := by
  intro e fault e' he
  simp only [bind, EStateM.bind] at he
  split at he
  · rename_i hok
    rw [h.passed hok] at he
    exact h' he
  · rename_i herror
    cases he
    exact h.refused herror

theorem isCheck_requireDirection (dx dy : Int) : IsCheck (requireDirection dx dy) := by
  constructor
  · intro e e' h
    unfold requireDirection at h
    split at h
    · cases h
      rfl
    · cases h
  · intro e fault e' h
    unfold requireDirection at h
    split at h
    · cases h
    · cases h
      rfl

theorem isCheck_requireMeasurable (radius : Int) : IsCheck (requireMeasurable radius) := by
  constructor
  · intro e e' h
    unfold requireMeasurable at h
    split at h
    · cases h
    · cases h
      rfl
  · intro e fault e' h
    unfold requireMeasurable at h
    split at h
    · cases h
      rfl
    · cases h

theorem atomic_bind_modify {f : Easel → Easel} {g : Easel → Easel} :
    Atomic (do modify f; modify g) := by
  intro e fault e' h
  cases h

theorem atomic_setColor (text : Text) : Atomic (setColor text) := by
  unfold setColor
  split
  · exact atomic_throw _
  · exact atomic_modify _

theorem atomic_setSize (size : Int) : Atomic (setSize size) := by
  unfold setSize
  split
  · exact atomic_throw _
  · exact atomic_modify _

theorem steps_ne_error (dx dy : Int) (n : Nat) (e : Easel) (fault : Canvas.Fault) (e' : Easel) :
    steps dx dy n e ≠ .error fault e' := by
  induction n generalizing e with
  | zero => exact nofun
  | succ n ih => exact ih _

theorem atomic_line (dx dy length : Int) : Atomic (line dx dy length) :=
  (isCheck_requireDirection dx dy).atomic_bind fun h => absurd h (steps_ne_error dx dy _ _ _ _)

theorem atomic_rectangle (dx dy distance width height : Int) :
    Atomic (rectangle dx dy distance width height) :=
  (isCheck_requireDirection dx dy).atomic_bind atomic_bind_modify

theorem atomic_circle (dx dy radius : Int) : Atomic (circle dx dy radius) := by
  unfold circle
  apply (isCheck_requireDirection dx dy).atomic_bind
  split
  · exact atomic_throw _
  · exact (isCheck_requireMeasurable radius).atomic_bind atomic_bind_modify

end Draw

namespace Machine

/-- The drawing that an instruction asks for with values of the right types. -/
inductive Drawing : Builtin → List Value → Draw Unit → Prop
  | color (text : Text) : Drawing .color [.text text] (Draw.setColor text)
  | size (n : Int) : Drawing .size [.int n] (Draw.setSize n)
  | line (dx dy length : Int) :
    Drawing .drawLine [.int dx, .int dy, .int length] (Draw.line dx dy length)
  | circle (dx dy radius : Int) :
    Drawing .drawCircle [.int dx, .int dy, .int radius] (Draw.circle dx dy radius)
  | rectangle (dx dy distance width height : Int) :
    Drawing .drawRectangle [.int dx, .int dy, .int distance, .int width, .int height]
      (Draw.rectangle dx dy distance width height)
  | fill : Drawing .fill [] Draw.fill
  | setCursor (x y : Int) : Drawing .setCursor [.int x, .int y] (Draw.setCursor x y)

@[simp] theorem drawing_eq_ok_iff {b : Builtin} {p : Position} {vs : List Value} {d : Draw Unit} :
    drawing b p vs = .ok d ↔ Drawing b vs d := by
  constructor
  · intro h
    unfold drawing at h
    split at h
    · obtain ⟨text, htext, h⟩ := bind_eq_ok_iff.1 h
      rw [asText_eq_ok_iff] at htext
      subst htext
      cases h
      exact .color text
    · obtain ⟨ns, hns, h⟩ := bind_eq_ok_iff.1 h
      rw [intArguments_eq_ok_iff] at hns
      subst hns
      split at h <;> cases h <;> constructor
  · intro h
    cases h <;> rfl

theorem Drawing.atomic {b : Builtin} {vs : List Value} {d : Draw Unit} (h : Drawing b vs d) :
    d.Atomic := by
  cases h with
  | color text => exact Draw.atomic_setColor text
  | size n => exact Draw.atomic_setSize n
  | line dx dy length => exact Draw.atomic_line dx dy length
  | circle dx dy radius => exact Draw.atomic_circle dx dy radius
  | rectangle dx dy distance width height => exact Draw.atomic_rectangle dx dy distance width height
  | fill => exact Draw.atomic_modify _
  | setCursor x y => exact Draw.atomic_modify _

/-- The statements that change the machine or ask for a jump, with all that must hold for them to do
so. -/
inductive Effect : Tree → Machine → Option Int → Machine → Prop
  | spawn {x y : Int} {p : Position} {m : Machine} (fresh : m.state.spawned = false) :
    Effect (.spawn x y p) m none
      ⟨{ m.state with pen := { m.state.pen with x, y }, spawned := true }, m.canvas⟩
  | assign {name : String} {expr : Tree} {p : Position} {m : Machine} {v : Value}
      (value : eval m expr = .ok v) :
    Effect (.assign name expr p) m none ⟨m.state.setVariable name v, m.canvas⟩
  | instruct {name : String} {args : List Tree} {p : Position} {m : Machine} {b : Builtin}
      {vs : List Value} {d : Draw Unit} {canvas : Canvas} {pen : Pen}
      (builtin : resolve name args.length p = .ok b) (values : evalAll m args = .ok vs)
      (void : b.result = .void) (drawing : Drawing b vs d)
      (drawn : d ⟨m.canvas, m.state.pen⟩ = .ok () ⟨canvas, pen⟩) :
    Effect (.call name args p) m none ⟨{ m.state with pen }, canvas⟩
  | query {name : String} {args : List Tree} {p : Position} {m : Machine} {b : Builtin}
      {vs : List Value} {v : Value}
      (builtin : resolve name args.length p = .ok b) (values : evalAll m args = .ok vs)
      (notVoid : b.result ≠ .void) (answer : query m b p vs = .ok v) :
    Effect (.call name args p) m none m
  | pass {target : String} {condition : Tree} {p : Position} {m : Machine} {v : Value}
      (value : eval m condition = .ok v) (fails : asCondition condition.position v = .ok false) :
    Effect (.goto target condition p) m none m
  | jump {target : String} {condition : Tree} {p : Position} {m : Machine} {v : Value} {index : Int}
      (value : eval m condition = .ok v) (holds : asCondition condition.position v = .ok true)
      (label : m.state.labels.get? target = some index) :
    Effect (.goto target condition p) m (some index) m
  | label {name : String} {p : Position} {m : Machine} : Effect (.label name p) m none m

section

variable {α β : Type} {m m' : Machine} {e : Located Fault}

@[simp] theorem exec_bind_ok_iff {x : Exec α} {f : α → Exec β} {b : β} :
    (x >>= f) m = .ok b m' ↔ ∃ a m₁, x m = .ok a m₁ ∧ f a m₁ = .ok b m' := by
  simp only [bind, EStateM.bind]
  cases x m with
  | ok a m₁ =>
    constructor
    · intro h
      exact ⟨a, m₁, rfl, h⟩
    · rintro ⟨a', m₁', h, h'⟩
      cases h
      exact h'
  | error e m₁ => simp

@[simp] theorem exec_bind_error_iff {x : Exec α} {f : α → Exec β} :
    (x >>= f) m = .error e m' ↔
      x m = .error e m' ∨ ∃ a m₁, x m = .ok a m₁ ∧ f a m₁ = .error e m' := by
  simp only [bind, EStateM.bind]
  cases x m with
  | ok a m₁ =>
    constructor
    · intro h
      exact Or.inr ⟨a, m₁, rfl, h⟩
    · rintro (h | ⟨a', m₁', h, h'⟩)
      · cases h
      · cases h
        exact h'
  | error e m₁ => simp

@[simp] theorem exec_pure_ok_iff {a b : α} : (pure a : Exec α) m = .ok b m' ↔ b = a ∧ m' = m := by
  constructor
  · intro h
    cases h
    exact ⟨rfl, rfl⟩
  · rintro ⟨rfl, rfl⟩
    rfl

@[simp] theorem exec_map_ok_iff {x : Exec α} {f : α → β} {b : β} :
    (f <$> x) m = .ok b m' ↔ ∃ a, x m = .ok a m' ∧ f a = b := by
  simp only [Functor.map, EStateM.map]
  cases x m <;> simp [and_comm]

@[simp] theorem exec_map_error_iff {x : Exec α} {f : α → β} :
    (f <$> x) m = .error e m' ↔ x m = .error e m' := by
  simp only [Functor.map, EStateM.map]
  cases x m <;> simp

@[simp] theorem inspect_ok_iff {f : Machine → Except (Located Fault) α} {a : α} :
    inspect f m = .ok a m' ↔ f m = .ok a ∧ m' = m := by
  unfold inspect
  cases f m <;> simp [eq_comm]

@[simp] theorem inspect_error_iff {f : Machine → Except (Located Fault) α} :
    inspect f m = .error e m' ↔ f m = .error e ∧ m' = m := by
  unfold inspect
  cases f m <;> simp [eq_comm]

@[simp] theorem changeState_ok_iff {f : State → State} {u : Unit} :
    changeState f m = .ok u m' ↔ m' = ⟨f m.state, m.canvas⟩ := by
  constructor
  · intro h
    cases h
    rfl
  · intro h
    subst h
    rfl

@[simp] theorem draw_ok_iff {p : Position} {d : Draw Unit} {u : Unit} :
    draw p d m = .ok u m' ↔
      ∃ canvas pen, d ⟨m.canvas, m.state.pen⟩ = .ok () ⟨canvas, pen⟩ ∧
        m' = ⟨{ m.state with pen }, canvas⟩ := by
  simp only [draw]
  cases d ⟨m.canvas, m.state.pen⟩ with
  | ok u' easel =>
    constructor
    · intro h
      cases h
      exact ⟨easel.canvas, easel.pen, rfl, rfl⟩
    · rintro ⟨canvas, pen, h, rfl⟩
      cases h
      rfl
  | error fault easel => simp

theorem draw_error_iff {p : Position} {d : Draw Unit} (hd : d.Atomic) :
    draw p d m = .error e m' ↔
      ∃ fault, d ⟨m.canvas, m.state.pen⟩ = .error fault ⟨m.canvas, m.state.pen⟩ ∧
        e = ⟨.canvas fault, p⟩ ∧ m' = m := by
  simp only [draw]
  cases h : d ⟨m.canvas, m.state.pen⟩ with
  | ok u' easel => simp
  | error fault easel =>
    obtain rfl := hd h
    constructor
    · intro h'
      cases h'
      exact ⟨fault, rfl, rfl, rfl⟩
    · rintro ⟨fault', h', rfl, rfl⟩
      cases h'
      rfl

end

@[simp] theorem indexOf_eq_ok_iff {s : State} {name : String} {p : Position} {index : Int} :
    s.indexOf name p = .ok index ↔ s.labels.get? name = some index := by
  unfold State.indexOf
  cases s.labels.get? name <;> simp

theorem step_ok_iff {s : Tree} {m m' : Machine} {target : Option Int} :
    step s m = .ok target m' ↔ Effect s m target m' := by
  constructor
  · intro h
    cases s with
    | spawn x y p =>
      simp only [step, exec_bind_ok_iff, inspect_ok_iff, draw_ok_iff, changeState_ok_iff,
        exec_pure_ok_iff] at h
      obtain ⟨_, _, ⟨hfresh, rfl⟩, _, _, ⟨canvas, pen, hmoved, rfl⟩, _, _, rfl, rfl, rfl⟩ := h
      cases hmoved
      split at hfresh
      · cases hfresh
      · rename_i hspawned
        exact .spawn (by simpa using hspawned)
    | assign name expr p =>
      simp only [step, exec_bind_ok_iff, inspect_ok_iff, changeState_ok_iff, exec_pure_ok_iff] at h
      obtain ⟨v, _, ⟨hv, rfl⟩, _, _, rfl, rfl, rfl⟩ := h
      exact .assign hv
    | call name args p =>
      simp only [step, call, exec_bind_ok_iff, inspect_ok_iff, exec_pure_ok_iff] at h
      obtain ⟨_, _, ⟨b, _, ⟨hb, rfl⟩, vs, _, ⟨hvs, rfl⟩, h⟩, rfl, rfl⟩ := h
      split at h
      · rename_i hvoid
        simp only [exec_bind_ok_iff, inspect_ok_iff, draw_ok_iff, drawing_eq_ok_iff] at h
        obtain ⟨d, _, ⟨hd, rfl⟩, canvas, pen, hdrawn, rfl⟩ := h
        exact .instruct hb hvs hvoid hd hdrawn
      · rename_i hvoid
        simp only [exec_bind_ok_iff, inspect_ok_iff, exec_pure_ok_iff] at h
        obtain ⟨v, _, ⟨hv, rfl⟩, -, rfl⟩ := h
        exact .query hb hvs hvoid hv
    | goto target condition p =>
      simp only [step, exec_bind_ok_iff, inspect_ok_iff] at h
      obtain ⟨v, _, ⟨hv, rfl⟩, taken, _, ⟨htaken, rfl⟩, h⟩ := h
      split at h
      · rename_i hholds
        subst hholds
        simp only [exec_bind_ok_iff, inspect_ok_iff, exec_pure_ok_iff] at h
        obtain ⟨index, _, ⟨hindex, rfl⟩, rfl, rfl⟩ := h
        exact .jump hv htaken (indexOf_eq_ok_iff.1 hindex)
      · rename_i hfails
        rw [exec_pure_ok_iff] at h
        obtain ⟨rfl, rfl⟩ := h
        rw [Bool.not_eq_true] at hfails
        subst hfails
        exact .pass hv htaken
    | label name p =>
      simp only [step, exec_pure_ok_iff] at h
      obtain ⟨rfl, rfl⟩ := h
      exact .label
    | _ => cases h
  · intro h
    cases h with
    | @spawn x y p m fresh =>
      have hmoved : Draw.setCursor x y ⟨m.canvas, m.state.pen⟩ =
          .ok () ⟨m.canvas, { m.state.pen with x, y }⟩ := rfl
      simp [step, fresh, hmoved]
    | assign value => simp [step, value]
    | @instruct name args p m b vs d canvas pen builtin values void drawing drawn =>
      have hdrawn : ∃ d, Drawing b vs d ∧ d ⟨m.canvas, m.state.pen⟩ = .ok () ⟨canvas, pen⟩ :=
        ⟨d, drawing, drawn⟩
      simpa [step, call, builtin, values, void] using hdrawn
    | query builtin values notVoid answer => simp [step, call, builtin, values, notVoid, answer]
    | pass value fails => simp [step, value, fails]
    | jump value holds label => simp [step, value, holds, label]
    | label => rfl

/-- The statements that fail, with their faults. -/
inductive Fails : Tree → Machine → Located Fault → Prop
  | spawn {x y : Int} {p : Position} {m : Machine} (spawned : m.state.spawned = true) :
    Fails (.spawn x y p) m ⟨.secondSpawn, p⟩
  | assign {name : String} {expr : Tree} {p : Position} {m : Machine} {e : Located Fault}
      (value : eval m expr = .error e) : Fails (.assign name expr p) m e
  | builtin {name : String} {args : List Tree} {p : Position} {m : Machine} {e : Located Fault}
      (builtin : resolve name args.length p = .error e) : Fails (.call name args p) m e
  | values {name : String} {args : List Tree} {p : Position} {m : Machine} {b : Builtin}
      {e : Located Fault} (builtin : resolve name args.length p = .ok b)
      (values : evalAll m args = .error e) : Fails (.call name args p) m e
  | drawing {name : String} {args : List Tree} {p : Position} {m : Machine} {b : Builtin}
      {vs : List Value} {e : Located Fault} (builtin : resolve name args.length p = .ok b)
      (values : evalAll m args = .ok vs) (void : b.result = .void)
      (drawing : drawing b p vs = .error e) : Fails (.call name args p) m e
  | refused {name : String} {args : List Tree} {p : Position} {m : Machine} {b : Builtin}
      {vs : List Value} {d : Draw Unit} {fault : Canvas.Fault}
      (builtin : resolve name args.length p = .ok b) (values : evalAll m args = .ok vs)
      (void : b.result = .void) (drawing : Drawing b vs d)
      (refused : d ⟨m.canvas, m.state.pen⟩ = .error fault ⟨m.canvas, m.state.pen⟩) :
    Fails (.call name args p) m ⟨.canvas fault, p⟩
  | query {name : String} {args : List Tree} {p : Position} {m : Machine} {b : Builtin}
      {vs : List Value} {e : Located Fault} (builtin : resolve name args.length p = .ok b)
      (values : evalAll m args = .ok vs) (notVoid : b.result ≠ .void)
      (answer : query m b p vs = .error e) : Fails (.call name args p) m e
  | condition {target : String} {condition : Tree} {p : Position} {m : Machine} {e : Located Fault}
      (value : eval m condition = .error e) : Fails (.goto target condition p) m e
  | decision {target : String} {condition : Tree} {p : Position} {m : Machine} {v : Value}
      {e : Located Fault} (value : eval m condition = .ok v)
      (decision : asCondition condition.position v = .error e) :
      Fails (.goto target condition p) m e
  | target {target : String} {condition : Tree} {p : Position} {m : Machine} {v : Value}
      (value : eval m condition = .ok v) (holds : asCondition condition.position v = .ok true)
      (label : m.state.labels.get? target = none) :
    Fails (.goto target condition p) m ⟨.noLabel target, p⟩
  | stray {t : Tree} {m : Machine} (stray : t.isStatement = false) :
    Fails t m ⟨.stray (.statement t.sortName), t.position⟩

@[simp] theorem indexOf_eq_error_iff {s : State} {name : String} {p : Position}
    {e : Located Fault} :
    s.indexOf name p = .error e ↔ s.labels.get? name = none ∧ e = ⟨.noLabel name, p⟩ := by
  unfold State.indexOf
  cases s.labels.get? name <;> simp [eq_comm]

theorem step_error_iff {s : Tree} {m m' : Machine} {e : Located Fault} :
    step s m = .error e m' ↔ Fails s m e ∧ m' = m := by
  constructor
  · intro h
    cases s with
    | spawn x y p =>
      simp only [step, exec_bind_error_iff, inspect_error_iff] at h
      obtain ⟨h, rfl⟩ | ⟨_, _, -, ⟨_, h, -⟩ | ⟨_, _, -, h | ⟨_, _, -, h⟩⟩⟩ := h
      · split at h
        · rename_i hspawned
          cases h
          exact ⟨.spawn hspawned, rfl⟩
        · cases h
      all_goals cases h
    | assign name expr p =>
      simp only [step, exec_bind_error_iff, inspect_error_iff] at h
      obtain ⟨h, rfl⟩ | ⟨_, _, -, h | ⟨_, _, -, h⟩⟩ := h
      · exact ⟨.assign h, rfl⟩
      all_goals cases h
    | call name args p =>
      simp only [step, call, exec_bind_error_iff, inspect_error_iff, inspect_ok_iff] at h
      obtain (⟨h, rfl⟩ | ⟨b, _, ⟨hb, rfl⟩, ⟨h, rfl⟩ | ⟨vs, _, ⟨hvs, rfl⟩, h⟩⟩) | ⟨_, _, -, h⟩ := h
      · exact ⟨.builtin h, rfl⟩
      · exact ⟨.values hb h, rfl⟩
      · split at h
        · rename_i hvoid
          simp only [exec_bind_error_iff, inspect_error_iff, inspect_ok_iff] at h
          obtain ⟨h, rfl⟩ | ⟨d, _, ⟨hd, rfl⟩, h⟩ := h
          · exact ⟨.drawing hb hvs hvoid h, rfl⟩
          · rw [drawing_eq_ok_iff] at hd
            rw [draw_error_iff hd.atomic] at h
            obtain ⟨fault, hfault, rfl, rfl⟩ := h
            exact ⟨.refused hb hvs hvoid hd hfault, rfl⟩
        · rename_i hvoid
          simp only [exec_bind_error_iff, inspect_error_iff] at h
          obtain ⟨h, rfl⟩ | ⟨_, _, -, h⟩ := h
          · exact ⟨.query hb hvs hvoid h, rfl⟩
          · cases h
      · cases h
    | goto target condition p =>
      simp only [step, exec_bind_error_iff, inspect_error_iff, inspect_ok_iff] at h
      obtain ⟨h, rfl⟩ | ⟨v, _, ⟨hv, rfl⟩, ⟨h, rfl⟩ | ⟨taken, _, ⟨htaken, rfl⟩, h⟩⟩ := h
      · exact ⟨.condition h, rfl⟩
      · exact ⟨.decision hv h, rfl⟩
      · split at h
        · rename_i hholds
          subst hholds
          simp only [exec_bind_error_iff, inspect_error_iff, indexOf_eq_error_iff] at h
          obtain ⟨⟨h, rfl⟩, rfl⟩ | ⟨_, _, -, h⟩ := h
          · exact ⟨.target hv htaken h, rfl⟩
          · cases h
        · cases h
    | label name p => cases h
    | _ =>
      cases h
      exact ⟨.stray rfl, rfl⟩
  · rintro ⟨h, rfl⟩
    cases h with
    | spawn spawned => simp [step, spawned]
    | assign value => simp [step, value]
    | builtin builtin => simp [step, call, builtin]
    | values builtin values => simp [step, call, builtin, values]
    | drawing builtin values void drawing => simp [step, call, builtin, values, void, drawing]
    | @refused name args p _ b vs d fault builtin values void drawing refused =>
      have hrefused : ∃ d, Drawing b vs d ∧ draw p d m' = .error ⟨.canvas fault, p⟩ m' :=
        ⟨d, drawing, (draw_error_iff drawing.atomic).2 ⟨fault, refused, rfl, rfl⟩⟩
      simp [step, call, builtin, values, void, hrefused]
    | query builtin values notVoid answer => simp [step, call, builtin, values, notVoid, answer]
    | condition value => simp [step, value]
    | decision value decision => simp [step, value, decision]
    | target value holds label => simp [step, value, holds, label]
    | stray stray =>
      cases s with
      | spawn | assign | label | goto | call => cases stray
      | _ => rfl

section

variable {s : Tree} {m m' : Machine} {target : Option Int} {e : Located Fault}

theorem Effect.labels_eq (h : Effect s m target m') : m'.state.labels = m.state.labels := by
  cases h <;> rfl

theorem Effect.pointer_eq (h : Effect s m target m') : m'.state.pointer = m.state.pointer := by
  cases h <;> rfl

/-- The machine with its notes on the run changed, the last line and the pointer. -/
def noted (m : Machine) (line pointer : Int → Int) : Machine :=
  ⟨{ m.state with lastLine := line m.state.lastLine, pointer := pointer m.state.pointer }, m.canvas⟩

theorem alike_noted (m : Machine) (line pointer : Int → Int) : Alike m (m.noted line pointer) :=
  ⟨rfl, rfl, rfl⟩

section

variable {Q : Position → Position → Prop} {R : Tree → Tree → Prop} {s' : Tree}

/-- Neither its notes on the run nor the places of nodes play a part in what a statement does to a
machine. -/
theorem Effect.congruent (hR : ∀ {t t'}, R t t' → t.Congruent Q R t') (h : Effect s m target m')
    (hs : s.Congruent Q R s') (line pointer : Int → Int) :
    Effect s' (m.noted line pointer) target (m'.noted line pointer) := by
  have hm := alike_noted m line pointer
  have heval {t t' : Tree} (ht : R t t') := answers_eval (Q := Q) hR hm .empty t ht
  have hevalAll {ts ts' : List Tree} (hts : List.Forall₂ R ts ts') :=
    answers_evalAll (Q := Q) hR hm .empty ts hts
  cases h with
  | spawn fresh =>
    cases hs
    exact .spawn (m := m.noted line pointer) fresh
  | assign value =>
    cases hs with
    | assign expr place => exact .assign (m := m.noted line pointer) ((heval expr).of_ok value).1
  | instruct builtin values void drawing drawn =>
    cases hs with
    | call arguments place =>
      rw [arguments.length_eq] at builtin
      have hbuiltin := ((answers_resolve place _ _).of_ok builtin).1
      exact .instruct (m := m.noted line pointer) hbuiltin ((hevalAll arguments).of_ok values).1
        void drawing drawn
  | query builtin values notVoid answer =>
    cases hs with
    | call arguments place =>
      rw [arguments.length_eq] at builtin
      rw [hm.query] at answer
      have hbuiltin := ((answers_resolve place _ _).of_ok builtin).1
      have hanswer := ((answers_query place _ _ _).of_ok answer).1
      exact .query hbuiltin ((hevalAll arguments).of_ok values).1 notVoid hanswer
  | pass value fails =>
    cases hs with
    | goto decision place =>
      have hfails := ((answers_asCondition (hR decision).position _).of_ok fails).1
      exact .pass ((heval decision).of_ok value).1 hfails
  | jump value holds label =>
    cases hs with
    | goto decision place =>
      have hholds := ((answers_asCondition (hR decision).position _).of_ok holds).1
      exact .jump ((heval decision).of_ok value).1 hholds label
  | label =>
    cases hs
    exact .label

theorem Fails.congruent (hR : ∀ {t t'}, R t t' → t.Congruent Q R t') (h : Fails s m e)
    (hs : s.Congruent Q R s') (line pointer : Int → Int) :
    ∃ p', Fails s' (m.noted line pointer) ⟨e.cause, p'⟩ ∧ Q e.position p' := by
  have hm := alike_noted m line pointer
  have heval {t t' : Tree} (ht : R t t') := answers_eval (Q := Q) hR hm .empty t ht
  have hevalAll {ts ts' : List Tree} (hts : List.Forall₂ R ts ts') :=
    answers_evalAll (Q := Q) hR hm .empty ts hts
  cases h with
  | spawn spawned =>
    cases hs with
    | spawn place => exact ⟨_, .spawn spawned, place⟩
  | assign value =>
    cases hs with
    | assign expr place =>
      obtain ⟨-, p', hvalue, hplace⟩ := (heval expr).of_error value
      exact ⟨p', .assign hvalue, hplace⟩
  | builtin builtin =>
    cases hs with
    | call arguments place =>
      rw [arguments.length_eq] at builtin
      obtain ⟨-, p', hbuiltin, hplace⟩ := (answers_resolve place _ _).of_error builtin
      exact ⟨p', .builtin hbuiltin, hplace⟩
  | values builtin values =>
    cases hs with
    | call arguments place =>
      rw [arguments.length_eq] at builtin
      have hbuiltin := ((answers_resolve place _ _).of_ok builtin).1
      obtain ⟨-, p', hvalues, hplace⟩ := (hevalAll arguments).of_error values
      exact ⟨p', .values hbuiltin hvalues, hplace⟩
  | drawing builtin values void drawing =>
    cases hs with
    | call arguments place =>
      rw [arguments.length_eq] at builtin
      have hbuiltin := ((answers_resolve place _ _).of_ok builtin).1
      obtain ⟨-, p', hdrawing, hplace⟩ := (answers_drawing place _ _).of_error drawing
      exact ⟨p', .drawing hbuiltin ((hevalAll arguments).of_ok values).1 void hdrawing, hplace⟩
  | refused builtin values void drawing refused =>
    cases hs with
    | call arguments place =>
      rw [arguments.length_eq] at builtin
      have hbuiltin := ((answers_resolve place _ _).of_ok builtin).1
      exact ⟨_, .refused hbuiltin ((hevalAll arguments).of_ok values).1 void drawing refused, place⟩
  | query builtin values notVoid answer =>
    cases hs with
    | call arguments place =>
      rw [arguments.length_eq] at builtin
      rw [hm.query] at answer
      have hbuiltin := ((answers_resolve place _ _).of_ok builtin).1
      obtain ⟨-, p', hanswer, hplace⟩ := (answers_query place _ _ _).of_error answer
      exact ⟨p', .query hbuiltin ((hevalAll arguments).of_ok values).1 notVoid hanswer, hplace⟩
  | condition value =>
    cases hs with
    | goto decision place =>
      obtain ⟨-, p', hvalue, hplace⟩ := (heval decision).of_error value
      exact ⟨p', .condition hvalue, hplace⟩
  | decision value decision =>
    cases hs with
    | goto condition place =>
      obtain ⟨-, p', hdecision, hplace⟩ :=
        (answers_asCondition (hR condition).position _).of_error decision
      exact ⟨p', .decision ((heval condition).of_ok value).1 hdecision, hplace⟩
  | target value holds label =>
    cases hs with
    | goto condition place =>
      have hholds := ((answers_asCondition (hR condition).position _).of_ok holds).1
      exact ⟨_, .target ((heval condition).of_ok value).1 hholds label, place⟩
  | stray stray =>
    refine ⟨_, ?_, hs.position⟩
    rw [hs.sortName_eq]
    exact .stray (hs.isStatement_eq ▸ stray)

end

def aim (m : Machine) (pointer : Int) : Machine := ⟨{ m.state with pointer }, m.canvas⟩

theorem Effect.aim (h : Effect s m target m') (q : Int) : Effect s (m.aim q) target (m'.aim q) :=
  h.congruent Tree.Congruent.of_eq (.of_eq rfl) id fun _ => q

theorem Fails.aim (h : Fails s m e) (q : Int) : Fails s (m.aim q) e := by
  obtain ⟨p', hfails, rfl⟩ := h.congruent Tree.Congruent.of_eq (.of_eq rfl) id fun _ => q
  exact hfails

end

end Machine

end Brushwork
