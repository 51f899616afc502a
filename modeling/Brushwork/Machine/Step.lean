import Brushwork.Machine.Eval

/-!
# Statements

A statement changes the machine and may ask for a jump. Its outcome carries the machine also when it
fails.
-/

namespace Brushwork.Machine

abbrev Exec := EStateM (Located Fault) Machine

/-- Use the machine without changing it. -/
def inspect {α : Type} (f : Machine → Except (Located Fault) α) : Exec α :=
  fun m =>
    match f m with
    | .ok a => .ok a m
    | .error e => .error e m

/-- Draw on the machine's canvas with its pen; a refusal is a fault at the place given. -/
def draw (p : Position) (d : Draw Unit) : Exec Unit :=
  fun ⟨state, canvas⟩ =>
    match d ⟨canvas, state.pen⟩ with
    | .ok _ ⟨canvas, pen⟩ => .ok () ⟨{ state with pen }, canvas⟩
    | .error fault ⟨canvas, pen⟩ => .error ⟨.canvas fault, p⟩ ⟨{ state with pen }, canvas⟩

/-- Hand the state's pen to the canvas, as one does with a canvas that was made for another
state. -/
def attach : EStateM Canvas.Fault Machine Unit :=
  fun ⟨state, canvas⟩ =>
    match Draw.adopt state.pen ⟨canvas, state.pen⟩ with
    | .ok _ ⟨canvas, pen⟩ => .ok () ⟨{ state with pen }, canvas⟩
    | .error fault ⟨canvas, pen⟩ => .error fault ⟨{ state with pen }, canvas⟩

def changeState (f : State → State) : Exec Unit :=
  modify fun ⟨state, canvas⟩ => ⟨f state, canvas⟩

/-- The drawing that an instruction with evaluated arguments of the right number asks for. A query
asks for none. -/
def drawing (b : Builtin) (p : Position) (vs : List Value) : Except (Located Fault) (Draw Unit) :=
  match b, vs with
  | .color, [color] => do
    let text ← asText (.argument 1 b.name) p color
    pure (Draw.setColor text)
  | _, _ => do
    let ns ← intArguments b.name p 1 vs
    match b, ns with
    | .size, [size] => pure (Draw.setSize size)
    | .drawLine, [dx, dy, length] => pure (Draw.line dx dy length)
    | .drawCircle, [dx, dy, radius] => pure (Draw.circle dx dy radius)
    | .drawRectangle, [dx, dy, distance, width, height] =>
      pure (Draw.rectangle dx dy distance width height)
    | .fill, [] => pure Draw.fill
    | .setCursor, [x, y] => pure (Draw.setCursor x y)
    | _, _ => throw ⟨.argumentCount b.name b.params.length vs.length, p⟩

def call (name : String) (args : List Tree) (p : Position) : Exec Unit := do
  let b ← inspect fun _ => resolve name args.length p
  let vs ← inspect fun m => evalAll m args
  if b.result = .void then
    let d ← inspect fun _ => drawing b p vs
    draw p d
  else
    let _ ← inspect fun m => query m b p vs

/-- Execute a statement; the answer is the number of the statement to jump to, if any. -/
def step : Tree → Exec (Option Int)
  | .spawn x y p => do
    inspect fun m => if m.state.spawned then .error ⟨.secondSpawn, p⟩ else .ok ()
    draw p (Draw.setCursor x y)
    changeState fun s => { s with spawned := true }
    pure none
  | .assign name expr _ => do
    let v ← inspect fun m => eval m expr
    changeState fun s => s.setVariable name v
    pure none
  | .call name args p => do
    call name args p
    pure none
  | .goto target condition p => do
    let v ← inspect fun m => eval m condition
    let taken ← inspect fun _ => asCondition condition.position v
    if taken then
      let index ← inspect fun m => m.state.indexOf target p
      pure (some index)
    else pure none
  | .label _ _ => pure none
  | t => throw ⟨.stray (.statement t.sortName), t.position⟩

end Brushwork.Machine
