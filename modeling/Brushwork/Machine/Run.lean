import Brushwork.Machine.Step

/-!
# Runs in chunks

A chunk starts at a line and executes statements until the program ends or its window is left. A
bounded window of `budget` statements covers as many lines from its start on: it ends when the
budget is used up, before a statement behind it, or after a jump out of it. The next chunk goes on
at the line that this one reports.

A run need not end, so it is given a number of statements after which it is given up.
-/

namespace Brushwork.Machine

structure Window where
  start : Int := 1
  budget : Int := -1

namespace Window

/-- A budget of minus one is none. -/
def bounded (w : Window) : Bool := w.budget ≠ -1

/-- The first line behind the window. -/
def stop (w : Window) : Int := w.start + w.budget

end Window

/-- What a run reports on its way. -/
inductive Event where
  | started (line budget : Int) (pointer : Nat)
  | jumped (source target : Int)
  | ended (pointer : Nat) (finished : Bool)
deriving DecidableEq

def Event.message : Event → String
  | .started line budget pointer =>
    "chunk start line=" ++ toString line ++ " budget=" ++ toString budget ++ " pointer=" ++
      toString pointer
  | .jumped source target => "jump from line " ++ toString source ++ " to line " ++ toString target
  | .ended pointer finished =>
    "chunk end pointer=" ++ toString pointer ++ " finished=" ++ if finished then "True" else "False"

/-- What a chunk reports at its end. -/
structure Chunk where
  cursorX : Int
  cursorY : Int
  lastLine : Int
  pointer : Nat
  nextLine : Int
  finished : Bool
deriving DecidableEq

/-- Declare the labels among statements from number `index` on. -/
def declareLabels (index : Nat) : List Tree → Exec Unit
  | [] => pure ()
  | .label name p :: statements => do
    let state ← inspect fun m => m.state.declareLabel name index p
    changeState fun _ => state
    declareLabels (index + 1) statements
  | _ :: statements => declareLabels (index + 1) statements

/-- Forget all labels and declare those of a program. A failure keeps the labels declared before
it. -/
def indexLabels (program : Program) : Exec Unit := do
  changeState fun s => { s with labels := .empty }
  declareLabels 0 program.statements

/-- The number of the first statement at or behind a line. -/
def startIndex (program : Program) (line : Int) : Nat :=
  if line ≤ 1 then 0 else program.statements.findIdx fun s => line ≤ s.position.line

/-- A run on its way: the machine, the number of the next statement, how many have been executed,
and the jumps so far with the latest first. -/
structure Run where
  machine : Machine
  pointer : Nat
  executed : Nat := 0
  jumps : List Event := []

inductive Progress where
  | stopped (r : Run)
  | advanced (r : Run)
  | failed (e : Located Fault) (r : Run)

/-- Whether a window lets a run execute the next statement, which stands on the line given. -/
def Window.admits (w : Window) (executed : Nat) (line : Int) : Bool :=
  !w.bounded || (executed < w.budget && line < w.stop)

/-- Whether a window goes on after a jump to a line. -/
def Window.holds (w : Window) (line : Int) : Bool :=
  !w.bounded || (w.start ≤ line && line < w.stop)

/-- Execute the next statement, if there is one that the window admits. -/
def Run.next (program : Program) (w : Window) : Run → Progress
  | ⟨machine, pointer, executed, jumps⟩ =>
    match program.statements[pointer]? with
    | none => .stopped ⟨machine, pointer, executed, jumps⟩
    | some s =>
      if w.admits executed s.position.line then
        match step s machine with
        | .error e machine => .failed e ⟨machine, pointer, executed, jumps⟩
        | .ok target ⟨state, canvas⟩ =>
          let machine : Machine := ⟨{ state with lastLine := s.position.line }, canvas⟩
          match target with
          | none => .advanced ⟨machine, pointer + 1, executed + 1, jumps⟩
          | some index =>
            let line := (program.line? index.toNat).getD 0
            let r : Run :=
              ⟨machine, index.toNat, executed + 1, .jumped s.position.line line :: jumps⟩
            if w.holds line then .advanced r else .stopped r
      else .stopped ⟨machine, pointer, executed, jumps⟩

/-- How a run ends: at rest, with a fault, or given up. -/
inductive Ending where
  | rested (r : Run)
  | failed (e : Located Fault) (r : Run)
  | givenUp (r : Run)

def Run.finish (program : Program) (w : Window) : (patience : Nat) → Run → Ending
  | 0, r => .givenUp r
  | patience + 1, r =>
    match r.next program w with
    | .stopped r => .rested r
    | .failed e r => .failed e r
    | .advanced r => r.finish program w patience

/-- The result of a chunk. -/
inductive Outcome where
  | chunk (c : Chunk)
  | failed (e : Located Fault)
  | givenUp
deriving DecidableEq

/-- The report of a run that rests at a statement or behind the last one. -/
def report (program : Program) (s : State) (pointer : Nat) : Chunk :=
  { cursorX := s.pen.x
    cursorY := s.pen.y
    lastLine := s.lastLine
    pointer
    nextLine := (program.line? pointer).getD (s.lastLine + 1)
    finished := program.statements.length ≤ pointer }

/-- Run a chunk of a program. The machine is given back whatever the outcome, and so are the
events. -/
def execute (patience : Nat) (program : Program) (w : Window) (m : Machine) :
    Outcome × Machine × List Event :=
  match indexLabels program m with
  | .error e m => (.failed e, m, [])
  | .ok _ m =>
    let pointer := startIndex program w.start
    let started : Event := .started w.start w.budget pointer
    match Run.finish program w patience { machine := m, pointer } with
    | .givenUp r => (.givenUp, r.machine, started :: r.jumps.reverse)
    | .failed e r => (.failed e, r.machine, started :: r.jumps.reverse)
    | .rested ⟨⟨state, canvas⟩, pointer, _, jumps⟩ =>
      let state := { state with pointer }
      let c := report program state pointer
      (.chunk c, ⟨state, canvas⟩, started :: (jumps.reverse ++ [.ended pointer c.finished]))

/-- Patience that no run on a computer uses up. -/
def ample : Nat := Nat.pow 2 62

end Brushwork.Machine
