import Brushwork.Cli.Log
import Brushwork.Cli.Options
import Brushwork.Cli.Saved
import Brushwork.Machine.Run
import Brushwork.Tree.Outline

/-!
# Carrying out commands

A command works on a disk and gives a reply: an exit code, what it prints, and its log. `check`
lists the diagnostics of a program, `ast` prints its outline, and `run` executes a chunk of it,
which may start from a saved machine and save it again. A run that fails before its chunk is done
writes nothing; the answer is printed last, after the machine has been saved.
-/

namespace Brushwork.Cli

structure Reply where
  exit : Nat
  stdout : String
  notes : List Note := []

/-- Settings from outside the arguments: named texts, a mark for temporary files, and the number of
statements after which a run is given up. -/
structure Setting where
  texts : Table String String := .empty
  mark : String := "0"
  patience : Nat := Machine.ample

def diagnosticJson (d : Diagnostic) : Json :=
  .object [("line", .int d.position.line), ("column", .int d.position.column),
    ("message", .text d.message)]

/-- The reply that lists diagnostics. -/
def listing (ds : List Diagnostic) : Reply :=
  { exit := if ds.isEmpty then 0 else 1
    stdout := (Json.object [("errors", .array (ds.map diagnosticJson))]).write ++ "\n" }

def readBytes (d : Disk) (file : String) : Except Failure Bytes :=
  (d.read (Path.ofText file)).mapError .unreadable

def readText (d : Disk) (file : String) : Except Failure String := do
  let bs ← readBytes d file
  match Text.ofBytes bs with
  | .ok s => pure s
  | .error fault => throw (.undecodable fault)

def check (d : Disk) (file : String) : Except Failure Reply := do
  let source ← readText d file
  match Source.check source with
  | .ok ds => pure (listing ds)
  | .error (.notNumeral lexeme) => throw (.notNumeral lexeme)
  | .error (.stray node) => throw (.stray node)

def ast (d : Disk) (file : String) : Except Failure Reply := do
  let source ← readText d file
  match Source.compile source with
  | .error (.parsing (.notNumeral lexeme)) => throw (.notNumeral lexeme)
  | .error why => pure (listing [why.diagnostic])
  | .ok program =>
    match program.toTree.outline 0 with
    | .ok text => pure { exit := 0, stdout := text ++ "\n" }
    | .error node => throw (.stray node)

/-- The file of a saved machine to start from. A file is asked about also when it is not to be
used. -/
def savedFile (o : RunOptions) (d : Disk) : Except Failure (Option String) :=
  match o.state with
  | none => .ok none
  | some file => do
    let isThere ← (d.isPresent (Path.ofText file)).mapError .unreadable
    pure (if isThere && !o.reset then some file else none)

/-- The machine saved in a file, if it has the size asked for. -/
def restore (o : RunOptions) (d : Disk) (file : String) : Except Failure (Option Machine) := do
  let text ← readText d file
  let j ← (Json.read text).mapError .unparsable
  resume o.width o.height j

/-- The machine that a run starts from. The notes are there also if there is none. -/
def start (o : RunOptions) (d : Disk) : List Note × Except Failure Machine :=
  match savedFile o d with
  | .error f => ([], .error f)
  | .ok none => ([], mount o.width o.height {})
  | .ok (some file) =>
    match restore o d file with
    | .error f => ([], .error f)
    | .ok (some m) =>
      ([⟨.debug, "pixelwalle", "resumed state from " ++ (Path.ofText file).text⟩], .ok m)
    | .ok none =>
      ([⟨.info, "pixelwalle", "canvas size changed, starting from a blank canvas"⟩],
        mount o.width o.height {})

def eventNote (e : Machine.Event) : Note := ⟨.debug, "Interpreter.interpreter", e.message⟩

def window (o : RunOptions) : Except Failure Machine.Window :=
  match o.startLine, o.budget with
  | none, _ => .error .noStart
  | some _, none => .error .noBudget
  | some start, some budget => .ok { start, budget }

/-- Execute a program on a machine. The labels are declared before a missing number is noticed. -/
def runChunk (patience : Nat) (o : RunOptions) (program : Program) (m : Machine) :
    List Note × Except Failure (Machine.Chunk × Machine) :=
  match window o with
  | .error f =>
    match Machine.indexLabels program m with
    | .error e _ => ([], .error (.stopped e))
    | .ok _ _ => ([], .error f)
  | .ok w =>
    let (outcome, m, events) := Machine.execute patience program w m
    (events.map eventNote,
      match outcome with
      | .chunk c => .ok (c, m)
      | .failed e => .error (.stopped e)
      | .givenUp => .error .givenUp)

/-- The chunk of a run with the machine behind it. The notes are there also if the run fails. -/
def execution (patience : Nat) (o : RunOptions) (d : Disk) :
    List Note × Except Failure (Machine.Chunk × Machine) :=
  match readText d o.file with
  | .error f => ([], .error f)
  | .ok source =>
    match start o d with
    | (notes, .error f) => (notes, .error f)
    | (notes, .ok m) =>
      match o.inputImage.elim (.ok #[]) (readBytes d) with
      | .error f => (notes, .error f)
      | .ok _ =>
        if o.inputImage.isSome then (notes, .error (.unavailable "Reading images"))
        else
          match Source.compile source with
          | .error why => (notes, .error (.rejected why))
          | .ok program =>
            let (further, result) := runChunk patience o program m
            (notes ++ further, result)

/-- Save a machine. Nothing is written if an integer is too long. -/
def save (mark : String) (file : String) (m : Machine) (d : Disk) : Except Failure Unit × Disk :=
  if (saved m).isWritable then
    match Disk.replace mark (Path.ofText file) (Text.toBytes (saved m).write) d with
    | .error fault d => (.error (.unwritable fault), d)
    | .ok _ d => (.ok (), d)
  else (.error .longInteger, d)

def chunkJson (c : Machine.Chunk) : List (Text × Json) :=
  [("cursorX", .int c.cursorX), ("cursorY", .int c.cursorY), ("lastProcessedLine", .int c.lastLine),
    ("nextLine", .int c.nextLine), ("finished", .bool c.finished)]

/-- Keep a machine in the file asked for, if there is one. -/
def keep (s : Setting) (o : RunOptions) (m : Machine) (d : Disk) : Except Failure Unit × Disk :=
  o.state.elim (.ok (), d) fun file => save s.mark file m d

/-- The answer of a run: its chunk, and the letters of the canvas if they are asked for. -/
def chunkAnswer (o : RunOptions) (c : Machine.Chunk) (m : Machine) : Json :=
  let view : List (Text × Json) :=
    if o.debugView then [("debugView", .text m.canvas.grid.letters)] else []
  .object (chunkJson c ++ view)

def run (s : Setting) (o : RunOptions) (d : Disk) : Except Failure Reply × Disk :=
  match execution s.patience o d with
  | (notes, .error f) =>
    match f.diagnostic? with
    | some diagnostic => (.ok { listing [diagnostic] with notes }, d)
    | none => (.error f, d)
  | (notes, .ok (c, m)) =>
    match keep s o m d with
    | (.error f, d) => (.error f, d)
    | (.ok _, d) =>
      if o.output.isSome || o.base64 then (.error (.unavailable "Writing images"), d)
      else
        let answer := chunkAnswer o c m
        if answer.isWritable then (.ok { exit := 0, stdout := answer.write ++ "\n", notes }, d)
        else (.error .longInteger, d)

inductive Verdict where
  | reply (exit : Nat) (stdout log : String)
  | exit (e : Exit)
  | failure (f : Failure)

/-- A size from the settings. -/
def sizeSetting (s : Setting) (name : String) (default : Int) : Except Failure Int :=
  match s.texts.get? name with
  | none => .ok default
  | some text =>
    match Numeral.ofText? text with
    | some n => .ok n
    | none => .error (.notNumeral text)

def sizes (s : Setting) : Except Failure (Int × Int) := do
  let width ← sizeSetting s "PIXELWALLE_WIDTH" 1080
  let height ← sizeSetting s "PIXELWALLE_HEIGHT" 720
  pure (width, height)

def leastRank (s : Setting) (verbose : Bool) : Except Failure Nat :=
  if verbose then .ok 10
  else
    (threshold ((s.texts.get? "PIXELWALLE_LOG_LEVEL").getD "WARNING")).mapError .noLevel

def perform (s : Setting) (d : Disk) : Command → Except Failure Reply × Disk
  | .check file => (check d file, d)
  | .ast file => (ast d file, d)
  | .run o => run s o d
  | .gui _ => (.error (.unavailable "The editor"), d)

/-- The whole program: sizes, then arguments, then the log level, then the command. -/
def answer (s : Setting) (args : List String) (d : Disk) : Verdict × Disk :=
  match sizes s with
  | .error f => (.failure f, d)
  | .ok (width, height) =>
    match parse width height args with
    | .error e => (.exit e, d)
    | .ok invocation =>
      match leastRank s invocation.verbose with
      | .error f => (.failure f, d)
      | .ok least =>
        match perform s d invocation.command with
        | (.error f, d) => (.failure f, d)
        | (.ok r, d) => (.reply r.exit r.stdout (logText least r.notes), d)

end Brushwork.Cli
