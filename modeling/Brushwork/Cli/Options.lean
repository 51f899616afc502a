import Brushwork.Cli.Grammar
import Brushwork.Number.Numeral

/-!
# Commands and their options

The first plain argument names a command, and the arguments behind it belong to the command.
Switches take effect in order: a request for help ends the reading, unless a mistake comes before
it.

A switch that is given without its value takes back what an earlier one has set. A number is then
missing, which is no mistake here: the run finds out when it needs the number.
-/

namespace Brushwork.Cli

structure RunOptions where
  file : String
  width : Option Int
  height : Option Int
  startLine : Option Int := some 1
  budget : Option Int := some (-1)
  state : Option String := none
  inputImage : Option String := none
  output : Option String := none
  base64 : Bool := false
  debugView : Bool := false
  reset : Bool := false

inductive Command where
  | check (file : String)
  | ast (file : String)
  | run (options : RunOptions)
  | gui (file : Option String)

structure Invocation where
  verbose : Bool
  command : Command

/-- The page of help asked for. -/
inductive Topic where
  | overview | check | ast | run | gui
deriving DecidableEq

/-- Why no command is carried out. -/
inductive Exit where
  | usage
  | help (topic : Topic)
deriving DecidableEq

def Exit.code : Exit → Nat
  | .usage => 2
  | .help _ => 0

inductive MainKey where
  | help | verbose

inductive FileKey where
  | help

inductive RunKey where
  | help | width | height | startLine | budget | state | inputImage | output
  | base64 | debugView | reset

def mainGrammar : Grammar MainKey where
  switches := [⟨["-h", "--help"], false, .help⟩, ⟨["-v", "--verbose"], false, .verbose⟩]
  plain := .remaining

def fileGrammar (plain : Plain) : Grammar FileKey where
  switches := [⟨["-h", "--help"], false, .help⟩]
  plain := plain

def runGrammar : Grammar RunKey where
  switches :=
    [⟨["-h", "--help"], false, .help⟩, ⟨["--width"], true, .width⟩, ⟨["--height"], true, .height⟩,
      ⟨["--start-line"], true, .startLine⟩, ⟨["--lines-to-process"], true, .budget⟩,
      ⟨["--state"], true, .state⟩, ⟨["--input-image"], true, .inputImage⟩,
      ⟨["--output"], true, .output⟩, ⟨["--base64"], false, .base64⟩,
      ⟨["--debug-view"], false, .debugView⟩, ⟨["--reset"], false, .reset⟩]
  plain := .one

def isDigit (c : Char) : Bool := (Text.digitValue? c).isSome

/-- The file that a command with no other options is given, if any. -/
def fileOf (topic : Topic) (plain : Plain) (args : List String) : Except Exit (Option String) :=
  let scan := (fileGrammar plain).scan isDigit args
  go scan.sound none scan.items
where
  go (sound : Bool) (file : Option String) : List (Item FileKey) → Except Exit (Option String)
    | [] => if sound then .ok file else .error .usage
    | .flag .help :: _ => .error (.help topic)
    | .value .help _ :: items => go sound file items
    | .noValue .help :: items => go sound file items
    | .plain args :: items => go sound args.head? items

def requiredFile (topic : Topic) (args : List String) : Except Exit String :=
  match fileOf topic .one args with
  | .error e => .error e
  | .ok (some file) => .ok file
  | .ok none => .error .usage

def number (text : String) : Except Exit Int :=
  match Numeral.ofText? text with
  | some n => .ok n
  | none => .error .usage

/-- Options read so far, and whether the file is among them. -/
structure RunDraft where
  options : RunOptions
  named : Bool

def RunDraft.add (d : RunDraft) : Item RunKey → Except Exit RunDraft
  | .plain args => .ok { options := { d.options with file := args.headD "" }, named := true }
  | .flag .help => .error (.help .run)
  | .flag .base64 => .ok { d with options.base64 := true }
  | .flag .debugView => .ok { d with options.debugView := true }
  | .flag .reset => .ok { d with options.reset := true }
  | .value .width text => do let n ← number text; pure { d with options.width := some n }
  | .value .height text => do let n ← number text; pure { d with options.height := some n }
  | .value .startLine text => do let n ← number text; pure { d with options.startLine := some n }
  | .value .budget text => do let n ← number text; pure { d with options.budget := some n }
  | .value .state text => .ok { d with options.state := some text }
  | .value .inputImage text => .ok { d with options.inputImage := some text }
  | .value .output text => .ok { d with options.output := some text }
  | .noValue .width => .ok { d with options.width := none }
  | .noValue .height => .ok { d with options.height := none }
  | .noValue .startLine => .ok { d with options.startLine := none }
  | .noValue .budget => .ok { d with options.budget := none }
  | .noValue .state => .ok { d with options.state := none }
  | .noValue .inputImage => .ok { d with options.inputImage := none }
  | .noValue .output => .ok { d with options.output := none }
  | _ => .ok d

/-- An empty text counts as no value. -/
def present (text : Option String) : Option String := text.filter fun s => s ≠ ""

def runOptions (width height : Int) (args : List String) : Except Exit RunOptions := do
  let scan := runGrammar.scan isDigit args
  let options : RunOptions := { file := "", width := some width, height := some height }
  let draft ← scan.items.foldlM RunDraft.add { options, named := false }
  if scan.sound && draft.named then
    let o := draft.options
    pure { o with
      state := present o.state, inputImage := present o.inputImage, output := present o.output }
  else throw .usage

/-- The command of the arguments behind its name. -/
def commandOf (width height : Int) (name : String) (args : List String) : Except Exit Command :=
  match name with
  | "check" => do let file ← requiredFile .check args; pure (.check file)
  | "ast" => do let file ← requiredFile .ast args; pure (.ast file)
  | "run" => do let options ← runOptions width height args; pure (.run options)
  | "gui" => do let file ← fileOf .gui .optional args; pure (.gui file)
  | _ => throw .usage

/-- Read the arguments of the program, with the canvas size to use when none is given. -/
def parse (width height : Int) (args : List String) : Except Exit Invocation :=
  let scan := mainGrammar.scan isDigit args
  go scan.sound false none scan.items
where
  go (sound verbose : Bool) (command : Option Command) :
      List (Item MainKey) → Except Exit Invocation
    | [] =>
      match command with
      | some command => if sound then .ok ⟨verbose, command⟩ else .error .usage
      | none => .error .usage
    | .flag .help :: _ => .error (.help .overview)
    | .flag .verbose :: items => go sound true command items
    | .value _ _ :: items => go sound verbose command items
    | .noValue _ :: items => go sound verbose command items
    | .plain (name :: args) :: items =>
      match commandOf width height name args with
      | .error e => .error e
      | .ok command => go sound verbose (some command) items
    | .plain [] :: items => go sound verbose command items

end Brushwork.Cli
