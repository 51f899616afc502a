/-!
# Command line arguments

A grammar has switches, some of which take a value, and at most one kind of plain arguments. A
switch may be shortened as long as it is told apart, its value may be attached by `=`, and switches
of one letter may share a dash, with or without a `=` behind the first of them. Behind a lone `--`
everything is plain, and so are negative numbers and texts with a blank. A switch that takes a value
and has a lone `--` attached is given without one.

Reading gives the items found in order, together with the word whether all arguments were
understood. The items before a mistake are kept, because the first of them may already decide what
happens.
-/

namespace Brushwork.Cli

structure Switch (κ : Type) where
  names : List String
  takesValue : Bool
  key : κ

/-- Which plain arguments a grammar takes: one, at most one, or one with all arguments behind it. -/
inductive Plain where
  | one | optional | remaining
deriving DecidableEq

structure Grammar (κ : Type) where
  switches : List (Switch κ)
  plain : Plain

inductive Item (κ : Type) where
  | flag (key : κ)
  | value (key : κ) (text : String)
  | noValue (key : κ)
  | plain (args : List String)

structure Scan (κ : Type) where
  items : List (Item κ)
  sound : Bool

/-- A switch found in an argument, and what is attached to it. -/
structure Hit (κ : Type) where
  switch : Switch κ
  name : List Char
  attached : Option (List Char)

inductive Kind (κ : Type) where
  | dashes
  | plain
  | unknown
  | switch (hit : Hit κ)

def Kind.isDashes {κ : Type} : Kind κ → Bool
  | .dashes => true
  | _ => false

/-- The part before the first `=`, and the part behind it. -/
def splitAtEquals (cs : List Char) : List Char × Option (List Char) :=
  match cs.dropWhile (· ≠ '=') with
  | [] => (cs, none)
  | _ :: value => (cs.takeWhile (· ≠ '='), some value)

/-- A minus sign before digits, which may have a point before the last of them. -/
def isNegativeNumber (isDigit : Char → Bool) : List Char → Bool
  | '-' :: cs =>
    let cs := if cs.getLast? = some '\n' then cs.dropLast else cs
    match cs.dropWhile isDigit with
    | [] => !cs.isEmpty
    | '.' :: digits => !digits.isEmpty && digits.all isDigit
    | _ => false
  | _ => false

namespace Grammar

variable {κ : Type}

def find? (g : Grammar κ) (name : List Char) : Option (Switch κ) :=
  g.switches.find? fun s => s.names.any fun n => n.toList = name

/-- The switches that a shortened or clustered argument may stand for. -/
def candidates (g : Grammar κ) : List Char → List (Hit κ)
  | '-' :: '-' :: cs =>
    let (name, value) := splitAtEquals ('-' :: '-' :: cs)
    g.switches.flatMap fun s =>
      (s.names.filter fun n => name.isPrefixOf n.toList).map fun n =>
        ⟨s, n.toList, value⟩
  | '-' :: c :: tail =>
    g.switches.flatMap fun s =>
      s.names.filterMap fun n =>
        if n.toList = ['-', c] then some ⟨s, n.toList, some tail⟩
        else if ('-' :: c :: tail).isPrefixOf n.toList then some ⟨s, n.toList, none⟩
        else none
  | _ => []

/-- The kind of an argument; there is none if it may stand for several switches. -/
def classify (g : Grammar κ) (isDigit : Char → Bool) (arg : List Char) : Option (Kind κ) :=
  if arg.head? ≠ some '-' then some .plain
  else
    match g.find? arg with
    | some s => some (.switch ⟨s, arg, none⟩)
    | none =>
      if arg = ['-'] then some .plain
      else
        match splitAtEquals arg with
        | (name, some value) =>
          match g.find? name with
          | some s => some (.switch ⟨s, name, some value⟩)
          | none => guess arg
        | (_, none) => guess arg
where
  guess (arg : List Char) : Option (Kind κ) :=
    match g.candidates arg with
    | [hit] => some (.switch hit)
    | [] => some (if isNegativeNumber isDigit arg || arg.contains ' ' then .plain else .unknown)
    | _ => none

/-- The arguments with their kinds. -/
def classifyAll (g : Grammar κ) (isDigit : Char → Bool) :
    List String → Option (List (String × Kind κ))
  | [] => some []
  | arg :: args =>
    if arg = "--" then some ((arg, .dashes) :: args.map fun a => (a, .plain))
    else
      match g.classify isDigit arg.toList, g.classifyAll isDigit args with
      | some kind, some others => some ((arg, kind) :: others)
      | _, _ => none

/-- What a switch has been read as: the items, and how many of the arguments behind it belong to
it. -/
structure Reading (κ : Type) where
  items : List (Item κ)
  used : Nat

/-- The item of a switch that takes a value, with the text attached. -/
def attachedItem (s : Switch κ) (text : List Char) : Item κ :=
  if text = ['-', '-'] then .noValue s.key else .value s.key (String.ofList text)

/-- Read a switch with what is attached to it. Behind a switch that takes no value, the characters
attached are switches of one letter, unless the name is long. There is nothing to read if a value is
missing, or if any of the characters is no switch. -/
def readSwitch (g : Grammar κ) (behind : List (String × Kind κ)) (long : Bool) (s : Switch κ) :
    Option (List Char) → Option (Reading κ)
  | none =>
    if s.takesValue then
      match behind with
      | (text, .plain) :: _ => some ⟨[.value s.key text], 1⟩
      | _ => none
    else some ⟨[.flag s.key], 0⟩
  | some tail =>
    if s.takesValue then some ⟨[attachedItem s tail], 0⟩
    else if long then none
    else
      match tail with
      | [] => none
      | c :: cs =>
        match g.find? ['-', c] with
        | none => none
        | some next =>
          match g.readSwitch behind false next (if cs.isEmpty then none else some cs) with
          | none => none
          | some reading => some { reading with items := .flag s.key :: reading.items }
termination_by attached => (attached.map List.length).getD 0
decreasing_by
  cases cs <;> simp

/-- How many arguments the plain ones of a grammar take, where no switch stands. -/
def plainCount (g : Grammar κ) (args : List (String × Kind κ)) : Option Nat :=
  match g.plain, args with
  | .remaining, (_, .plain) :: _ => some args.length
  | .remaining, (_, .dashes) :: (_, .plain) :: _ => some args.length
  | .remaining, _ => none
  | _, (_, .plain) :: (_, .dashes) :: _ => some 2
  | _, (_, .plain) :: _ => some 1
  | _, (_, .dashes) :: (_, .plain) :: _ => some 2
  | .optional, (_, .dashes) :: _ => some 1
  | _, _ => none

/-- The plain arguments among those taken. Only a grammar that takes all keeps the `--`. -/
def plainTexts (g : Grammar κ) (args : List (String × Kind κ)) : List String :=
  match g.plain with
  | .remaining => args.map Prod.fst
  | _ => (args.filter fun a => !a.2.isDashes).map Prod.fst

/-- Read arguments, where `pending` says whether plain ones are still awaited. -/
def scanFrom (g : Grammar κ) (pending : Bool) : List (String × Kind κ) → Scan κ
  | [] => ⟨[], true⟩
  | (text, kind) :: rest =>
    match kind with
    | .switch hit =>
      match g.readSwitch rest (['-', '-'].isPrefixOf hit.name) hit.switch hit.attached with
      | none => ⟨[], false⟩
      | some reading =>
        let scan := g.scanFrom pending (rest.drop reading.used)
        { scan with items := reading.items ++ scan.items }
    | .unknown => { g.scanFrom pending rest with sound := false }
    | _ =>
      match if pending then g.plainCount ((text, kind) :: rest) else none with
      | none => { g.scanFrom pending rest with sound := false }
      | some n =>
        let scan := g.scanFrom false (rest.drop (n - 1))
        { scan with items := .plain (g.plainTexts (((text, kind) :: rest).take n)) :: scan.items }
termination_by args => args.length
decreasing_by
  all_goals simp only [List.length_drop, List.length_cons]
  all_goals omega

def scan (g : Grammar κ) (isDigit : Char → Bool) (args : List String) : Scan κ :=
  match g.classifyAll isDigit args with
  | some sorted => g.scanFrom true sorted
  | none => ⟨[], false⟩

end Grammar

end Brushwork.Cli
