import Brushwork.Bytes
import Brushwork.Text.Quoted

/-!
# Files and directories

A disk holds files and directories below a working directory, by path. Whatever lies above the
working directory, or at the root of all paths, is a directory of which nothing else is known. Names
and whole paths have a greatest length.

A file is replaced in steps: its directory is made, a temporary file beside it is created and
filled, and then takes its place at once. Until that last step the file has its old content. A step
that fails changes nothing, but those before it stay done.
-/

namespace Brushwork

/-- Where a path starts: at the working directory, or at the root of all paths. A root written with
two slashes leads to the same place and is still written so. -/
inductive Anchor where
  | here | root | doubleRoot
deriving DecidableEq

def Anchor.text : Anchor → String
  | .here => ""
  | .root => "/"
  | .doubleRoot => "//"

/-- A start and the names on the way from there. -/
structure Path where
  anchor : Anchor := .here
  names : List String
deriving DecidableEq

namespace Path

/-- Empty names and single dots lead nowhere. -/
def ofText (s : String) : Path where
  anchor :=
    match s.toList with
    | '/' :: '/' :: '/' :: _ => .root
    | '/' :: '/' :: _ => .doubleRoot
    | '/' :: _ => .root
    | _ => .here
  names := (s.splitOn "/").filter fun name => name ≠ "" && name ≠ "."

def text (p : Path) : String :=
  if p.anchor = .here && p.names.isEmpty then "."
  else p.anchor.text ++ "/".intercalate p.names

def parent (p : Path) : Path := { p with names := p.names.dropLast }

/-- The path of another file in the same directory. -/
def withName (p : Path) (name : String) : Path := { p with names := p.names.dropLast ++ [name] }

/-- The path behind one more name. -/
def child (p : Path) (name : String) : Path := { p with names := p.names ++ [name] }

/-- Whether a path leads to a directory of which nothing else is known. -/
def isOutside (p : Path) : Bool := p.names.all fun name => name = ".."

end Path

inductive Disk.Entry where
  | file (bs : Bytes)
  | directory

structure Disk where
  entries : List (Path × Disk.Entry)

namespace Disk

inductive Trouble where
  | missing
  | directory
  | notDirectory
  | occupied
  | tooLong
  | nameless
  | nullByte
deriving DecidableEq

def Trouble.text : Trouble → String
  | .missing => "No such file or directory"
  | .directory => "Is a directory"
  | .notDirectory => "Not a directory"
  | .occupied => "File exists"
  | .tooLong => "File name too long"
  | .nameless => "Empty name"
  | .nullByte => "embedded null byte"

structure Fault where
  trouble : Trouble
  path : Path
deriving DecidableEq

def Fault.message (f : Fault) : String :=
  let numbered (n : Nat) : String :=
    "[Errno " ++ toString n ++ "] " ++ f.trouble.text ++ ": " ++ Text.quoted f.path.text
  match f.trouble with
  | .missing => numbered 2
  | .occupied => numbered 17
  | .notDirectory => numbered 20
  | .directory => numbered 21
  | .tooLong => numbered 36
  | .nameless => "PosixPath(" ++ Text.quoted f.path.text ++ ") has an empty name"
  | .nullByte => f.trouble.text

def empty : Disk := ⟨[]⟩

/-- What stands at a path without detours. -/
def get? (d : Disk) (p : Path) : Option Entry :=
  if p.isOutside then some .directory else d.entries.lookup p

def erase (d : Disk) (p : Path) : Disk := ⟨d.entries.filter fun e => e.1 ≠ p⟩

def put (d : Disk) (p : Path) (e : Entry) : Disk := ⟨(d.erase p).entries ++ [(p, e)]⟩

@[simp] theorem lookup_erase (d : Disk) (p q : Path) :
    (d.erase p).entries.lookup q = if q = p then none else d.entries.lookup q := by
  unfold erase
  induction d.entries with
  | nil => simp
  | cons e es ih =>
    obtain ⟨key, content⟩ := e
    by_cases hk : key = p
    · subst hk
      by_cases hq : q = key
      · simpa [hq] using ih
      · simpa [hq, List.lookup_cons, beq_false_of_ne hq] using ih
    · by_cases hq : q = key
      · subst hq
        simp [hk]
      · simpa [hk, List.lookup_cons, beq_false_of_ne hq] using ih

/-- What is put at a path stands there, and nothing else changes. -/
@[simp] theorem lookup_put (d : Disk) (p q : Path) (e : Entry) :
    (d.put p e).entries.lookup q = if q = p then some e else d.entries.lookup q := by
  rw [put, List.lookup_append, lookup_erase]
  by_cases h : q = p
  · simp [h]
  · simp [h, List.lookup_cons, beq_false_of_ne h]

/-- The most bytes in a name. -/
def longestName : Nat := 255

/-- The number of bytes from which on a path is too long. -/
def tooLongPath : Nat := 4096

/-- The place that a name leads to from a directory. -/
def next (here : Path) (name : String) : Path :=
  if name ≠ ".." then here.child name
  else if !here.isOutside then here.parent
  else if here.anchor = .here then here.child name
  else here

/-- Follow the names of a path from a directory. All but the last have to be directories. -/
def follow (d : Disk) (here : Path) : List String → Except Trouble Path
  | [] => .ok here
  | name :: names =>
    if longestName < name.utf8ByteSize then .error .tooLong
    else if names.isEmpty then .ok (next here name)
    else
      match d.get? (next here name) with
      | some .directory => d.follow (next here name) names
      | some (.file _) => .error .notDirectory
      | none => .error .missing

/-- The start of a path as a place. -/
def origin (p : Path) : Path := ⟨if p.anchor = .here then .here else .root, []⟩

def locate (d : Disk) (p : Path) : Except Fault Path :=
  if p.names.any fun name => name.contains '\x00' then .error ⟨.nullByte, p⟩
  else if tooLongPath ≤ p.text.utf8ByteSize then .error ⟨.tooLong, p⟩
  else
    match d.follow (origin p) p.names with
    | .ok place => .ok place
    | .error trouble => .error ⟨trouble, p⟩

/-- What a path leads to, if anything. -/
def look (d : Disk) (p : Path) : Option Entry :=
  match d.locate p with
  | .ok place => d.get? place
  | .error _ => none

/-- Whether a path leads to anything. A path that is too long cannot even be asked about. -/
def isPresent (d : Disk) (p : Path) : Except Fault Bool :=
  match d.locate p with
  | .ok place => .ok (d.get? place).isSome
  | .error f => if f.trouble = .tooLong then .error f else .ok false

def isDirectory (d : Disk) (p : Path) : Bool :=
  match d.look p with
  | some .directory => true
  | _ => false

def read (d : Disk) (p : Path) : Except Fault Bytes := do
  let place ← d.locate p
  match d.get? place with
  | some (.file bs) => pure bs
  | some .directory => throw ⟨.directory, p⟩
  | none => throw ⟨.missing, p⟩

def makeDirectory (d : Disk) (p : Path) : Except Fault Disk := do
  let place ← d.locate p
  match d.get? place with
  | some _ => throw ⟨.occupied, p⟩
  | none => pure (d.put place .directory)

/-- Start an empty file. -/
def create (d : Disk) (p : Path) : Except Fault Disk := do
  let place ← d.locate p
  match d.get? place with
  | some .directory => throw ⟨.directory, p⟩
  | _ => pure (d.put place (.file #[]))

/-- Add bytes at the end of a file. -/
def append (d : Disk) (p : Path) (bs : Bytes) : Except Fault Disk := do
  let place ← d.locate p
  match d.get? place with
  | some (.file old) => pure (d.put place (.file (old ++ bs)))
  | some .directory => throw ⟨.directory, p⟩
  | none => throw ⟨.missing, p⟩

/-- Give a file another path, in place of the file that was there. -/
def move (d : Disk) (source target : Path) : Except Fault Disk := do
  let bs ← d.read source
  let old ← d.locate source
  let new ← d.locate target
  match d.get? new with
  | some .directory => throw ⟨.directory, target⟩
  | _ => pure ((d.erase old).put new (.file bs))

/-- Several steps in a row. The outcome carries the disk also when one of them fails. -/
abbrev Work := EStateM Fault Disk

def perform (step : Disk → Except Fault Disk) : Work Unit :=
  fun d =>
    match step d with
    | .ok d => .ok () d
    | .error f => .error f d

/-- Make a directory, or find it there. -/
def requireDirectory (p : Path) : Work Unit :=
  fun d =>
    match d.makeDirectory p with
    | .ok d => .ok () d
    | .error f => if d.isDirectory p then .ok () d else .error f d

/-- Make a directory and those above it, as far as they are missing. -/
def makeDirectories (p : Path) : Work Unit :=
  fun d =>
    match d.makeDirectory p with
    | .error ⟨.missing, _⟩ =>
      if _ : p.names.dropLast.length < p.names.length then
        (do makeDirectories p.parent; requireDirectory p) d
      else requireDirectory p d
    | _ => requireDirectory p d
termination_by p.names.length

/-- The path of the temporary file for a file, told apart by a mark. -/
def temporary (p : Path) (mark : String) : Path :=
  p.withName ((p.names.getLast?.getD "") ++ ".tmp." ++ mark)

/-- Replace the content of a file at once. -/
def replace (mark : String) (p : Path) (bs : Bytes) : Work Unit := do
  makeDirectories p.parent
  if p.names.isEmpty then throw ⟨.nameless, p⟩
  perform fun d => d.create (temporary p mark)
  perform fun d => d.append (temporary p mark) bs
  perform fun d => d.move (temporary p mark) p

end Disk

end Brushwork
