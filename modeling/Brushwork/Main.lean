import Brushwork.Cli.Command
import Brushwork.Cli.Help

/-!
# The program

The files and directories that the arguments speak of are read into a disk, the command is carried
out on it, and the files that have changed are written back.
-/

namespace Brushwork.Cli

/-- The paths that a command speaks of. -/
def Command.paths : Command → List Path
  | .check file => [Path.ofText file]
  | .ast file => [Path.ofText file]
  | .run o => (o.file :: o.state.toList ++ o.inputImage.toList).map Path.ofText
  | .gui _ => []

/-- The non-empty beginnings of a path, the shortest first. -/
def beginnings (p : Path) : List Path :=
  (List.range p.names.length).map fun n => { p with names := p.names.take (n + 1) }

/-- What stands at a path outside, if anything can be read there. -/
def peek (p : Path) : IO (Option Disk.Entry) := do
  try
    let bytes ← IO.FS.readBinFile p.text
    return some (.file bytes.data)
  catch
    | .inappropriateType _ 21 _ => return some .directory
    | _ => return none

def survey (paths : List Path) : IO Disk := do
  let mut d := Disk.empty
  for p in paths.flatMap beginnings do
    match d.locate p with
    | .ok place =>
      if let some e ← peek p then
        d := d.put place e
    | .error _ => pure ()
  return d

/-- What a disk holds that another has not, or has with other content. -/
def changes (old new : Disk) : List (Path × Disk.Entry) :=
  new.entries.filter fun (p, e) =>
    match e, old.get? p with
    | .file bs, some (.file bs') => bs ≠ bs'
    | .directory, some .directory => false
    | _, _ => true

def writeBack (mark : String) (p : Path) : Disk.Entry → IO Unit
  | .directory => IO.FS.createDirAll p.text
  | .file bs => do
    IO.FS.createDirAll p.parent.text
    let temporary := (Disk.temporary p mark).text
    IO.FS.writeBinFile temporary ⟨bs⟩
    IO.FS.rename temporary p.text

def readSetting : IO Setting := do
  let mut texts : Table String String := .empty
  for name in ["PIXELWALLE_WIDTH", "PIXELWALLE_HEIGHT", "PIXELWALLE_LOG_LEVEL"] do
    if let some text ← IO.getEnv name then
      texts := texts.insert name text
  let now ← IO.monoNanosNow
  return { texts, mark := toString now }

def announce : Verdict → IO UInt32
  | .reply exit stdout log => do
    IO.eprint log
    IO.print stdout
    return UInt32.ofNat exit
  | .exit (.help topic) => do
    IO.print topic.page
    return 0
  | .exit .usage => do
    IO.eprint Topic.overview.page
    return 2
  | .failure f => do
    IO.eprintln (toString f.message)
    return 1

end Brushwork.Cli

open Brushwork Cli in
def main (args : List String) : IO UInt32 := do
  let setting ← readSetting
  let paths :=
    match parse 1 1 args with
    | .ok invocation => invocation.command.paths
    | .error _ => []
  let old ← survey paths
  let (verdict, new) := answer setting args old
  for (p, e) in changes old new do
    writeBack setting.mark p e
  announce verdict
