import Brushwork.Cli.Failure
import Brushwork.Json.Printer
import Brushwork.Json.Reader
import Brushwork.Machine.Step

/-!
# Saved machines

A machine is saved as an object of the canvas size, the state and the pixels. It is picked up again
only for a canvas of the same size. A width or height may be missing, which is noticed when the
canvas is made, the width first.
-/

namespace Brushwork.Cli

def saved (m : Machine) : Json :=
  .object
    [("width", .int m.canvas.grid.width), ("height", .int m.canvas.grid.height),
      ("state", m.state.toJson), ("pixels", .text (Base64.encode m.canvas.grid.toBytes))]

def blankCanvas : (width height : Option Int) → Except Failure Canvas
  | none, _ => .error .noSize
  | some width, none => .error (if width ≤ 0 then .canvas .dimensions else .noSize)
  | some width, some height => (Canvas.blank width height).mapError .canvas

/-- A machine with a blank canvas for a state. -/
def mount (width height : Option Int) (state : Machine.State) : Except Failure Machine :=
  match blankCanvas width height with
  | .error f => .error f
  | .ok canvas =>
    match Machine.attach ⟨state, canvas⟩ with
    | .ok _ m => .ok m
    | .error fault _ => .error (.canvas fault)

def entry (ms : List (Text × Json)) (name : String) : Except Failure Json :=
  match Json.lookup ms name with
  | some j => .ok j
  | none => .error (.noEntry name)

def pixelBytes : Json → Except Failure Bytes
  | .text t =>
    match Base64.decode t with
    | .ok bs => .ok bs
    | .error fault => .error (.base64 fault)
  | j => .error (.noBytes j.sortName)

/-- Load pixels onto a machine's canvas. -/
def loadPixels (m : Machine) (bs : Bytes) : Except Failure Machine :=
  match Draw.load bs ⟨m.canvas, m.state.pen⟩ with
  | .ok _ easel => .ok { m with canvas := easel.canvas }
  | .error fault _ => .error (.canvas fault)

/-- Whether a member is a size given. To a missing size an empty array is equal, and nothing
else. -/
def isSize (ms : List (Text × Json)) (name : String) (n : Option Int) : Bool :=
  match Json.lookup ms name, n with
  | some j, some n => j.isNumber n
  | some (.array []), none => true
  | _, _ => false

/-- The machine that was saved, if it has the size given. -/
def resume (width height : Option Int) (j : Json) : Except Failure (Option Machine) := do
  let ms ← j.members.mapError .misfit
  if isSize ms "width" width && isSize ms "height" height then
    let stateJson ← entry ms "state"
    let state ← (Machine.State.ofJson stateJson).mapError .misfit
    let m ← mount width height state
    let pixels ← entry ms "pixels"
    let bs ← pixelBytes pixels
    let m ← loadPixels m bs
    pure (some m)
  else pure none

end Brushwork.Cli
