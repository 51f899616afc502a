import Brushwork.Cli.Saved
import Brushwork.Proofs.Easel
import Brushwork.Proofs.Encoding
import Brushwork.Proofs.Walk

/-!
# Machines saved and picked up again

A machine is saved without its labels, which every chunk declares anew, and without its brush, which
is resolved again from the pen. A machine that was fresh once has a pen in agreement with its brush,
and no statement changes that, also none that fails, so the brush comes back as it was. What chunks
do with a machine does not depend on the labels that it brings along.
-/

namespace Brushwork

namespace Machine

theorem Effect.distinct {s : Tree} {m m' : Machine} {target : Option Int} (h : Effect s m target m')
    (hm : m.state.values.Distinct) : m'.state.values.Distinct := by
  cases h with
  | assign _ => exact hm.insert _ _
  | spawn | instruct | query | pass | jump | label => exact hm

/-- What a machine needs to come back as it was saved. -/
structure Restorable (m : Machine) : Prop where
  bound : Easel.Bound ⟨m.canvas, m.state.pen⟩
  distinct : m.state.values.Distinct
  width : 0 < m.canvas.grid.width
  height : 0 < m.canvas.grid.height

theorem lasting_fit (width height : Nat) (program : Program) :
    Lasting program (Fit width height) where
  effect _ heffect hm := heffect.fit hm
  labelled _ hm := hm
  noted _ _ hm := hm

theorem lasting_restorable (program : Program) : Lasting program Restorable where
  effect := by
    intro s m target m' _ heffect hm
    obtain ⟨hbound, hwidth, hheight⟩ := heffect.fit ⟨hm.bound, rfl, rfl⟩
    exact ⟨hbound, heffect.distinct hm.distinct, hwidth ▸ hm.width, hheight ▸ hm.height⟩
  labelled _ hm := ⟨hm.bound, hm.distinct, hm.width, hm.height⟩
  noted _ _ hm := ⟨hm.bound, hm.distinct, hm.width, hm.height⟩

@[simp] theorem execute_withLabels (n : Nat) (program : Program) (w : Window) (m : Machine)
    (labels : Table String Int) :
    execute n program w (m.withLabels labels) = execute n program w m := by
  simp only [execute, indexLabels_eq]
  rfl

end Machine

namespace Cli

open Machine

theorem mount_of_bound {s : State} {canvas : Canvas} (h : Easel.Bound ⟨canvas, s.pen⟩)
    (hwidth : 0 < canvas.grid.width) (hheight : 0 < canvas.grid.height) :
    mount (some canvas.grid.width) (some canvas.grid.height) s =
      .ok ⟨s, ⟨.blank canvas.grid.width canvas.grid.height, canvas.brush⟩⟩ := by
  have hsize : ¬ ((canvas.grid.width : Int) ≤ 0 ∨ (canvas.grid.height : Int) ≤ 0) := by omega
  have hblank : blankCanvas (some canvas.grid.width) (some canvas.grid.height) =
      .ok { grid := .blank canvas.grid.width canvas.grid.height } := by
    rw [blankCanvas, Canvas.blank, if_neg hsize]
    rfl
  rw [mount, hblank]
  simp only [attach, h.adopt]

@[simp] theorem mapError_ok {ε ε' α : Type} (f : ε → ε') (a : α) :
    (Except.ok a).mapError f = .ok a := rfl

theorem resume_of_members {width height : Option Int} {ms : List (Text × Json)}
    {stateJson pixels : Json} {s : State} {m m' : Machine} {bs : Bytes}
    (hwidth : isSize ms "width" width = true) (hheight : isSize ms "height" height = true)
    (hentry : entry ms "state" = .ok stateJson) (hstate : State.ofJson stateJson = .ok s)
    (hmount : mount width height s = .ok m) (hpixels : entry ms "pixels" = .ok pixels)
    (hbytes : pixelBytes pixels = .ok bs) (hload : loadPixels m bs = .ok m') :
    resume width height (.object ms) = .ok (some m') := by
  simp only [resume, Json.members, mapError_ok, bind, Except.bind, hwidth, hheight, Bool.and_self,
    if_true, hentry, hstate, hmount, hpixels, hbytes, hload]
  rfl

/-- A machine comes back as it was saved, but for its labels. -/
theorem resume_saved {m : Machine} (h : m.Restorable) :
    resume (some m.canvas.grid.width) (some m.canvas.grid.height) (saved m) =
      .ok (some (m.withLabels .empty)) := by
  have hsize : ∀ n : Nat, Json.isNumber n (.int n) = true := fun n => decide_eq_true rfl
  have hstate : State.ofJson m.state.toJson = .ok (m.withLabels .empty).state :=
    State.ofJson_toJson h.distinct
  have hmount := mount_of_bound (s := (m.withLabels .empty).state) h.bound h.width h.height
  have hbytes : pixelBytes (.text (Base64.encode m.canvas.grid.toBytes)) =
      .ok m.canvas.grid.toBytes := by
    rw [pixelBytes, Base64.decode_encode]
  have hgrid : (Grid.blank m.canvas.grid.width m.canvas.grid.height).load? m.canvas.grid.toBytes =
      some m.canvas.grid := Grid.load?_toBytes rfl rfl
  have hload : loadPixels ⟨(m.withLabels .empty).state,
      ⟨.blank m.canvas.grid.width m.canvas.grid.height, m.canvas.brush⟩⟩ m.canvas.grid.toBytes =
        .ok (m.withLabels .empty) := by
    simp only [loadPixels, Draw.load, hgrid]
    rfl
  exact resume_of_members (hsize _) (hsize _) rfl hstate hmount rfl hbytes hload

end Cli

namespace Machine

structure Call where
  patience : Nat
  program : Program
  window : Window

namespace Call

def run (call : Call) (m : Machine) : Outcome × Machine × List Event :=
  execute call.patience call.program call.window m

theorem walk_of_run (call : Call) (m : Machine) :
    ∃ labels c q, Config.Walk call.program
      ⟨m.withLabels labels, startIndex call.program call.window.start⟩
      (trail call.patience call.program call.window m) c ∧ (call.run m).2.1 = c.machine.aim q :=
  walk_of_execute rfl

/-- The machine that some chunks in a row leave, whether they succeed or fail. -/
def after (calls : List Call) (m : Machine) : Machine :=
  calls.foldl (fun m call => (call.run m).2.1) m

def results : List Call → Machine → List (Outcome × Machine × List Event)
  | [], _ => []
  | call :: calls, m => call.run m :: results calls (call.run m).2.1

theorem restorable_after {m : Machine} (h : m.Restorable) (calls : List Call) :
    (after calls m).Restorable := by
  induction calls generalizing m with
  | nil => exact h
  | cons call calls ih => exact ih ((lasting_restorable call.program).execute rfl h)

@[simp] theorem results_withLabels (calls : List Call) (m : Machine) (labels : Table String Int) :
    results calls (m.withLabels labels) = results calls m := by
  cases calls with
  | nil => rfl
  | cons call calls =>
    have hrun : call.run (m.withLabels labels) = call.run m := execute_withLabels _ _ _ m labels
    rw [results, results, hrun]

end Call

theorem restorable_of_attach {canvas : Canvas} {m : Machine} (h : attach ⟨{}, canvas⟩ = .ok () m)
    (hwidth : 0 < canvas.grid.width) (hheight : 0 < canvas.grid.height) : m.Restorable := by
  have hbound := Easel.bound_fresh canvas.grid
  have hadopt : Draw.adopt {} ⟨canvas, {}⟩ = .ok () ⟨⟨canvas.grid, {}⟩, {}⟩ := hbound.adopt
  simp only [attach, hadopt] at h
  cases h
  exact ⟨hbound, Table.distinct_empty, hwidth, hheight⟩

/-- Saving a machine and picking it up again does not show, whatever chunks came before and come
after. -/
theorem restored_machine_runs_alike {canvas : Canvas} {m : Machine}
    (hattach : attach ⟨{}, canvas⟩ = .ok () m) (hwidth : 0 < canvas.grid.width)
    (hheight : 0 < canvas.grid.height) (calls : List Call) :
    ∃ m', Cli.resume (some (Call.after calls m).canvas.grid.width)
        (some (Call.after calls m).canvas.grid.height) (Cli.saved (Call.after calls m)) =
          .ok (some m') ∧
      m'.state = { (Call.after calls m).state with labels := .empty } ∧
      m'.canvas = (Call.after calls m).canvas ∧
      ∀ more, Call.results more m' = Call.results more (Call.after calls m) := by
  have hm := restorable_of_attach hattach hwidth hheight
  exact ⟨_, Cli.resume_saved (Call.restorable_after hm calls), rfl, rfl,
    fun more => Call.results_withLabels more _ _⟩

/-- A colour in blanks, an even size and a size that is refused, on two rows of three pixels. -/
theorem restored_machine_runs_alike_after_refusal :
    ∃ m', Cli.resume (some 3) (some 2) (Cli.saved (Call.after
        [⟨9, ⟨[.spawn 1 0 ⟨1, 1⟩, .call "Color" [.literal (.text " Red ") ⟨2, 7⟩] ⟨2, 1⟩,
          .call "Size" [.literal (.int 4) ⟨3, 6⟩] ⟨3, 1⟩,
          .assign "n" (.variable "n" ⟨4, 6⟩) ⟨4, 1⟩], ⟨1, 1⟩⟩, {}⟩] ⟨{}, { grid := .blank 3 2 }⟩)) =
          .ok (some m') ∧ m'.canvas.brush.size = 3 := by
  have hattach : attach ⟨{}, { grid := .blank 3 2 }⟩ = .ok () ⟨{}, { grid := .blank 3 2 }⟩ := rfl
  obtain ⟨m', hresume, -, hcanvas, -⟩ := restored_machine_runs_alike hattach (by decide) (by decide)
    [⟨9, ⟨[.spawn 1 0 ⟨1, 1⟩, .call "Color" [.literal (.text " Red ") ⟨2, 7⟩] ⟨2, 1⟩,
      .call "Size" [.literal (.int 4) ⟨3, 6⟩] ⟨3, 1⟩, .assign "n" (.variable "n" ⟨4, 6⟩) ⟨4, 1⟩],
      ⟨1, 1⟩⟩, {}⟩]
  exact ⟨m', hresume, hcanvas ▸ rfl⟩

end Machine

end Brushwork
