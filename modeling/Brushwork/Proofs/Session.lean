import Brushwork.Proofs.Accepted
import Brushwork.Proofs.Restoration

/-!
# Sessions

A session starts with a canvas that has taken over the pen of a state which has not spawned yet.
From then on drawing commands and programs act on the two in any order, and each of them may fail.
The brush is kept twice, as a text and a size in the pen and resolved on the canvas, and the two
never part. The grid keeps its size. Exactly one spawn succeeds before the state counts as spawned,
and none after that.
-/

namespace Brushwork

namespace Draw

theorem bound_of_adopt {pen : Pen} {e e' : Easel} (h : adopt pen e = .ok () e') :
    e'.Bound ∧ e'.canvas.grid = e.canvas.grid := by
  obtain ⟨color, hcolor, hsize, rfl⟩ := adopt_ok_iff.1 h
  obtain ⟨hsame, hbare⟩ := Rgba.ofText?_bare hcolor
  obtain ⟨hpos, hodd⟩ := oddSize_spec hsize
  exact ⟨⟨hsame, hbare, rfl, hpos, hodd⟩, rfl⟩

/-- What a canvas can be told to do from outside a program. -/
inductive Command where
  | setColor (text : Text)
  | setSize (size : Int)
  | setCursor (x y : Int)
  | line (dx dy length : Int)
  | rectangle (dx dy distance width height : Int)
  | circle (dx dy radius : Int)
  | fill
  | clear
  | load (bs : Bytes)

namespace Command

def draw : Command → Draw Unit
  | .setColor text => Draw.setColor text
  | .setSize size => Draw.setSize size
  | .setCursor x y => Draw.setCursor x y
  | .line dx dy length => Draw.line dx dy length
  | .rectangle dx dy distance width height => Draw.rectangle dx dy distance width height
  | .circle dx dy radius => Draw.circle dx dy radius
  | .fill => Draw.fill
  | .clear => Draw.clear
  | .load bs => Draw.load bs

/-- A command asks for what some instruction asks for, or it replaces the pixels. -/
theorem drawing_or (c : Command) :
    (∃ b vs, Machine.Drawing b vs c.draw) ∨ c = .clear ∨ ∃ bs, c = .load bs := by
  cases c with
  | setColor text => exact Or.inl ⟨_, _, .color text⟩
  | setSize size => exact Or.inl ⟨_, _, .size size⟩
  | setCursor x y => exact Or.inl ⟨_, _, .setCursor x y⟩
  | line dx dy length => exact Or.inl ⟨_, _, .line dx dy length⟩
  | rectangle dx dy distance width height =>
    exact Or.inl ⟨_, _, .rectangle dx dy distance width height⟩
  | circle dx dy radius => exact Or.inl ⟨_, _, .circle dx dy radius⟩
  | fill => exact Or.inl ⟨_, _, .fill⟩
  | clear => exact Or.inr (Or.inl rfl)
  | load bs => exact Or.inr (Or.inr ⟨bs, rfl⟩)

end Command

end Draw

namespace Easel.Fit

variable {width height : Nat} {e e' : Easel}

theorem repaint {canvas : Canvas} {pen : Pen} (h : Easel.Fit width height ⟨canvas, pen⟩)
    {grid : Grid} (hwidth : grid.width = canvas.grid.width)
    (hheight : grid.height = canvas.grid.height) :
    Easel.Fit width height ⟨⟨grid, canvas.brush⟩, pen⟩ :=
  ⟨⟨h.bound.color, h.bound.bare, h.bound.size, h.bound.pos, h.bound.odd⟩, hwidth.trans h.width,
    hheight.trans h.height⟩

theorem load (h : e.Fit width height) {bs : Bytes} (hok : Draw.load bs e = .ok () e') :
    e'.Fit width height := by
  obtain ⟨⟨grid, brush⟩, pen⟩ := e
  simp only [Draw.load] at hok
  split at hok
  · rename_i grid' hload
    cases hok
    unfold Grid.load? at hload
    split at hload
    · cases hload
      exact h.repaint rfl rfl
    · cases hload
  · cases hok

/-- A command keeps pen and brush in agreement and the size of the grid. -/
theorem command (h : e.Fit width height) {c : Draw.Command} (hok : c.draw e = .ok () e') :
    e'.Fit width height := by
  rcases c.drawing_or with ⟨b, vs, hd⟩ | rfl | ⟨bs, rfl⟩
  · exact h.drawing hd hok
  · cases hok
    exact h.repaint rfl rfl
  · exact h.load hok

end Easel.Fit

theorem Draw.Command.atomic (c : Draw.Command) : c.draw.Atomic := by
  rcases c.drawing_or with ⟨b, vs, hd⟩ | rfl | ⟨bs, rfl⟩
  · exact hd.atomic
  · exact Draw.atomic_modify _
  · intro e fault e' h
    obtain ⟨⟨grid, brush⟩, pen⟩ := e
    simp only [Draw.Command.draw, Draw.load] at h
    split at h
    · cases h
    · cases h
      rfl

def Program.spawnsAt (program : Program) (i : Nat) : Bool :=
  program.statements[i]?.any Typing.isSpawn

namespace Machine

/-- What happens to a machine in a session: a command to its canvas, or a chunk of a program. -/
inductive Action where
  | command (c : Draw.Command)
  | run (call : Call)

namespace Action

def apply : Action → Machine → Machine
  | .command c, m =>
    match draw .whole c.draw m with
    | .ok _ m' => m'
    | .error _ m' => m'
  | .run call, m => (call.run m).2.1

def spawns : Action → Machine → Nat
  | .command _, _ => 0
  | .run call, m =>
    (trail call.patience call.program call.window m).countP call.program.spawnsAt

def after (actions : List Action) (m : Machine) : Machine :=
  actions.foldl (fun m action => action.apply m) m

def totalSpawns : List Action → Machine → Nat
  | [], _ => 0
  | action :: actions, m => action.spawns m + totalSpawns actions (action.apply m)

end Action

section

variable {program : Program} {s : Tree} {m m' : Machine} {target : Option Int} {c d : Config}
  {is : List Nat}

/-- A spawn makes the difference between a fresh machine and a spawned one, and nothing else
does. -/
theorem Effect.spawned_eq (h : Effect s m target m') :
    m'.state.spawned.toNat = m.state.spawned.toNat + (Typing.isSpawn s).toNat := by
  cases h with
  | spawn fresh =>
    rw [fresh]
    rfl
  | assign | instruct | query | pass | jump | label => rfl

theorem Config.Moves.spawned_eq (h : c.Moves program d) :
    d.machine.state.spawned.toNat = c.machine.state.spawned.toNat +
      (program.spawnsAt c.pointer).toNat := by
  obtain ⟨hs, heffect⟩ := h
  rw [Program.spawnsAt, hs]
  exact heffect.spawned_eq

theorem Config.Walk.spawned_eq (h : c.Walk program is d) :
    d.machine.state.spawned.toNat = c.machine.state.spawned.toNat + is.countP program.spawnsAt := by
  induction h with
  | nil => rfl
  | cons first rest ih =>
    rw [ih, first.spawned_eq, List.countP_cons]
    cases program.spawnsAt _ <;> simp [Nat.add_assoc, Nat.add_comm]

end

section

variable {width height : Nat} {m : Machine}

/-- A command that fails changes nothing, and one that succeeds changes the easel only. -/
theorem Action.apply_command (c : Draw.Command) (m : Machine) :
    (command c).apply m = m ∨
      ∃ canvas pen, c.draw ⟨m.canvas, m.state.pen⟩ = .ok () ⟨canvas, pen⟩ ∧
        (command c).apply m = ⟨{ m.state with pen }, canvas⟩ := by
  rw [apply]
  split
  · rename_i hok
    exact Or.inr (draw_ok_iff.1 hok)
  · rename_i herror
    obtain ⟨fault, -, -, hsame⟩ := (draw_error_iff c.atomic).1 herror
    exact Or.inl hsame

theorem Fit.apply (hm : m.Fit width height) (action : Action) :
    (action.apply m).Fit width height := by
  cases action with
  | command c =>
    rcases Action.apply_command c m with hsame | ⟨canvas, pen, hdrawn, hmachine⟩
    · rw [hsame]
      exact hm
    · rw [hmachine]
      exact Easel.Fit.command hm hdrawn
  | run call => exact (lasting_fit width height call.program).execute rfl hm

theorem Action.spawned_apply (action : Action) (m : Machine) :
    (action.apply m).state.spawned.toNat = m.state.spawned.toNat + action.spawns m := by
  cases action with
  | command c =>
    rcases apply_command c m with hsame | ⟨canvas, pen, -, hmachine⟩
    · rw [hsame]
      rfl
    · rw [hmachine]
      rfl
  | run call =>
    obtain ⟨labels, c, q, walk, hmachine⟩ := call.walk_of_run m
    rw [Action.apply, hmachine]
    exact walk.spawned_eq

theorem Fit.after (hm : m.Fit width height) (actions : List Action) :
    (Action.after actions m).Fit width height := by
  induction actions generalizing m with
  | nil => exact hm
  | cons action actions ih => exact ih (hm.apply action)

/-- Whether a machine has spawned tells how many spawns have succeeded. -/
theorem Action.spawned_after (actions : List Action) (m : Machine) :
    (after actions m).state.spawned.toNat = m.state.spawned.toNat + totalSpawns actions m := by
  induction actions generalizing m with
  | nil => rfl
  | cons action actions ih =>
    have hrest := ih (action.apply m)
    rw [action.spawned_apply, Nat.add_assoc] at hrest
    exact hrest

theorem Fit.attach (hm : m.Fit width height) : Machine.attach m = .ok () m := by
  have hadopt : Draw.adopt m.state.pen ⟨m.canvas, m.state.pen⟩ = .ok () ⟨m.canvas, m.state.pen⟩ :=
    hm.bound.adopt
  simp only [Machine.attach, hadopt]

theorem fit_of_attach {s : State} {canvas : Canvas} (h : attach ⟨s, canvas⟩ = .ok () m) :
    m.Fit canvas.grid.width canvas.grid.height ∧ m.state.spawned = s.spawned := by
  simp only [attach] at h
  split at h
  · rename_i hadopt
    cases h
    obtain ⟨hbound, hgrid⟩ := Draw.bound_of_adopt hadopt
    exact ⟨⟨hbound, congrArg Grid.width hgrid, congrArg Grid.height hgrid⟩, rfl⟩
  · cases h

end

/-- What holds at every point of a session that started with a grid, when some spawns have
succeeded. -/
structure Coherent (grid : Grid) (spawns : Nat) (m : Machine) : Prop where
  width : m.canvas.grid.width = grid.width
  height : m.canvas.grid.height = grid.height
  /-- There is a pixel wherever there was one. -/
  pixels : ∀ x y, (m.canvas.grid.get? x y).isSome ↔ grid.Inside x y
  /-- Every pixel has four bytes. -/
  bytes : m.canvas.grid.toBytes.size = grid.width * grid.height * 4
  color : Rgba.ofText? m.state.pen.color = some m.canvas.brush.color
  size : m.state.pen.size = m.canvas.brush.size
  odd : m.state.pen.size % 2 = 1
  positive : 1 ≤ m.state.pen.size
  /-- Taking over the pen again changes nothing. -/
  attached : attach m = .ok () m
  /-- A machine that has not spawned yet has seen no spawn succeed, and one that has, exactly
  one. -/
  spawned : spawns = m.state.spawned.toNat
  /-- Once a machine has spawned it stays so. -/
  lasting : m.state.spawned = true → ∀ more, (Action.after more m).state.spawned = true
  /-- Any further spawn is refused and moves nothing. -/
  refused : m.state.spawned = true → ∀ x y p, step (.spawn x y p) m = .error ⟨.secondSpawn, p⟩ m

/-- Chunks may be given up after any number of statements, so this speaks of the points inside of
them too. -/
theorem session_stays_coherent {s : State} {canvas : Canvas} {m : Machine}
    (hattach : attach ⟨s, canvas⟩ = .ok () m) (hfresh : s.spawned = false) (actions : List Action) :
    Coherent canvas.grid (Action.totalSpawns actions m) (Action.after actions m) := by
  obtain ⟨hstart, hspawned⟩ := fit_of_attach hattach
  have hfit := hstart.after actions
  have hagain := hfit.attach
  obtain ⟨⟨hcolor, -, hsize, hpos, hodd⟩, hwidth, hheight⟩ := hfit
  constructor
  · exact hwidth
  · exact hheight
  · intro x y
    rw [Option.isSome_iff_ne_none, Ne, Grid.get?_eq_none_iff, Classical.not_not, Grid.Inside,
      Grid.Inside]
    rw [hwidth, hheight]
  · rw [Grid.size_toBytes, hwidth, hheight]
  · exact hcolor
  · exact hsize
  · exact hodd
  · exact hpos
  · exact hagain
  · rw [Action.spawned_after, hspawned, hfresh]
    exact (Nat.zero_add _).symm
  · intro h more
    have hcount := Action.spawned_after more (Action.after actions m)
    rw [h] at hcount
    cases hlast : (Action.after more (Action.after actions m)).state.spawned with
    | true => rfl
    | false =>
      rw [hlast, Bool.toNat_false, Bool.toNat_true] at hcount
      omega
  · intro h x y p
    exact step_error_iff.2 ⟨.spawn h, rfl⟩

/-- A quoted colour and an even size are taken over, a size is refused, and of two spawns one
succeeds. -/
theorem second_spawn_stays_coherent :
    ∃ m, attach ⟨{ pen := { color := " \"Red\" ", size := 4 } }, { grid := .blank 3 2 }⟩ =
        .ok () m ∧
      Coherent (.blank 3 2) 1 (Action.after
        [.command (.setSize 0), .run ⟨9, ⟨[.spawn 1 0 ⟨1, 1⟩, .spawn 2 1 ⟨2, 1⟩], ⟨1, 1⟩⟩, {}⟩,
          .command .clear] m) := by
  obtain ⟨m, hattach⟩ : ∃ m, attach ⟨{ pen := { color := " \"Red\" ", size := 4 } },
      { grid := .blank 3 2 }⟩ = .ok () m := ⟨_, rfl⟩
  refine ⟨m, hattach, ?_⟩
  have hcoherent := session_stays_coherent hattach rfl
    [.command (.setSize 0), .run ⟨9, ⟨[.spawn 1 0 ⟨1, 1⟩, .spawn 2 1 ⟨2, 1⟩], ⟨1, 1⟩⟩, {}⟩,
      .command .clear]
  cases hattach
  exact hcoherent

end Machine

end Brushwork
