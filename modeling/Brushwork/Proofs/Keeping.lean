import Mathlib
import Brushwork.Cli.Command
import Brushwork.Proofs.Joined
import Brushwork.Proofs.Restoration
import Brushwork.Proofs.Session
import Brushwork.Proofs.Storage

/-!
# Runs and the files that they leave

A run reads everything that it needs, executes its chunk and only then writes, so a run that fails
in between has changed nothing on the disk. What it saves is read back as the machine that it ended
with. One failure comes later: the answer names the next line, which is behind the last one, and may
be too long to be written when the machine has been saved already.
-/

namespace Brushwork

namespace Machine

structure Keepable (m : Machine) : Prop where
  restorable : m.Restorable
  joined : m.Joined

theorem Keepable.execute {program : Program} {n : Nat} {w : Window} {m m' : Machine}
    {outcome : Outcome} {events : List Event} (h : m.Keepable) (hprogram : program.Joined)
    (hrun : Machine.execute n program w m = (outcome, m', events)) : m'.Keepable :=
  ⟨(lasting_restorable program).execute hrun h.restorable,
    (lasting_joined hprogram).execute hrun h.joined⟩

end Machine

namespace Cli

open Machine

def Sized (width height : Option Int) (m : Machine) : Prop :=
  width = some (m.canvas.grid.width : Int) ∧ height = some (m.canvas.grid.height : Int)

theorem blankCanvas_eq_ok {width height : Option Int} {canvas : Canvas}
    (h : blankCanvas width height = .ok canvas) :
    (∃ w h : Nat, canvas.grid = .blank w h ∧ 0 < w ∧ 0 < h ∧ width = some (w : Int) ∧
      height = some (h : Int)) := by
  unfold blankCanvas at h
  split at h
  · cases h
  · cases h
  · rename_i width height
    rw [Canvas.blank] at h
    by_cases hsize : width ≤ 0 ∨ height ≤ 0
    · rw [if_pos hsize] at h
      cases h
    · rw [if_neg hsize] at h
      cases h
      refine ⟨width.toNat, height.toNat, rfl, by omega, by omega, congrArg some ?_,
        congrArg some ?_⟩
      · omega
      · omega

theorem values_of_attach {s : State} {canvas : Canvas} {m : Machine} {u : Unit}
    (h : attach ⟨s, canvas⟩ = .ok u m) : m.state.values = s.values := by
  simp only [attach] at h
  split at h
  · cases h
    rfl
  · cases h

theorem keepable_mount {width height : Option Int} {s : State} {m : Machine}
    (h : mount width height s = .ok m)
    (hs : s.values.Distinct ∧ ∀ e ∈ s.values.entries, e.1.Joined ∧ e.2.Joined) :
    m.Keepable ∧ Sized width height m := by
  unfold mount at h
  split at h
  · cases h
  · rename_i canvas hblank
    obtain ⟨w, h', hgrid, hw, hh, rfl, rfl⟩ := blankCanvas_eq_ok hblank
    split at h
    · rename_i m' hattach
      cases h
      obtain ⟨hfit, -⟩ := fit_of_attach hattach
      have hvalues := values_of_attach hattach
      have hwidth : m.canvas.grid.width = w := hfit.width.trans (congrArg Grid.width hgrid)
      have hheight : m.canvas.grid.height = h' := hfit.height.trans (congrArg Grid.height hgrid)
      refine ⟨⟨⟨hfit.bound, hvalues ▸ hs.1, hwidth ▸ hw, hheight ▸ hh⟩, ?_⟩, ?_⟩
      · rw [Machine.Joined, hvalues]
        exact hs.2
      · rw [Sized, hwidth, hheight]
        exact ⟨rfl, rfl⟩
    · cases h

theorem keepable_loadPixels {width height : Option Int} {m m' : Machine} {bs : Bytes}
    (h : loadPixels m bs = .ok m') (hm : m.Keepable ∧ Sized width height m) :
    m'.Keepable ∧ Sized width height m' := by
  obtain ⟨⟨⟨hbound, hdistinct, hwidth, hheight⟩, hjoined⟩, hsized⟩ := hm
  obtain ⟨state, grid, brush⟩ := m
  simp only [loadPixels, Draw.load, Grid.load?] at h
  split at h
  · rename_i hload
    cases h
    split at hload
    · rename_i hgrid
      split at hgrid
      · cases hgrid
        cases hload
        exact ⟨⟨⟨⟨hbound.color, hbound.bare, hbound.size, hbound.pos, hbound.odd⟩, hdistinct,
          hwidth, hheight⟩, hjoined⟩, hsized⟩
      · cases hgrid
    · cases hload
  · cases h

theorem keepable_resume {width height : Option Int} {j : Json} {m : Machine}
    (h : resume width height j = .ok (some m)) (hj : j.Joined) :
    m.Keepable ∧ Sized width height m := by
  obtain ⟨ms, hms, hread⟩ := bind_eq_ok_iff.1 h
  cases j with
  | object ms' =>
    cases hms
    split at hread
    · obtain ⟨stateJson, hentry, h⟩ := bind_eq_ok_iff.1 hread
      obtain ⟨s, hs, h⟩ := bind_eq_ok_iff.1 h
      obtain ⟨m₁, hmount, h⟩ := bind_eq_ok_iff.1 h
      obtain ⟨pixels, -, h⟩ := bind_eq_ok_iff.1 h
      obtain ⟨bs, -, h⟩ := bind_eq_ok_iff.1 h
      obtain ⟨m₂, hload, h⟩ := bind_eq_ok_iff.1 h
      cases h
      have hstate : stateJson.Joined := by
        unfold entry at hentry
        split at hentry
        · rename_i hlookup
          cases hentry
          obtain ⟨before, after, hlist, -⟩ := List.lookup_eq_some_iff.1 hlookup
          exact (Json.haveJoined_iff.1 hj _
            (hlist ▸ List.mem_append_right before List.mem_cons_self)).2
        · cases hentry
      cases hof : State.ofJson stateJson with
      | error misfit =>
        rw [hof] at hs
        cases hs
      | ok s' =>
        rw [hof] at hs
        cases hs
        exact keepable_loadPixels hload (keepable_mount hmount (State.joined_ofJson hof hstate))
    · cases hread
  | null | bool | int | real | text | array => cases hms

theorem mapError_eq_ok_iff {ε ε' α : Type} {x : Except ε α} {f : ε → ε'} {a : α} :
    x.mapError f = .ok a ↔ x = .ok a := by
  constructor
  · intro h
    cases x with
    | ok b =>
      cases h
      rfl
    | error e => cases h
  · rintro rfl
    rfl

theorem keepable_blank {width height : Option Int} {m : Machine}
    (h : mount width height {} = .ok m) : m.Keepable ∧ Sized width height m :=
  keepable_mount h ⟨Table.distinct_empty, fun _ he => nomatch he⟩

/-- Wherever a run starts from, the machine comes back from a file. -/
theorem keepable_start {o : RunOptions} {d : Disk} {notes : List Note} {m : Machine}
    (h : start o d = (notes, .ok m)) : m.Keepable ∧ Sized o.width o.height m := by
  unfold start at h
  split at h
  · cases h
  · exact keepable_blank (congrArg Prod.snd h)
  · split at h
    · cases h
    · rename_i hrestore
      cases h
      obtain ⟨text, -, hrest⟩ := bind_eq_ok_iff.1 hrestore
      obtain ⟨j, hj, hresume⟩ := bind_eq_ok_iff.1 hrest
      exact keepable_resume hresume (Json.joined_read (mapError_eq_ok_iff.1 hj))
    · exact keepable_blank (congrArg Prod.snd h)

/-- A run that gets as far as executing its program. -/
inductive Executes (patience : Nat) (o : RunOptions) (d : Disk) : Outcome → Machine → Prop
  | intro {source : String} {notes : List Note} {m₀ m : Machine} {program : Program} {w : Window}
      {outcome : Outcome} {events : List Event} (read : readText d o.file = .ok source)
      (started : start o d = (notes, .ok m₀)) (compiled : Source.compile source = .ok program)
      (window : window o = .ok w)
      (executed : Machine.execute patience program w m₀ = (outcome, m, events)) :
      Executes patience o d outcome m

section

variable {patience : Nat} {o : RunOptions} {d : Disk} {notes : List Note} {c : Chunk}
  {outcome : Outcome} {m : Machine}

theorem executes_of_execution (h : execution patience o d = (notes, .ok (c, m))) :
    Executes patience o d (.chunk c) m := by
  unfold execution at h
  split at h
  · cases h
  rename_i source hsource
  split at h
  · cases h
  rename_i notes' m₀ hstart
  split at h
  · cases h
  split at h
  · cases h
  split at h
  · cases h
  rename_i program hprogram
  simp only [runChunk] at h
  split at h
  · split at h <;> cases h
  rename_i w hw
  rcases hrun : Machine.execute patience program w m₀ with ⟨outcome, m', events⟩
  rw [hrun] at h
  cases outcome with
  | chunk c' =>
    cases h
    exact .intro hsource hstart hprogram hw hrun
  | failed e => cases h
  | givenUp => cases h

def verdict (m : Machine) : Outcome → Except Failure (Chunk × Machine)
  | .chunk c => .ok (c, m)
  | .failed e => .error (.stopped e)
  | .givenUp => .error .givenUp

theorem execution_of_executes (h : Executes patience o d outcome m) (himage : o.inputImage = none) :
    ∃ notes, execution patience o d = (notes, verdict m outcome) := by
  cases h with
  | intro read started compiled window executed =>
    simp only [execution, read, started, himage, Option.elim, Option.isSome_none,
      Bool.false_eq_true, if_false, compiled, runChunk, window, executed]
    cases outcome <;> exact ⟨_, rfl⟩

theorem Executes.keepable (h : Executes patience o d outcome m) :
    m.Keepable ∧ Sized o.width o.height m := by
  cases h with
  | @intro _ _ m₀ _ _ _ _ _ read started compiled window executed =>
    obtain ⟨hkeepable, hsized⟩ := keepable_start started
    have hfit : m₀.Fit m₀.canvas.grid.width m₀.canvas.grid.height :=
      ⟨hkeepable.restorable.bound, rfl, rfl⟩
    obtain ⟨-, hwidth, hheight⟩ := (lasting_fit _ _ _).execute executed hfit
    refine ⟨hkeepable.execute (Source.joined_of_compile compiled) executed, hsized.1.trans ?_,
      hsized.2.trans ?_⟩
    · rw [← hwidth]
    · rw [← hheight]

end

theorem haveReadable_values {es : List (Text × Value)} (h : ∀ e ∈ es, e.1.Joined ∧ e.2.Joined)
    (hw : Json.haveWritable (es.map fun (name, v) => (name, v.toJson)) = true) :
    Json.HaveReadable (es.map fun (name, v) => (name, v.toJson)) := by
  induction es with
  | nil => trivial
  | cons e es ih =>
    obtain ⟨name, v⟩ := e
    simp only [List.map_cons, Json.haveWritable, Bool.and_eq_true] at hw
    have he := h _ List.mem_cons_self
    refine ⟨⟨he.1, ?_⟩, ih (fun e' he' => h e' (List.mem_cons_of_mem _ he')) hw.2⟩
    cases v with
    | int n => exact hw.1
    | bool b => trivial
    | text t => exact he.2

theorem readable_saved {m : Machine} (h : m.Keepable) (hw : (saved m).isWritable = true) :
    (saved m).Readable := by
  have hcolor : m.state.pen.color.Joined := by
    have hbound := h.restorable.bound.color
    obtain ⟨cs, hcs, -⟩ := Option.bind_eq_some_iff.1 hbound
    exact Text.joined_of_chars? hcs
  have hname (s : String) : (s : Text).Joined := Text.joined_ofString s
  simp only [saved, State.toJson, Json.isWritable, Json.haveWritable, Bool.and_eq_true] at hw
  obtain ⟨hwidth, hheight, ⟨hvalues, hx, hy, -, hsize, hline, -, hpointer, -⟩, -⟩ := hw
  have hnames : (m.state.values.entries.map fun (name, v) => (name, v.toJson)).map Prod.fst =
      m.state.values.entries.map Prod.fst := by
    rw [List.map_map]
    rfl
  have hsavedNames : (["width", "height", "state", "pixels"].map Text.ofString).Nodup := by decide
  have hstateNames :
      (["variables", "cursorX", "cursorY", "brushColor", "brushSize", "lastExecutedLine", "spawned",
        "instructionPointer"].map Text.ofString).Nodup := by decide
  have hstate : m.state.toJson.Readable := by
    refine ⟨hstateNames, ⟨hname _, ?_, haveReadable_values h.joined hvalues⟩, ⟨hname _, hx⟩,
      ⟨hname _, hy⟩, ⟨hname _, hcolor⟩, ⟨hname _, hsize⟩, ⟨hname _, hline⟩, ⟨hname _, trivial⟩,
      ⟨hname _, hpointer⟩, trivial⟩
    rw [hnames]
    exact h.restorable.distinct
  exact ⟨hsavedNames, ⟨hname _, hwidth⟩, ⟨hname _, hheight⟩, ⟨hname _, hstate⟩,
    ⟨hname _, hname _⟩, trivial⟩

/-- A run has kept a machine in a file: the file and the directories that it lacked are all that has
changed, and another run of the same size that goes on from the file starts with this machine. -/
structure Kept (mark : String) (o : RunOptions) (file : String) (m : Machine) (d d' : Disk) :
    Prop where
  written : Disk.Replaced mark (Path.ofText file) (Text.toBytes (saved m).write) d d'
  restored : ∀ o' : RunOptions, o'.state = some file → o'.reset = false → o'.width = o.width →
    o'.height = o.height → ∃ notes, start o' d' = (notes, .ok (m.withLabels .empty))

theorem isPresent_of_read {p : Path} {d : Disk} {bs : Bytes} (h : d.read p = .ok bs) :
    d.isPresent p = .ok true := by
  obtain ⟨hlocate, hget⟩ := Disk.read_eq_ok_iff.1 h
  simp only [Disk.isPresent, hlocate, hget, Option.isSome_some]

theorem readText_write {file : String} {j : Json} {d : Disk}
    (hread : d.read (Path.ofText file) = .ok (Text.toBytes j.write)) (hj : j.Readable) :
    readText d file = .ok j.write := by
  rw [readText, readBytes, hread, mapError_ok]
  simp only [bind, Except.bind, Text.ofBytes_toBytes (Json.isPlain_of_mem_write j hj)]
  rfl

theorem restore_write {o : RunOptions} {file : String} {j : Json} {d : Disk}
    (hread : d.read (Path.ofText file) = .ok (Text.toBytes j.write)) (hj : j.Readable) :
    restore o d file = resume o.width o.height j := by
  simp only [restore, readText_write hread hj, bind, Except.bind, Json.read_write hj, mapError_ok]

theorem savedFile_of_read {o : RunOptions} {file : String} {d : Disk} {bs : Bytes}
    (hstate : o.state = some file) (hread : d.read (Path.ofText file) = .ok bs) :
    savedFile o d = .ok (if !o.reset then some file else none) := by
  simp only [savedFile, hstate, isPresent_of_read hread, mapError_ok, bind, Except.bind,
    Bool.true_and]
  rfl

theorem start_of_restore {o : RunOptions} {file : String} {d : Disk} {bs : Bytes} {m : Machine}
    (hstate : o.state = some file) (hreset : o.reset = false)
    (hread : d.read (Path.ofText file) = .ok bs) (hrestore : restore o d file = .ok (some m)) :
    ∃ notes, start o d = (notes, .ok m) := by
  have hsaved := savedFile_of_read hstate hread
  rw [hreset] at hsaved
  simp only [start, hsaved, Bool.not_false, if_true, hrestore]
  exact ⟨_, rfl⟩

theorem kept_of_save {mark file : String} {o : RunOptions} {m : Machine} {d d' : Disk} {u : Unit}
    (h : save mark file m d = (.ok u, d')) (hm : m.Keepable) (hsized : Sized o.width o.height m) :
    (saved m).isWritable = true ∧ Kept mark o file m d d' := by
  unfold save at h
  split at h
  · rename_i hw
    split at h
    · cases h
    · rename_i hreplace
      cases h
      have hwritten := Disk.replaced_of_replace hreplace
      refine ⟨hw, hwritten, fun o' hstate hreset hwidth hheight => ?_⟩
      have hrestore : restore o' d' file = .ok (some (m.withLabels .empty)) := by
        rw [restore_write hwritten.content (readable_saved hm hw), hwidth, hheight,
          hsized.1, hsized.2]
        exact resume_saved hm.restorable
      exact start_of_restore hstate hreset hwritten.content hrestore
  · cases h

theorem chunk_of_execute {n : Nat} {program : Program} {w : Window} {m m' : Machine} {c : Chunk}
    {events : List Event} (h : execute n program w m = (.chunk c, m', events)) :
    c.cursorX = m'.state.pen.x ∧ c.cursorY = m'.state.pen.y ∧ c.lastLine = m'.state.lastLine := by
  unfold execute at h
  split at h
  · cases h
  · simp only at h
    split at h
    · cases h
    · cases h
    · cases h
      exact ⟨rfl, rfl, rfl⟩

theorem Executes.chunk {patience : Nat} {o : RunOptions} {d : Disk} {c : Chunk} {m : Machine}
    (h : Executes patience o d (.chunk c) m) :
    c.cursorX = m.state.pen.x ∧ c.cursorY = m.state.pen.y ∧ c.lastLine = m.state.lastLine := by
  cases h with
  | intro read started compiled window executed => exact chunk_of_execute executed

/-- Once a machine has been saved, of all that the answer names only the next line may be too
long. -/
theorem isWritable_chunkAnswer (o : RunOptions) {c : Chunk} {m : Machine}
    (hw : (saved m).isWritable = true)
    (hc : c.cursorX = m.state.pen.x ∧ c.cursorY = m.state.pen.y ∧ c.lastLine = m.state.lastLine) :
    (chunkAnswer o c m).isWritable = Numeral.isWritable c.nextLine := by
  obtain ⟨hcx, hcy, hcline⟩ := hc
  simp only [saved, State.toJson, Json.isWritable, Json.haveWritable, Bool.and_eq_true] at hw
  obtain ⟨-, -, ⟨-, hx, hy, -, -, hline, -⟩, -⟩ := hw
  cases hview : o.debugView <;>
    simp [chunkAnswer, chunkJson, hview, Json.isWritable, Json.haveWritable, hcx, hcy, hcline,
      hx, hy, hline]

section

variable {s : Setting} {o : RunOptions} {d d' : Disk} {notes : List Note} {f : Failure} {c : Chunk}
  {m : Machine}

/-- Nothing is written by a run that does not come to the end of its chunk. -/
theorem run_of_error (h : execution s.patience o d = (notes, .error f)) :
    run s o d =
      (f.diagnostic?.elim (.error f) fun diagnostic => .ok { listing [diagnostic] with notes },
        d) := by
  rw [run, h]
  cases hd : f.diagnostic? <;> simp only [hd, Option.elim]

theorem run_of_keep_error (h : execution s.patience o d = (notes, .ok (c, m)))
    (hkeep : keep s o m d = (.error f, d')) : run s o d = (.error f, d') := by
  simp only [run, h, hkeep]

theorem run_of_keep_ok (houtput : o.output = none) (hbase64 : o.base64 = false)
    (h : execution s.patience o d = (notes, .ok (c, m))) (hkeep : keep s o m d = (.ok (), d')) :
    run s o d = (if (chunkAnswer o c m).isWritable then
      .ok { exit := 0, stdout := (chunkAnswer o c m).write ++ "\n", notes } else
        .error .longInteger, d') := by
  simp only [run, h, hkeep, houtput, hbase64, Option.isSome_none, Bool.or_self,
    Bool.false_eq_true, if_false]
  split <;> rfl

theorem disk_of_keep_error (h : keep s o m d = (.error f, d'))
    (hf : ∀ fault, f ≠ .unwritable fault) : d' = d := by
  rcases hstate : o.state with _ | file
  · rw [keep, hstate] at h
    cases h
  · rw [keep, hstate] at h
    simp only [Option.elim, save] at h
    split at h
    · split at h
      · cases h
        exact absurd rfl (hf _)
      · cases h
    · cases h
      rfl

theorem keep_of_read {file : String} {bs : Bytes} (hstate : o.state = some file)
    (hread : d.read (Path.ofText file) = .ok bs) (hw : (saved m).isWritable = true) :
    (∀ fault, d.create (Disk.temporary (Path.ofText file) s.mark) = .error fault →
      keep s o m d = (.error (.unwritable fault), d)) ∧
    (∀ d₁, d.create (Disk.temporary (Path.ofText file) s.mark) = .ok d₁ →
      ∃ d', keep s o m d = (.ok (), d')) := by
  obtain ⟨hblocked, hfree⟩ := Disk.replace_of_read hread s.mark (Text.toBytes (saved m).write)
  constructor
  · intro fault hfault
    simp only [keep, hstate, Option.elim, save, hw, if_true, hblocked fault hfault]
  · intro d₁ hd₁
    obtain ⟨d', hd'⟩ := hfree d₁ hd₁
    refine ⟨d', ?_⟩
    simp only [keep, hstate, Option.elim, save, hw, if_true, hd']

/-- The places of a machine after it has been kept: in the file that was asked for, and nowhere
without one. -/
def Leaves (s : Setting) (o : RunOptions) (m : Machine) (d d' : Disk) : Prop :=
  (o.state = none → d' = d) ∧ ∀ file, o.state = some file → Kept s.mark o file m d d'

theorem leaves_of_keep (h : keep s o m d = (.ok (), d')) (hm : m.Keepable)
    (hsized : Sized o.width o.height m) : Leaves s o m d d' := by
  constructor
  · intro hstate
    rw [keep, hstate] at h
    cases h
    rfl
  · intro file hstate
    rw [keep, hstate, Option.elim_some] at h
    exact (kept_of_save h hm hsized).2

end

/-- A run that fails after its machine has been kept, as the next line is too long for the
answer. -/
def FailsLate (s : Setting) (o : RunOptions) (f : Failure) (d d' : Disk) : Prop :=
  ∃ file c m, o.state = some file ∧ Executes s.patience o d (.chunk c) m ∧
    Kept s.mark o file m d d' ∧ Numeral.isWritable c.nextLine = false ∧ f = .longInteger

/-- A run that fails has changed no file, and one that succeeds has kept its machine where it was
asked to. The one failure that comes too late is that of a next line which cannot be written. -/
theorem run_is_all_or_nothing (s : Setting) {o : RunOptions} (houtput : o.output = none)
    (hbase64 : o.base64 = false) {d d' : Disk} {result : Except Failure Reply}
    (hrun : run s o d = (result, d')) :
    (∀ reply, result = .ok reply → reply.exit = 1 ∧ d' = d ∨
      reply.exit = 0 ∧ ∃ c m, Executes s.patience o d (.chunk c) m ∧
        reply.stdout = (chunkAnswer o c m).write ++ "\n" ∧ Leaves s o m d d') ∧
    (∀ f, result = .error f → (∀ fault, f ≠ .unwritable fault) → d' = d ∨
      FailsLate s o f d d') := by
  rcases hexecution : execution s.patience o d with ⟨notes, f | ⟨c, m⟩⟩
  · rw [run_of_error hexecution] at hrun
    cases hrun
    refine ⟨fun reply hreply => Or.inl ⟨?_, rfl⟩, fun _ _ _ => Or.inl rfl⟩
    cases hd : f.diagnostic? with
    | none =>
      rw [hd] at hreply
      cases hreply
    | some diagnostic =>
      rw [hd] at hreply
      cases hreply
      rfl
  have hexecutes := executes_of_execution hexecution
  obtain ⟨hm, hsized⟩ := hexecutes.keepable
  rcases hkeep : keep s o m d with ⟨f | ⟨⟩, d₁⟩
  · rw [run_of_keep_error hexecution hkeep] at hrun
    cases hrun
    refine ⟨fun reply hreply => (by cases hreply), fun f' hf' hfault => Or.inl ?_⟩
    cases hf'
    exact disk_of_keep_error hkeep hfault
  · have hleaves := leaves_of_keep hkeep hm hsized
    rw [run_of_keep_ok houtput hbase64 hexecution hkeep] at hrun
    split at hrun
    · cases hrun
      refine ⟨fun reply hreply => Or.inr ?_, fun f hf => (by cases hf)⟩
      cases hreply
      exact ⟨rfl, c, m, hexecutes, rfl, hleaves⟩
    · rename_i hanswer
      cases hrun
      refine ⟨fun reply hreply => (by cases hreply), fun f hf _ => ?_⟩
      cases hf
      rcases hstate : o.state with _ | file
      · exact Or.inl (hleaves.1 hstate)
      · rw [keep, hstate, Option.elim_some] at hkeep
        obtain ⟨hw, hkept⟩ := kept_of_save hkeep hm hsized
        rw [isWritable_chunkAnswer o hw hexecutes.chunk, Bool.not_eq_true] at hanswer
        exact Or.inr ⟨file, c, m, hstate, hexecutes, hkept, hanswer, rfl⟩

def desk (bs : Bytes) : Disk := ⟨[(⟨.here, ["p"]⟩, .file #[97]), (⟨.here, ["s"]⟩, .file bs)]⟩

theorem ofText_s : Path.ofText "s" = ⟨.here, ["s"]⟩ := by cbv

theorem ofText_p : Path.ofText "p" = ⟨.here, ["p"]⟩ := by cbv

theorem read_desk (bs : Bytes) : (desk bs).read (Path.ofText "s") = .ok bs := by
  rw [ofText_s]
  cbv

theorem readText_desk (bs : Bytes) : readText (desk bs) "p" = .ok "a" := by
  rw [readText, readBytes, ofText_p]
  cbv

theorem create_desk (bs : Bytes) :
    ∃ d, (desk bs).create (Disk.temporary (Path.ofText "s") "0") = .ok d := by
  rw [ofText_s]
  exact ⟨_, by cbv⟩

def longest : Int := Int.ofNat (Nat.pow 10 Numeral.mostDigits - 1)

def lateSave : Json :=
  .object
    [("width", .int 1), ("height", .int 1), ("state", .object [("lastExecutedLine", .int longest)]),
      ("pixels", .text "/////w==")]

def lateRun : RunOptions :=
  { file := "p", width := some 1, height := some 1, startLine := some 9, state := some "s" }

def lateMachine : Machine := ⟨{ lastLine := longest }, { grid := .blank 1 1 }⟩

theorem readable_lateSave : lateSave.Readable := by
  have hname (s : String) : (s : Text).Joined := Text.joined_ofString s
  have hlongest : Numeral.isWritable longest = true := by decide +kernel
  have hnames : (["width", "height", "state", "pixels"].map Text.ofString).Nodup := by decide
  have hone : Numeral.isWritable 1 = true := by decide +kernel
  refine ⟨hnames, ⟨hname _, hone⟩, ⟨hname _, hone⟩, ⟨hname _, ?_, ⟨hname _, hlongest⟩, trivial⟩,
    ⟨hname _, hname _⟩, trivial⟩
  decide

theorem resume_lateSave : resume (some 1) (some 1) lateSave = .ok (some lateMachine) := by
  have hbytes : pixelBytes (.text "/////w==") = .ok #[255, 255, 255, 255] := by cbv
  exact resume_of_members rfl rfl rfl rfl rfl rfl hbytes rfl

theorem executes_lateRun :
    ∃ c m, Executes 1 lateRun (desk (Text.toBytes lateSave.write)) (.chunk c) m ∧
    Numeral.isWritable c.nextLine = false ∧ (saved m).isWritable = true ∧ saved m ≠ lateSave := by
  have hread := read_desk (Text.toBytes lateSave.write)
  have hrestore := (restore_write (o := lateRun) hread readable_lateSave).trans resume_lateSave
  obtain ⟨notes, hstart⟩ := start_of_restore rfl rfl hread hrestore
  have hcompile : Source.compile "a" = .ok ⟨[.label "a" ⟨1, 1⟩], ⟨1, 1⟩⟩ := by cbv
  refine ⟨_, _, .intro (readText_desk _) hstart hcompile rfl rfl, ?_, ?_, ?_⟩
  · decide +kernel
  · decide +kernel
  · intro h
    cases h

/-- A run of nothing on a machine whose last line is the longest one. It fails, and yet its file is
not what it was. -/
theorem long_last_line_fails_late :
    ∃ d', run { patience := 1 } lateRun (desk (Text.toBytes lateSave.write)) =
        (.error .longInteger, d') ∧
      d'.read (Path.ofText "s") ≠ .ok (Text.toBytes lateSave.write) ∧
      FailsLate { patience := 1 } lateRun .longInteger (desk (Text.toBytes lateSave.write)) d' := by
  obtain ⟨c, m, hexecutes, hnext, hw, hne⟩ := executes_lateRun
  obtain ⟨notes, hexecution⟩ := execution_of_executes hexecutes rfl
  obtain ⟨hm, hsized⟩ := hexecutes.keepable
  have hread := read_desk (Text.toBytes lateSave.write)
  obtain ⟨d₁, hd₁⟩ := create_desk (Text.toBytes lateSave.write)
  obtain ⟨d', hkeep⟩ := (keep_of_read (s := { patience := 1 }) (o := lateRun) rfl hread hw).2 d₁ hd₁
  have hrun := run_of_keep_ok rfl rfl hexecution hkeep
  rw [isWritable_chunkAnswer lateRun hw hexecutes.chunk, hnext, if_neg Bool.false_ne_true] at hrun
  have hkept := (leaves_of_keep hkeep hm hsized).2 "s" rfl
  have hchanged : d'.read (Path.ofText "s") ≠ .ok (Text.toBytes lateSave.write) := by
    intro hsame
    have hwritten := readText_write hkept.written.content (readable_saved hm hw)
    rw [readText_write hsame readable_lateSave] at hwritten
    have hvalue := Json.read_write (readable_saved hm hw)
    rw [← Except.ok.inj hwritten, Json.read_write readable_lateSave] at hvalue
    exact hne (Except.ok.inj hvalue).symm
  refine ⟨d', hrun, hchanged, ?_⟩
  rcases (run_is_all_or_nothing _ rfl rfl hrun).2 _ rfl (fun fault h => by cases h) with rfl | hlate
  · exact absurd hread hchanged
  · exact hlate

end Cli

end Brushwork
