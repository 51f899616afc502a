import Mathlib
import Brushwork.Proofs.Measuring
import Brushwork.Proofs.Unfit

/-!
# Runs that end without an answer

A run from a saved file comes back with an answer unless one of a few things happens, none of which
can be told in an answer: the file has a value that the run cannot go on from, a ring cannot be
measured, or the run is done and an integer that it has to write down is too long, or it finds no
place for its temporary file. Stack and memory are taken as unbounded, so that neither a deeply
nested file or program nor a large canvas is among them.
-/

namespace Brushwork

namespace Cli

open Machine

/-- The integers that a run writes down at its end, in the file or in its answer. -/
inductive Recorded (c : Chunk) (m : Machine) : Int → Prop
  | width : Recorded c m m.canvas.grid.width
  | height : Recorded c m m.canvas.grid.height
  | variable {name : Text} {n : Int} (mem : (name, Value.int n) ∈ m.state.values.entries) :
    Recorded c m n
  | cursorX : Recorded c m m.state.pen.x
  | cursorY : Recorded c m m.state.pen.y
  | size : Recorded c m m.state.pen.size
  | lastLine : Recorded c m m.state.lastLine
  | pointer : Recorded c m m.state.pointer
  | nextLine : Recorded c m c.nextLine

theorem haveWritable_values_iff {es : List (Text × Value)} :
    Json.haveWritable (es.map fun (name, v) => (name, v.toJson)) = true ↔
      ∀ name n, (name, Value.int n) ∈ es → Numeral.isWritable n = true := by
  induction es with
  | nil => simp [Json.haveWritable]
  | cons e es ih =>
    obtain ⟨name, v⟩ := e
    rw [List.map_cons, Json.haveWritable, Bool.and_eq_true, ih]
    constructor
    · rintro ⟨hv, hes⟩ name' n hmem
      rcases List.mem_cons.1 hmem with heq | hmem
      · cases heq
        exact hv
      · exact hes name' n hmem
    · intro h
      refine ⟨?_, fun name' n hmem => h name' n (List.mem_cons_of_mem _ hmem)⟩
      cases v with
      | int n => exact h name n List.mem_cons_self
      | bool | text => rfl

theorem isWritable_saved_iff {c : Chunk} {m : Machine} :
    ((saved m).isWritable = true ∧ Numeral.isWritable c.nextLine = true) ↔
      ∀ n, Recorded c m n → Numeral.isWritable n = true := by
  simp only [saved, State.toJson, Json.isWritable, Json.haveWritable, Bool.and_eq_true,
    haveWritable_values_iff]
  constructor
  · rintro ⟨⟨hwidth, hheight, ⟨hvalues, hx, hy, -, hsize, hline, -, hpointer, -⟩, -⟩, hnext⟩ n hn
    cases hn with
    | width => exact hwidth
    | height => exact hheight
    | «variable» mem => exact hvalues _ _ mem
    | cursorX => exact hx
    | cursorY => exact hy
    | size => exact hsize
    | lastLine => exact hline
    | pointer => exact hpointer
    | nextLine => exact hnext
  · intro h
    exact ⟨⟨h _ .width, h _ .height,
      ⟨fun _ _ mem => h _ (.variable mem), h _ .cursorX, h _ .cursorY, trivial,
        h _ .size, h _ .lastLine, trivial, h _ .pointer, trivial⟩, trivial, trivial⟩, h _ .nextLine⟩

section

variable {patience : Nat} {s : Setting} {o : RunOptions} {d : Disk} {outcome : Outcome}
  {m : Machine}

theorem Executes.unique {outcome' : Outcome} {m' : Machine} (h : Executes patience o d outcome m)
    (h' : Executes patience o d outcome' m') : outcome = outcome' ∧ m = m' := by
  cases h with
  | intro read started compiled window executed =>
    cases h' with
    | intro read' started' compiled' window' executed' =>
      cases read.symm.trans read'
      cases started.symm.trans started'
      cases compiled.symm.trans compiled'
      cases window.symm.trans window'
      cases executed.symm.trans executed'
      exact ⟨rfl, rfl⟩

theorem execution_cases (patience : Nat) {source : String} {w : Window}
    (himage : o.inputImage = none) (hread : readText d o.file = .ok source)
    (hwindow : window o = .ok w) :
    (∃ notes f, start o d = (notes, .error f) ∧ execution patience o d = (notes, .error f)) ∨
    (∃ notes why, Source.compile source = .error why ∧
      execution patience o d = (notes, .error (.rejected why)) ∧
      ∃ m, (start o d).2 = .ok m) ∨
    ∃ outcome m, Executes patience o d outcome m := by
  rcases hstart : start o d with ⟨notes, f | m₀⟩
  · left
    refine ⟨notes, f, rfl, ?_⟩
    simp only [execution, hread, hstart]
  · right
    cases hcompile : Source.compile source with
    | error why =>
      refine Or.inl ⟨notes, why, rfl, ?_, m₀, rfl⟩
      simp only [execution, hread, hstart, himage, Option.elim, Option.isSome_none,
        Bool.false_eq_true, if_false, hcompile]
    | ok program =>
      exact Or.inr ⟨_, _, .intro hread hstart hcompile hwindow rfl⟩

end

/-- The ways in which a run ends without an answer: its file has a value that it cannot go on from,
a ring cannot be measured, an integer is too long to be written, or there is no place for a
temporary file. Stack and memory are taken as unbounded. -/
inductive Crashes (s : Setting) (o : RunOptions) (d : Disk) : Prop
  | unfit {file text : String} {j : Json} {width height : Int} (state : o.state = some file)
      (reset : o.reset = false) (read : readText d file = .ok text)
      (parsed : Json.read text = .ok j) (size : o.width = some width ∧ o.height = some height)
      (unfit : Unfit width height j)
  | ring {source : String} {program : Program} {e : Located Fault} {m : Machine} {t : Tree}
      (read : readText d o.file = .ok source) (compiled : Source.compile source = .ok program)
      (executes : Executes s.patience o d (.failed e) m) (mem : t ∈ program.statements)
      (fails : step t m = .error e m) (unmeasured : Unmeasured m t)
  | long {c : Chunk} {m : Machine} {n : Int} (executes : Executes s.patience o d (.chunk c) m)
      (recorded : Recorded c m n) (long : Numeral.isWritable n = false)
  | blocked {file : String} {c : Chunk} {m : Machine} {fault : Disk.Fault}
      (state : o.state = some file) (executes : Executes s.patience o d (.chunk c) m)
      (blocked : d.create (Disk.temporary (Path.ofText file) s.mark) = .error fault)

/-- A command that comes back with an answer: one object, and an exit code that tells success or
failure. -/
def Answers (result : Except Failure Reply) : Prop :=
  ∃ reply ms, result = .ok reply ∧ (reply.exit = 0 ∨ reply.exit = 1) ∧
    reply.stdout = (Json.object ms).write ++ "\n"

@[simp] theorem silent_stopped_iff {e : Located Fault} :
    (Failure.stopped e).Silent ↔ e.cause = .canvas .unmeasurable := by
  have hplaced : (Fault.canvas .unmeasurable).isPlaced = false := rfl
  simp only [Failure.Silent, Failure.diagnostic?]
  by_cases hcause : e.cause = .canvas .unmeasurable
  · simp [hcause, hplaced]
  · by_cases hwritable : e.cause.isPlaced = true
    · simp [hcause, hwritable]
    · simp [hcause, hwritable]

section

variable {s : Setting} {o : RunOptions} {d : Disk} {notes : List Note} {f : Failure} {file : String}
  {bs : Bytes} {c : Chunk} {m : Machine}

theorem answers_of_error (h : execution s.patience o d = (notes, .error f)) :
    Answers (run s o d).1 ↔ ¬ f.Silent := by
  rw [run_of_error h, Failure.Silent]
  cases hd : f.diagnostic? with
  | none =>
    refine iff_of_false ?_ fun h => h rfl
    rintro ⟨reply, ms, h, -⟩
    cases h
  | some diagnostic => exact iff_of_true ⟨_, _, rfl, Or.inr rfl, rfl⟩ fun h => by cases h

theorem answers_of_chunk (houtput : o.output = none) (hbase64 : o.base64 = false)
    (hstate : o.state = some file) (hread : d.read (Path.ofText file) = .ok bs)
    (h : execution s.patience o d = (notes, .ok (c, m)))
    (hc : c.cursorX = m.state.pen.x ∧ c.cursorY = m.state.pen.y ∧ c.lastLine = m.state.lastLine) :
    Answers (run s o d).1 ↔ (∀ n, Recorded c m n → Numeral.isWritable n = true) ∧
      ∃ d₁, d.create (Disk.temporary (Path.ofText file) s.mark) = .ok d₁ := by
  rw [← isWritable_saved_iff]
  cases hw : (saved m).isWritable with
  | false =>
    have hkeep : keep s o m d = (.error .longInteger, d) := by
      simp only [keep, hstate, Option.elim, save, hw, Bool.false_eq_true, if_false]
    rw [run_of_keep_error h hkeep]
    refine iff_of_false ?_ fun h => by cases h.1.1
    rintro ⟨reply, ms, h, -⟩
    cases h
  | true =>
    obtain ⟨hblocked, hfree⟩ := keep_of_read (s := s) hstate hread hw
    cases hcreate : d.create (Disk.temporary (Path.ofText file) s.mark) with
    | error fault =>
      rw [run_of_keep_error h (hblocked fault hcreate)]
      refine iff_of_false ?_ fun h => by cases h.2.choose_spec
      rintro ⟨reply, ms, h, -⟩
      cases h
    | ok d₁ =>
      obtain ⟨d', hkeep⟩ := hfree d₁ hcreate
      rw [run_of_keep_ok houtput hbase64 h hkeep, isWritable_chunkAnswer o hw hc]
      cases hnext : Numeral.isWritable c.nextLine with
      | true => exact iff_of_true ⟨_, _, rfl, Or.inl rfl, rfl⟩ ⟨⟨rfl, rfl⟩, d₁, rfl⟩
      | false =>
        refine iff_of_false ?_ fun h => by cases h.1.2
        rintro ⟨reply, ms, h, -⟩
        cases h

end

section

variable {s : Setting} {o : RunOptions} {d : Disk} {source file : String} {bs : Bytes}
  {width height : Int} {c : Chunk} {m : Machine} {e : Located Fault}

/-- Before a program is executed, only the file may be to blame. -/
theorem crashes_iff_of_not_executes (hwidth : o.width = some width)
    (hheight : o.height = some height) (hstate : o.state = some file)
    (hbytes : d.read (Path.ofText file) = .ok bs)
    (h : ∀ outcome m, ¬ Executes s.patience o d outcome m) :
    Crashes s o d ↔ Raises Failure.Silent (start o d).2 := by
  rw [raises_start_iff hwidth hheight hstate hbytes]
  constructor
  · intro hcrashes
    cases hcrashes with
    | unfit state reset read parsed size unfit =>
      cases hstate.symm.trans state
      cases hwidth.symm.trans size.1
      cases hheight.symm.trans size.2
      exact ⟨reset, _, _, read, parsed, unfit⟩
    | ring _ _ executes => exact absurd executes (h _ _)
    | long executes => exact absurd executes (h _ _)
    | blocked _ executes => exact absurd executes (h _ _)
  · rintro ⟨hreset, text, j, htext, hj, hunfit⟩
    exact .unfit hstate hreset htext hj ⟨hwidth, hheight⟩ hunfit

/-- Once a program is executed, the file is not to blame any more. -/
theorem Executes.not_unfit {patience : Nat} {outcome : Outcome}
    (h : Executes patience o d outcome m) (hbytes : d.read (Path.ofText file) = .ok bs)
    {text : String} {j : Json} (hstate : o.state = some file) (hreset : o.reset = false)
    (hread : readText d file = .ok text) (hparsed : Json.read text = .ok j)
    (hsize : o.width = some width ∧ o.height = some height) : ¬ Unfit width height j := by
  intro hunfit
  have hraises :=
    (raises_start_iff hsize.1 hsize.2 hstate hbytes).2 ⟨hreset, text, j, hread, hparsed, hunfit⟩
  cases h with
  | intro read started compiled window executed =>
    rw [started] at hraises
    exact not_raises_ok _ hraises

theorem crashes_iff_of_failed (hstate : o.state = some file)
    (hbytes : d.read (Path.ofText file) = .ok bs) (h : Executes s.patience o d (.failed e) m) :
    Crashes s o d ↔ e.cause = .canvas .unmeasurable := by
  constructor
  · intro hcrashes
    cases hcrashes with
    | unfit state reset read parsed size unfit =>
      cases hstate.symm.trans state
      exact absurd unfit (h.not_unfit hbytes state reset read parsed size)
    | ring _ _ executes _ fails unmeasured =>
      obtain ⟨heq, rfl⟩ := h.unique executes
      cases heq
      exact (step_error_iff.1 fails).1.unmeasurable_iff.2 unmeasured
    | long executes => cases (h.unique executes).1
    | blocked _ executes => cases (h.unique executes).1
  · intro hcause
    have hexecutes := h
    cases h with
    | intro read started compiled window executed =>
      obtain ⟨t, ht, hfails, hunmeasured⟩ := (execute_unmeasurable_iff executed).1 hcause
      exact .ring read compiled hexecutes ht hfails hunmeasured

theorem crashes_iff_of_chunk (hstate : o.state = some file)
    (hbytes : d.read (Path.ofText file) = .ok bs) (h : Executes s.patience o d (.chunk c) m) :
    Crashes s o d ↔
      ¬ ((∀ n, Recorded c m n → Numeral.isWritable n = true) ∧
        ∃ d₁, d.create (Disk.temporary (Path.ofText file) s.mark) = .ok d₁) := by
  constructor
  · rintro hcrashes ⟨hshort, d₁, hd₁⟩
    cases hcrashes with
    | unfit state reset read parsed size unfit =>
      cases hstate.symm.trans state
      exact absurd unfit (h.not_unfit hbytes state reset read parsed size)
    | ring _ _ executes => cases (h.unique executes).1
    | long executes recorded long =>
      obtain ⟨heq, rfl⟩ := h.unique executes
      cases heq
      rw [hshort _ recorded] at long
      cases long
    | blocked state _ blocked =>
      cases hstate.symm.trans state
      rw [hd₁] at blocked
      cases blocked
  · intro hnot
    by_cases hshort : ∀ n, Recorded c m n → Numeral.isWritable n = true
    · cases hcreate : d.create (Disk.temporary (Path.ofText file) s.mark) with
      | error fault => exact .blocked hstate h hcreate
      | ok d₁ => exact absurd ⟨hshort, d₁, hcreate⟩ hnot
    · push Not at hshort
      obtain ⟨n, hn, hlong⟩ := hshort
      exact .long h hn (Bool.eq_false_iff.2 hlong)

end

/-- A run from a file, whatever its content, comes back with an answer exactly if it does not
crash. -/
theorem run_answers_unless_it_crashes (s : Setting) {o : RunOptions} {d : Disk}
    {source file : String} {bs : Bytes} {width height startLine budget : Int}
    (himage : o.inputImage = none) (houtput : o.output = none) (hbase64 : o.base64 = false)
    (hwidth : o.width = some width) (hheight : o.height = some height)
    (hstart : o.startLine = some startLine) (hbudget : o.budget = some budget)
    (hsource : readText d o.file = .ok source) (hstate : o.state = some file)
    (hbytes : d.read (Path.ofText file) = .ok bs)
    (hends : ∀ m, ¬ Executes s.patience o d .givenUp m) :
    Answers (run s o d).1 ↔ ¬ Crashes s o d := by
  have hwindow : window o = .ok ⟨startLine, budget⟩ := by simp only [window, hstart, hbudget]
  rcases execution_cases s.patience himage hsource hwindow with
    ⟨notes, f, hfailed, hexecution⟩ | ⟨notes, why, hcompile, hexecution, m, hm⟩ | ⟨outcome,
      m, hexecutes⟩
  · have hnone : ∀ outcome m, ¬ Executes s.patience o d outcome m := by
      rintro outcome m ⟨read, started, -⟩
      cases hfailed.symm.trans started
    rw [answers_of_error hexecution, crashes_iff_of_not_executes hwidth hheight hstate hbytes hnone,
      hfailed, raises_error_iff]
  · have hnone : ∀ outcome m, ¬ Executes s.patience o d outcome m := by
      rintro outcome m ⟨read, started, compiled, -⟩
      cases hsource.symm.trans read
      cases hcompile.symm.trans compiled
    rw [answers_of_error hexecution,
      crashes_iff_of_not_executes hwidth hheight hstate hbytes hnone, hm]
    exact iff_of_true (fun h => by cases h) (not_raises_ok m)
  · obtain ⟨notes, hexecution⟩ := execution_of_executes hexecutes himage
    cases outcome with
    | failed e =>
      rw [answers_of_error hexecution, silent_stopped_iff,
        crashes_iff_of_failed hstate hbytes hexecutes]
    | givenUp => exact absurd hexecutes (hends m)
    | chunk c =>
      rw [answers_of_chunk houtput hbase64 hstate hbytes hexecution hexecutes.chunk,
        crashes_iff_of_chunk hstate hbytes hexecutes, not_not]

theorem parsed_of_start {o : RunOptions} {d : Disk} {file text : String} {bs : Bytes} {m : Machine}
    (hstate : o.state = some file) (hreset : o.reset = false)
    (hbytes : d.read (Path.ofText file) = .ok bs) (htext : readText d file = .ok text)
    (h : (start o d).2 = .ok m) : ∃ j, Json.read text = .ok j := by
  have hsaved := savedFile_of_read hstate hbytes
  rw [hreset] at hsaved
  cases hread : Json.read text with
  | ok j => exact ⟨j, rfl⟩
  | error message =>
    have hrestore : restore o d file = .error (.unparsable message) := by
      simp only [restore, htext, bind, Except.bind, hread]
      rfl
    simp only [start, hsaved, Bool.not_false, if_true, hrestore] at h
    cases h

/-- An empty array and a lone brace in place of a saved machine. -/
theorem empty_array_crashes_run :
    (Crashes { patience := 1 } lateRun (desk #[0x5B, 0x5D]) ∧
      ¬ Answers (run { patience := 1 } lateRun (desk #[0x5B, 0x5D])).1) ∧
    Answers (run { patience := 1 } lateRun (desk #[0x7B])).1 := by
  constructor
  · have hbytes := read_desk #[0x5B, 0x5D]
    have htext : readText (desk #[0x5B, 0x5D]) "s" = .ok "[]" := by
      rw [readText, readBytes, hbytes]
      cbv
    have hparsed : Json.read "[]" = .ok (.array []) := by cbv
    have hunfit : Unfit 1 1 (.array []) := .noObject fun ms h => by cases h
    have hcrashes : Crashes { patience := 1 } lateRun (desk #[0x5B, 0x5D]) :=
      .unfit rfl rfl htext hparsed ⟨rfl, rfl⟩ hunfit
    have hends (m : Machine) : ¬ Executes 1 lateRun (desk #[0x5B, 0x5D]) .givenUp m :=
      fun h => h.not_unfit hbytes rfl rfl htext hparsed ⟨rfl, rfl⟩ hunfit
    refine ⟨hcrashes, fun hanswers => ?_⟩
    exact (run_answers_unless_it_crashes _ rfl rfl rfl rfl rfl rfl rfl (readText_desk _) rfl hbytes
      hends).1 hanswers hcrashes
  · have hbytes := read_desk #[0x7B]
    have htext : readText (desk #[0x7B]) "s" = .ok "\x7b" := by
      rw [readText, readBytes, hbytes]
      cbv
    have hparsed : (Json.read "\x7b").toOption.isNone = true := by cbv
    have hnone (j : Json) : Json.read "\x7b" ≠ .ok j := by
      intro h
      rw [h] at hparsed
      cases hparsed
    have hnot : ∀ outcome m, ¬ Executes 1 lateRun (desk #[0x7B]) outcome m := by
      rintro outcome m ⟨-, started, -⟩
      obtain ⟨j, hj⟩ := parsed_of_start rfl rfl hbytes htext (congrArg Prod.snd started)
      exact hnone j hj
    have hcrashes : ¬ Crashes { patience := 1 } lateRun (desk #[0x7B]) := by
      rw [crashes_iff_of_not_executes rfl rfl rfl hbytes hnot, raises_start_iff rfl rfl rfl hbytes]
      rintro ⟨-, text, j, hread, hj, -⟩
      cases htext.symm.trans hread
      exact hnone j hj
    exact (run_answers_unless_it_crashes _ rfl rfl rfl rfl rfl rfl rfl (readText_desk _) rfl hbytes
      (hnot _)).2 hcrashes

end Cli

end Brushwork
