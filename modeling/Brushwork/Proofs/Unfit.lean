import Brushwork.Proofs.Keeping

/-!
# Files that a run cannot go on from

Whatever the bytes of a saved file are, most of what may be wrong with them is told in a diagnostic.
What is left are values of a sort that nobody expected: a file that is no object, a state or
variables that are none, a number that is no number or has no end, a variable of no type, pixels
that are no text. The parts of a file are read in a fixed order, and the first part that cannot be
read decides.
-/

namespace Brushwork

def Raises {ε α : Type} (P : ε → Prop) (x : Except ε α) : Prop := ∃ e, x = .error e ∧ P e

section

variable {ε ε' α β : Type} {P : ε → Prop}

@[simp] theorem not_raises_ok (a : α) : ¬ Raises P (.ok a) := by
  rintro ⟨e, h, -⟩
  cases h

@[simp] theorem not_raises_pure (a : α) : ¬ Raises P (pure a) := not_raises_ok a

@[simp] theorem raises_error_iff {e : ε} : Raises P (.error e : Except ε α) ↔ P e := by
  constructor
  · rintro ⟨e', h, hP⟩
    cases h
    exact hP
  · exact fun h => ⟨e, rfl, h⟩

theorem raises_bind_iff {x : Except ε α} {f : α → Except ε β} :
    Raises P (x >>= f) ↔ Raises P x ∨ ∃ a, x = .ok a ∧ Raises P (f a) := by
  cases x with
  | error e => simp [bind, Except.bind]
  | ok a => simp [bind, Except.bind]

theorem raises_mapError_iff {P : ε' → Prop} {g : ε → ε'} {x : Except ε α} :
    Raises P (x.mapError g) ↔ Raises (fun e => P (g e)) x := by
  cases x with
  | error e =>
    have hraised : Raises (fun e => P (g e)) (.error e : Except ε α) ↔ P (g e) := raises_error_iff
    exact raises_error_iff.trans hraised.symm
  | ok a => exact iff_of_false (not_raises_ok a) (not_raises_ok a)

end

def Cli.Failure.Silent (f : Failure) : Prop := f.diagnostic? = none

def Json.Misfit.Silent (cause : Json.Misfit) : Prop := (Cli.Failure.misfit cause).Silent

namespace Json

/-- The values that stand for no integer and are told so without a diagnostic. -/
inductive NoNumber : Json → Prop
  | null : NoNumber .null
  | array {items : List Json} : NoNumber (.array items)
  | object {ms : List (Text × Json)} : NoNumber (.object ms)
  | infinite {negative : Bool} : NoNumber (.real (.infinite negative))

@[simp] theorem raises_toInt_iff {j : Json} : Raises Misfit.Silent j.toInt ↔ j.NoNumber := by
  cases j with
  | null => exact iff_of_true ⟨_, rfl, rfl⟩ .null
  | array => exact iff_of_true ⟨_, rfl, rfl⟩ .array
  | object => exact iff_of_true ⟨_, rfl, rfl⟩ .object
  | int n => exact iff_of_false (not_raises_ok n) fun h => by cases h
  | bool b => exact iff_of_false (not_raises_ok _) fun h => by cases h
  | text t =>
    refine iff_of_false ?_ fun h => by cases h
    rw [toInt]
    split
    · exact not_raises_ok _
    · rw [raises_error_iff]
      exact fun h => by cases h
  | real x =>
    cases x with
    | finite negative m q => exact iff_of_false (not_raises_ok _) fun h => by cases h
    | infinite negative => exact iff_of_true ⟨_, rfl, rfl⟩ .infinite
    | undefined =>
      refine iff_of_false ?_ fun h => by cases h
      rw [toInt, raises_error_iff]
      exact fun h => by cases h

def IsValue (j : Json) : Prop := ∃ v : Value, j = v.toJson

def IsTable (j : Json) : Prop := ∃ vs, j = .object vs ∧ ∀ e ∈ vs, e.2.IsValue

@[simp] theorem raises_ofJson_iff {j : Json} :
    Raises Misfit.Silent (Value.ofJson j) ↔ ¬ j.IsValue := by
  cases j with
  | int n => exact iff_of_false (not_raises_ok _) (not_not_intro ⟨.int n, rfl⟩)
  | bool b => exact iff_of_false (not_raises_ok _) (not_not_intro ⟨.bool b, rfl⟩)
  | text t => exact iff_of_false (not_raises_ok _) (not_not_intro ⟨.text t, rfl⟩)
  | null | real | array | object =>
    refine iff_of_true ⟨_, rfl, rfl⟩ ?_
    rintro ⟨v, hv⟩
    cases v <;> cases hv

end Json

namespace Machine.State

open Json

def Numeric (ms : List (Text × Json)) (name : String) : Prop :=
  ∀ j, Json.lookup ms name = some j → ∃ n, j.toInt = .ok n

/-- Of some members that are read one after the other, the first that cannot be read stands for no
number. -/
inductive Stumbles (ms : List (Text × Json)) : List String → Prop
  | here {name : String} {names : List String} {j : Json} (found : Json.lookup ms name = some j)
      (noNumber : j.NoNumber) : Stumbles ms (name :: names)
  | later {name : String} {names : List String} (numeric : Numeric ms name)
      (rest : Stumbles ms names) :
    Stumbles ms (name :: names)

def numbers : List String :=
  ["cursorX", "cursorY", "brushSize", "lastExecutedLine", "instructionPointer"]

/-- The members from which no state can be read, so that no diagnostic tells why. -/
inductive Unreadable (ms : List (Text × Json)) : Prop
  | number (stumbles : Stumbles ms numbers)
  | variables {j : Json} (numeric : ∀ name ∈ numbers, Numeric ms name)
      (found : Json.lookup ms "variables" = some j) (noTable : ¬ j.IsTable)

section

variable {ms : List (Text × Json)} {name : String} {default : Int}

theorem ok_intMember_iff : (∃ n, intMember ms name default = .ok n) ↔ Numeric ms name := by
  unfold intMember Numeric
  cases Json.lookup ms name with
  | none => simp
  | some j => simp

theorem raises_intMember_iff : Raises Misfit.Silent (intMember ms name default) ↔
    ∃ j, Json.lookup ms name = some j ∧ j.NoNumber := by
  unfold intMember
  cases Json.lookup ms name with
  | none => simp
  | some j => simp

theorem raises_bind_intMember_iff {α : Type} {f : Int → Except Misfit α}
    {names : List String} {Q : Prop}
    (hf : ∀ n, Raises Misfit.Silent (f n) ↔
      Stumbles ms names ∨ (∀ name ∈ names, Numeric ms name) ∧ Q) :
    Raises Misfit.Silent (intMember ms name default >>= f) ↔
      Stumbles ms (name :: names) ∨ (∀ name' ∈ name :: names, Numeric ms name') ∧ Q := by
  rw [raises_bind_iff, raises_intMember_iff, List.forall_mem_cons]
  constructor
  · rintro (⟨j, hj, hnumber⟩ | ⟨n, hn, hraises⟩)
    · exact Or.inl (.here hj hnumber)
    · have hnumeric := ok_intMember_iff.1 ⟨n, hn⟩
      rcases (hf n).1 hraises with hstumbles | ⟨hall, hQ⟩
      · exact Or.inl (.later hnumeric hstumbles)
      · exact Or.inr ⟨⟨hnumeric, hall⟩, hQ⟩
  · rintro (hstumbles | ⟨⟨hnumeric, hall⟩, hQ⟩)
    · cases hstumbles with
      | here found noNumber => exact Or.inl ⟨_, found, noNumber⟩
      | later numeric rest =>
        obtain ⟨n, hn⟩ := ok_intMember_iff.2 numeric
        exact Or.inr ⟨n, hn, (hf n).2 (Or.inl rest)⟩
    · obtain ⟨n, hn⟩ := ok_intMember_iff.2 hnumeric
      exact Or.inr ⟨n, hn, (hf n).2 (Or.inr ⟨hall, hQ⟩)⟩

theorem raises_setVariables_iff {s : State} {vs : List (Text × Json)} :
    Raises Misfit.Silent (s.setVariables vs) ↔ ∃ e ∈ vs, ¬ e.2.IsValue := by
  induction vs generalizing s with
  | nil => simp [setVariables]
  | cons e vs ih =>
    obtain ⟨name, j⟩ := e
    rw [setVariables, raises_bind_iff, raises_ofJson_iff, List.exists_mem_cons_iff]
    constructor
    · rintro (h | ⟨v, -, h⟩)
      · exact Or.inl h
      · exact Or.inr (ih.1 h)
    · rintro (h | h)
      · exact Or.inl h
      · by_cases hj : j.IsValue
        · obtain ⟨v, rfl⟩ := hj
          exact Or.inr ⟨v, Value.ofJson_toJson v, ih.2 h⟩
        · exact Or.inl hj

theorem unreadable_iff : Unreadable ms ↔ Stumbles ms numbers ∨
    (∀ name ∈ numbers, Numeric ms name) ∧ ∃ j, Json.lookup ms "variables" = some j ∧
    ¬ j.IsTable := by
  constructor
  · rintro (hstumbles | ⟨hnumeric, hj, htable⟩)
    · exact Or.inl hstumbles
    · exact Or.inr ⟨hnumeric, _, hj, htable⟩
  · rintro (hstumbles | ⟨hnumeric, j, hj, htable⟩)
    · exact .number hstumbles
    · exact .variables hnumeric hj htable

theorem not_isTable_iff {j : Json} {vs : List (Text × Json)} (h : j = .object vs) :
    ¬ j.IsTable ↔ ∃ e ∈ vs, ¬ e.2.IsValue := by
  subst h
  constructor
  · intro htable
    by_contra hnot
    refine htable ⟨vs, rfl, fun e he => ?_⟩
    by_contra hvalue
    exact hnot ⟨e, he, hvalue⟩
  · rintro ⟨e, he, hvalue⟩ ⟨vs', hvs', hall⟩
    cases hvs'
    exact hvalue (hall e he)

@[simp] theorem raises_ofMembers_iff : Raises Misfit.Silent (ofMembers ms) ↔ Unreadable ms := by
  rw [unreadable_iff, ofMembers]
  apply raises_bind_intMember_iff
  intro x
  apply raises_bind_intMember_iff
  intro y
  apply raises_bind_intMember_iff
  intro size
  apply raises_bind_intMember_iff
  intro lastLine
  apply raises_bind_intMember_iff
  intro pointer
  have hnil : ¬ Stumbles ms [] := fun h => by cases h
  simp only [hnil, false_or, List.not_mem_nil, false_implies, implies_true, true_and]
  split
  · rename_i hlookup
    simp [hlookup]
  · rename_i vs hlookup
    rw [raises_setVariables_iff, hlookup, ← not_isTable_iff rfl]
    simp
  · rename_i j hobject hlookup
    rw [hlookup]
    refine iff_of_true ⟨_, rfl, rfl⟩ ⟨j, rfl, ?_⟩
    rintro ⟨vs, rfl, -⟩
    exact hobject vs rfl

/-- The values from which no state can be read, so that no diagnostic tells why. -/
theorem raises_ofJson_iff {j : Json} :
    Raises Misfit.Silent (ofJson j) ↔ ∀ ms, j = .object ms → Unreadable ms := by
  cases j with
  | object ms =>
    rw [ofJson, raises_bind_iff]
    simp only [members, not_raises_ok, false_or, Except.ok.injEq, raises_ofMembers_iff,
      Json.object.injEq]
    simp
  | null | bool | int | real | text | array =>
    exact iff_of_true ⟨_, rfl, rfl⟩ fun ms h => by cases h

end

end Machine.State

namespace Cli

open Machine

def HasSize (width height : Int) (ms : List (Text × Json)) : Prop :=
  isSize ms "width" (some width) && isSize ms "height" (some height)

/-- The saved values that a run with a canvas of the size given cannot go on from, so that no
diagnostic tells why. -/
inductive Unfit (width height : Int) : Json → Prop
  | noObject {j : Json} (noObject : ∀ ms, j ≠ .object ms) : Unfit width height j
  | noState {ms : List (Text × Json)} {j : Json} (sized : HasSize width height ms)
      (found : Json.lookup ms "state" = some j) (noObject : ∀ ms', j ≠ .object ms') :
      Unfit width height (.object ms)
  | state {ms ms' : List (Text × Json)} (sized : HasSize width height ms)
      (found : Json.lookup ms "state" = some (.object ms')) (unreadable : State.Unreadable ms') :
    Unfit width height (.object ms)
  | pixels {ms : List (Text × Json)} {j pixels : Json} {s : State} (sized : HasSize width height ms)
      (found : Json.lookup ms "state" = some j) (read : State.ofJson j = .ok s)
      (area : 0 < width ∧ 0 < height) (color : Rgba.ofText? s.pen.color ≠ none)
      (size : 0 < s.pen.size) (shown : Json.lookup ms "pixels" = some pixels)
      (noText : ∀ t, pixels ≠ .text t) :
    Unfit width height (.object ms)

section

variable {width height : Int} {s : State} {ms : List (Text × Json)}

theorem ok_attach_iff (s : State) (canvas : Canvas) : (∃ m, attach ⟨s, canvas⟩ = .ok () m) ↔
    Rgba.ofText? s.pen.color ≠ none ∧ 0 < s.pen.size := by
  constructor
  · rintro ⟨m, h⟩
    obtain ⟨color, hcolor, hsize, -⟩ := attach_ok_iff.1 h
    exact ⟨Option.ne_none_iff_exists'.2 ⟨color, hcolor⟩, hsize⟩
  · rintro ⟨hcolor, hsize⟩
    obtain ⟨color, hcolor⟩ := Option.ne_none_iff_exists'.1 hcolor
    exact ⟨_, attach_ok_iff.2 ⟨color, hcolor, hsize, rfl⟩⟩

theorem mount_cases (width height : Int) (s : State) :
    (∃ m, mount (some width) (some height) s = .ok m) ∧
      (0 < width ∧ 0 < height) ∧ Rgba.ofText? s.pen.color ≠ none ∧ 0 < s.pen.size ∨
    (∃ fault, mount (some width) (some height) s = .error (.canvas fault)) ∧
      ¬ ((0 < width ∧ 0 < height) ∧ Rgba.ofText? s.pen.color ≠ none ∧ 0 < s.pen.size) := by
  by_cases hsize : width ≤ 0 ∨ height ≤ 0
  · have hblank : blankCanvas (some width) (some height) = .error (.canvas .dimensions) := by
      rw [blankCanvas, Canvas.blank, if_pos hsize]
      rfl
    rw [mount, hblank]
    exact Or.inr ⟨⟨_, rfl⟩, fun h => by omega⟩
  · have hblank :
        blankCanvas (some width) (some height) =
          .ok { grid := .blank width.toNat height.toNat } := by
      rw [blankCanvas, Canvas.blank, if_neg hsize]
      rfl
    rw [← ok_attach_iff s { grid := .blank width.toNat height.toNat }]
    cases hattached : attach ⟨s, { grid := .blank width.toNat height.toNat }⟩ with
    | ok u m =>
      refine Or.inl ⟨⟨m, ?_⟩, by omega, m, rfl⟩
      simp only [mount, hblank, hattached]
    | error fault m =>
      refine Or.inr ⟨⟨fault, ?_⟩, ?_⟩
      · simp only [mount, hblank, hattached]
      · rintro ⟨-, m', h⟩
        cases h

theorem not_raises_mount : ¬ Raises Failure.Silent (mount (some width) (some height) s) := by
  rcases mount_cases width height s with ⟨⟨m, h⟩, -⟩ | ⟨⟨fault, h⟩, -⟩
  · rw [h]
    exact not_raises_ok m
  · rw [h, raises_error_iff]
    exact fun h => by cases h

theorem not_raises_entry {name : String} : ¬ Raises Failure.Silent (entry ms name) := by
  unfold entry
  split
  · exact not_raises_ok _
  · rw [raises_error_iff]
    exact fun h => by cases h

theorem raises_pixelBytes_iff {j : Json} :
    Raises Failure.Silent (pixelBytes j) ↔ ∀ t, j ≠ .text t := by
  cases j with
  | text t =>
    refine iff_of_false ?_ fun h => h t rfl
    rw [pixelBytes]
    split
    · exact not_raises_ok _
    · rw [raises_error_iff]
      exact fun h => by cases h
  | null | bool | int | real | array | object =>
    exact iff_of_true ⟨_, rfl, rfl⟩ fun t h => by cases h

theorem not_raises_loadPixels {m : Machine} {bs : Bytes} :
    ¬ Raises Failure.Silent (loadPixels m bs) := by
  unfold loadPixels
  split
  · exact not_raises_ok _
  · rw [raises_error_iff]
    exact fun h => by cases h

@[simp] theorem entry_eq_ok_iff {name : String} {j : Json} :
    entry ms name = .ok j ↔ Json.lookup ms name = some j := by
  unfold entry
  cases Json.lookup ms name <;> simp

theorem raises_resume_object_iff (h : HasSize width height ms) :
    Raises Failure.Silent (resume (some width) (some height) (.object ms)) ↔
      ∃ j, Json.lookup ms "state" = some j ∧ (Raises Json.Misfit.Silent (State.ofJson j) ∨
        ∃ s, State.ofJson j = .ok s ∧ ∃ m, mount (some width) (some height) s = .ok m ∧
          ∃ pixels, Json.lookup ms "pixels" = some pixels ∧ ∀ t, pixels ≠ .text t) := by
  unfold HasSize at h
  have hmembers : (Json.object ms).members.mapError Failure.misfit = .ok ms := rfl
  have hmisfit {α : Type} {x : Except Json.Misfit α} :
      Raises Failure.Silent (x.mapError .misfit) ↔ Raises Json.Misfit.Silent x :=
      raises_mapError_iff
  simp only [resume, hmembers, raises_bind_iff, not_raises_ok, false_or, Except.ok.injEq,
    exists_eq_left', h, if_true, not_raises_entry, entry_eq_ok_iff, hmisfit, mapError_eq_ok_iff,
    not_raises_mount, raises_pixelBytes_iff, not_raises_loadPixels, not_raises_pure, and_false,
    exists_false, or_false]

theorem raises_resume_iff {j : Json} :
    Raises Failure.Silent (resume (some width) (some height) j) ↔ Unfit width height j := by
  cases j with
  | object ms =>
    by_cases hsized : HasSize width height ms
    · rw [raises_resume_object_iff hsized]
      constructor
      · rintro ⟨j, hj, hstate | ⟨s, hs, m, hmount, pixels, hpixels, htext⟩⟩
        · rw [State.raises_ofJson_iff] at hstate
          cases j with
          | object ms' => exact .state hsized hj (hstate ms' rfl)
          | null | bool | int | real | text | array =>
            exact .noState hsized hj fun ms' h => by cases h
        · rcases mount_cases width height s with ⟨-, harea, hcolor, hsize⟩ | ⟨⟨fault, hfault⟩, -⟩
          · exact .pixels hsized hj hs harea hcolor hsize hpixels htext
          · rw [hfault] at hmount
            cases hmount
      · intro h
        cases h with
        | noObject noObject => exact absurd rfl (noObject ms)
        | noState _ found noObject =>
          exact ⟨_, found, Or.inl (State.raises_ofJson_iff.2 fun ms' h => absurd h (noObject ms'))⟩
        | state _ found unreadable =>
          refine ⟨_, found, Or.inl (State.raises_ofJson_iff.2 fun ms' h => ?_)⟩
          cases h
          exact unreadable
        | @pixels _ j pixels s _ found read area color size shown noText =>
          rcases mount_cases width height s with ⟨⟨m, hmount⟩, -⟩ | ⟨-, hnot⟩
          · exact ⟨j, found, Or.inr ⟨s, read, m, hmount, pixels, shown, noText⟩⟩
          · exact absurd ⟨area, color, size⟩ hnot
    · have hresume : resume (some width) (some height) (.object ms) = .ok none := if_neg hsized
      rw [hresume]
      refine iff_of_false (not_raises_ok _) fun h => ?_
      cases h with
      | noObject noObject => exact noObject ms rfl
      | noState sized | state sized | pixels sized => exact hsized sized
  | null | bool | int | real | text | array =>
    exact iff_of_true ⟨_, rfl, rfl⟩ (.noObject fun ms h => by cases h)

end

section

variable {o : RunOptions} {d : Disk} {file : String} {bs : Bytes} {width height : Int}

theorem not_raises_readText (h : d.read (Path.ofText file) = .ok bs) :
    ¬ Raises Failure.Silent (readText d file) := by
  rw [readText, readBytes, h, mapError_ok, raises_bind_iff]
  simp only [not_raises_ok, false_or, Except.ok.injEq, exists_eq_left']
  split
  · exact not_raises_pure _
  · rintro ⟨f, hf, hsilent⟩
    cases hf
    cases hsilent

theorem raises_restore_iff (hwidth : o.width = some width) (hheight : o.height = some height)
    (h : d.read (Path.ofText file) = .ok bs) : Raises Failure.Silent (restore o d file) ↔
      ∃ text j, readText d file = .ok text ∧ Json.read text = .ok j ∧ Unfit width height j := by
  have hparse (text : String) :
      ¬ Raises Failure.Silent ((Json.read text).mapError .unparsable) := by
    rw [raises_mapError_iff]
    rintro ⟨e, -, hsilent⟩
    cases hsilent
  simp only [restore, raises_bind_iff, not_raises_readText h, false_or, hparse, mapError_eq_ok_iff,
    hwidth, hheight, raises_resume_iff]
  constructor
  · rintro ⟨text, htext, j, hj, hunfit⟩
    exact ⟨text, j, htext, hj, hunfit⟩
  · rintro ⟨text, j, htext, hj, hunfit⟩
    exact ⟨text, htext, j, hj, hunfit⟩

theorem raises_start_iff (hwidth : o.width = some width) (hheight : o.height = some height)
    (hstate : o.state = some file) (h : d.read (Path.ofText file) = .ok bs) :
    Raises Failure.Silent (start o d).2 ↔ o.reset = false ∧
      ∃ text j, readText d file = .ok text ∧ Json.read text = .ok j ∧ Unfit width height j := by
  have hsaved := savedFile_of_read hstate h
  have hblank : ¬ Raises Failure.Silent (mount o.width o.height {}) := by
    rw [hwidth, hheight]
    exact not_raises_mount
  rw [← raises_restore_iff hwidth hheight h]
  cases hreset : o.reset with
  | true =>
    rw [hreset] at hsaved
    simp only [start, hsaved]
    exact iff_of_false hblank fun h => by cases h.1
  | false =>
    rw [hreset] at hsaved
    rw [start, hsaved]
    rcases hrestore : restore o d file with f | (_ | m)
    · simp [hrestore]
    · simp [hrestore, hblank]
    · simp [hrestore]

end

end Cli

end Brushwork
