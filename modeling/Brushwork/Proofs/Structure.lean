import Brushwork.Proofs.Accepted
import Brushwork.Proofs.Chunks

/-!
# Structure of accepted programs

A program that the analysis accepts may still lack a variable or meet a value of the wrong type,
since the analysis does not follow jumps. How the program is put together is beyond doubt, however:
labels, functions and operators exist, and nothing leads back to the spawn in front. What carries
this through a run is that every statement is followed by one behind the first.
-/

namespace Brushwork.Machine

open Config Typing

/-- Where a run of an accepted program can be: in front only as long as nothing has been spawned. -/
structure Orderly (a : Analysis) (c : Config) : Prop where
  labels : c.machine.state.labels = a.labels.map Int.ofNat
  fresh : c.pointer = 0 → c.machine.state.spawned = false

section

variable {program : Program} {a : Analysis} {c c' : Config} {e : Located Fault}

theorem Orderly.get?_labels (hc : Orderly a c) (name : String) :
    c.machine.state.labels.get? name = (a.labels.get? name).map Int.ofNat := by
  rw [hc.labels, Table.get?_map]

theorem Orderly.moves (h : Accepted program a) (hc : Orderly a c) (hmoves : c.Moves program c') :
    Orderly a c' := by
  refine ⟨hmoves.labels_eq.trans hc.labels, ?_⟩
  intro hzero
  obtain ⟨-, heffect⟩ := hmoves
  cases heffect with
  | @jump target _ _ _ _ index value holds label =>
    rw [hc.get?_labels target] at label
    obtain ⟨i, hi, rfl⟩ := Option.map_eq_some_iff.1 label
    exact absurd hzero (h.label_ne_zero hi)
  | _ => cases hzero

/-- A statement of an accepted program fails for what it finds, not for how the program is put
together. -/
theorem Orderly.breaks (h : Accepted program a) (hc : Orderly a c) (hbreaks : c.Breaks program e) :
    e.cause.isStructural = false := by
  obtain ⟨hs, hfails⟩ := hbreaks
  cases h.proper hs with
  | spawn first =>
    cases hfails with
    | spawn spawned =>
      have hfresh := hc.fresh first
      rw [spawned] at hfresh
      cases hfresh
    | stray stray => cases stray
  | assign typed =>
    cases hfails with
    | assign value => exact (excuses_of_eval _ value).isStructural_eq_false ⟨_, typed⟩
    | stray stray => cases stray
  | goto declared typed =>
    cases hfails with
    | condition value => exact (excuses_of_eval _ value).isStructural_eq_false ⟨_, typed⟩
    | decision value decision =>
      exact ((answers_asCondition (Q := Eq) rfl _).of_error decision).1.isStructural_eq_false
        trivial
    | target value holds label =>
      rw [hc.get?_labels, Option.map_eq_none_iff] at label
      rw [Table.contains, label] at declared
      cases declared
    | stray stray => cases stray
  | @call name args p b builtin typed =>
    have hresolve : resolve name args.length p = .ok b :=
      resolve_eq_ok_iff.2 ⟨builtin, typed.length_eq⟩
    have hcount {m : Machine} {vs : List Value} (values : evalAll m args = .ok vs) :
        vs.length = b.params.length :=
      (accordAll_of_evalAll .empty values).length.trans typed.length_eq
    cases hfails with
    | builtin builtin' => cases hresolve.symm.trans builtin'
    | values builtin' values => exact (excuses_of_evalAll _ values).isStructural_eq_false ⟨_, typed⟩
    | drawing builtin' values void drawing =>
      cases hresolve.symm.trans builtin'
      have hkind := ((answers_drawing (Q := Eq) rfl _ _).of_error drawing).1
      exact hkind.isStructural_eq_false ⟨hcount values, void⟩
    | refused => rfl
    | query builtin' values notVoid answer =>
      cases hresolve.symm.trans builtin'
      have hkind := ((answers_query (Q := Eq) rfl _ _ _).of_error answer).1
      exact hkind.isStructural_eq_false ⟨hcount values, notVoid⟩
    | stray stray => cases stray
  | label =>
    cases hfails with
    | stray stray => cases stray

theorem Orderly.walk (h : Accepted program a) {m : Machine} (hm : m.state.spawned = false)
    {is : List Nat} (hwalk : Walk program ⟨m.withLabels (a.labels.map Int.ofNat), 0⟩ is c) :
    Orderly a c :=
  hwalk.induct ⟨rfl, fun _ => hm⟩ fun hc hmoves => hc.moves h hmoves

end

/-- What a chunk of an accepted program does not get wrong. -/
structure Structured (program : Program) (a : Analysis) (outcome : Outcome) (m : Machine)
    (events : List Event) : Prop where
  /-- If the chunk fails, it does so for another reason than how the program is put together. -/
  faults : ∀ e, outcome = .failed e → e.cause.isStructural = false
  /-- Every jump leads to the statement of a label. -/
  jumps : ∀ source target, .jumped source target ∈ events →
    ∃ name i, a.labels.get? name = some i ∧ program.line? i = some target
  /-- Every label is a statement of the program. -/
  range : ∀ name i, a.labels.get? name = some i → i < program.statements.length
  /-- The machine has the labels that the analysis found. -/
  labels : m.state.labels = a.labels.map Int.ofNat

theorem checked_program_is_structured {source : String} (hcheck : Source.check source = .ok []) :
    ∃ program a, Source.compile source = .ok program ∧ analyze program = .ok a ∧
      ∀ {m m' m'' : Machine} {budget : Nat → Int} {k n : Nat} {line : Int} {is : List Nat}
        {outcome : Outcome} {events : List Event},
        m.state.spawned = false → Chain program budget m k m' line is →
          execute n program ⟨line, budget k⟩ m' = (outcome, m'', events) →
            Structured program a outcome m'' events := by
  obtain ⟨program, a, hprogram, ha, haccepted⟩ := Source.accepted_of_check hcheck
  refine ⟨program, a, hprogram, ha, ?_⟩
  intro m m' m'' budget k n line is outcome events hm hchain hrun
  have hlaid := Source.laid_of_compile hprogram
  obtain ⟨js, d, q, hwalk, rfl, hbreaks⟩ := hchain.exists_walk hlaid haccepted.tabulate hrun
  have hd := Orderly.walk haccepted hm hwalk
  have hrange : ∀ name i, a.labels.get? name = some i → i < program.statements.length := by
    intro name i hi
    obtain ⟨p, hlabel⟩ := haccepted.exists_label hi
    exact (List.getElem?_eq_some_iff.1 hlabel).1
  refine ⟨?_, ?_, hrange, hd.labels⟩
  · intro e he
    exact hd.breaks haccepted (hbreaks e he)
  · intro source target hevent
    have hindex := indexLabels_of_tabulate haccepted.tabulate m'
    obtain ⟨name, index, hlabel, rfl⟩ := jumped_of_execute hindex hrun hevent
    have hget : (a.labels.map Int.ofNat).get? name = some index := hlabel
    rw [Table.get?_map] at hget
    obtain ⟨i, hi, rfl⟩ := Option.map_eq_some_iff.1 hget
    refine ⟨name, i, hi, ?_⟩
    have hlt := hrange name i hi
    simp [Program.line?, hlt]

def retypingLoop : String := "Spawn(0, 0)\nx <- 1\nagain\ny <- x + 1\nx <- true\nGoTo[again](x)"

/-- The first chunk of the loop ends with a jump, and the second fails since the variable has
changed its type. -/
theorem retyping_loop_is_structured :
    ∃ program a c m₁ events₁ e m₂ events₂,
      Source.check retypingLoop = .ok [] ∧
      execute 9 program ⟨1, 6⟩ ⟨{}, { grid := .blank 3 2 }⟩ = (.chunk c, m₁, events₁) ∧
      execute 9 program ⟨c.nextLine, 6⟩ m₁ = (.failed e, m₂, events₂) ∧
      Structured program a (.chunk c) m₁ events₁ ∧ Structured program a (.failed e) m₂ events₂ := by
  have hcheck : Source.check retypingLoop = .ok [] := Source.check_eq_nil (by decide +kernel)
  obtain ⟨program, a, hprogram, -, hstructured⟩ := checked_program_is_structured hcheck
  have hruns : (Source.compile retypingLoop).toOption.any (fun program =>
      match execute 9 program ⟨1, 6⟩ ⟨{}, { grid := .blank 3 2 }⟩ with
      | (.chunk c, m₁, _) =>
        !c.finished && ((execute 9 program ⟨c.nextLine, 6⟩ m₁).1 matches .failed _)
      | _ => false) = true := by
    decide +kernel
  rw [hprogram] at hruns
  dsimp only [Except.toOption, Option.any] at hruns
  split at hruns
  · rename_i c m₁ events₁ hfirst
    rw [Bool.and_eq_true, Bool.not_eq_true'] at hruns
    obtain ⟨hunfinished, hsecond⟩ := hruns
    rcases hrun : execute 9 program ⟨c.nextLine, 6⟩ m₁ with ⟨outcome, m₂, events₂⟩
    rw [hrun] at hsecond
    cases outcome with
    | failed e =>
      have hstart : Chain program (fun _ => 6) ⟨{}, { grid := .blank 3 2 }⟩ 0 _ 1 [] := .start
      have hchain := hstart.next hfirst hunfinished
      exact ⟨program, a, c, m₁, events₁, e, m₂, events₂, hcheck, hfirst, hrun,
        hstructured rfl hstart hfirst, hstructured rfl hchain hrun⟩
    | chunk | givenUp => cases hsecond
  · cases hruns

end Brushwork.Machine
