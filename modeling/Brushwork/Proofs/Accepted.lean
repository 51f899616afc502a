import Brushwork.Proofs.Typed
import Brushwork.Proofs.Walk
import Brushwork.Source

/-!
# Programs that the analysis accepts

The analysis walks over a program once, from the first statement to the last, and learns the types
of variables on its way. If it reports nothing then every statement is proper at its place:
expressions have types under what was learnt in front of the statement, jumps lead to labels that
exist, and the only spawn is the first statement. The labels that it collects are those that a run
indexes.

Two conditions that the analysis does not look at are stated here too: that all assignments to a
variable agree on its type, and that jumps lead back.
-/

namespace Brushwork

def Tree.label? : Tree → Option String
  | .label name _ => some name
  | _ => none

def Tree.target? : Tree → Option String
  | .goto target _ _ => some target
  | _ => none

/-- Every jump leads to a label before it. -/
def Program.JumpsBack (program : Program) : Prop :=
  ∀ i < program.statements.length, ∀ target ∈ program.statements[i]?.bind Tree.target?,
    ∃ j < i, program.statements[j]?.bind Tree.label? = some target

instance (program : Program) : Decidable program.JumpsBack :=
  inferInstanceAs (Decidable (∀ i < program.statements.length,
    ∀ target ∈ program.statements[i]?.bind Tree.target?,
      ∃ j < i, program.statements[j]?.bind Tree.label? = some target))

namespace Table

variable {κ α β : Type} [DecidableEq κ]

def map (f : α → β) (t : Table κ α) : Table κ β := ⟨t.entries.map fun e => (e.1, f e.2)⟩

theorem get?_map (f : α → β) (t : Table κ α) (name : κ) :
    (t.map f).get? name = (t.get? name).map f := by
  obtain ⟨es⟩ := t
  show (es.map fun e => (e.1, f e.2)).lookup name = (es.lookup name).map f
  induction es with
  | nil => rfl
  | cons e es ih =>
    obtain ⟨key, a⟩ := e
    by_cases h : name = key
    · simp [h]
    · simp [List.lookup_cons, beq_false_of_ne h, ih]

theorem contains_map (f : α → β) (t : Table κ α) (name : κ) :
    (t.map f).contains name = t.contains name := by
  rw [contains, get?_map, Option.isSome_map, contains]

theorem map_insert (f : α → β) (t : Table κ α) (name : κ) (a : α) :
    (t.insert name a).map f = (t.map f).insert name (f a) := by
  obtain ⟨es⟩ := t
  have hput : ∀ es : List (κ × α), (put name a es).map (fun e => (e.1, f e.2)) =
      put name (f a) (es.map fun e => (e.1, f e.2)) := by
    intro es
    induction es with
    | nil => rfl
    | cons e es ih =>
      by_cases h : name = e.1
      · simp [put, h]
      · simp [put, h, ih]
  exact congrArg Table.mk (hput es)

end Table

namespace Typing

/-- The type that an assignment gives its variable. -/
def declaration? (symbols : Table String Ty) : Tree → Option (String × Ty)
  | .assign name expr _ =>
    match infer symbols expr with
    | .ok (ty, _) => some (name, ty)
    | .error _ => none
  | _ => none

/-- The types of the variables behind a statement. -/
def learn (symbols : Table String Ty) (t : Tree) : Table String Ty :=
  match declaration? symbols t with
  | some (name, ty) => symbols.insert name ty
  | none => symbols

theorem learn_assign {symbols : Table String Ty} {expr : Tree} {ty : Ty} {reports : List Report}
    (h : infer symbols expr = .ok (ty, reports)) (name : String) (p : Position) :
    learn symbols (.assign name expr p) = symbols.insert name ty := by
  simp only [learn, declaration?, h]

/-- The types of the variables in front of a statement. -/
def symbolsAt (statements : List Tree) (i : Nat) : Table String Ty :=
  (statements.take i).foldl learn .empty

def declarationAt? (statements : List Tree) (i : Nat) : Option (String × Ty) :=
  statements[i]?.bind (declaration? (symbolsAt statements i))

/-- Any two assignments to a variable give it the same type. -/
def Consistent (program : Program) : Prop :=
  ∀ i < program.statements.length, ∀ j < program.statements.length,
    ∀ d ∈ declarationAt? program.statements i, ∀ d' ∈ declarationAt? program.statements j,
      d.1 = d'.1 → d.2 = d'.2

instance (program : Program) : Decidable (Consistent program) :=
  inferInstanceAs (Decidable (∀ i < program.statements.length, ∀ j < program.statements.length,
    ∀ d ∈ declarationAt? program.statements i, ∀ d' ∈ declarationAt? program.statements j,
      d.1 = d'.1 → d.2 = d'.2))

/-- A statement on which nothing is reported: all that it has to fulfil at its place. -/
inductive Proper (labels : Table String Nat) (symbols : Table String Ty) (index : Nat) : Tree → Prop
  | spawn {x y : Int} {p : Position} (first : index = 0) :
    Proper labels symbols index (.spawn x y p)
  | assign {name : String} {expr : Tree} {p : Position} {ty : Ty} (typed : HasType symbols expr ty)
      (inferred : infer symbols expr = .ok (ty, [])) :
    Proper labels symbols index (.assign name expr p)
  | goto {target : String} {condition : Tree} {p : Position}
      (declared : labels.contains target = true) (typed : HasType symbols condition .bool) :
    Proper labels symbols index (.goto target condition p)
  | call {name : String} {args : List Tree} {p : Position} {b : Builtin}
      (builtin : Builtin.ofName? name = some b) (typed : HaveTypes symbols args b.params) :
    Proper labels symbols index (.call name args p)
  | label {name : String} {p : Position} : Proper labels symbols index (.label name p)

def isSpawn : Tree → Bool
  | .spawn .. => true
  | _ => false

theorem Clean.insert {symbols : Table String Ty} (h : Clean symbols) (name : String) {ty : Ty}
    (hty : ty.isValue = true) : Clean (symbols.insert name ty) := by
  intro other ty' hget
  rw [Table.get?_insert] at hget
  split at hget
  · cases hget
    exact hty
  · exact h hget

theorem clean_empty : Clean .empty := by
  intro name ty h
  rw [Table.get?_empty] at h
  cases h

section

variable {labels : Table String Nat} {s s' last : Progress} {t : Tree} {statements : List Tree}

theorem proper_of_checkStatement (hclean : Clean s.symbols)
    (h : checkStatement labels s t = .ok (s', [])) :
    Proper labels s.symbols s.index t ∧ Clean (learn s.symbols t) ∧
      s' = ⟨learn s.symbols t, s.spawned || isSpawn t, s.index + 1⟩ := by
  cases t with
  | spawn x y p =>
    simp only [checkStatement, Except.ok.injEq, Prod.mk.injEq] at h
    obtain ⟨rfl, hreports⟩ := h
    split at hreports
    · cases hreports
    · split at hreports
      · cases hreports
      · rename_i hfirst
        refine ⟨.spawn (by simpa using hfirst), hclean, ?_⟩
        simp [learn, declaration?, isSpawn]
  | assign name expr p =>
    rw [checkStatement] at h
    split at h
    · cases h
    · rename_i ty reports hinfer
      cases h
      obtain ⟨htyped, hvalue⟩ := hasType_of_infer hclean expr hinfer
      have hlearn := learn_assign hinfer name p
      refine ⟨.assign htyped hinfer, ?_, ?_⟩
      · rw [hlearn]
        exact hclean.insert name hvalue
      · rw [hlearn]
        simp [isSpawn]
  | goto target condition p =>
    rw [checkStatement] at h
    split at h
    · cases h
    · rename_i ty reports hinfer
      simp only [Except.ok.injEq, Prod.mk.injEq, List.append_eq_nil_iff] at h
      obtain ⟨rfl, ⟨hmissing, rfl⟩, hwrong⟩ := h
      obtain ⟨htyped, hvalue⟩ := hasType_of_infer hclean condition hinfer
      have hdeclared : labels.contains target = true := by
        by_cases hdeclared : labels.contains target = true
        · exact hdeclared
        · rw [if_neg hdeclared] at hmissing
          cases hmissing
      have hbool : ty = .bool := by
        split at hwrong
        · rename_i hor
          simp only [Bool.or_eq_true, decide_eq_true_eq] at hor
          rcases hor with rfl | rfl
          · rfl
          · cases hvalue
        · cases hwrong
      subst hbool
      refine ⟨.goto hdeclared htyped, hclean, ?_⟩
      simp [learn, declaration?, isSpawn]
  | call name args p =>
    rw [checkStatement] at h
    split at h
    · cases h
    · rename_i ty reports hcall
      cases h
      obtain ⟨b, hb, htyped⟩ := haveTypes_of_inferCall hclean hcall
      refine ⟨.call hb htyped, hclean, ?_⟩
      simp [learn, declaration?, isSpawn]
  | label name p =>
    cases h
    refine ⟨.label, hclean, ?_⟩
    simp [learn, declaration?, isSpawn]
  | _ => cases h

/-- What the walk over statements finds, if it reports nothing. -/
theorem proper_of_checkStatements (hclean : Clean s.symbols)
    (h : checkStatements labels s statements = .ok (last, [])) :
    (∀ {i t}, statements[i]? = some t →
        Proper labels ((statements.take i).foldl learn s.symbols) (s.index + i) t) ∧
      (∀ i, Clean ((statements.take i).foldl learn s.symbols)) ∧
      last.symbols = statements.foldl learn s.symbols ∧
      last.spawned = (s.spawned || statements.any isSpawn) := by
  induction statements generalizing s with
  | nil =>
    cases h
    refine ⟨?_, ?_, rfl, ?_⟩
    · intro i t ht
      cases ht
    · intro i
      rw [List.take_nil]
      exact hclean
    · simp
  | cons first rest ih =>
    rw [checkStatements] at h
    split at h
    · cases h
    · rename_i s' reports hfirst
      split at h
      · cases h
      · rename_i last' others hrest
        simp only [Except.ok.injEq, Prod.mk.injEq, List.append_eq_nil_iff] at h
        obtain ⟨rfl, rfl, rfl⟩ := h
        obtain ⟨hproper, hclean', rfl⟩ := proper_of_checkStatement hclean hfirst
        obtain ⟨hall, hcleans, hsymbols, hspawned⟩ := ih hclean' hrest
        refine ⟨?_, ?_, hsymbols, ?_⟩
        · intro i t ht
          cases i with
          | zero =>
            cases ht
            exact hproper
          | succ i =>
            have := hall ht
            rw [Nat.add_assoc, Nat.add_comm 1 i] at this
            exact this
        · intro i
          cases i with
          | zero => exact hclean
          | succ i => exact hcleans i
        · rw [hspawned, List.any_cons, Bool.or_assoc]

end

section

variable {labels labels' : Table String Nat} {index : Nat} {statements : List Tree}

/-- A run indexes the labels that the analysis collected. -/
theorem tabulate_of_collectLabels (h : collectLabels labels index statements = (labels', [])) :
    Machine.tabulate index (labels.map Int.ofNat) statements = (labels'.map Int.ofNat, none) := by
  induction statements generalizing labels index with
  | nil =>
    cases h
    rfl
  | cons t statements ih =>
    cases t with
    | label name p =>
      rw [collectLabels] at h
      by_cases hname : labels.contains name
      · rw [if_pos hname] at h
        cases h
      · rw [if_neg hname] at h
        rw [Machine.tabulate, Table.contains_map, if_neg hname]
        have hinsert := Table.map_insert Int.ofNat labels name index
        exact hinsert ▸ ih h
    | _ => exact ih h

theorem get?_collectLabels_of_get? {name : String} {i : Nat} (hget : labels.get? name = some i) :
    (collectLabels labels index statements).1.get? name = some i := by
  induction statements generalizing labels index with
  | nil => exact hget
  | cons t statements ih =>
    cases t with
    | label other p =>
      rw [collectLabels]
      by_cases hother : labels.contains other
      · rw [if_pos hother]
        exact ih hget
      · rw [if_neg hother]
        apply ih
        rw [Table.get?_insert]
        split
        · rename_i hsame
          subst hsame
          rw [Table.contains, hget] at hother
          exact absurd rfl hother
        · exact hget
    | _ => exact ih hget

theorem get?_collectLabels_of_label (h : collectLabels labels index statements = (labels', []))
    {j : Nat} {name : String} {p : Position} (hj : statements[j]? = some (.label name p)) :
    labels'.get? name = some (index + j) := by
  induction statements generalizing labels index j with
  | nil => cases hj
  | cons t statements ih =>
    have hlater : ∀ {labels₁ : Table String Nat} {j : Nat},
        collectLabels labels₁ (index + 1) statements = (labels', []) →
        statements[j]? = some (.label name p) → labels'.get? name = some (index + (j + 1)) := by
      intro labels₁ j h₁ hj₁
      rw [← Nat.add_assoc, Nat.add_right_comm]
      exact ih h₁ hj₁
    cases t with
    | label other q =>
      rw [collectLabels] at h
      by_cases hother : labels.contains other
      · rw [if_pos hother] at h
        cases h
      · rw [if_neg hother] at h
        cases j with
        | zero =>
          cases hj
          have hnew : (labels.insert name index).get? name = some index := by
            rw [Table.get?_insert, if_pos rfl]
          have hkept :
              (collectLabels (labels.insert name index) (index + 1) statements).1.get? name =
              some index := get?_collectLabels_of_get? hnew
          rw [h] at hkept
          exact hkept
        | succ j => exact hlater h hj
    | _ =>
      cases j with
      | zero => cases hj
      | succ j => exact hlater h hj

theorem label_of_get?_collectLabels {name : String} {i : Nat}
    (h : (collectLabels labels index statements).1.get? name = some i) :
    labels.get? name = some i ∨ ∃ j p, statements[j]? = some (.label name p) ∧ i = index + j := by
  induction statements generalizing labels index with
  | nil => exact Or.inl h
  | cons t statements ih =>
    have hlater : ∀ {labels₁ : Table String Nat},
        (collectLabels labels₁ (index + 1) statements).1.get? name = some i →
        labels₁.get? name = some i ∨
          ∃ j p, (t :: statements)[j]? = some (.label name p) ∧ i = index + j := by
      intro labels₁ h₁
      rcases ih h₁ with hold | ⟨j, p, hj, rfl⟩
      · exact Or.inl hold
      · exact Or.inr ⟨j + 1, p, hj, by omega⟩
    cases t with
    | label other q =>
      rw [collectLabels] at h
      by_cases hother : labels.contains other
      · rw [if_pos hother] at h
        exact hlater h
      · rw [if_neg hother] at h
        rcases hlater h with hold | hnew
        · rw [Table.get?_insert] at hold
          split at hold
          · rename_i hsame
            cases hold
            subst hsame
            exact Or.inr ⟨0, q, rfl, rfl⟩
          · exact Or.inl hold
        · exact Or.inr hnew
    | _ => exact hlater h

end

section

variable {program : Program} {statements : List Tree} {t : Tree} {i j : Nat}
  {name : String} {ty : Ty}

theorem symbolsAt_succ (h : statements[i]? = some t) :
    symbolsAt statements (i + 1) = learn (symbolsAt statements i) t := by
  rw [symbolsAt, List.take_add_one, h, List.foldl_append]
  rfl

theorem lt_of_declarationAt? {d : String × Ty} (h : declarationAt? statements i = some d) :
    i < statements.length := by
  obtain ⟨t, ht, -⟩ := Option.bind_eq_some_iff.1 h
  exact (List.getElem?_eq_some_iff.1 ht).1

/-- What is known of a variable in front of a statement has been learnt from one before it. -/
theorem declarationAt?_of_get?_symbolsAt (h : (symbolsAt statements i).get? name = some ty) :
    ∃ j < i, declarationAt? statements j = some (name, ty) := by
  induction i with
  | zero => cases h
  | succ i ih =>
    have hearlier : (symbolsAt statements i).get? name = some ty →
        ∃ j < i + 1, declarationAt? statements j = some (name, ty) := by
      intro hold
      obtain ⟨j, hj, hdeclared⟩ := ih hold
      exact ⟨j, Nat.lt_succ_of_lt hj, hdeclared⟩
    cases hi : statements[i]? with
    | none =>
      rw [symbolsAt, List.take_add_one, hi, Option.toList_none, List.append_nil] at h
      exact hearlier h
    | some t =>
      rw [symbolsAt_succ hi, learn] at h
      split at h
      · rename_i other ty' hdeclaration
        rw [Table.get?_insert] at h
        split at h
        · rename_i hname
          cases h
          refine ⟨i, Nat.lt_succ_self i, ?_⟩
          rw [declarationAt?, hi, hname]
          exact hdeclaration
        · exact hearlier h
      · exact hearlier h

/-- If assignments agree on types then what has been learnt stays true. -/
theorem Consistent.symbolsAt_mono (h : Consistent program) (hij : i ≤ j)
    (hget : (symbolsAt program.statements i).get? name = some ty) :
    (symbolsAt program.statements j).get? name = some ty := by
  induction hij with
  | refl => exact hget
  | @step j _ ih =>
    cases hj : program.statements[j]? with
    | none =>
      rw [symbolsAt, List.take_add_one, hj, Option.toList_none, List.append_nil]
      exact ih
    | some t =>
      rw [symbolsAt_succ hj, learn]
      split
      · rename_i other ty' hdeclaration
        rw [Table.get?_insert]
        split
        · rename_i hname
          obtain ⟨k, -, hk⟩ := declarationAt?_of_get?_symbolsAt ih
          have hlater : declarationAt? program.statements j = some (other, ty') := by
            rw [declarationAt?, hj]
            exact hdeclaration
          have hsame :=
            h k (lt_of_declarationAt? hk) j (lt_of_declarationAt? hlater) _ hk _ hlater hname
          exact congrArg some hsame.symm
        · exact ih
      · exact ih

end

/-- A program with an analysis that reports nothing. -/
structure Accepted (program : Program) (a : Analysis) : Prop where
  proper : ∀ {i t}, program.statements[i]? = some t →
    Proper a.labels (symbolsAt program.statements i) i t
  clean : ∀ i, Clean (symbolsAt program.statements i)
  symbols : a.symbols = symbolsAt program.statements program.statements.length
  labels : collectLabels .empty 0 program.statements = (a.labels, [])
  spawn : ∃ x y p, program.statements[0]? = some (.spawn x y p)

theorem accepted_of_analyze {program : Program} {a : Analysis} (h : analyze program = .ok a)
    (hreports : a.reports = []) : Accepted program a := by
  rcases hcollect : collectLabels .empty 0 program.statements with ⟨labels, labelReports⟩
  simp only [analyze, hcollect] at h
  split at h
  · cases h
    cases hreports
  · split at h
    · cases h
    · rename_i last reports hcheck
      cases h
      simp only [List.append_eq_nil_iff] at hreports
      obtain ⟨⟨rfl, rfl⟩, habsent⟩ := hreports
      obtain ⟨hproper, hclean, hsymbols, hspawned⟩ := proper_of_checkStatements clean_empty hcheck
      have hproper' : ∀ {i t}, program.statements[i]? = some t →
          Proper labels (symbolsAt program.statements i) i t := by
        intro i t ht
        have := hproper ht
        rwa [Nat.zero_add] at this
      refine ⟨hproper', hclean, ?_, hcollect, ?_⟩
      · rw [hsymbols, symbolsAt, List.take_length]
      · have hlast : last.spawned = true := by
          by_cases hlast : last.spawned = true
          · exact hlast
          · rw [if_neg hlast] at habsent
            cases habsent
        rw [hspawned, Bool.false_or, List.any_eq_true] at hlast
        obtain ⟨t, ht, hspawn⟩ := hlast
        obtain ⟨i, hi⟩ := List.mem_iff_getElem?.1 ht
        cases t with
        | spawn x y p =>
          cases hproper' hi with
          | spawn first => exact ⟨x, y, p, first ▸ hi⟩
        | _ => cases hspawn

theorem Accepted.tabulate {program : Program} {a : Analysis} (h : Accepted program a) :
    Machine.tabulate 0 .empty program.statements = (a.labels.map Int.ofNat, none) :=
  tabulate_of_collectLabels h.labels

theorem Accepted.exists_label {program : Program} {a : Analysis} (h : Accepted program a)
    {name : String} {i : Nat} (hget : a.labels.get? name = some i) :
    ∃ p, program.statements[i]? = some (.label name p) := by
  have hcollected : (collectLabels .empty 0 program.statements).1.get? name = some i := by
    rw [h.labels]
    exact hget
  rcases label_of_get?_collectLabels hcollected with hold | ⟨j, p, hj, rfl⟩
  · rw [Table.get?_empty] at hold
    cases hold
  · rw [Nat.zero_add]
    exact ⟨p, hj⟩

theorem Accepted.label_ne_zero {program : Program} {a : Analysis} (h : Accepted program a)
    {name : String} {i : Nat} (hget : a.labels.get? name = some i) : i ≠ 0 := by
  rintro rfl
  obtain ⟨p, hlabel⟩ := h.exists_label hget
  obtain ⟨x, y, q, hspawn⟩ := h.spawn
  rw [hspawn] at hlabel
  cases hlabel

end Typing

namespace Source

theorem check_eq_nil {source : String} (h : (check source matches .ok []) = true) :
    check source = .ok [] := by
  split at h
  · assumption
  · cases h

theorem accepted_of_check {source : String} (h : check source = .ok []) :
    ∃ program a, compile source = .ok program ∧ Typing.analyze program = .ok a ∧
      Typing.Accepted program a := by
  rw [check] at h
  split at h
  · cases h
  · cases h
  · rename_i program hprogram
    split at h
    · cases h
    · rename_i a ha
      simp only [Except.ok.injEq, List.map_eq_nil_iff] at h
      exact ⟨program, a, hprogram, ha, Typing.accepted_of_analyze ha h⟩

end Source

end Brushwork
