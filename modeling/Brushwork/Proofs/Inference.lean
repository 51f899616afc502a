import Brushwork.Proofs.Evaluation

/-!
# Inference and evaluation

The rules of types are the meeting point of two walks over expressions. Inference follows them in
both directions: it reports nothing on exactly the expressions that have a type. Evaluation follows
them as far as it gets: since it looks at every operand and every argument before it applies
anything, it gives a value only to expressions that have a type, and the value is of that type. On a
machine whose variables have the types of a table, inference and evaluation therefore accept the
same expressions, divisions by zero apart.
-/

namespace Brushwork

theorem Ty.ne_error_of_isValue {ty : Ty} (h : ty.isValue = true) : ty ≠ .error := by
  rintro rfl
  cases h

namespace Typing

variable {symbols : Table String Ty}

theorem inferBinary_of_operatorType {op : String} {o : Operator} {left right ty : Ty}
    (hsymbol : Operator.ofSymbol? op = some o) (h : OperatorType o left right ty) :
    inferBinary op left right = .ok ty := by
  cases h with
  | arithmetic o => simp [inferBinary, hsymbol]
  | equal => simp [inferBinary, hsymbol]
  | ordering o => simp [inferBinary, hsymbol]
  | logical o => simp [inferBinary, hsymbol]

theorem HasType.isValue (hclean : Clean symbols) {t : Tree} {ty : Ty} (h : HasType symbols t ty) :
    ty.isValue = true := by
  cases h with
  | literal v p => exact v.isValue_ty
  | «variable» found => exact hclean found
  | unary => rfl
  | binary _ _ _ operator => exact operator.isValue
  | call _ notVoid => exact Builtin.isValue_result notVoid

@[simp] theorem argumentReport_self (index : Nat) (name : String) (ty : Ty) (tys : List Ty)
    (p : Position) : argumentReport index name (ty :: tys) ty p = [] := by
  simp [argumentReport]

theorem concludeCall_of_builtin {name : String} {b : Builtin} {count : Nat} {p : Position}
    {reports : List Report} (hb : Builtin.ofName? name = some b)
    (hcount : count = b.params.length) :
    concludeCall name count p reports = (b.result, reports) := by
  simp [concludeCall, hb, hcount]

mutual

theorem infer_of_hasType (hclean : Clean symbols) :
    ∀ (t : Tree) {ty : Ty}, HasType symbols t ty → infer symbols t = .ok (ty, [])
  | .literal v p, _, h => by
    cases h
    rw [infer]
  | .variable name p, _, h => by
    cases h with
    | «variable» found => rw [infer, found]
  | .unary op t p, _, h => by
    cases h with
    | unary operand =>
      rw [infer, infer_of_hasType hclean t operand]
      rfl
  | .binary l op r p, _, h => by
    cases h with
    | binary left right symbol operator =>
      have hleft := Ty.ne_error_of_isValue (left.isValue hclean)
      have hright := Ty.ne_error_of_isValue (right.isValue hclean)
      rw [infer, infer_of_hasType hclean l left, infer_of_hasType hclean r right]
      simp [hleft, hright, inferBinary_of_operatorType symbol operator]
  | .call name args p, _, h => by
    cases h with
    | call builtin notVoid typed =>
      rw [infer, parameters_eq builtin, inferArguments_of_haveTypes hclean args name 1 typed]
      simp only [concludeCall_of_builtin builtin typed.length_eq, if_neg notVoid]
  | .program _ _, _, h | .spawn _ _ _, _, h | .assign _ _ _, _, h | .label _ _, _, h
  | .goto _ _ _, _, h | .missing, _, h => by cases h

theorem inferArguments_of_haveTypes (hclean : Clean symbols) :
    ∀ (args : List Tree) (name : String) (index : Nat) {tys : List Ty},
      HaveTypes symbols args tys → inferArguments symbols name index tys args = .ok []
  | [], _, _, _, _ => by rw [inferArguments]
  | t :: ts, name, index, _, h => by
    cases h with
    | @cons _ _ ty tys first rest =>
      have hrest := inferArguments_of_haveTypes hclean ts name (index + 1) rest
      rw [inferArguments, infer_of_hasType hclean t first]
      simp [hrest]

end

/-- Inference reports nothing on exactly the expressions that have a type, and gives that type. -/
theorem infer_eq_ok_iff (hclean : Clean symbols) {t : Tree} {ty : Ty} :
    infer symbols t = .ok (ty, []) ↔ HasType symbols t ty :=
  ⟨fun h => (hasType_of_infer hclean t h).1, infer_of_hasType hclean t⟩

end Typing

namespace Machine

open Typing

theorem Mirrors.fits {m : Machine} {symbols : Table String Ty} (h : m.Mirrors symbols) :
    m.Fits symbols := by
  intro name ty hget
  rw [h name] at hget
  exact Option.map_eq_some_iff.1 hget

theorem Mirrors.clean {m : Machine} {symbols : Table String Ty} (h : m.Mirrors symbols) :
    Clean symbols := by
  intro name ty hget
  obtain ⟨v, -, rfl⟩ := h.fits hget
  exact v.isValue_ty

@[simp] theorem Fault.isArithmetic_iff {fault : Fault} :
    fault.isArithmetic = true ↔ fault = .divisionByZero ∨ fault = .moduloByZero := by
  cases fault <;> simp [isArithmetic]

/-- An expression without reports has a value of the type inferred unless it divides by zero, and an
expression with a value has no reports and the type of the value. -/
theorem inference_agrees_with_evaluation {m : Machine} {symbols : Table String Ty}
    (hm : m.Mirrors symbols) (t : Tree) :
    (∀ ty, infer symbols t = .ok (ty, []) →
      (∃ v, eval m t = .ok v ∧ v.ty = ty) ∨
        ∃ e, eval m t = .error e ∧ (e.cause = .divisionByZero ∨ e.cause = .moduloByZero)) ∧
      ∀ v, eval m t = .ok v → infer symbols t = .ok (v.ty, []) := by
  constructor
  · intro ty hinfer
    have htype := (infer_eq_ok_iff hm.clean).1 hinfer
    cases heval : eval m t with
    | ok v => exact Or.inl ⟨v, rfl, (accords_of_eval symbols heval).kept hm.fits ty htype⟩
    | error e =>
      have hexcuses := excuses_of_eval symbols heval
      have hkind := hexcuses.isArithmetic ⟨⟨ty, htype⟩, hm.fits⟩ ⟨ty, htype⟩
      exact Or.inr ⟨e, rfl, Fault.isArithmetic_iff.1 hkind⟩
  · intro v heval
    exact (infer_eq_ok_iff hm.clean).2 ((accords_of_eval symbols heval).told hm)

/-- A quotient by a variable that is zero, and a comparison of the same variable with the size of
the canvas. -/
theorem quotient_by_zero_agrees :
    let m : Machine := ⟨{ values := Table.empty.insert "n" (.int 0) }, { grid := .blank 3 2 }⟩
    let symbols : Table String Ty := Table.empty.insert "n" .int
    let size : Tree := .call "GetCanvasSize" [] ⟨1, 6⟩
    let quotient : Tree := .binary size "/" (.variable "n" ⟨1, 24⟩) ⟨1, 22⟩
    let comparison : Tree := .binary size ">" (.variable "n" ⟨1, 24⟩) ⟨1, 22⟩
    m.Mirrors symbols ∧ infer symbols quotient = .ok (.int, []) ∧
      (∃ e, eval m quotient = .error e ∧
        (e.cause = .divisionByZero ∨ e.cause = .moduloByZero)) ∧
      eval m comparison = .ok (.bool true) ∧ infer symbols comparison = .ok (.bool, []) := by
  intro m symbols size quotient comparison
  have hm : m.Mirrors symbols := by
    intro name
    simp only [m, symbols, Table.get?_insert, Text.ofString_inj]
    split <;> rfl
  have hinfer : infer symbols quotient = .ok (.int, []) := rfl
  have hcomparison : eval m comparison = .ok (.bool true) := rfl
  refine ⟨hm, hinfer, ?_, hcomparison,
    (inference_agrees_with_evaluation hm comparison).2 _ hcomparison⟩
  rcases (inference_agrees_with_evaluation hm quotient).1 _ hinfer with ⟨v, hv, -⟩ | hfault
  · cases hv
  · exact hfault

end Machine

end Brushwork
