import Brushwork.Typing

/-!
# Typed expressions

Types of expressions are told by rules, and an expression on which the analysis reports nothing has
the type that it infers.
-/

namespace Brushwork

/-- The types of values; the other two are of use to the analysis only. -/
def Ty.isValue : Ty → Bool
  | .int | .bool | .string => true
  | .void | .error => false

@[simp] theorem Value.isValue_ty (v : Value) : v.ty.isValue = true := by cases v <;> rfl

theorem Builtin.isValue_result {b : Builtin} (h : b.result ≠ .void) : b.result.isValue = true := by
  cases hresult : b.result with
  | void => exact absurd hresult h
  | error => cases b <;> cases hresult
  | int | bool | string => rfl

namespace Typing

inductive OperatorType : Operator → Ty → Ty → Ty → Prop
  | arithmetic (op : Arithmetic) : OperatorType (.arithmetic op) .int .int .int
  | equal {ty : Ty} : OperatorType (.comparison .equal) ty ty .bool
  | ordering (op : Comparison) : OperatorType (.comparison op) .int .int .bool
  | logical (op : Logical) : OperatorType (.logical op) .bool .bool .bool

theorem operatorType_of_inferBinary {op : String} {left right ty : Ty}
    (h : inferBinary op left right = .ok ty) :
    ∃ o, Operator.ofSymbol? op = some o ∧ OperatorType o left right ty := by
  unfold inferBinary at h
  split at h
  · rename_i o ho
    split at h
    · rename_i hint
      simp only [Bool.and_eq_true, decide_eq_true_eq] at hint
      obtain ⟨rfl, rfl⟩ := hint
      cases h
      exact ⟨_, ho, .arithmetic o⟩
    · cases h
  · rename_i o ho
    split at h
    · cases h
    · rename_i hsame
      rw [ne_eq, Decidable.not_not] at hsame
      subst hsame
      split at h
      · cases h
      · rename_i hordered
        cases h
        by_cases hequal : o = .equal
        · subst hequal
          exact ⟨_, ho, .equal⟩
        · have hint : left = .int := by simpa [hequal] using hordered
          subst hint
          exact ⟨_, ho, .ordering o⟩
  · rename_i o ho
    split at h
    · rename_i hbool
      simp only [Bool.and_eq_true, decide_eq_true_eq] at hbool
      obtain ⟨rfl, rfl⟩ := hbool
      cases h
      exact ⟨_, ho, .logical o⟩
    · cases h
  · cases h

theorem OperatorType.of_arithmetic {op : Arithmetic} {left right ty : Ty}
    (h : OperatorType (.arithmetic op) left right ty) : left = .int ∧ right = .int := by
  cases h
  exact ⟨rfl, rfl⟩

theorem OperatorType.of_comparison {op : Comparison} {left right ty : Ty}
    (h : OperatorType (.comparison op) left right ty) : left = right ∧ ty = .bool := by
  cases h <;> exact ⟨rfl, rfl⟩

theorem OperatorType.of_logical {op : Logical} {left right ty : Ty}
    (h : OperatorType (.logical op) left right ty) : left = .bool ∧ right = .bool := by
  cases h
  exact ⟨rfl, rfl⟩

theorem OperatorType.unique {o : Operator} {left right ty ty' : Ty}
    (h : OperatorType o left right ty) (h' : OperatorType o left right ty') : ty = ty' := by
  cases h <;> cases h' <;> rfl

theorem OperatorType.isValue {o : Operator} {left right ty : Ty}
    (h : OperatorType o left right ty) : ty.isValue = true := by
  cases h <;> rfl

mutual

inductive HasType (symbols : Table String Ty) : Tree → Ty → Prop
  | literal (v : Value) (p : Position) : HasType symbols (.literal v p) v.ty
  | variable {name : String} {p : Position} {ty : Ty} (found : symbols.get? name = some ty) :
    HasType symbols (.variable name p) ty
  | unary {op : String} {t : Tree} {p : Position} (operand : HasType symbols t .int) :
    HasType symbols (.unary op t p) .int
  | binary {l r : Tree} {op : String} {p : Position} {a b ty : Ty} {o : Operator}
      (left : HasType symbols l a) (right : HasType symbols r b)
      (symbol : Operator.ofSymbol? op = some o) (operator : OperatorType o a b ty) :
    HasType symbols (.binary l op r p) ty
  | call {name : String} {args : List Tree} {p : Position} {b : Builtin}
      (builtin : Builtin.ofName? name = some b) (notVoid : b.result ≠ .void)
      (typed : HaveTypes symbols args b.params) : HasType symbols (.call name args p) b.result

inductive HaveTypes (symbols : Table String Ty) : List Tree → List Ty → Prop
  | nil : HaveTypes symbols [] []
  | cons {t : Tree} {ts : List Tree} {ty : Ty} {tys : List Ty} (first : HasType symbols t ty)
      (rest : HaveTypes symbols ts tys) : HaveTypes symbols (t :: ts) (ty :: tys)

end

theorem HaveTypes.length_eq {symbols : Table String Ty} :
    ∀ {ts : List Tree} {tys : List Ty}, HaveTypes symbols ts tys → ts.length = tys.length
  | [], _, h => by
    cases h
    rfl
  | _ :: _, _, h => by
    cases h with
    | cons first rest => exact congrArg _ (HaveTypes.length_eq rest)

/-- A table in which every variable has the type of a value. -/
def Clean (symbols : Table String Ty) : Prop :=
  ∀ {name : String} {ty : Ty}, symbols.get? name = some ty → ty.isValue = true

theorem argumentReport_eq_nil {index : Nat} {name : String} {wanted got : Ty} {tys : List Ty}
    {p : Position} (h : argumentReport index name (wanted :: tys) got p = [])
    (hgot : got.isValue = true) : got = wanted := by
  simp only [argumentReport] at h
  split at h
  · rename_i hor
    simp only [Bool.or_eq_true, decide_eq_true_eq] at hor
    rcases hor with rfl | rfl
    · cases hgot
    · rfl
  · cases h

theorem parameters_eq {name : String} {b : Builtin} (h : Builtin.ofName? name = some b) :
    parameters name = b.params := by
  rw [parameters, h]

theorem exists_builtin_of_concludeCall {name : String} {count : Nat} {p : Position}
    {reports : List Report} {ty : Ty} (h : concludeCall name count p reports = (ty, [])) :
    ∃ b, Builtin.ofName? name = some b ∧ ty = b.result ∧ count = b.params.length ∧
      reports = [] := by
  rw [concludeCall] at h
  split at h
  · simp at h
  · rename_i b hb
    simp only [Prod.mk.injEq, List.append_eq_nil_iff] at h
    obtain ⟨rfl, hcount, rfl⟩ := h
    split at hcount
    · rename_i hlength
      exact ⟨b, hb, rfl, hlength, rfl⟩
    · cases hcount

mutual

/-- An expression on which nothing is reported has the type that is inferred. -/
theorem hasType_of_infer {symbols : Table String Ty} (hclean : Clean symbols) :
    ∀ (t : Tree) {ty : Ty}, infer symbols t = .ok (ty, []) →
      HasType symbols t ty ∧ ty.isValue = true
  | .literal v p, ty, h => by
    rw [infer] at h
    cases h
    exact ⟨.literal v p, v.isValue_ty⟩
  | .variable name p, ty, h => by
    rw [infer] at h
    split at h
    · rename_i hfound
      cases h
      exact ⟨.variable hfound, hclean hfound⟩
    · cases h
  | .unary op t p, ty, h => by
    rw [infer] at h
    cases ht : infer symbols t with
    | error e =>
      rw [ht] at h
      cases h
    | ok result =>
      obtain ⟨operandTy, reports⟩ := result
      rw [ht] at h
      dsimp only at h
      split at h
      · rename_i herror
        subst herror
        cases h
        cases (hasType_of_infer hclean t ht).2
      · split at h
        · rename_i hint
          subst hint
          cases h
          exact ⟨.unary (hasType_of_infer hclean t ht).1, rfl⟩
        · simp at h
  | .binary l op r p, ty, h => by
    rw [infer] at h
    cases hl : infer symbols l with
    | error e =>
      rw [hl] at h
      cases h
    | ok left =>
      obtain ⟨leftTy, leftReports⟩ := left
      cases hr : infer symbols r with
      | error e =>
        rw [hl, hr] at h
        cases h
      | ok right =>
        obtain ⟨rightTy, rightReports⟩ := right
        rw [hl, hr] at h
        dsimp only at h
        have hreports : leftReports = [] ∧ rightReports = [] := by
          split at h
          · simp only [Except.ok.injEq, Prod.mk.injEq, List.append_eq_nil_iff] at h
            exact h.2
          · split at h
            · simp only [Except.ok.injEq, Prod.mk.injEq, List.append_eq_nil_iff] at h
              exact h.2
            · simp at h
        obtain ⟨rfl, rfl⟩ := hreports
        obtain ⟨hleft, hleftValue⟩ := hasType_of_infer hclean l hl
        obtain ⟨hright, hrightValue⟩ := hasType_of_infer hclean r hr
        split at h
        · rename_i herror
          simp only [Bool.or_eq_true, decide_eq_true_eq] at herror
          rcases herror with rfl | rfl
          · cases hleftValue
          · cases hrightValue
        · split at h
          · rename_i result hbinary
            cases h
            obtain ⟨o, hsymbol, hoperator⟩ := operatorType_of_inferBinary hbinary
            exact ⟨.binary hleft hright hsymbol hoperator, hoperator.isValue⟩
          · simp at h
  | .call name args p, ty, h => by
    rw [infer] at h
    cases hargs : inferArguments symbols name 1 (parameters name) args with
    | error e =>
      rw [hargs] at h
      cases h
    | ok argumentReports =>
      rw [hargs] at h
      dsimp only at h
      rcases hconclude : concludeCall name args.length p argumentReports with ⟨resultTy, reports⟩
      rw [hconclude] at h
      dsimp only at h
      split at h
      · simp at h
      · rename_i hvoid
        cases h
        obtain ⟨b, hb, rfl, hlength, rfl⟩ := exists_builtin_of_concludeCall hconclude
        rw [parameters_eq hb] at hargs
        have htyped := haveTypes_of_inferArguments hclean args hlength hargs
        exact ⟨.call hb hvoid htyped, Builtin.isValue_result hvoid⟩
  | .program _ _, _, h | .spawn _ _ _, _, h | .assign _ _ _, _, h | .label _ _, _, h
  | .goto _ _ _, _, h | .missing, _, h => by
    simp only [infer] at h
    cases h

theorem haveTypes_of_inferArguments {symbols : Table String Ty} (hclean : Clean symbols) :
    ∀ (args : List Tree) {name : String} {index : Nat} {params : List Ty},
      args.length = params.length → inferArguments symbols name index params args = .ok [] →
        HaveTypes symbols args params
  | [], _, _, params, hlength, _ => by
    cases params with
    | nil => exact .nil
    | cons => cases hlength
  | t :: ts, _, _, params, hlength, h => by
    cases params with
    | nil => cases hlength
    | cons wanted params =>
      rw [inferArguments] at h
      split at h
      · cases h
      · rename_i got reports ht
        split at h
        · cases h
        · rename_i others hts
          simp only [Except.ok.injEq, List.append_eq_nil_iff] at h
          obtain ⟨⟨rfl, hreport⟩, rfl⟩ := h
          obtain ⟨htyped, hvalue⟩ := hasType_of_infer hclean t ht
          obtain rfl := argumentReport_eq_nil hreport hvalue
          exact .cons htyped
            (haveTypes_of_inferArguments hclean ts (Nat.succ_inj.1 hlength) hts)

end

theorem haveTypes_of_inferCall {symbols : Table String Ty} (hclean : Clean symbols) {name : String}
    {args : List Tree} {p : Position} {ty : Ty} (h : inferCall symbols name args p = .ok (ty, [])) :
    ∃ b, Builtin.ofName? name = some b ∧ HaveTypes symbols args b.params := by
  rw [inferCall] at h
  split at h
  · cases h
  · rename_i reports hargs
    obtain ⟨b, hb, -, hlength, rfl⟩ := exists_builtin_of_concludeCall (Except.ok.inj h)
    rw [parameters_eq hb] at hargs
    exact ⟨b, hb, haveTypes_of_inferArguments hclean args hlength hargs⟩

end Typing

end Brushwork
