import Brushwork.Machine.Step
import Brushwork.Proofs.Typed
import Mathlib.Data.List.Forall2

/-!
# What evaluation gives

An expression looks at the values, the pen and the canvas of a machine and at nothing else, and the
places of its nodes it only hands on to faults. Faults are of three kinds. Those of arithmetic come
up wherever integers are computed. A variable is missing or a value has the wrong type only if the
expression has no type or the machine does not have its variables with their types. And an operator
or a function does not exist only if the expression has no type. All of this is said at once,
function by function, of two evaluations side by side; that two evaluations agree, and what a single
one comes to, are cases of it.
-/

namespace Brushwork

theorem bind_eq_ok_iff {ε α β : Type} {x : Except ε α} {f : α → Except ε β} {b : β} :
    (x >>= f) = .ok b ↔ ∃ a, x = .ok a ∧ f a = .ok b := by
  cases x with
  | error e => simp [bind, Except.bind]
  | ok a => simp [bind, Except.bind]

namespace Tree

def isExpression : Tree → Bool
  | .literal .. | .variable .. | .unary .. | .binary .. | .call .. => true
  | _ => false

def isStatement : Tree → Bool
  | .spawn .. | .assign .. | .label .. | .goto .. | .call .. => true
  | _ => false

/-- Two trees of one form, with places in the relation `Q` and parts in the relation `R`. -/
inductive Congruent (Q : Position → Position → Prop) (R : Tree → Tree → Prop) : Tree → Tree → Prop
  | spawn {x y : Int} {p p' : Position} (place : Q p p') :
    Congruent Q R (.spawn x y p) (.spawn x y p')
  | assign {name : String} {t t' : Tree} {p p' : Position} (value : R t t') (place : Q p p') :
    Congruent Q R (.assign name t p) (.assign name t' p')
  | label {name : String} {p p' : Position} (place : Q p p') :
    Congruent Q R (.label name p) (.label name p')
  | goto {target : String} {t t' : Tree} {p p' : Position} (decision : R t t') (place : Q p p') :
    Congruent Q R (.goto target t p) (.goto target t' p')
  | call {name : String} {args args' : List Tree} {p p' : Position}
      (arguments : List.Forall₂ R args args') (place : Q p p') :
      Congruent Q R (.call name args p) (.call name args' p')
  | literal {v : Value} {p p' : Position} (place : Q p p') :
    Congruent Q R (.literal v p) (.literal v p')
  | variable {name : String} {p p' : Position} (place : Q p p') :
    Congruent Q R (.variable name p) (.variable name p')
  | unary {op : String} {t t' : Tree} {p p' : Position} (operand : R t t') (place : Q p p') :
    Congruent Q R (.unary op t p) (.unary op t' p')
  | binary {op : String} {l l' r r' : Tree} {p p' : Position} (left : R l l') (right : R r r')
      (place : Q p p') :
    Congruent Q R (.binary l op r p) (.binary l' op r' p')
  | program {ss ss' : List Tree} {p p' : Position} (place : Q p p') :
    Congruent Q R (.program ss p) (.program ss' p')
  | missing (place : Q Tree.missing.position Tree.missing.position) :
    Congruent Q R .missing .missing

namespace Congruent

variable {Q : Position → Position → Prop} {R : Tree → Tree → Prop} {t t' : Tree}

theorem of_eq (h : t = t') : Congruent Eq Eq t t' := by
  subst h
  cases t with
  | spawn => exact .spawn rfl
  | assign => exact .assign rfl rfl
  | label => exact .label rfl
  | goto => exact .goto rfl rfl
  | call => exact .call (List.forall₂_same.2 fun _ _ => rfl) rfl
  | literal => exact .literal rfl
  | «variable» => exact .variable rfl
  | unary => exact .unary rfl rfl
  | binary => exact .binary rfl rfl rfl
  | program => exact .program rfl
  | missing => exact .missing rfl

theorem position (h : t.Congruent Q R t') : Q t.position t'.position := by
  cases h with
  | spawn place | label place | literal place | «variable» place | program place | missing place =>
    exact place
  | assign _ place | goto _ place | call _ place | unary _ place => exact place
  | binary _ _ place => exact place

theorem sortName_eq (h : t.Congruent Q R t') : t.sortName = t'.sortName := by
  cases h <;> rfl

theorem isExpression_eq (h : t.Congruent Q R t') : t.isExpression = t'.isExpression := by
  cases h <;> rfl

theorem isStatement_eq (h : t.Congruent Q R t') : t.isStatement = t'.isStatement := by
  cases h <;> rfl

end Congruent

end Tree

namespace Machine

open Typing

def Fault.isArithmetic : Fault → Bool
  | .divisionByZero | .moduloByZero => true
  | _ => false

def Fault.isMistake : Fault → Bool
  | .noVariable _ | .mistyped .. | .condition | .logical .. | .comparison .. | .ordering _ => true
  | _ => false

/-- The faults of programs that are put together wrongly. -/
def Fault.isStructural : Fault → Bool
  | .secondSpawn | .labelTwice _ | .noLabel _ | .noOperator _ | .noFunction _ | .argumentCount ..
  | .noValue _ | .stray _ => true
  | _ => false

/-- The faults that are left if integers are not computed with, if the values that are met fit, and
if the program is put together well. -/
inductive Excused (exact fit formed : Prop) (fault : Fault) : Prop
  | arithmetic (kind : fault.isArithmetic = true) (inexact : ¬ exact)
  | mistake (kind : fault.isMistake = true) (unfit : ¬ fit)
  | structural (kind : fault.isStructural = true) (unformed : ¬ formed)

namespace Excused

variable {exact fit formed exact' fit' formed' : Prop} {fault : Fault}

theorem mono (h : Excused exact fit formed fault) (hexact : exact' → exact) (hfit : fit' → fit)
    (hformed : formed' → formed) : Excused exact' fit' formed' fault := by
  cases h with
  | arithmetic kind inexact => exact .arithmetic kind fun h => inexact (hexact h)
  | mistake kind unfit => exact .mistake kind fun h => unfit (hfit h)
  | structural kind unformed => exact .structural kind fun h => unformed (hformed h)

theorem ne_canvas (h : Excused exact fit formed fault) (refusal : Canvas.Fault) :
    fault ≠ .canvas refusal := by
  rintro rfl
  cases h with
  | arithmetic kind | mistake kind | structural kind => cases kind

theorem isStructural_eq_false (h : Excused exact fit formed fault) (hformed : formed) :
    fault.isStructural = false := by
  cases h with
  | arithmetic kind | mistake kind => cases fault <;> first | rfl | cases kind
  | structural _ unformed => exact absurd hformed unformed

theorem isArithmetic (h : Excused exact fit formed fault) (hfit : fit) (hformed : formed) :
    fault.isArithmetic = true := by
  cases h with
  | arithmetic kind => exact kind
  | mistake _ unfit => exact absurd hfit unfit
  | structural _ unformed => exact absurd hformed unformed

theorem elim (h : Excused exact fit formed fault) (hexact : exact) (hfit : fit) (hformed : formed) :
    False := by
  cases h with
  | arithmetic _ inexact => exact inexact hexact
  | mistake _ unfit => exact unfit hfit
  | structural _ unformed => exact unformed hformed

end Excused

/-- Two computations come to the same: a result with a property, or a fault of a kind at places in a
relation. -/
inductive Answers (Q : Position → Position → Prop) {α : Type} (K : Fault → Prop) (P : α → Prop) :
    Except (Located Fault) α → Except (Located Fault) α → Prop
  | ok {a : α} (result : P a) : Answers Q K P (.ok a) (.ok a)
  | error {fault : Fault} {p p' : Position} (kind : K fault) (place : Q p p') :
    Answers Q K P (.error ⟨fault, p⟩) (.error ⟨fault, p'⟩)

namespace Answers

variable {Q : Position → Position → Prop} {α β : Type} {K K' : Fault → Prop} {P P' : α → Prop}
  {P₁ : β → Prop} {x x' : Except (Located Fault) α}

theorem bind {f f' : α → Except (Located Fault) β} (h : Answers Q K P x x')
    (hK : ∀ {fault}, K fault → K' fault) (hf : ∀ a, P a → Answers Q K' P₁ (f a) (f' a)) :
    Answers Q K' P₁ (x >>= f) (x' >>= f') := by
  cases h with
  | ok result => exact hf _ result
  | error kind place => exact .error (hK kind) place

theorem mono (h : Answers Q K P x x') (hK : ∀ {fault}, K fault → K' fault) (hP : ∀ a, P a → P' a) :
    Answers Q K' P' x x' := by
  cases h with
  | ok result => exact .ok (hP _ result)
  | error kind place => exact .error (hK kind) place

theorem of_ok {a : α} (h : Answers Q K P x x') (hx : x = .ok a) : x' = .ok a ∧ P a := by
  subst hx
  cases h with
  | ok result => exact ⟨rfl, result⟩

theorem of_error {e : Located Fault} (h : Answers Q K P x x') (hx : x = .error e) :
    K e.cause ∧ ∃ p', x' = .error ⟨e.cause, p'⟩ ∧ Q e.position p' := by
  subst hx
  cases h with
  | error kind place => exact ⟨kind, _, rfl, place⟩

end Answers

@[simp] theorem asInt_eq_ok_iff {role : Role} {p : Position} {v : Value} {n : Int} :
    asInt role p v = .ok n ↔ v = .int n := by
  cases v <;> simp [asInt]

@[simp] theorem asText_eq_ok_iff {role : Role} {p : Position} {v : Value} {t : Text} :
    asText role p v = .ok t ↔ v = .text t := by
  cases v <;> simp [asText]

@[simp] theorem intArguments_eq_ok_iff {name : String} {p : Position} {index : Nat}
    {vs : List Value} {ns : List Int} : intArguments name p index vs = .ok ns ↔ vs = ns.map .int := by
  induction vs generalizing index ns with
  | nil =>
    cases ns with
    | nil => simp [intArguments]
    | cons n ns => simp [intArguments]
  | cons v vs ih =>
    simp only [intArguments, bind_eq_ok_iff, asInt_eq_ok_iff, ih]
    constructor
    · rintro ⟨n, rfl, ns', rfl, h⟩
      cases h
      rfl
    · intro h
      cases ns with
      | nil => cases h
      | cons n ns =>
        cases h
        exact ⟨n, rfl, ns, rfl, rfl⟩

theorem resolve_eq_ok_iff {name : String} {count : Nat} {p : Position} {b : Builtin} :
    resolve name count p = .ok b ↔ Builtin.ofName? name = some b ∧ count = b.params.length := by
  unfold resolve
  cases hname : Builtin.ofName? name with
  | none => simp
  | some b' =>
    simp only [Option.some.injEq]
    constructor
    · intro h
      split at h <;> cases h
      rename_i hcount
      exact ⟨rfl, hcount⟩
    · rintro ⟨rfl, hcount⟩
      exact if_pos hcount

section

variable {Q : Position → Position → Prop} {p p' : Position}

theorem answers_asInt (h : Q p p') (role : Role) (v : Value) :
    Answers Q (Excused True (v.ty = .int) True) (fun n => v = .int n) (asInt role p v)
      (asInt role p' v) := by
  cases v with
  | int n => exact .ok rfl
  | bool | text => exact .error (.mistake rfl nofun) h

theorem answers_asText (h : Q p p') (role : Role) (v : Value) :
    Answers Q (Excused True (v.ty = .string) True) (fun t => v = .text t) (asText role p v)
      (asText role p' v) := by
  cases v with
  | text t => exact .ok rfl
  | int | bool => exact .error (.mistake rfl nofun) h

theorem answers_asCondition (h : Q p p') (v : Value) :
    Answers Q (Excused True (v.ty ≠ .string) True) (fun _ => True) (asCondition p v)
      (asCondition p' v) := by
  cases v with
  | int | bool => exact .ok trivial
  | text => exact .error (.mistake rfl fun h => h rfl) h

theorem answers_intArguments (h : Q p p') (name : String) (index : Nat) (vs : List Value) :
    Answers Q (Excused True (∀ v ∈ vs, v.ty = .int) True) (fun ns => vs = ns.map .int)
      (intArguments name p index vs) (intArguments name p' index vs) := by
  induction vs generalizing index with
  | nil => exact .ok rfl
  | cons v vs ih =>
    refine (answers_asInt h _ v).bind
      (fun hf => hf.mono id (fun hall => hall v List.mem_cons_self) id) ?_
    rintro n rfl
    refine (ih (index + 1)).bind
      (fun hf => hf.mono id (fun hall w hw => hall w (List.mem_cons_of_mem _ hw)) id) ?_
    rintro ns rfl
    exact .ok rfl

theorem answers_compute (h : Q p p') (op : Arithmetic) (a b : Int) :
    Answers Q (Excused False True True) (fun _ => True) (compute op a b p) (compute op a b p') := by
  unfold compute power
  cases op with
  | add | sub | mul => exact .ok trivial
  | div | mod =>
    cases Int32.quotient? a b with
    | some q => exact .ok trivial
    | none => exact .error (.arithmetic rfl id) h
  | pow =>
    cases Int32.power? a b with
    | some n => exact .ok trivial
    | none => exact .error (.arithmetic rfl id) h

theorem answers_compare (h : Q p p') (op : Comparison) (symbol : String) {a b : Value}
    (hsame : a.ty = b.ty) :
    Answers Q (Excused True (OperatorType (.comparison op) a.ty b.ty .bool) True)
      (fun _ => OperatorType (.comparison op) a.ty b.ty .bool) (compare op symbol a b p)
      (compare op symbol a b p') := by
  cases op with
  | equal => exact .ok (hsame ▸ .equal)
  | _ =>
    cases a <;> cases b <;> cases hsame
    · exact .ok (.ordering _)
    all_goals exact .error (.mistake rfl nofun) h

theorem answers_operator (h : Q p p') {symbol : String} {o : Operator}
    (hsymbol : Operator.ofSymbol? symbol = some o) (a b : Value) :
    Answers Q (Excused False (∃ ty, OperatorType o a.ty b.ty ty) True)
      (fun v => OperatorType o a.ty b.ty v.ty)
      (evalBinary symbol a b p) (evalBinary symbol a b p') := by
  cases o with
  | logical op =>
    simp only [evalBinary, hsymbol]
    have hmistake (hbool : ¬ (a.ty = .bool ∧ b.ty = .bool)) :
        ¬ ∃ ty, OperatorType (.logical op) a.ty b.ty ty :=
      fun ⟨_, htype⟩ => hbool htype.of_logical
    cases a with
    | bool x =>
      cases b with
      | bool y => cases op <;> exact .ok (.logical _)
      | int | text => exact .error (.mistake rfl (hmistake nofun)) h
    | int | text => exact .error (.mistake rfl (hmistake nofun)) h
  | comparison op =>
    simp only [evalBinary, hsymbol]
    split
    · rename_i hne
      exact .error (.mistake rfl fun ⟨_, htype⟩ => hne htype.of_comparison.1) h
    · rename_i hsame
      have hcompare := answers_compare h op symbol (Decidable.not_not.1 hsame)
      generalize compare op symbol a b p = x at hcompare ⊢
      generalize compare op symbol a b p' = x' at hcompare ⊢
      cases hcompare with
      | ok result => exact .ok result
      | error kind place =>
        refine .error (kind.mono nofun ?_ id) place
        rintro ⟨ty, htype⟩
        obtain rfl := htype.of_comparison.2
        exact htype
  | arithmetic op =>
    simp only [evalBinary, hsymbol]
    refine (answers_asInt h _ a).bind
      (fun hf => hf.mono nofun (fun ⟨_, htype⟩ => htype.of_arithmetic.1) id) ?_
    rintro x rfl
    refine (answers_asInt h _ b).bind
      (fun hf => hf.mono nofun (fun ⟨_, htype⟩ => htype.of_arithmetic.2) id) ?_
    rintro y rfl
    refine (answers_compute h op x y).bind (fun hf => hf.mono id (fun _ => trivial) id)
      fun n _ => ?_
    exact .ok (.arithmetic op)

theorem answers_evalBinary (h : Q p p') (symbol : String) (a b : Value) :
    Answers Q
      (Excused False (∃ o ty, Operator.ofSymbol? symbol = some o ∧ OperatorType o a.ty b.ty ty)
        (∃ o, Operator.ofSymbol? symbol = some o))
      (fun v => ∃ o, Operator.ofSymbol? symbol = some o ∧ OperatorType o a.ty b.ty v.ty)
      (evalBinary symbol a b p) (evalBinary symbol a b p') := by
  cases hsymbol : Operator.ofSymbol? symbol with
  | none =>
    simp only [evalBinary, hsymbol]
    refine (answers_asInt h _ a).bind (fun hf => hf.mono nofun nofun fun _ => trivial) fun _ _ => ?_
    refine (answers_asInt h _ b).bind (fun hf => hf.mono nofun nofun fun _ => trivial) fun _ _ => ?_
    exact .error (.structural rfl nofun) h
  | some o =>
    refine (answers_operator h hsymbol a b).mono (fun hf => hf.mono id ?_ fun _ => trivial)
      fun v hv => ⟨o, rfl, hv⟩
    rintro ⟨o', ty, ho, htype⟩
    cases ho
    exact ⟨ty, htype⟩

theorem answers_resolve (h : Q p p') (name : String) (count : Nat) :
    Answers Q (Excused True True (∃ b, Builtin.ofName? name = some b ∧ count = b.params.length))
      (fun b => Builtin.ofName? name = some b ∧ count = b.params.length)
      (resolve name count p) (resolve name count p') := by
  unfold resolve
  cases Builtin.ofName? name with
  | none => exact .error (.structural rfl nofun) h
  | some b =>
    dsimp only
    split
    · rename_i hcount
      exact .ok ⟨rfl, hcount⟩
    · rename_i hcount
      refine .error (.structural rfl ?_) h
      rintro ⟨_, hb, hcount'⟩
      cases hb
      exact hcount hcount'

/-- A query answers to arguments of the types that it wants, with a value of the type that it
promises. -/
theorem answers_query (h : Q p p') (m : Machine) (b : Builtin) (vs : List Value) :
    Answers Q
      (Excused True (vs.map Value.ty = b.params) (vs.length = b.params.length ∧ b.result ≠ .void))
      (fun v => vs.map Value.ty = b.params ∧ v.ty = b.result ∧ b.result ≠ .void)
      (query m b p vs) (query m b p' vs) := by
  unfold query
  cases b with
  | getActualX | getActualY | getCanvasSize =>
    cases vs with
    | nil => exact .ok ⟨rfl, rfl, nofun⟩
    | cons => exact .error (.structural rfl nofun) h
  | getColorCount =>
    cases vs with
    | nil => exact .error (.structural rfl nofun) h
    | cons color corners =>
      refine (answers_asText h _ color).bind
        (fun hf => hf.mono id (fun hty => (List.cons.inj hty).1) fun _ => trivial) ?_
      rintro text rfl
      refine (answers_intArguments h _ 1 corners).bind (fun hf => hf.mono id ?_ fun _ => trivial) ?_
      · intro hty v hv
        have hmem := List.mem_map_of_mem (f := Value.ty) hv
        rw [(List.cons.inj hty).2] at hmem
        simpa using hmem
      · rintro ns rfl
        rcases ns with _ | ⟨x1, _ | ⟨y1, _ | ⟨x2, _ | ⟨y2, _ | ⟨n, ns⟩⟩⟩⟩⟩
        iterate 4 exact .error (.structural rfl nofun) h
        · exact .ok ⟨rfl, rfl, nofun⟩
        · exact .error (.structural rfl (by simp [Builtin.params])) h
  | isBrushColor | isCanvasColor =>
    rcases vs with _ | ⟨v, _ | ⟨w, vs⟩⟩
    · exact .error (.structural rfl nofun) h
    · refine (answers_asText h _ v).bind
        (fun hf => hf.mono id (fun hty => (List.cons.inj hty).1) fun _ => trivial) ?_
      rintro text rfl
      exact .ok ⟨rfl, rfl, nofun⟩
    · exact .error (.structural rfl (by simp [Builtin.params])) h
  | isBrushSize =>
    rcases vs with _ | ⟨v, _ | ⟨w, vs⟩⟩
    · exact .error (.structural rfl nofun) h
    · refine (answers_asInt h _ v).bind
        (fun hf => hf.mono id (fun hty => (List.cons.inj hty).1) fun _ => trivial) ?_
      rintro n rfl
      exact .ok ⟨rfl, rfl, nofun⟩
    · exact .error (.structural rfl (by simp [Builtin.params])) h
  | _ => exact .error (.structural rfl fun hformed => hformed.2 rfl) h

theorem answers_drawing (h : Q p p') (b : Builtin) (vs : List Value) :
    Answers Q
      (Excused True (vs.map Value.ty = b.params ∧ b.result = .void)
        (vs.length = b.params.length ∧ b.result = .void))
      (fun _ => True) (drawing b p vs) (drawing b p' vs) := by
  have hints (hall : ∀ ty ∈ b.params, ty = .int) {fault : Fault}
      (hf : Excused True (∀ v ∈ vs, v.ty = .int) True fault) :
      Excused True (vs.map Value.ty = b.params ∧ b.result = .void)
        (vs.length = b.params.length ∧ b.result = .void) fault :=
    hf.mono id (fun hfit v hv => hall _ (hfit.1 ▸ List.mem_map_of_mem hv)) fun _ => trivial
  unfold drawing
  cases b with
  | color =>
    rcases vs with _ | ⟨v, _ | ⟨w, vs⟩⟩
    · exact .error (.structural rfl nofun) h
    · refine (answers_asText h _ v).bind ?_ fun _ _ => .ok trivial
      exact fun hf => hf.mono id (fun hfit => (List.cons.inj hfit.1).1) fun _ => trivial
    · refine (answers_intArguments h _ 1 _).bind ?_ fun _ _ =>
        .error (.structural rfl (by simp [Builtin.params])) h
      exact fun hf => hf.mono id (by simp [Builtin.params]) fun _ => trivial
  | size =>
    refine (answers_intArguments h _ 1 vs).bind (hints (by decide)) ?_
    rintro ns rfl
    rcases ns with _ | ⟨n, _ | ⟨_, _⟩⟩
    · exact .error (.structural rfl nofun) h
    · exact .ok trivial
    · exact .error (.structural rfl (by simp [Builtin.params])) h
  | drawLine | drawCircle =>
    refine (answers_intArguments h _ 1 vs).bind (hints (by decide)) ?_
    rintro ns rfl
    rcases ns with _ | ⟨dx, _ | ⟨dy, _ | ⟨n, _ | ⟨_, _⟩⟩⟩⟩
    iterate 3 exact .error (.structural rfl nofun) h
    · exact .ok trivial
    · exact .error (.structural rfl (by simp [Builtin.params])) h
  | drawRectangle =>
    refine (answers_intArguments h _ 1 vs).bind (hints (by decide)) ?_
    rintro ns rfl
    rcases ns with _ | ⟨dx, _ | ⟨dy, _ | ⟨distance, _ | ⟨width, _ | ⟨height, _ | ⟨_, _⟩⟩⟩⟩⟩⟩
    iterate 5 exact .error (.structural rfl nofun) h
    · exact .ok trivial
    · exact .error (.structural rfl (by simp [Builtin.params])) h
  | fill =>
    refine (answers_intArguments h _ 1 vs).bind (hints (by decide)) ?_
    rintro ns rfl
    cases ns with
    | nil => exact .ok trivial
    | cons => exact .error (.structural rfl nofun) h
  | setCursor =>
    refine (answers_intArguments h _ 1 vs).bind (hints (by decide)) ?_
    rintro ns rfl
    rcases ns with _ | ⟨x, _ | ⟨y, _ | ⟨_, _⟩⟩⟩
    iterate 2 exact .error (.structural rfl nofun) h
    · exact .ok trivial
    · exact .error (.structural rfl (by simp [Builtin.params])) h
  | _ =>
    refine (answers_intArguments h _ 1 vs).bind ?_ fun _ _ => .error (.structural rfl nofun) h
    exact fun hf => hf.mono id nofun fun _ => trivial

end

/-- Two machines that show an expression the same: the values, the pen and the canvas. -/
structure Alike (m m' : Machine) : Prop where
  values : m.state.values = m'.state.values
  pen : m.state.pen = m'.state.pen
  canvas : m.canvas = m'.canvas

theorem Alike.query {m m' : Machine} (h : Alike m m') (b : Builtin) (p : Position)
    (vs : List Value) : query m b p vs = query m' b p vs := by
  unfold Machine.query
  rw [h.pen, h.canvas]

/-- A machine that has all variables of a table, with the types given there. -/
def Fits (m : Machine) (symbols : Table String Ty) : Prop :=
  ∀ {name : String} {ty : Ty}, symbols.get? name = some ty →
    ∃ v, m.state.values.get? name = some v ∧ v.ty = ty

/-- A machine and a table have the same variables, with the types of their values. -/
def Mirrors (m : Machine) (symbols : Table String Ty) : Prop :=
  ∀ name : String, symbols.get? name = (m.state.values.get? name).map Value.ty

/-- The value of an expression has the type of the expression, and tells it. -/
structure Accords (m : Machine) (symbols : Table String Ty) (t : Tree) (v : Value) : Prop where
  kept : m.Fits symbols → ∀ ty, HasType symbols t ty → v.ty = ty
  told : m.Mirrors symbols → HasType symbols t v.ty

@[inherit_doc Accords]
structure AccordAll (m : Machine) (symbols : Table String Ty) (ts : List Tree) (vs : List Value) :
    Prop where
  length : vs.length = ts.length
  kept : m.Fits symbols → ∀ tys, HaveTypes symbols ts tys → vs.map Value.ty = tys
  told : m.Mirrors symbols → HaveTypes symbols ts (vs.map Value.ty)

abbrev Excuses (m : Machine) (symbols : Table String Ty) (typed : Prop) : Fault → Prop :=
  Excused False (typed ∧ m.Fits symbols) typed

theorem Excuses.mono {m : Machine} {symbols : Table String Ty} {typed typed' : Prop} {fault : Fault}
    (h : Excuses m symbols typed fault) (htyped : typed' → typed) :
    Excuses m symbols typed' fault :=
  Excused.mono h id (fun hfit => ⟨htyped hfit.1, hfit.2⟩) htyped

theorem eval_of_stray {t : Tree} (h : t.isExpression = false) (m : Machine) :
    eval m t = .error ⟨.stray (.expression t.sortName), t.position⟩ := by
  cases t with
  | literal | «variable» | unary | binary | call => cases h
  | _ => simp only [eval]

theorem isInstruction_eq {name : String} {b : Builtin} (h : Builtin.ofName? name = some b) :
    isInstruction name = decide (b.result = .void) := by
  rw [isInstruction, h]

section

variable {Q : Position → Position → Prop} {R : Tree → Tree → Prop} {m m' : Machine}
  {symbols : Table String Ty} {p p' : Position}

/-- Two evaluations of an expression and of its like come to the same, as the type of the expression
tells. -/
abbrev AnswersTyped (Q : Position → Position → Prop) (symbols : Table String Ty) (m m' : Machine)
    (t t' : Tree) : Prop :=
  Answers Q (Excuses m symbols (∃ ty, HasType symbols t ty)) (Accords m symbols t) (eval m t)
    (eval m' t')

@[inherit_doc AnswersTyped]
abbrev AnswersTypedAll (Q : Position → Position → Prop) (symbols : Table String Ty) (m m' : Machine)
    (ts ts' : List Tree) : Prop :=
  Answers Q (Excuses m symbols (∃ tys, HaveTypes symbols ts tys)) (AccordAll m symbols ts)
    (evalAll m ts) (evalAll m' ts')

theorem answers_variable (hm : Alike m m') (place : Q p p') (name : String) :
    AnswersTyped Q symbols m m' (.variable name p) (.variable name p') := by
  have hfound (hfits : m.Fits symbols) {ty : Ty} (h : HasType symbols (.variable name p) ty) :
      ∃ v, m.state.values.get? name = some v ∧ v.ty = ty := by
    cases h with
    | «variable» found => exact hfits found
  simp only [AnswersTyped, eval, State.valueOf, ← hm.values]
  cases hvalue : m.state.values.get? name with
  | some v =>
    refine .ok ⟨fun hfits ty h => ?_, fun hmirrors =>
      .variable (by rw [hmirrors name, hvalue]; rfl)⟩
    obtain ⟨v', hv', hty⟩ := hfound hfits h
    cases hvalue.symm.trans hv'
    exact hty
  | none =>
    refine .error (.mistake rfl ?_) place
    rintro ⟨⟨ty, h⟩, hfits⟩
    obtain ⟨v, hv, -⟩ := hfound hfits h
    cases hvalue.symm.trans hv

theorem answers_unary {op : String} {t t' : Tree} (h : AnswersTyped Q symbols m m' t t')
    (place : Q p p') : AnswersTyped Q symbols m m' (.unary op t p) (.unary op t' p') := by
  have hpart {ty : Ty} (h : HasType symbols (.unary op t p) ty) :
      ty = .int ∧ HasType symbols t .int := by
    cases h with
    | unary operand => exact ⟨rfl, operand⟩
  simp only [AnswersTyped, eval]
  refine h.bind (fun hf => hf.mono fun ⟨_, htype⟩ => ⟨_, (hpart htype).2⟩) fun v hv => ?_
  refine (answers_asInt place _ v).bind (fun hf => hf.mono nofun ?_ fun _ => trivial) ?_
  · rintro ⟨⟨ty, htype⟩, hfits⟩
    exact hv.kept hfits _ (hpart htype).2
  · rintro n rfl
    exact .ok ⟨fun _ ty htype => (hpart htype).1.symm, fun hmirrors => .unary (hv.told hmirrors)⟩

theorem answers_binary {op : String} {l l' r r' : Tree} (hl : AnswersTyped Q symbols m m' l l')
    (hr : AnswersTyped Q symbols m m' r r') (place : Q p p') :
    AnswersTyped Q symbols m m' (.binary l op r p) (.binary l' op r' p') := by
  have hparts {ty : Ty} (h : HasType symbols (.binary l op r p) ty) : ∃ a b o, HasType symbols l a ∧
      HasType symbols r b ∧ Operator.ofSymbol? op = some o ∧ OperatorType o a b ty := by
    cases h with
    | binary left right symbol operator => exact ⟨_, _, _, left, right, symbol, operator⟩
  simp only [AnswersTyped, eval]
  refine hl.bind (fun hf => hf.mono fun ⟨_, htype⟩ => ?_) fun a ha => ?_
  · obtain ⟨_, _, _, left, -⟩ := hparts htype
    exact ⟨_, left⟩
  refine hr.bind (fun hf => hf.mono fun ⟨_, htype⟩ => ?_) fun b hb => ?_
  · obtain ⟨_, _, _, -, right, -⟩ := hparts htype
    exact ⟨_, right⟩
  have hoperator (hfits : m.Fits symbols) {ty : Ty}
      (htype : HasType symbols (.binary l op r p) ty) :
      ∃ o, Operator.ofSymbol? op = some o ∧ OperatorType o a.ty b.ty ty := by
    obtain ⟨_, _, o, left, right, symbol, operator⟩ := hparts htype
    rw [ha.kept hfits _ left, hb.kept hfits _ right]
    exact ⟨o, symbol, operator⟩
  refine (answers_evalBinary place op a b).mono (fun hf => hf.mono id ?_ ?_) fun v hv => ⟨?_, ?_⟩
  · rintro ⟨⟨ty, htype⟩, hfits⟩
    obtain ⟨o, symbol, operator⟩ := hoperator hfits htype
    exact ⟨o, ty, symbol, operator⟩
  · rintro ⟨ty, htype⟩
    obtain ⟨_, _, o, -, -, symbol, -⟩ := hparts htype
    exact ⟨o, symbol⟩
  · intro hfits ty htype
    obtain ⟨o, symbol, operator⟩ := hv
    obtain ⟨o', symbol', operator'⟩ := hoperator hfits htype
    cases symbol.symm.trans symbol'
    exact operator.unique operator'
  · intro hmirrors
    obtain ⟨o, symbol, operator⟩ := hv
    exact .binary (ha.told hmirrors) (hb.told hmirrors) symbol operator

theorem answers_call (hm : Alike m m') {name : String} {args args' : List Tree}
    (hlength : args.length = args'.length) (h : AnswersTypedAll Q symbols m m' args args')
    (place : Q p p') : AnswersTyped Q symbols m m' (.call name args p) (.call name args' p') := by
  have hparts {ty : Ty} (h : HasType symbols (.call name args p) ty) :
      ∃ b, Builtin.ofName? name = some b ∧ b.result ≠ .void ∧ HaveTypes symbols args b.params ∧
      ty = b.result := by
    cases h with
    | call builtin notVoid typed => exact ⟨_, builtin, notVoid, typed, rfl⟩
  simp only [AnswersTyped, eval, ← hm.query, ← hlength]
  split
  · rename_i hinstruction
    refine .error (.structural rfl ?_) place
    rintro ⟨ty, htype⟩
    obtain ⟨b, hb, hvoid, -⟩ := hparts htype
    rw [isInstruction_eq hb, decide_eq_true_eq] at hinstruction
    exact hvoid hinstruction
  refine (answers_resolve place name args.length).bind
    (fun hf => hf.mono nofun (fun _ => trivial) ?_) ?_
  · rintro ⟨ty, htype⟩
    obtain ⟨b, hb, -, htyped, -⟩ := hparts htype
    exact ⟨b, hb, htyped.length_eq⟩
  rintro b ⟨hb, hcount⟩
  have hbuiltin {ty : Ty} (htype : HasType symbols (.call name args p) ty) :
      b.result ≠ .void ∧ HaveTypes symbols args b.params ∧ ty = b.result := by
    obtain ⟨b', hb', hrest⟩ := hparts htype
    cases hb.symm.trans hb'
    exact hrest
  refine h.bind (fun hf => hf.mono fun ⟨_, htype⟩ => ⟨_, (hbuiltin htype).2.1⟩) fun vs hvs => ?_
  refine (answers_query place m b vs).mono (fun hf => hf.mono nofun ?_ ?_) fun v hv => ⟨?_, ?_⟩
  · rintro ⟨⟨ty, htype⟩, hfits⟩
    exact hvs.kept hfits _ (hbuiltin htype).2.1
  · rintro ⟨ty, htype⟩
    exact ⟨hvs.length.trans hcount, (hbuiltin htype).1⟩
  · intro _ ty htype
    rw [hv.2.1, (hbuiltin htype).2.2]
  · intro hmirrors
    have htyped := hvs.told hmirrors
    rw [hv.1] at htyped
    rw [hv.2.1]
    exact .call hb hv.2.2 htyped

theorem answers_stray {t t' : Tree} (h : t.Congruent Q R t') (hstray : t.isExpression = false) :
    AnswersTyped Q symbols m m' t t' := by
  rw [AnswersTyped, eval_of_stray hstray, eval_of_stray (h.isExpression_eq ▸ hstray), h.sortName_eq]
  refine .error (.structural rfl ?_) h.position
  rintro ⟨ty, htype⟩
  cases htype <;> cases hstray

mutual

/-- Evaluation of congruent expressions on machines that are alike. -/
theorem answers_eval (hR : ∀ {t t'}, R t t' → t.Congruent Q R t') (hm : Alike m m')
    (symbols : Table String Ty) :
    ∀ (t : Tree) {t' : Tree}, R t t' → AnswersTyped Q symbols m m' t t'
  | .literal v p, _, h => by
    cases hR h with
    | literal place =>
      simp only [AnswersTyped, eval]
      refine .ok ⟨?_, fun _ => .literal v p⟩
      rintro _ _ ⟨⟩
      rfl
  | .variable name p, _, h => by
    cases hR h with
    | «variable» place => exact answers_variable hm place name
  | .unary op t p, _, h => by
    cases hR h with
    | unary operand place => exact answers_unary (answers_eval hR hm symbols t operand) place
  | .binary l op r p, _, h => by
    cases hR h with
    | binary left right place =>
      exact answers_binary (answers_eval hR hm symbols l left)
        (answers_eval hR hm symbols r right) place
  | .call name args p, _, h => by
    cases hR h with
    | call arguments place =>
      exact answers_call hm arguments.length_eq (answers_evalAll hR hm symbols args arguments) place
  | .program _ _, _, h | .spawn _ _ _, _, h | .assign _ _ _, _, h | .label _ _, _, h
  | .goto _ _ _, _, h
  | .missing, _, h => answers_stray (hR h) rfl

theorem answers_evalAll (hR : ∀ {t t'}, R t t' → t.Congruent Q R t') (hm : Alike m m')
    (symbols : Table String Ty) :
    ∀ (ts : List Tree) {ts' : List Tree}, List.Forall₂ R ts ts' →
      AnswersTypedAll Q symbols m m' ts ts'
  | [], _, .nil => by
    simp only [AnswersTypedAll, evalAll]
    refine .ok ⟨rfl, ?_, fun _ => .nil⟩
    rintro _ _ ⟨⟩
    rfl
  | t :: ts, _, .cons first others => by
    have hparts {tys : List Ty} (h : HaveTypes symbols (t :: ts) tys) :
        ∃ ty tys', HasType symbols t ty ∧ HaveTypes symbols ts tys' ∧ tys = ty :: tys' := by
      cases h with
      | cons first rest => exact ⟨_, _, first, rest, rfl⟩
    simp only [AnswersTypedAll, evalAll]
    refine (answers_eval hR hm symbols t first).bind (fun hf => hf.mono fun ⟨_, htypes⟩ => ?_)
      fun v hv => ?_
    · obtain ⟨ty, _, htype, -⟩ := hparts htypes
      exact ⟨ty, htype⟩
    refine (answers_evalAll hR hm symbols ts others).bind (fun hf => hf.mono fun ⟨_, htypes⟩ => ?_)
      fun vs hvs => ?_
    · obtain ⟨_, tys, -, htypes, -⟩ := hparts htypes
      exact ⟨tys, htypes⟩
    refine .ok ⟨congrArg (· + 1) hvs.length, fun hfits tys htypes => ?_, fun hmirrors => ?_⟩
    · obtain ⟨ty, tys', htype, htypes', rfl⟩ := hparts htypes
      rw [List.map_cons, hv.kept hfits _ htype, hvs.kept hfits _ htypes']
    · exact .cons (hv.told hmirrors) (hvs.told hmirrors)

end

theorem Alike.refl (m : Machine) : Alike m m := ⟨rfl, rfl, rfl⟩

theorem accords_of_eval {t : Tree} {v : Value} (symbols : Table String Ty) (h : eval m t = .ok v) :
    Accords m symbols t v :=
  ((answers_eval Tree.Congruent.of_eq (.refl m) symbols t rfl).of_ok h).2

theorem excuses_of_eval {t : Tree} {e : Located Fault} (symbols : Table String Ty)
    (h : eval m t = .error e) : Excuses m symbols (∃ ty, HasType symbols t ty) e.cause :=
  ((answers_eval Tree.Congruent.of_eq (.refl m) symbols t rfl).of_error h).1

theorem accordAll_of_evalAll {ts : List Tree} {vs : List Value} (symbols : Table String Ty)
    (h : evalAll m ts = .ok vs) : AccordAll m symbols ts vs :=
  ((answers_evalAll Tree.Congruent.of_eq (.refl m) symbols ts
    (List.forall₂_same.2 fun _ _ => rfl)).of_ok h).2

theorem excuses_of_evalAll {ts : List Tree} {e : Located Fault} (symbols : Table String Ty)
    (h : evalAll m ts = .error e) : Excuses m symbols (∃ tys, HaveTypes symbols ts tys) e.cause :=
  ((answers_evalAll Tree.Congruent.of_eq (.refl m) symbols ts
    (List.forall₂_same.2 fun _ _ => rfl)).of_error h).1

end

end Machine

end Brushwork
