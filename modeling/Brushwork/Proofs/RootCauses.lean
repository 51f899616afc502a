import Brushwork.Proofs.Inference
import Mathlib.Data.List.Basic

/-!
# Root causes

A report belongs to the node whose own check appended it, behind the reports on its operands. In an
expression without calls a node checks operands of the type `error` no further, and an operand
without this type has no reports on it or below it. So a node that is reported on has nothing
reported below it, and no two of the nodes reported on contain one another; nothing is lost either,
since a node that is silent hands on all that its operands have to report.
-/

namespace Brushwork

namespace Tree

inductive CallFree : Tree → Prop
  | literal (v : Value) (p : Position) : CallFree (.literal v p)
  | variable (name : String) (p : Position) : CallFree (.variable name p)
  | unary {op : String} {t : Tree} {p : Position} (operand : CallFree t) : CallFree (.unary op t p)
  | binary {l r : Tree} {op : String} {p : Position} (left : CallFree l) (right : CallFree r) :
    CallFree (.binary l op r p)

def operands : Tree → List Tree
  | .unary _ operand _ => [operand]
  | .binary left _ right _ => [left, right]
  | _ => []

/-- The node at the end of a path, which tells the number of an operand for each step down from the
root. -/
def at? : Tree → List Nat → Option Tree
  | t, [] => some t
  | t, i :: path => t.operands[i]?.bind fun operand => operand.at? path

/-- Neither of the nodes at two paths contains the other. -/
def Apart (path path' : List Nat) : Prop := ¬ path <+: path' ∧ ¬ path' <+: path

@[simp] theorem apart_cons_iff {i : Nat} {path path' : List Nat} :
    Apart (i :: path) (i :: path') ↔ Apart path path' := by
  simp only [Apart, List.cons_prefix_cons, true_and]

theorem apart_of_ne {i j : Nat} (h : i ≠ j) (path path' : List Nat) :
    Apart (i :: path) (j :: path') := by
  simp only [Apart, List.cons_prefix_cons, h, h.symm, false_and, not_false_eq_true, and_self]

end Tree

namespace Typing

variable {symbols : Table String Ty} {t : Tree} {ty : Ty} {r : Report}

def reportsOn (symbols : Table String Ty) (t : Tree) : List Report :=
  match infer symbols t with
  | .ok (_, reports) => reports
  | .error _ => []

theorem reportsOn_of_infer {reports : List Report} (h : infer symbols t = .ok (ty, reports)) :
    reportsOn symbols t = reports := by
  rw [reportsOn, h]

/-- Inference reports `r` on a node itself, behind all that it reports on the operands of the
node. -/
def Blames (symbols : Table String Ty) (t : Tree) (r : Report) : Prop :=
  ∃ ty, infer symbols t = .ok (ty, t.operands.flatMap (reportsOn symbols) ++ [r])

/-- A variable to which the table gives the type `error` occurs in the expression. -/
def Tainted (symbols : Table String Ty) (t : Tree) : Prop :=
  ∃ path name p, t.at? path = some (.variable name p) ∧ symbols.get? name = some .error

theorem tainted_iff : Tainted symbols t ↔
    (∃ name p, t = .variable name p ∧ symbols.get? name = some .error) ∨
      ∃ operand ∈ t.operands, Tainted symbols operand := by
  constructor
  · rintro ⟨path, name, p, hat, herror⟩
    cases path with
    | nil => exact Or.inl ⟨name, p, Option.some.inj hat, herror⟩
    | cons i path =>
      obtain ⟨operand, hoperand, hat⟩ := Option.bind_eq_some_iff.1 hat
      exact Or.inr ⟨operand, List.mem_of_getElem? hoperand, path, name, p, hat, herror⟩
  · rintro (⟨name, p, rfl, herror⟩ | ⟨operand, hmem, path, name, p, hat, herror⟩)
    · exact ⟨[], name, p, rfl, herror⟩
    · obtain ⟨i, hi⟩ := List.mem_iff_getElem?.1 hmem
      refine ⟨i :: path, name, p, ?_, herror⟩
      rw [Tree.at?, hi]
      exact hat

/-- A report with the path to the node that it is on. -/
abbrev Finding := List Nat × Report

/-- The outcome of inference on an expression, with each report led back to its node. -/
structure Traced (symbols : Table String Ty) (t : Tree) (ty : Ty) (found : List Finding) :
    Prop where
  inferred : infer symbols t = .ok (ty, found.map Prod.snd)
  mem_iff : ∀ {path : List Nat} {r : Report},
    (path, r) ∈ found ↔ ∃ node, t.at? path = some node ∧ Blames symbols node r
  placed : ∀ {path : List Nat} {r : Report} {node : Tree},
    (path, r) ∈ found → t.at? path = some node → r.position = node.position
  apart : found.Pairwise fun a b => Tree.Apart a.1 b.1
  error_iff : ty = .error ↔ found ≠ [] ∨ Tainted symbols t

structure Part (symbols : Table String Ty) where
  tree : Tree
  ty : Ty
  found : List Finding
  traced : Traced symbols tree ty found

namespace Part

/-- The findings on operands from number `i` on, seen from the node above them. -/
def gather : Nat → List (Part symbols) → List Finding
  | _, [] => []
  | i, part :: parts => part.found.map (fun a => (i :: a.1, a.2)) ++ gather (i + 1) parts

variable {parts : List (Part symbols)} {path : List Nat} {i : Nat}

theorem map_snd_gather :
    (gather i parts).map Prod.snd = (parts.map tree).flatMap (reportsOn symbols) := by
  induction parts generalizing i with
  | nil => rfl
  | cons part parts ih =>
    rw [gather, List.map_append, List.map_map, ih, List.map_cons, List.flatMap_cons,
      reportsOn_of_infer part.traced.inferred]
    rfl

theorem mem_gather_iff : (path, r) ∈ gather i parts ↔
    ∃ k part rest, parts[k]? = some part ∧ path = (i + k) :: rest ∧ (rest, r) ∈ part.found := by
  induction parts generalizing i with
  | nil => simp [gather]
  | cons part parts ih =>
    rw [gather, List.mem_append, ih]
    constructor
    · rintro (hfirst | ⟨k, other, rest, hother, rfl, hmem⟩)
      · obtain ⟨⟨rest, r'⟩, hmem, heq⟩ := List.mem_map.1 hfirst
        cases heq
        exact ⟨0, part, rest, rfl, rfl, hmem⟩
      · exact ⟨k + 1, other, rest, hother, by rw [Nat.add_assoc, Nat.add_comm 1], hmem⟩
    · rintro ⟨k, other, rest, hother, rfl, hmem⟩
      cases k with
      | zero =>
        cases hother
        exact Or.inl (List.mem_map.2 ⟨(rest, r), hmem, rfl⟩)
      | succ k => exact Or.inr ⟨k, other, rest, hother, by rw [Nat.add_assoc, Nat.add_comm 1], hmem⟩

theorem gather_ne_nil_iff : gather i parts ≠ [] ↔ ∃ part ∈ parts, part.found ≠ [] := by
  induction parts generalizing i with
  | nil => simp [gather]
  | cons part parts ih =>
    rw [gather, ne_eq, List.append_eq_nil_iff, List.map_eq_nil_iff, not_and_or,
      List.exists_mem_cons_iff]
    exact or_congr_right ih

/-- Findings in one operand are apart as they were there, and findings in two operands anyway. -/
theorem apart_gather : (gather i parts).Pairwise fun a b => Tree.Apart a.1 b.1 := by
  induction parts generalizing i with
  | nil => exact .nil
  | cons part parts ih =>
    rw [gather, List.pairwise_append]
    refine ⟨?_, ih, ?_⟩
    · rw [List.pairwise_map]
      exact part.traced.apart.imp fun h => Tree.apart_cons_iff.2 h
    · rintro a ha ⟨path, r⟩ hb
      obtain ⟨⟨rest, r'⟩, -, rfl⟩ := List.mem_map.1 ha
      obtain ⟨k, -, rest', -, rfl, -⟩ := mem_gather_iff.1 hb
      exact Tree.apart_of_ne (by omega) rest rest'

end Part

theorem at?_cons_iff {parts : List (Part symbols)} (hparts : t.operands = parts.map Part.tree)
    {i : Nat} {rest : List Nat} {node : Tree} :
    t.at? (i :: rest) = some node ↔ ∃ part, parts[i]? = some part ∧
      part.tree.at? rest = some node := by
  rw [Tree.at?, hparts, List.getElem?_map, Option.bind_map, Option.bind_eq_some_iff]
  rfl

/-- A node that reports nothing itself hands on what its operands report. -/
theorem Traced.of_silent (parts : List (Part symbols)) (hparts : t.operands = parts.map Part.tree)
    (hinfer : infer symbols t = .ok (ty, t.operands.flatMap (reportsOn symbols)))
    (hty : ty = .error ↔ (∃ name p, t = .variable name p ∧ symbols.get? name = some .error) ∨
      ∃ part ∈ parts, part.ty = .error) : Traced symbols t ty (Part.gather 0 parts) where
  inferred := by rw [Part.map_snd_gather, ← hparts, hinfer]
  mem_iff := by
    intro path r
    rw [Part.mem_gather_iff]
    constructor
    · rintro ⟨i, part, rest, hpart, rfl, hmem⟩
      obtain ⟨node, hat, hblames⟩ := part.traced.mem_iff.1 hmem
      rw [Nat.zero_add]
      exact ⟨node, (at?_cons_iff hparts).2 ⟨part, hpart, hat⟩, hblames⟩
    · rintro ⟨node, hat, hblames⟩
      cases path with
      | nil =>
        cases hat
        obtain ⟨ty', hinfer'⟩ := hblames
        rw [hinfer] at hinfer'
        simp at hinfer'
      | cons i rest =>
        obtain ⟨part, hpart, hat⟩ := (at?_cons_iff hparts).1 hat
        exact ⟨i, part, rest, hpart, by rw [Nat.zero_add],
          part.traced.mem_iff.2 ⟨node, hat, hblames⟩⟩
  placed := by
    intro path r node hfound hat
    obtain ⟨i, part, rest, hpart, rfl, hmem⟩ := Part.mem_gather_iff.1 hfound
    rw [Nat.zero_add, at?_cons_iff hparts] at hat
    obtain ⟨part', hpart', hat⟩ := hat
    cases hpart.symm.trans hpart'
    exact part.traced.placed hmem hat
  apart := Part.apart_gather
  error_iff := by
    have hpart : (∃ part ∈ parts, part.ty = .error) ↔
        (∃ part ∈ parts, part.found ≠ []) ∨ ∃ part ∈ parts, Tainted symbols part.tree := by
      simp only [fun part : Part symbols => part.traced.error_iff, and_or_left, exists_or]
    have htainted :
        (∃ operand ∈ t.operands, Tainted symbols operand) ↔
          ∃ part ∈ parts, Tainted symbols part.tree := by
      rw [hparts]
      simp only [List.mem_map, exists_exists_and_eq_and]
    rw [hty, hpart, Part.gather_ne_nil_iff, tainted_iff, htainted, or_left_comm]

/-- A node that reports something itself has nothing reported below it. -/
theorem Traced.of_loud (parts : List (Part symbols)) (hparts : t.operands = parts.map Part.tree)
    (hclean : ∀ part ∈ parts, part.ty ≠ .error)
    (hinfer : infer symbols t = .ok (.error, t.operands.flatMap (reportsOn symbols) ++ [r]))
    (hplace : r.position = t.position) : Traced symbols t .error [([], r)] := by
  have hnone {part : Part symbols} (hpart : part ∈ parts) : part.found = [] := by
    by_contra hfound
    exact hclean part hpart (part.traced.error_iff.2 (Or.inl hfound))
  have hbelow : t.operands.flatMap (reportsOn symbols) = [] := by
    rw [hparts, ← Part.map_snd_gather (i := 0), List.map_eq_nil_iff]
    by_contra hfound
    obtain ⟨part, hpart, hne⟩ := Part.gather_ne_nil_iff.1 hfound
    exact hne (hnone hpart)
  refine ⟨?_, ?_, ?_, List.pairwise_singleton _ _, by simp⟩
  · rw [hinfer, hbelow]
    rfl
  · intro path r'
    constructor
    · intro hmem
      cases List.mem_singleton.1 hmem
      exact ⟨t, rfl, .error, hinfer⟩
    · rintro ⟨node, hat, hblames⟩
      cases path with
      | nil =>
        cases hat
        obtain ⟨ty', hinfer'⟩ := hblames
        rw [hinfer] at hinfer'
        simp only [Except.ok.injEq, Prod.mk.injEq, List.append_cancel_left_eq, List.cons.injEq,
          and_true] at hinfer'
        rw [hinfer'.2]
        exact List.mem_cons_self
      | cons i rest =>
        obtain ⟨part, hpart, hat⟩ := (at?_cons_iff hparts).1 hat
        have hmem := part.traced.mem_iff.2 ⟨node, hat, hblames⟩
        rw [hnone (List.mem_of_getElem? hpart)] at hmem
        cases hmem
  · intro path r' node hmem hat
    cases List.mem_singleton.1 hmem
    cases hat
    exact hplace

/-- A sign hands on what its operand reports, and reports on an operand that is neither a number nor
`error`. -/
theorem Part.exists_traced_unary (part : Part symbols) (op : String) (p : Position) :
    ∃ ty found, Traced symbols (.unary op part.tree p) ty found := by
  have hbelow :
      (Tree.unary op part.tree p).operands.flatMap (reportsOn symbols) = part.found.map
        Prod.snd := by
    simp only [Tree.operands, List.flatMap_singleton, reportsOn_of_infer part.traced.inferred]
  by_cases herror : part.ty = .error
  · refine ⟨.error, _, .of_silent [part] rfl ?_ (by simp [herror])⟩
    rw [infer, part.traced.inferred, hbelow]
    exact if_pos herror
  by_cases hint : part.ty = .int
  · refine ⟨.int, _, .of_silent [part] rfl ?_ (by simp [hint])⟩
    rw [infer, part.traced.inferred, hbelow]
    exact (if_neg herror).trans (if_pos hint)
  · refine ⟨.error, _, .of_loud [part] (r := ⟨.sign op part.ty, p⟩) rfl
      (by simpa using herror) ?_ rfl⟩
    rw [infer, part.traced.inferred, hbelow]
    exact (if_neg herror).trans (if_neg hint)

/-- An operator hands on what its operands report, and reports a defect only if neither of them has
the type `error`. -/
theorem Part.exists_traced_binary (left right : Part symbols) (op : String) (p : Position) :
    ∃ ty found, Traced symbols (.binary left.tree op right.tree p) ty found := by
  have hbelow : (Tree.binary left.tree op right.tree p).operands.flatMap (reportsOn symbols) =
      left.found.map Prod.snd ++ right.found.map Prod.snd := by
    simp only [Tree.operands, List.flatMap_cons, List.flatMap_nil, List.append_nil,
      reportsOn_of_infer left.traced.inferred, reportsOn_of_infer right.traced.inferred]
  by_cases herror : left.ty = .error ∨ right.ty = .error
  · refine ⟨.error, _, .of_silent [left, right] rfl ?_ (by simpa using herror)⟩
    rw [infer, left.traced.inferred, right.traced.inferred, hbelow]
    exact if_pos (by simpa using herror)
  have hchecked : ¬ (decide (left.ty = .error) || decide (right.ty = .error)) = true := by
    simpa using herror
  cases hop : inferBinary op left.ty right.ty with
  | ok ty =>
    obtain ⟨o, -, hoperator⟩ := operatorType_of_inferBinary hop
    have hty := Ty.ne_error_of_isValue hoperator.isValue
    refine ⟨ty, _, .of_silent [left, right] rfl ?_ (by simpa [hty] using herror)⟩
    rw [infer, left.traced.inferred, right.traced.inferred, hbelow]
    refine (if_neg hchecked).trans ?_
    rw [hop]
  | error defect =>
    refine ⟨.error, _, .of_loud [left, right] (r := ⟨defect, p⟩) rfl (by simpa using herror) ?_ rfl⟩
    rw [infer, left.traced.inferred, right.traced.inferred, hbelow]
    refine (if_neg hchecked).trans ?_
    rw [hop]

theorem exists_traced (symbols : Table String Ty) (h : t.CallFree) :
    ∃ ty found, Traced symbols t ty found := by
  induction h with
  | literal v p =>
    refine ⟨v.ty, _, .of_silent [] rfl (by rw [infer]; rfl) ?_⟩
    cases v <;> simp [Value.ty]
  | «variable» name p =>
    cases hname : symbols.get? name with
    | some ty =>
      refine ⟨ty, _, .of_silent [] rfl (by rw [infer, hname]; rfl) ?_⟩
      simp [hname]
    | none => exact ⟨.error, _, .of_loud [] rfl (by simp) (by rw [infer, hname]; rfl) rfl⟩
  | @unary op t p _ ih =>
    obtain ⟨ty, found, ht⟩ := ih
    exact Part.exists_traced_unary ⟨t, ty, found, ht⟩ op p
  | @binary l r op p _ _ ihl ihr =>
    obtain ⟨tyl, foundl, hl⟩ := ihl
    obtain ⟨tyr, foundr, hr⟩ := ihr
    exact Part.exists_traced_binary ⟨l, tyl, foundl, hl⟩ ⟨r, tyr, foundr, hr⟩ op p

theorem filter_eq_singleton {found : List Finding} {path : List Nat}
    (hapart : found.Pairwise fun a b => Tree.Apart a.1 b.1) (h : (path, r) ∈ found) :
    (found.filter fun a => a.1 = path) = [(path, r)] := by
  induction hapart with
  | nil => cases h
  | @cons a found hfirst _ ih =>
    rcases List.mem_cons.1 h with rfl | hmem
    · have hothers : (found.filter fun a => a.1 = path) = [] := by
        rw [List.filter_eq_nil_iff]
        rintro b hb hpath
        rw [← of_decide_eq_true hpath] at hfirst
        exact (hfirst b hb).1 (List.prefix_refl _)
      simp [hothers]
    · have hne : a.1 ≠ path := by
        rintro rfl
        exact (hfirst _ hmem).1 (List.prefix_refl _)
      simp [hne, ih hmem]

/-- Inference on an expression without calls gives a type and reports, each of them on a node of the
expression and at its place, and it loses none: the reports are those that inference appends at the
nodes themselves. The type is `error` if and only if something is reported or a variable of this
type occurs. No node reported on contains another one, and every occurrence of a variable that the
table does not have is reported just once. -/
theorem root_causes_are_reported_once {t : Tree} (h : t.CallFree) (symbols : Table String Ty) :
    ∃ (ty : Ty) (found : List (List Nat × Report)), infer symbols t = .ok (ty, found.map Prod.snd) ∧
      (∀ path r, (path, r) ∈ found ↔ ∃ node, t.at? path = some node ∧ Blames symbols node r) ∧
      (∀ path r node, (path, r) ∈ found → t.at? path = some node → r.position = node.position) ∧
      (ty = .error ↔ found ≠ [] ∨
        ∃ path name p, t.at? path = some (.variable name p) ∧ symbols.get? name = some .error) ∧
      (found.Pairwise fun a b => ¬ a.1 <+: b.1 ∧ ¬ b.1 <+: a.1) ∧
      ∀ path name p, t.at? path = some (.variable name p) → symbols.get? name = none →
        (found.filter fun a => a.1 = path) = [(path, ⟨.unassigned name, p⟩)] := by
  obtain ⟨ty, found, ht⟩ := exists_traced symbols h
  refine ⟨ty, found, ht.inferred, fun _ _ => ht.mem_iff, fun _ _ _ => ht.placed, ht.error_iff,
    ht.apart, ?_⟩
  intro path name p hat hnone
  have hblames : Blames symbols (.variable name p) ⟨.unassigned name, p⟩ :=
    ⟨.error, by rw [infer, hnone]; rfl⟩
  exact filter_eq_singleton ht.apart (ht.mem_iff.2 ⟨_, hat, hblames⟩)

/-- In `a + a < -s` with a text `s`, both occurrences of `a` and the sign are reported on, and the
two operators around them are not. -/
theorem nested_causes_are_reported_once :
    let symbols : Table String Ty := Table.empty.insert "s" .string
    let sum : Tree := .binary (.variable "a" ⟨1, 1⟩) "+" (.variable "a" ⟨1, 5⟩) ⟨1, 3⟩
    let t : Tree := .binary sum "<" (.unary "-" (.variable "s" ⟨1, 10⟩) ⟨1, 9⟩) ⟨1, 7⟩
    t.CallFree ∧ ∃ found : List (List Nat × Report),
      infer symbols t = .ok (.error, found.map Prod.snd) ∧
      found.length = 3 ∧ (found.Pairwise fun a b => ¬ a.1 <+: b.1 ∧ ¬ b.1 <+: a.1) ∧
      (found.filter fun a => a.1 = [0, 0]) = [([0, 0], ⟨.unassigned "a", ⟨1, 1⟩⟩)] ∧
      (found.filter fun a => a.1 = [0, 1]) = [([0, 1], ⟨.unassigned "a", ⟨1, 5⟩⟩)] ∧
      ([1], ⟨.sign "-" .string, ⟨1, 9⟩⟩) ∈ found := by
  intro symbols sum t
  have ht : t.CallFree := .binary (.binary (.variable _ _) (.variable _ _)) (.unary (.variable _ _))
  have hinfer : infer symbols t = .ok (.error,
      [⟨.unassigned "a", ⟨1, 1⟩⟩, ⟨.unassigned "a", ⟨1, 5⟩⟩, ⟨.sign "-" .string, ⟨1, 9⟩⟩]) := rfl
  obtain ⟨ty, found, hfound, hmem, -, -, hapart, hunassigned⟩ :=
    root_causes_are_reported_once ht symbols
  have heq := hinfer.symm.trans hfound
  simp only [Except.ok.injEq, Prod.mk.injEq] at heq
  obtain ⟨rfl, hreports⟩ := heq
  have hlength : found.length = 3 := by rw [← List.length_map (f := Prod.snd), ← hreports]; rfl
  exact ⟨ht, found, hfound, hlength, hapart, hunassigned [0, 0] "a" ⟨1, 1⟩ rfl rfl,
    hunassigned [0, 1] "a" ⟨1, 5⟩ rfl rfl, (hmem [1] _).2 ⟨_, rfl, .error, rfl⟩⟩

end Typing

end Brushwork
