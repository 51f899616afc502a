import Brushwork.Proofs.Layout
import Brushwork.Tree.Outline
import Mathlib

/-!
# Outlines are unambiguous

In an outline a node has a line, below it the lines of its children, and below these a closing line
if it is a call. Its own line tells its sort, and so how many children it has; those of a call go on
until a line that closes it. That is why lines can be read in one way only, from the first one on,
and blanks before them are not needed for it: a negative depth takes them away.

Names and texts of a program that has been compiled hold no newline, so that the lines of its
outline can be told apart.
-/

namespace Brushwork

namespace Tree

def header : Tree → String
  | .program .. => "Program:"
  | .spawn x y _ => "Spawn(x=" ++ toString x ++ ", y=" ++ toString y ++ ")"
  | .assign name _ _ => "Assign " ++ name ++ " <-"
  | .label name _ => "Label: " ++ name
  | .goto target _ _ => "GoTo [" ++ target ++ "] if:"
  | .call name _ _ => "Call " ++ name ++ "("
  | .literal value _ => "Literal: " ++ valueText value
  | .variable name _ => "Variable: " ++ name
  | .binary _ op _ _ => "Binary (" ++ op ++ ")"
  | .unary op _ _ => "Unary (" ++ op ++ ")"
  | .missing => ""

def children : Tree → List Tree
  | .program statements _ => statements
  | .assign _ expr _ => [expr]
  | .goto _ condition _ => [condition]
  | .call _ args _ => args
  | .binary left _ right _ => [left, right]
  | .unary _ operand _ => [operand]
  | .spawn .. | .label .. | .literal .. | .variable .. | .missing => []

def footer (depth : Int) : Tree → List String
  | .call .. => [indentation depth ++ ")"]
  | _ => []

section

variable {depth : Int} {t : Tree} {ts : List Tree} {ls : List String}

theorem outlineAll_cons_eq_ok_iff :
    outlineAll depth (t :: ts) = .ok ls ↔
      ∃ first others, outlineLines depth t = .ok first ∧ outlineAll depth ts = .ok others ∧
      ls = first ++ others := by
  rw [outlineAll]
  simp only [bind_eq_ok_iff, pure, Except.pure, Except.ok.injEq]
  constructor
  · rintro ⟨first, hfirst, others, hothers, rfl⟩
    exact ⟨first, others, hfirst, hothers, rfl⟩
  · rintro ⟨first, others, hfirst, hothers, rfl⟩
    exact ⟨first, hfirst, others, hothers, rfl⟩

@[simp] theorem outlineAll_nil (depth : Int) : outlineAll depth [] = .ok [] := by
  rw [outlineAll]
  rfl

@[simp] theorem outlineAll_singleton (depth : Int) (t : Tree) :
    outlineAll depth [t] = outlineLines depth t := by
  rw [outlineAll, outlineAll_nil]
  cases outlineLines depth t with
  | error e => rfl
  | ok ls => exact congrArg Except.ok (List.append_nil ls)

/-- Every node has its line, then the lines of its children, and perhaps one that closes it. -/
theorem outlineLines_eq (h : t ≠ .missing) :
    outlineLines depth t = (outlineAll (depth + 1) t.children >>= fun inner =>
      .ok ((indentation depth ++ t.header) :: (inner ++ t.footer depth))) := by
  cases t with
  | missing => exact absurd rfl h
  | spawn | label | literal | «variable» =>
    simp only [outlineLines, children, outlineAll_nil, header, footer, String.append_assoc]
    rfl
  | assign | goto | unary =>
    simp only [outlineLines, children, outlineAll_singleton, header, footer, List.append_nil,
      String.append_assoc]
    rfl
  | program | call =>
    simp only [outlineLines, children, header, footer, List.append_nil, String.append_assoc]
    rfl
  | binary left op right p =>
    simp only [outlineLines, children, header, footer, List.append_nil, String.append_assoc]
    rw [outlineAll, outlineAll_singleton]
    cases outlineLines (depth + 1) left with
    | error e => rfl
    | ok first => cases outlineLines (depth + 1) right <;> rfl

theorem outlineLines_eq_ok_iff (h : t ≠ .missing) :
    outlineLines depth t = .ok ls ↔ ∃ inner, outlineAll (depth + 1) t.children = .ok inner ∧
      ls = (indentation depth ++ t.header) :: (inner ++ t.footer depth) := by
  rw [outlineLines_eq h, bind_eq_ok_iff]
  simp only [Except.ok.injEq, eq_comm]

end

/-! ### Lines of single nodes -/

/-- A node below a program that stays on one line: no newline is in its name, and a text is a string
without one. -/
def OnLine : Tree → Prop
  | .program .. | .missing => False
  | .spawn .. | .literal (.int _) _ | .literal (.bool _) _ => True
  | .literal (.text t) _ => ∃ s : String, t = s ∧ '\n' ∉ s.toList
  | .assign name _ _ | .label name _ | .goto name _ _ | .call name _ _ | .variable name _
  | .binary _ name _ _
  | .unary name _ _ => '\n' ∉ name.toList

/-- A tree with no newline in any of its names and texts, and with no program in it. -/
inductive Tidy : Tree → Prop
  | node {t : Tree} (line : t.OnLine) (inner : ∀ a ∈ t.children, Tidy a) : Tidy t

theorem OnLine.ne_missing {t : Tree} (h : t.OnLine) : t ≠ .missing := by
  rintro rfl
  exact h

theorem notMem_repr {c : Char} (hdigit : c.isDigit = false) (hminus : c ≠ '-') (n : Int) :
    c ∉ n.repr.toList := by
  have hdigits (k : Nat) : c ∉ k.repr.toList := by
    intro hc
    rw [Nat.toList_repr] at hc
    cases hdigit.symm.trans (Nat.isDigit_of_mem_toDigits (by decide) (by decide) hc)
  rw [Int.repr_eq_if]
  split_ifs
  · exact hdigits _
  · rw [String.toList_append, List.mem_append, not_or]
    exact ⟨fun h => hminus (List.mem_singleton.1 h), hdigits _⟩

theorem newline_notMem_header {t : Tree} (h : t.OnLine) : '\n' ∉ t.header.toList := by
  have hint : ∀ n : Int, '\n' ∉ n.repr.toList := notMem_repr (by decide) (by decide)
  cases t with
  | program | missing => exact h.elim
  | spawn x y p => simp [header, hint]
  | assign | label | goto | call | «variable» | binary | unary => simpa [header, OnLine] using h
  | literal value p =>
    cases value with
    | int n => simp [header, valueText, hint]
    | bool b => cases b <;> simp [header, valueText]
    | text t =>
      obtain ⟨s, rfl, hs⟩ := h
      simpa [header, valueText] using hs

/-- The first two letters of a header, which tell the sort of the node. -/
def initials : Tree → List Char
  | .program .. => ['P', 'r']
  | .spawn .. => ['S', 'p']
  | .assign .. => ['A', 's']
  | .label .. => ['L', 'a']
  | .goto .. => ['G', 'o']
  | .call .. => ['C', 'a']
  | .literal .. => ['L', 'i']
  | .variable .. => ['V', 'a']
  | .binary .. => ['B', 'i']
  | .unary .. => ['U', 'n']
  | .missing => []

@[simp] theorem take_header (t : Tree) : t.header.toList.take 2 = t.initials := by
  cases t <;> simp [header, initials]

theorem valueText_injective {v v' : Value} {p p' : Position} (h : (literal v p).OnLine)
    (h' : (literal v' p').OnLine) (heq : valueText v = valueText v') : v = v' := by
  have hquote (t : Text) : '"' ∈ (valueText (.text t)).toList := by simp [valueText]
  have hword (b : Bool) :
      'e' ∈ (valueText (.bool b)).toList ∧ '"' ∉ (valueText (.bool b)).toList := by
    cases b <;> decide
  have hint {c : Char} (hdigit : c.isDigit = false) (hminus : c ≠ '-') (n : Int) :
      c ∉ (valueText (.int n)).toList := notMem_repr hdigit hminus n
  cases v with
  | int n =>
    cases v' with
    | int n' => rw [Int.repr_injective heq]
    | bool b => exact absurd (heq ▸ (hword b).1) (hint (by decide) (by decide) n)
    | text t => exact absurd (heq ▸ hquote t) (hint (by decide) (by decide) n)
  | bool b =>
    cases v' with
    | int n => exact absurd (heq ▸ (hword b).1) (hint (by decide) (by decide) n)
    | bool b' => revert heq; cases b <;> cases b' <;> decide
    | text t => exact absurd (heq ▸ hquote t) (hword b).2
  | text t =>
    cases v' with
    | int n => exact absurd (heq ▸ hquote t) (hint (by decide) (by decide) n)
    | bool b => exact absurd (heq ▸ hquote t) (hword b).2
    | text t' =>
      obtain ⟨s, rfl, -⟩ := h
      obtain ⟨s', rfl, -⟩ := h'
      have hinner : toString (Text.ofString s) = toString (Text.ofString s') :=
        (String.append_right_inj _).1 ((String.append_left_inj _).1 heq)
      rw [Text.toString_ofString, Text.toString_ofString] at hinner
      rw [hinner]

theorem coordinates_of_header {x y x' y' : Int} {p p' : Position}
    (h : (spawn x y p).header = (spawn x' y' p').header) : x = x' ∧ y = y' := by
  have hcomma : ∀ n : Int, ',' ∉ n.repr.toList := notMem_repr (by decide) (by decide)
  have hchars : x.repr.toList ++ ',' :: (" y=".toList ++ (y.repr.toList ++ [')'])) =
      x'.repr.toList ++ ',' :: (" y=".toList ++ (y'.repr.toList ++ [')'])) := by
    simpa [header] using congrArg String.toList h
  have hrest : ',' ∉ " y=".toList ++ (y.repr.toList ++ [')']) := by simp [hcomma]
  obtain ⟨hx, -, hy⟩ := (List.append_cons_inj_of_notMem (hcomma x) hrest).1 hchars
  have hy := List.append_cancel_right (List.append_cancel_left hy)
  exact ⟨Int.repr_injective (String.toList_injective hx),
    Int.repr_injective (String.toList_injective hy)⟩

theorem LikeAll.head {Q : Position → Position → Prop} {t t' : Tree} {ts ts' : List Tree}
    (h : LikeAll Q (t :: ts) (t' :: ts')) : Like Q t t' := by
  cases h with
  | cons first _ => exact first

theorem LikeAll.tail {Q : Position → Position → Prop} {t t' : Tree} {ts ts' : List Tree}
    (h : LikeAll Q (t :: ts) (t' :: ts')) : LikeAll Q ts ts' := by
  cases h with
  | cons _ others => exact others

/-- Two nodes of one sort with the same names, so that only their children may differ. Of these
there are equally many, or a line closes them. -/
structure Twins (t t' : Tree) : Prop where
  like : LikeAll (fun _ _ => True) t.children t'.children → Like (fun _ _ => True) t t'
  footer : ∀ depth, t.footer depth = t'.footer depth
  count :
    t.children.length = t'.children.length ∨ ∀ depth, t.footer depth = [indentation depth ++ ")"]

theorem twins_of_header {t t' : Tree} (ht : t.OnLine) (ht' : t'.OnLine) (h : t.header = t'.header) :
    Twins t t' := by
  have hinitials : t.initials = t'.initials := by rw [← take_header, ← take_header, h]
  have hinner {name name' front back : String}
      (h : front ++ name ++ back = front ++ name' ++ back) : name = name' :=
    (String.append_right_inj _).1 ((String.append_left_inj _).1 h)
  cases t with
  | program | missing => exact ht.elim
  | spawn x y p =>
    cases t' with
    | spawn x' y' p' =>
      obtain ⟨rfl, rfl⟩ := coordinates_of_header h
      exact ⟨fun _ => .spawn trivial, fun _ => rfl, Or.inl rfl⟩
    | _ => simp [initials] at hinitials
  | assign name expr p =>
    cases t' with
    | assign name' expr' p' =>
      obtain rfl := hinner h
      exact ⟨fun inner => .assign inner.head trivial, fun _ => rfl, Or.inl rfl⟩
    | _ => simp [initials] at hinitials
  | label name p =>
    cases t' with
    | label name' p' =>
      obtain rfl := (String.append_right_inj _).1 h
      exact ⟨fun _ => .label trivial, fun _ => rfl, Or.inl rfl⟩
    | _ => simp [initials] at hinitials
  | goto target condition p =>
    cases t' with
    | goto target' condition' p' =>
      obtain rfl := hinner h
      exact ⟨fun inner => .goto inner.head trivial, fun _ => rfl, Or.inl rfl⟩
    | _ => simp [initials] at hinitials
  | call name args p =>
    cases t' with
    | call name' args' p' =>
      obtain rfl := hinner h
      exact ⟨fun inner => .call inner trivial, fun _ => rfl, Or.inr fun _ => rfl⟩
    | _ => simp [initials] at hinitials
  | literal value p =>
    cases t' with
    | literal value' p' =>
      obtain rfl := valueText_injective ht ht' ((String.append_right_inj _).1 h)
      exact ⟨fun _ => .literal trivial, fun _ => rfl, Or.inl rfl⟩
    | _ => simp [initials] at hinitials
  | «variable» name p =>
    cases t' with
    | «variable» name' p' =>
      obtain rfl := (String.append_right_inj _).1 h
      exact ⟨fun _ => .variable trivial, fun _ => rfl, Or.inl rfl⟩
    | _ => simp [initials] at hinitials
  | binary left op right p =>
    cases t' with
    | binary left' op' right' p' =>
      obtain rfl := hinner h
      exact ⟨fun inner => .binary inner.head inner.tail.head trivial, fun _ => rfl, Or.inl rfl⟩
    | _ => simp [initials] at hinitials
  | unary op operand p =>
    cases t' with
    | unary op' operand' p' =>
      obtain rfl := hinner h
      exact ⟨fun inner => .unary inner.head trivial, fun _ => rfl, Or.inl rfl⟩
    | _ => simp [initials] at hinitials

/-! ### Reading lines in one way -/

/-- Lines behind the children of a node: none, or first of all one that closes the node. -/
def Closed (ls : List String) : Prop := ∀ l ∈ ls.head?, ∃ depth, l = indentation depth ++ ")"

theorem header_ne_closing {t : Tree} (h : t.OnLine) (depth depth' : Int) :
    indentation depth ++ t.header ≠ indentation depth' ++ ")" := by
  have hblank (depth : Int) (s : String) :
      (indentation depth ++ s).toList.dropWhile (· = ' ') = s.toList.dropWhile (· = ' ') := by
    rw [String.toList_append, List.dropWhile_append_of_pos]
    intro c hc
    rw [indentation, String.toList_ofList] at hc
    exact decide_eq_true (List.eq_of_mem_replicate hc)
  have hfirst : ∃ c, t.initials.head? = some c ∧ c ≠ ' ' ∧ c ≠ ')' := by
    cases t with
    | program | missing => exact h.elim
    | _ => exact ⟨_, rfl, by decide, by decide⟩
  obtain ⟨c, hinitial, hspace, hclose⟩ := hfirst
  obtain ⟨cs, hheader⟩ : ∃ cs, t.header.toList = c :: cs := by
    rw [← take_header, List.head?_take, if_neg (by decide)] at hinitial
    exact List.head?_eq_some_iff.1 hinitial
  intro heq
  have hdrop := congrArg (fun s => s.toList.dropWhile (· = ' ')) heq
  simp only [hblank, hheader, List.dropWhile_cons, hspace] at hdrop
  exact hclose (List.cons.inj hdrop).1

section

variable {depth : Int} {t : Tree} {ts ts' : List Tree} {ls ls' r r' : List String}

/-- The lines of a tree can be read off in front of any others. -/
def Determined (t : Tree) : Prop :=
  ∀ {depth : Int} {t' : Tree} {ls ls' r r' : List String}, t'.Tidy → outlineLines depth t = .ok ls →
    outlineLines depth t' = .ok ls' → ls ++ r = ls' ++ r' → Like (fun _ _ => True) t t' ∧ r = r'

theorem Closed.ne_append (hr : Closed r) (h : t.OnLine) (hls : outlineLines depth t = .ok ls)
    (ls' : List String) : r ≠ ls ++ ls' := by
  obtain ⟨inner, -, rfl⟩ := (outlineLines_eq_ok_iff h.ne_missing).1 hls
  rintro rfl
  obtain ⟨depth', hclosing⟩ := hr _ rfl
  exact header_ne_closing h depth depth' hclosing

theorem Tidy.onLine (h : t.Tidy) : t.OnLine := by
  cases h with
  | node line => exact line

/-- The lines of trees can be read off too, if it is known how many trees they are or a line closes
them. -/
theorem likeAll_of_lines (hts : ∀ a ∈ ts, Determined a) (hts' : ∀ a ∈ ts', Tidy a)
    (htidy : ∀ a ∈ ts, Tidy a) (hend : ts.length = ts'.length ∨ Closed r ∧ Closed r')
    (hls : outlineAll depth ts = .ok ls) (hls' : outlineAll depth ts' = .ok ls')
    (h : ls ++ r = ls' ++ r') : LikeAll (fun _ _ => True) ts ts' ∧ r = r' := by
  induction ts generalizing ts' ls ls' with
  | nil =>
    rw [outlineAll_nil] at hls
    cases hls
    cases ts' with
    | nil =>
      rw [outlineAll_nil] at hls'
      cases hls'
      exact ⟨.nil, h⟩
    | cons t' ts' =>
      obtain ⟨first, others, hfirst, -, rfl⟩ := outlineAll_cons_eq_ok_iff.1 hls'
      rcases hend with hlength | ⟨hclosed, -⟩
      · cases hlength
      · rw [List.append_assoc] at h
        exact absurd h (hclosed.ne_append (hts' t' List.mem_cons_self).onLine hfirst _)
  | cons t ts ih =>
    obtain ⟨first, others, hfirst, hothers, rfl⟩ := outlineAll_cons_eq_ok_iff.1 hls
    cases ts' with
    | nil =>
      rw [outlineAll_nil] at hls'
      cases hls'
      rcases hend with hlength | ⟨-, hclosed⟩
      · cases hlength
      · rw [List.append_assoc] at h
        exact absurd h.symm (hclosed.ne_append (htidy t List.mem_cons_self).onLine hfirst _)
    | cons t' ts' =>
      obtain ⟨first', others', hfirst', hothers', rfl⟩ := outlineAll_cons_eq_ok_iff.1 hls'
      obtain ⟨hdetermined, hmore⟩ := List.forall_mem_cons.1 hts
      obtain ⟨htidy', hmore'⟩ := List.forall_mem_cons.1 hts'
      rw [List.append_assoc, List.append_assoc] at h
      obtain ⟨hlike, hrest⟩ := hdetermined htidy' hfirst hfirst' h
      have hend' : ts.length = ts'.length ∨ Closed r ∧ Closed r' := hend.imp_left Nat.succ.inj
      obtain ⟨hlikes, hr⟩ :=
        ih hmore hmore' (List.forall_mem_cons.1 htidy).2 hend' hothers hothers' hrest
      exact ⟨.cons hlike hlikes, hr⟩

/-- By induction on the tree: its line tells all but its children, and how to read their lines. -/
theorem Tidy.determined (h : t.Tidy) : Determined t := by
  induction h with
  | @node t line inner ih =>
    intro depth t' ls ls' r r' ht' hls hls' heq
    cases ht' with
    | node line' inner' =>
      obtain ⟨lines, hlines, rfl⟩ := (outlineLines_eq_ok_iff line.ne_missing).1 hls
      obtain ⟨lines', hlines', rfl⟩ := (outlineLines_eq_ok_iff line'.ne_missing).1 hls'
      rw [List.cons_append, List.cons_append] at heq
      obtain ⟨hheader, hrest⟩ := List.cons.inj heq
      have htwins := twins_of_header line line' ((String.append_right_inj _).1 hheader)
      rw [List.append_assoc, List.append_assoc, ← htwins.footer] at hrest
      have hend : t.children.length = t'.children.length ∨
          Closed (t.footer depth ++ r) ∧ Closed (t.footer depth ++ r') := by
        refine htwins.count.imp_right fun hfooter => ?_
        have hclosed (s : List String) : Closed (t.footer depth ++ s) := by
          rw [hfooter]
          rintro l ⟨⟩
          exact ⟨depth, rfl⟩
        exact ⟨hclosed r, hclosed r'⟩
      obtain ⟨hlike, hr⟩ := likeAll_of_lines ih inner' inner hend hlines hlines' hrest
      exact ⟨htwins.like hlike, List.append_cancel_left hr⟩

end

/-! ### The text of an outline -/

theorem newline_notMem_indented {s : String} (h : '\n' ∉ s.toList) (depth : Int) :
    '\n' ∉ (indentation depth ++ s).toList := by
  rw [indentation, String.toList_append, String.toList_ofList, List.mem_append, not_or]
  refine ⟨fun hmem => ?_, h⟩
  cases List.eq_of_mem_replicate hmem

def Unbroken (ls : List String) : Prop := ∀ l ∈ ls, '\n' ∉ l.toList

theorem unbroken_footer (depth : Int) (t : Tree) : Unbroken (t.footer depth) := by
  cases t with
  | call => exact List.forall_mem_singleton.2 (newline_notMem_indented (by decide) depth)
  | _ => exact List.forall_mem_nil _

section

variable {depth : Int} {t t' : Tree} {ts ts' : List Tree}

theorem exists_outlineAll (h : ∀ a ∈ ts, ∃ ls, outlineLines depth a = .ok ls ∧ Unbroken ls) :
    ∃ ls, outlineAll depth ts = .ok ls ∧ Unbroken ls := by
  induction ts with
  | nil => exact ⟨[], outlineAll_nil depth, List.forall_mem_nil _⟩
  | cons t ts ih =>
    obtain ⟨⟨first, hfirst, hunbroken⟩, hmore⟩ := List.forall_mem_cons.1 h
    obtain ⟨others, hothers, hunbroken'⟩ := ih hmore
    exact ⟨_, outlineAll_cons_eq_ok_iff.2 ⟨first, others, hfirst, hothers, rfl⟩,
      List.forall_mem_append.2 ⟨hunbroken, hunbroken'⟩⟩

theorem Tidy.exists_outlineLines (h : t.Tidy) (depth : Int) :
    ∃ ls, outlineLines depth t = .ok ls ∧ Unbroken ls := by
  induction h generalizing depth with
  | @node t line _ ih =>
    obtain ⟨inner, hinner, hunbroken⟩ := exists_outlineAll fun a ha => ih a ha (depth + 1)
    refine ⟨_, (outlineLines_eq_ok_iff line.ne_missing).2 ⟨inner, hinner, rfl⟩, ?_⟩
    have hheader := newline_notMem_indented (newline_notMem_header line) depth
    exact List.forall_mem_cons.2
      ⟨hheader, List.forall_mem_append.2 ⟨hunbroken, unbroken_footer depth t⟩⟩

theorem exists_outline_program (h : ∀ s ∈ ts, Tidy s) (depth : Int) (p : Position) :
    ∃ ls, outlineAll (depth + 1) ts = .ok ls ∧ Unbroken ls ∧
      outline depth (.program ts p) =
        .ok ("\n".intercalate ((indentation depth ++ "Program:") :: ls)) := by
  obtain ⟨ls, hls, hunbroken⟩ :=
    exists_outlineAll fun s hs => (h s hs).exists_outlineLines (depth + 1)
  refine ⟨ls, hls, hunbroken, ?_⟩
  rw [outline, outlineLines, hls]
  rfl

theorem eq_of_intercalate_newline {ls ls' : List String} (hls : Unbroken ls) (hls' : Unbroken ls')
    (hne : ls ≠ []) (hne' : ls' ≠ []) (h : "\n".intercalate ls = "\n".intercalate ls') :
    ls = ls' := by
  have hsplit {ls : List String} (hls : Unbroken ls) (hne : ls ≠ []) :
      ("\n".intercalate ls).toList.splitOn '\n' = ls.map String.toList := by
    rw [String.toList_intercalate]
    exact List.splitOn_intercalate '\n' (List.forall_mem_map.2 hls) (mt List.map_eq_nil_iff.1 hne)
  have hmap : ls.map String.toList = ls'.map String.toList := by
    rw [← hsplit hls hne, h, hsplit hls' hne']
  exact (List.map_inj_right fun _ _ => String.toList_injective).1 hmap

mutual

/-- Places do not appear in an outline. -/
theorem Like.outlineLines_eq {Q : Position → Position → Prop} :
    ∀ {t t' : Tree} {depth : Int}, Like Q t t' → outlineLines depth t = outlineLines depth t'
  | _, _, _, .spawn _ | _, _, _, .label _ | _, _, _, .literal _ | _, _, _, .variable _ => by
    simp only [outlineLines]
  | _, _, _, .assign value _ => by simp only [outlineLines, value.outlineLines_eq]
  | _, _, _, .goto decision _ => by simp only [outlineLines, decision.outlineLines_eq]
  | _, _, _, .call arguments _ => by simp only [outlineLines, arguments.outlineAll_eq]
  | _, _, _, .binary first second _ =>
    by simp only [outlineLines, first.outlineLines_eq, second.outlineLines_eq]
  | _, _, _, .unary inner _ => by simp only [outlineLines, inner.outlineLines_eq]

theorem LikeAll.outlineAll_eq {Q : Position → Position → Prop} :
    ∀ {ts ts' : List Tree} {depth : Int}, LikeAll Q ts ts' →
      outlineAll depth ts = outlineAll depth ts'
  | _, _, _, .nil => rfl
  | _, _, _, .cons first others =>
    by simp only [outlineAll, first.outlineLines_eq, others.outlineAll_eq]

end

/-- Programs have the same outline if and only if they differ in places alone. -/
theorem outline_program_eq_iff (h : ∀ s ∈ ts, Tidy s) (h' : ∀ s ∈ ts', Tidy s) (depth : Int)
    (p p' : Position) : outline depth (.program ts p) = outline depth (.program ts' p') ↔
      LikeAll (fun _ _ => True) ts ts' := by
  obtain ⟨ls, hls, hunbroken, houtline⟩ := exists_outline_program h depth p
  obtain ⟨ls', hls', hunbroken', houtline'⟩ := exists_outline_program h' depth p'
  rw [houtline, houtline']
  constructor
  · intro heq
    have htitle : '\n' ∉ (indentation depth ++ "Program:").toList :=
      newline_notMem_indented (by decide) depth
    have hlines := eq_of_intercalate_newline (List.forall_mem_cons.2 ⟨htitle, hunbroken⟩)
      (List.forall_mem_cons.2 ⟨htitle, hunbroken'⟩) (List.cons_ne_nil _ _) (List.cons_ne_nil _ _)
      (Except.ok.inj heq)
    have hsame : ls ++ [] = ls' ++ [] := congrArg (· ++ []) (List.cons.inj hlines).2
    have hclosed : Closed [] := nofun
    exact (likeAll_of_lines (fun s hs => (h s hs).determined) h' h (Or.inr ⟨hclosed, hclosed⟩) hls
      hls' hsame).1
  · intro hlike
    rw [Except.ok.inj (hls.symm.trans (hlike.outlineAll_eq.trans hls'))]

end

end Tree

/-! ### Programs that have been compiled -/

namespace Token

/-- A token without a newline in its lexeme, unless it is one. -/
def OnLine (t : Token) : Prop := t.kind ≠ .newline → '\n' ∉ t.lexeme.toList

theorem OnLine.notMem {t : Token} {kind : Kind} (h : t.OnLine) (ht : t.kind = kind)
    (hkind : kind ≠ .newline) : '\n' ∉ t.lexeme.toList := h (ht.symm ▸ hkind)

theorem Scans.onLine {cs : List Char} {p : Position} {tokens : List Token} (h : Scans cs p tokens) :
    ∀ t ∈ tokens, t.OnLine := by
  induction h with
  | nil => exact List.forall_mem_singleton.2 fun _ => List.not_mem_nil
  | @token rule text rest kind p tokens described _ classified _ ih =>
    refine List.forall_mem_cons.2 ⟨fun hkind => ?_, ih⟩
    have hrule : rule ≠ .newline := by
      rintro rfl
      exact hkind (makes_of_classify classified)
    rw [String.toList_ofList]
    exact described.newline_notMem hrule
  | skip _ _ ih => exact ih

end Token

namespace Grammar

open Brushwork.Tree (Level Tidy)

theorem Joins.ne_newline {kind : Token.Kind} {level left right : Level}
    (h : Joins kind level left right) : kind ≠ .newline := by
  rintro rfl
  cases h

theorem newline_notMem_unquote {lexeme : String} (h : '\n' ∉ lexeme.toList) :
    '\n' ∉ (Tree.unquote lexeme).toList := by
  rw [Tree.unquote, String.toList_ofList]
  exact fun hmem => h (List.mem_of_mem_drop (List.dropLast_subset _ hmem))

mutual

theorem Expression.tidy : ∀ {level : Level} {us : List Token} {a : Tree}, Expression level us a →
    (∀ t ∈ us, t.OnLine) → a.Tidy
  | _, _, _, .join operator first second, h => by
    obtain ⟨hfirst, hmore⟩ := List.forall_mem_append.1 h
    obtain ⟨hop, hsecond⟩ := List.forall_mem_cons.1 hmore
    exact .node (hop operator.ne_newline) (List.forall_mem_cons.2
      ⟨first.tidy hfirst, List.forall_mem_singleton.2 (second.tidy hsecond)⟩)
  | _, _, _, .loosen _ expression, h => expression.tidy h
  | _, _, _, .sign kind operand, h => by
    obtain ⟨hop, hoperand⟩ := List.forall_mem_cons.1 h
    exact .node (hop (by rcases kind with h | h <;> rw [h] <;> decide))
      (List.forall_mem_singleton.2 (operand.tidy hoperand))
  | _, _, _, .paren _ inner _, h =>
    inner.tidy (List.forall_mem_append.1 (List.forall_mem_cons.1 h).2).1
  | _, _, _, .boolean _, _ => .node trivial (List.forall_mem_nil _)
  | _, _, _, .number _ _, _ => .node trivial (List.forall_mem_nil _)
  | _, _, _, .string kind, h => by
    have hlexeme := (List.forall_mem_singleton.1 h).notMem kind (by decide)
    exact .node ⟨_, rfl, newline_notMem_unquote hlexeme⟩ (List.forall_mem_nil _)
  | _, _, _, .variable kind, h =>
    .node ((List.forall_mem_singleton.1 h).notMem kind (by decide)) (List.forall_mem_nil _)
  | _, _, _, .call kind arguments, h => by
    obtain ⟨hname, harguments⟩ := List.forall_mem_cons.1 h
    exact .node (hname.notMem kind (by simp)) (arguments.tidy harguments)

theorem Arguments.tidy : ∀ {us : List Token} {args : List Tree}, Arguments us args →
    (∀ t ∈ us, t.OnLine) → ∀ a ∈ args, a.Tidy
  | _, _, .none _ _, _ => List.forall_mem_nil _
  | _, _, .some _ items _, h => items.tidy (List.forall_mem_append.1 (List.forall_mem_cons.1 h).2).1

theorem Items.tidy : ∀ {us : List Token} {args : List Tree}, Items us args →
    (∀ t ∈ us, t.OnLine) → ∀ a ∈ args, a.Tidy
  | _, _, .one first, h => List.forall_mem_singleton.2 (first.tidy h)
  | _, _, .more first _ others, h => by
    obtain ⟨hfirst, hmore⟩ := List.forall_mem_append.1 h
    exact List.forall_mem_cons.2 ⟨first.tidy hfirst, others.tidy (List.forall_mem_cons.1 hmore).2⟩

end

theorem Statement.tidy {us : List Token} {s : Tree} (h : Statement us s)
    (hus : ∀ t ∈ us, t.OnLine) : s.Tidy := by
  cases h with
  | spawn => exact .node trivial (List.forall_mem_nil _)
  | call kind arguments =>
    obtain ⟨hname, harguments⟩ := List.forall_mem_cons.1 hus
    exact .node (hname.notMem kind (by simp)) (arguments.tidy harguments)
  | assign kind _ value =>
    obtain ⟨hname, hmore⟩ := List.forall_mem_cons.1 hus
    exact .node (hname.notMem kind (by decide))
      (List.forall_mem_singleton.2 (value.tidy (List.forall_mem_cons.1 hmore).2))
  | label kind =>
    exact .node ((List.forall_mem_singleton.1 hus).notMem kind (by decide)) (List.forall_mem_nil _)
  | goto _ _ target _ _ condition _ =>
    simp only [List.forall_mem_cons, List.forall_mem_append] at hus
    obtain ⟨-, -, hname, -, -, hcondition, -⟩ := hus
    exact .node (hname.notMem target (by decide))
      (List.forall_mem_singleton.2 (condition.tidy hcondition))

theorem Statements.tidy {us : List Token} {ss : List Tree} (h : Statements us ss)
    (hus : ∀ t ∈ us, t.OnLine) : ∀ s ∈ ss, s.Tidy := by
  induction h with
  | last statement _ =>
    exact List.forall_mem_singleton.2 (statement.tidy (List.forall_mem_append.1 hus).1)
  | more statement _ _ _ ih =>
    simp only [List.forall_mem_cons, List.forall_mem_append] at hus
    obtain ⟨hfirst, -, -, hothers⟩ := hus
    exact List.forall_mem_cons.2 ⟨statement.tidy hfirst, ih hothers⟩

theorem Derives.tidy {us : List Token} {program : Program} (h : Derives us program)
    (hus : ∀ t ∈ us, t.OnLine) : ∀ s ∈ program.statements, s.Tidy := by
  cases h with
  | program _ statements => exact statements.tidy (List.forall_mem_append.1 hus).2

end Grammar

namespace Source

variable {source source' : String} {program program' : Program}

theorem tidy_of_compile (h : compile source = .ok program) : ∀ s ∈ program.statements, s.Tidy := by
  obtain ⟨tokens, htokens, hparse⟩ := compile_eq_ok_iff.1 h
  have hscans := Token.scan_eq_ok_iff.1 htokens
  have hfollows := Tree.follows_parse tokens fun t ht => hscans.plain t (List.takeWhile_subset _ ht)
  rw [hparse] at hfollows
  obtain ⟨us, hus, hderives, -⟩ := hfollows
  obtain rfl : Tree.bodyOf tokens = us := hus.trans (List.append_nil us)
  exact hderives.tidy fun t ht => hscans.onLine t (List.takeWhile_subset _ ht)

/-- A program that has been compiled has an outline at every depth, and its outline tells all of it
but the places. -/
theorem outline_tells_program (h : compile source = .ok program)
    (h' : compile source' = .ok program') (depth : Int) :
    (∃ text, program.toTree.outline depth = .ok text) ∧
    (program.toTree.outline depth = program'.toTree.outline depth ↔
      Tree.LikeAll (fun _ _ => True) program.statements program'.statements) := by
  have htidy := tidy_of_compile h
  obtain ⟨ls, -, -, houtline⟩ := Tree.exists_outline_program htidy depth program.position
  exact ⟨⟨_, houtline⟩, Tree.outline_program_eq_iff htidy (tidy_of_compile h') depth _ _⟩

/-- Two texts of one program, with the outline that they have without any blanks before its
lines. -/
theorem flat_outline_tells_program :
    let dense := "Spawn(0,-1)\nGoTo[a](IsBrushColor(\"b: )\")&&-x<07)"
    let spread := "\n Spawn( 0, -1 )\r\n\nGoTo [a] ((IsBrushColor(\"b: )\") && (-x) < 7))"
    let flat :=
      "Program:\nSpawn(x=0, y=-1)\nGoTo [a] if:\nBinary (&&)\nCall IsBrushColor(\nLiteral: \"b: )\"\n)\n" ++
      "Binary (<)\nUnary (-)\nVariable: x\nLiteral: 7"
    ∃ program program', compile dense = .ok program ∧ compile spread = .ok program' ∧
      program.toTree.outline (-6) = .ok flat ∧ program'.toTree.outline (-6) = .ok flat ∧
      Tree.LikeAll (fun _ _ => True) program.statements program'.statements := by
  intro dense spread flat
  have hok {source : String} (h : (compile source).toOption.bind (fun program =>
      (program.toTree.outline (-6)).toOption) = some flat) :
      ∃ program, compile source = .ok program ∧ program.toTree.outline (-6) = .ok flat := by
    cases hprogram : compile source with
    | error e =>
      rw [hprogram] at h
      cases h
    | ok program =>
      rw [hprogram] at h
      replace h : (program.toTree.outline (-6)).toOption = some flat := h
      cases houtline : program.toTree.outline (-6) with
      | error e =>
        rw [houtline] at h
        cases h
      | ok text =>
        rw [houtline] at h
        exact ⟨program, rfl, houtline.trans (congrArg Except.ok (Option.some.inj h))⟩
  obtain ⟨program, hprogram, houtline⟩ := @hok dense (by decide +kernel)
  obtain ⟨program', hprogram', houtline'⟩ := @hok spread (by decide +kernel)
  exact ⟨program, program', hprogram, hprogram', houtline, houtline',
    (outline_tells_program hprogram hprogram' (-6)).2.1 (houtline.trans houtline'.symm)⟩

end Source

end Brushwork
