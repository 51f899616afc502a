import Brushwork.Spelling
import Mathlib.Order.Bounds.Basic
import Mathlib.Order.MinMax

/-!
# Edits and suggestions

Inserting, deleting or substituting one character is an edit. The rows of distances hold the least
numbers of edits: an entry is made of the three before it, and each of them leaves one last edit or
none to do. No shorter way exists, since an edit moves a word by one at most, seen from any other
word.

Of the keywords that are nearest to a word, the first one is suggested, if it is near enough.
-/

namespace Brushwork.Spelling

open Token (Kind)

inductive Edit : List Char → List Char → Prop
  | insert (front : List Char) (c : Char) (back : List Char) :
    Edit (front ++ back) (front ++ c :: back)
  | delete (front : List Char) (c : Char) (back : List Char) :
    Edit (front ++ c :: back) (front ++ back)
  | substitute (front : List Char) (c d : Char) (back : List Char) :
    Edit (front ++ c :: back) (front ++ d :: back)

inductive Edits : Nat → List Char → List Char → Prop
  | none {s : List Char} : Edits 0 s s
  | next {n : Nat} {s t u : List Char} (first : Edit s t) (others : Edits n t u) : Edits (n + 1) s u

section

variable {s t u : List Char} {n m : Nat}

theorem Edit.symm (h : Edit s t) : Edit t s := by
  cases h with
  | insert front c back => exact .delete front c back
  | delete front c back => exact .insert front c back
  | substitute front c d back => exact .substitute front d c back

theorem Edit.cons (x : Char) (h : Edit s t) : Edit (x :: s) (x :: t) := by
  cases h with
  | insert front c back => exact .insert (x :: front) c back
  | delete front c back => exact .delete (x :: front) c back
  | substitute front c d back => exact .substitute (x :: front) c d back

theorem Edit.reverse (h : Edit s t) : Edit s.reverse t.reverse := by
  cases h with
  | insert front c back =>
    simpa using Edit.insert back.reverse c front.reverse
  | delete front c back =>
    simpa using Edit.delete back.reverse c front.reverse
  | substitute front c d back =>
    simpa using Edit.substitute back.reverse c d front.reverse

namespace Edits

theorem one (h : Edit s t) : Edits 1 s t := .next h .none

theorem trans (h : Edits n s t) (h' : Edits m t u) : Edits (n + m) s u := by
  induction h with
  | none => rwa [Nat.zero_add]
  | next first _ ih =>
    rw [Nat.add_right_comm]
    exact .next first (ih h')

theorem symm (h : Edits n s t) : Edits n t s := by
  induction h with
  | none => exact .none
  | next first _ ih => exact ih.trans (one first.symm)

theorem cons (x : Char) (h : Edits n s t) : Edits n (x :: s) (x :: t) := by
  induction h with
  | none => exact .none
  | next first _ ih => exact .next (first.cons x) ih

theorem reverse (h : Edits n s t) : Edits n s.reverse t.reverse := by
  induction h with
  | none => exact .none
  | next first _ ih => exact .next first.reverse ih

theorem delete_first (c : Char) (h : Edits n s t) : Edits (n + 1) (c :: s) t :=
  .next (.delete [] c s) h

theorem insert_first (d : Char) (h : Edits n s t) : Edits (n + 1) s (d :: t) :=
  h.trans (one (.insert [] d t))

theorem from_nil (t : List Char) : Edits t.length [] t := by
  induction t with
  | nil => exact .none
  | cons d t ih => exact ih.insert_first d

end Edits

end

/-! ### The least number of edits -/

/-- The least number of edits, told from the first characters on. -/
def cost : List Char → List Char → Nat
  | [], t => t.length
  | c :: s, [] => (c :: s).length
  | c :: s, d :: t =>
    min (min (cost s (d :: t) + 1) (cost (c :: s) t + 1)) (cost s t + if c = d then 0 else 1)
termination_by s t => s.length + t.length
decreasing_by
  all_goals
    simp only [List.length_cons]
    omega

section

variable {s s' t : List Char} {n : Nat}

@[simp] theorem cost_nil_left (t : List Char) : cost [] t = t.length := by rw [cost]

@[simp] theorem cost_nil_right (s : List Char) : cost s [] = s.length := by
  cases s with
  | nil => rw [cost]
  | cons c s => rw [cost]

theorem cost_cons_cons (c d : Char) (s t : List Char) :
    cost (c :: s) (d :: t) =
      min (min (cost s (d :: t) + 1) (cost (c :: s) t + 1))
      (cost s t + if c = d then 0 else 1) := by
  rw [cost]

theorem edits_cost (s t : List Char) : Edits (cost s t) s t := by
  fun_induction cost s t with
  | case1 t => exact .from_nil t
  | case2 c s => exact (Edits.from_nil (c :: s)).symm
  | case3 c s d t ihDelete ihInsert ihKeep =>
    have hkeep : Edits (cost s t + if c = d then 0 else 1) (c :: s) (d :: t) := by
      split_ifs with hcd
      · rw [hcd]
        exact ihKeep.cons d
      · exact (ihKeep.cons c).trans (.one (.substitute [] c d t))
    rcases min_choice (min (cost s (d :: t) + 1) (cost (c :: s) t + 1))
      (cost s t + if c = d then 0 else 1) with h | h
    · rcases min_choice (cost s (d :: t) + 1) (cost (c :: s) t + 1) with h' | h'
      · rw [h, h']
        exact ihDelete.delete_first c
      · rw [h, h']
        exact ihInsert.insert_first d
    · rw [h]
      exact hkeep

@[simp] theorem cost_self (s : List Char) : cost s s = 0 := by
  induction s with
  | nil => exact cost_nil_left []
  | cons c s ih =>
    rw [cost_cons_cons, if_pos rfl, ih]
    exact Nat.min_zero _

theorem cost_cons_right_le (d : Char) (s t : List Char) : cost s (d :: t) ≤ cost s t + 1 := by
  cases s with
  | nil => rw [cost_nil_left, cost_nil_left, List.length_cons]
  | cons c s =>
    rw [cost_cons_cons]
    omega

/-- Seen from any word, one word is farther than the other by one edit at most. -/
def Near (s s' : List Char) : Prop := ∀ t, cost s t ≤ cost s' t + 1

theorem near_insert (c : Char) (s : List Char) : Near s (c :: s) := by
  intro t
  induction t with
  | nil =>
    rw [cost_nil_right, cost_nil_right, List.length_cons]
    omega
  | cons d t ih =>
    have hstep := cost_cons_right_le d s t
    rw [cost_cons_cons]
    omega

theorem near_delete (c : Char) (s : List Char) : Near (c :: s) s := by
  intro t
  cases t with
  | nil => rw [cost_nil_right, cost_nil_right, List.length_cons]
  | cons d t =>
    rw [cost_cons_cons]
    omega

theorem near_substitute (c d : Char) (s : List Char) : Near (c :: s) (d :: s) := by
  intro t
  induction t with
  | nil =>
    rw [cost_nil_right, cost_nil_right, List.length_cons, List.length_cons]
    omega
  | cons e t ih =>
    rw [cost_cons_cons, cost_cons_cons]
    split_ifs <;> omega

theorem Near.cons (x : Char) (h : Near s s') : Near (x :: s) (x :: s') := by
  intro t
  induction t with
  | nil =>
    have hlength := h []
    rw [cost_nil_right, cost_nil_right] at hlength ⊢
    rw [List.length_cons, List.length_cons]
    omega
  | cons d t ih =>
    have hwhole := h (d :: t)
    have hrest := h t
    rw [cost_cons_cons, cost_cons_cons]
    omega

theorem Near.append (front : List Char) (h : Near s s') : Near (front ++ s) (front ++ s') := by
  induction front with
  | nil => exact h
  | cons x front ih => exact ih.cons x

theorem Edit.near (h : Edit s s') : Near s s' := by
  cases h with
  | insert front c back => exact (near_insert c back).append front
  | delete front c back => exact (near_delete c back).append front
  | substitute front c d back => exact (near_substitute c d back).append front

/-- No row of edits is shorter: each of them brings the word nearer by one at most. -/
theorem cost_le_of_edits (h : Edits n s t) : cost s t ≤ n := by
  induction h with
  | @none s => exact Nat.le_of_eq (cost_self s)
  | @next n s t u first _ ih => exact Nat.le_trans (first.near u) (Nat.succ_le_succ ih)

end

/-! ### Rows of distances -/

/-- Costs from `r` to `u` and on to `u` with more and more of a text put before it. -/
def costs (r : List Char) : (u text : List Char) → List Nat
  | u, [] => [cost r u]
  | u, d :: text => cost r u :: costs r (d :: u) text

section

variable {s t : List Char}

theorem costs_eq_cons (r u text : List Char) :
    costs r u text = cost r u :: (costs r u text).tail := by
  cases text <;> rfl

/-- By induction on the rest of the text: every entry is made of the one above, the one to the left
and the one between these two. -/
theorem extendRow_costs (c : Char) (r u text : List Char) :
    extendRow c (cost r u) (cost (c :: r) u) text (costs r u text).tail =
      (costs (c :: r) u text).tail := by
  induction text generalizing u with
  | nil => rfl
  | cons d text ih =>
    have hentry :
        min (min (cost r (d :: u) + 1) (cost (c :: r) u + 1)) (cost r u + if c = d then 0 else 1) =
        cost (c :: r) (d :: u) := (cost_cons_cons c d r u).symm
    rw [costs, costs, List.tail_cons, List.tail_cons, costs_eq_cons r (d :: u),
      extendRow, hentry, ih, ← costs_eq_cons]

theorem nextRow_costs (text r : List Char) (c : Char) :
    nextRow text (costs r [] text) c = costs (c :: r) [] text := by
  have hfirst : cost r [] + 1 = cost (c :: r) [] := by
    rw [cost_nil_right, cost_nil_right, List.length_cons]
  rw [costs_eq_cons r, nextRow, hfirst, extendRow_costs, ← costs_eq_cons]

theorem costs_nil (u text : List Char) :
    costs [] u text = List.range' u.length (text.length + 1) := by
  induction text generalizing u with
  | nil =>
    rw [costs, cost_nil_left]
    rfl
  | cons d text ih =>
    rw [costs, cost_nil_left, ih]
    exact List.range'_succ.symm

theorem foldl_nextRow_costs (text r s : List Char) :
    s.foldl (nextRow text) (costs r [] text) = costs (s.reverse ++ r) [] text := by
  induction s generalizing r with
  | nil => rfl
  | cons c s ih =>
    rw [List.foldl_cons, nextRow_costs, ih, List.reverse_cons, List.append_assoc,
      List.singleton_append]

theorem getLastD_costs (r u text : List Char) (n : Nat) :
    (costs r u text).getLastD n = cost r (text.reverse ++ u) := by
  induction text generalizing u n with
  | nil => rfl
  | cons d text ih =>
    rw [costs, List.getLastD_cons, ih, List.reverse_cons, List.append_assoc, List.singleton_append]

/-- Rows go on at the ends of both words, costs at their starts. -/
theorem distance_eq_cost (s t : List Char) : distance s t = cost s.reverse t.reverse := by
  have hstart : List.range (t.length + 1) = costs [] [] t := by
    rw [costs_nil, List.range_eq_range']
    rfl
  rw [distance, lastRow, hstart, foldl_nextRow_costs, getLastD_costs, List.append_nil,
    List.append_nil]

theorem isLeast_distance (s t : List Char) : IsLeast {n | Edits n s t} (distance s t) := by
  rw [distance_eq_cost]
  constructor
  · have hedits := (edits_cost s.reverse t.reverse).reverse
    rwa [List.reverse_reverse, List.reverse_reverse] at hedits
  · intro n hn
    exact cost_le_of_edits hn.reverse

@[simp] theorem distance_eq_zero_iff : distance s t = 0 ↔ s = t := by
  constructor
  · intro h
    have hedits : Edits (distance s t) s t := (isLeast_distance s t).1
    rw [h] at hedits
    cases hedits
    rfl
  · rintro rfl
    rw [distance_eq_cost, cost_self]

theorem distance_comm (s t : List Char) : distance s t = distance t s := by
  have hle (s t : List Char) : distance s t ≤ distance t s :=
    (isLeast_distance s t).2 (isLeast_distance t s).1.symm
  exact Nat.le_antisymm (hle s t) (hle t s)

theorem distance_triangle (s t u : List Char) : distance s u ≤ distance s t + distance t u :=
  (isLeast_distance s u).2 ((isLeast_distance s t).1.trans (isLeast_distance t u).1)

end

/-! ### The first of the nearest keywords -/

def FirstNearest (word : List Char) (keyword : String) : Prop :=
  ∃ before kind after, Kind.keywords = before ++ (keyword, kind) :: after ∧
    (∀ e ∈ before, distance word keyword.toList < distance word e.1.toList) ∧
    ∀ e ∈ after, distance word keyword.toList ≤ distance word e.1.toList

section

variable {word : List Char} {keyword keyword' : String}

theorem FirstNearest.mem_keywords (h : FirstNearest word keyword) :
    ∃ kind, (keyword, kind) ∈ Kind.keywords := by
  obtain ⟨before, kind, after, hsplit, -⟩ := h
  exact ⟨kind, by rw [hsplit]; simp⟩

theorem FirstNearest.unique (h : FirstNearest word keyword) (h' : FirstNearest word keyword') :
    keyword = keyword' := by
  obtain ⟨before, kind, after, hsplit, hbefore, hafter⟩ := h
  obtain ⟨before', kind', after', hsplit', hbefore', hafter'⟩ := h'
  rcases List.append_eq_append_iff.1 (hsplit.symm.trans hsplit') with
    ⟨more, rfl, hmore⟩ | ⟨more, rfl, hmore⟩
  · cases more with
    | nil => exact (Prod.mk.inj (List.cons.inj hmore).1).1
    | cons e more =>
      obtain ⟨rfl, rfl⟩ := List.cons.inj hmore
      have hlt : distance word keyword'.toList < distance word keyword.toList :=
        hbefore' (keyword, kind) (by simp)
      exact absurd hlt (Nat.not_lt.2 (hafter (keyword', kind') (by simp)))
  · cases more with
    | nil => exact (Prod.mk.inj (List.cons.inj hmore).1).1.symm
    | cons e more =>
      obtain ⟨rfl, rfl⟩ := List.cons.inj hmore
      have hlt : distance word keyword.toList < distance word keyword'.toList :=
        hbefore (keyword', kind') (by simp)
      exact absurd hlt (Nat.not_lt.2 (hafter' (keyword, kind) (by simp)))

/-- Going through entries and keeping the best one so far ends with the first of the best, or with
what one had. -/
theorem foldl_closer (d : String → Int) (es : List (String × Kind)) (best : Option String × Int) :
    let last := es.foldl (fun best e => if d e.1 < best.2 then (some e.1, d e.1) else best) best
    last = best ∧ (∀ e ∈ es, best.2 ≤ d e.1) ∨
    ∃ before e after, es = before ++ e :: after ∧ last = (some e.1, d e.1) ∧ d e.1 < best.2 ∧
      (∀ x ∈ before, d e.1 < d x.1) ∧ ∀ x ∈ after, d e.1 ≤ d x.1 := by
  induction es generalizing best with
  | nil => exact Or.inl ⟨rfl, nofun⟩
  | cons first es ih =>
    rw [List.foldl_cons]
    by_cases hfirst : d first.1 < best.2
    · rw [if_pos hfirst]
      right
      rcases ih (some first.1, d first.1) with ⟨hlast, hes⟩ | ⟨before, e, after, rfl, hlast, hbest,
        hbefore, hafter⟩
      · exact ⟨[], first, es, rfl, hlast, hfirst, nofun, hes⟩
      · exact ⟨first :: before, e, after, rfl, hlast, Int.lt_trans hbest hfirst,
          List.forall_mem_cons.2 ⟨hbest, hbefore⟩, hafter⟩
    · rw [if_neg hfirst]
      rcases ih best with ⟨hlast, hes⟩ | ⟨before, e, after, rfl, hlast, hbest, hbefore, hafter⟩
      · exact Or.inl ⟨hlast, List.forall_mem_cons.2 ⟨Int.not_lt.1 hfirst, hes⟩⟩
      · exact Or.inr ⟨first :: before, e, after, rfl, hlast, hbest,
          List.forall_mem_cons.2 ⟨by omega, hbefore⟩, hafter⟩

/-- Nothing is suggested if all keywords are too far, else the first of the nearest. -/
theorem suggest_cases (word : List Char) (limit : Int) :
    suggest word limit = none ∧ (∀ e ∈ Kind.keywords, limit < distance word e.1.toList) ∨
    ∃ keyword, suggest word limit = some keyword ∧ FirstNearest word keyword ∧
      distance word keyword.toList ≤ limit := by
  rcases foldl_closer (fun keyword => distance word keyword.toList) Kind.keywords
    (none, limit + 1) with
    ⟨hlast, hall⟩ | ⟨before, ⟨keyword, kind⟩, after, hsplit, hlast, hlimit, hbefore, hafter⟩
  · exact Or.inl ⟨congrArg Prod.fst hlast, fun e he => by have := hall e he; omega⟩
  · refine Or.inr ⟨keyword, congrArg Prod.fst hlast, ⟨before, kind, after, hsplit, ?_, ?_⟩, ?_⟩
    · exact fun e he => Int.ofNat_lt.1 (hbefore e he)
    · exact fun e he => Int.ofNat_le.1 (hafter e he)
    · exact Int.lt_add_one_iff.1 hlimit

theorem suggest_eq_none_iff {limit : Int} :
    suggest word limit = none ↔ ∀ e ∈ Kind.keywords, limit < distance word e.1.toList := by
  rcases suggest_cases word limit with ⟨hnone, hfar⟩ | ⟨keyword, hsome, hfirst, hnear⟩
  · exact iff_of_true hnone hfar
  · obtain ⟨kind, hmem⟩ := hfirst.mem_keywords
    rw [hsome]
    exact iff_of_false nofun fun hfar => absurd (hfar _ hmem) (Int.not_lt.2 hnear)

theorem suggest_eq_some_iff {limit : Int} :
    suggest word limit = some keyword ↔ FirstNearest word keyword ∧
      distance word keyword.toList ≤ limit := by
  rcases suggest_cases word limit with ⟨hnone, hfar⟩ | ⟨keyword', hsome, hfirst, hnear⟩
  · rw [hnone]
    refine iff_of_false nofun ?_
    rintro ⟨hfirst, hnear⟩
    obtain ⟨kind, hmem⟩ := hfirst.mem_keywords
    exact absurd (hfar _ hmem) (Int.not_lt.2 hnear)
  · rw [hsome]
    constructor
    · intro h
      obtain rfl := Option.some.inj h
      exact ⟨hfirst, hnear⟩
    · rintro ⟨hfirst', -⟩
      rw [hfirst.unique hfirst']

end

/-- The distance of two words is the least number of edits from one to the other, hence a metric. A
keyword is suggested unless all of them are too far, and then it is the first of the nearest. -/
theorem nearest_keyword_is_suggested :
    (∀ s t, IsLeast {n | Edits n s t} (distance s t)) ∧
    (∀ s t, distance s t = 0 ↔ s = t) ∧ (∀ s t, distance s t = distance t s) ∧
    (∀ s t u, distance s u ≤ distance s t + distance t u) ∧
    ∀ (word : List Char) (limit : Int),
      (suggest word limit = none ↔ ∀ e ∈ Kind.keywords, limit < distance word e.1.toList) ∧
      ∀ keyword, suggest word limit = some keyword ↔
        FirstNearest word keyword ∧ distance word keyword.toList ≤ limit :=
  ⟨isLeast_distance, fun _ _ => distance_eq_zero_iff, distance_comm, distance_triangle,
    fun _ _ => ⟨suggest_eq_none_iff, fun _ => suggest_eq_some_iff⟩⟩

/-- A word as near to one keyword as to another. -/
theorem tied_keyword_is_suggested_first :
    let word := "GetActualZ".toList
    suggest word 1 = some "GetActualX" ∧ FirstNearest word "GetActualX" ∧
      distance word "GetActualX".toList = 1 ∧ distance word "GetActualY".toList = 1 ∧
      Edits 1 word "GetActualX".toList ∧ suggest word 0 = none ∧
      (0 : Int) < distance word "Fill".toList := by
  intro word
  obtain ⟨hleast, -, -, -, hsuggest⟩ := nearest_keyword_is_suggested
  have hsome : suggest word 1 = some "GetActualX" := by decide +kernel
  have hnone : suggest word 0 = none := by decide +kernel
  have hdistance : distance word "GetActualX".toList = 1 := by decide +kernel
  have hfirst : FirstNearest word "GetActualX" := (((hsuggest word 1).2 _).1 hsome).1
  have hedits : Edits (distance word "GetActualX".toList) word "GetActualX".toList := (hleast _ _).1
  rw [hdistance] at hedits
  have hfar := (hsuggest word 0).1.1 hnone ("Fill", .builtin .fill) (by decide)
  exact ⟨hsome, hfirst, hdistance, by decide +kernel, hedits, hnone, hfar⟩

end Brushwork.Spelling
