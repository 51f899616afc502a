import Brushwork.Tree.Parser

/-!
# Reading digits

A text of decimal digits has no blank, sign or underscore in it. It is read as the number that its
digits stand for, unless there are too many of them.
-/

namespace Brushwork

namespace Text

theorem digitValue?_of_isDigit {c : Char} (h : c.isDigit = true) :
    digitValue? c = some (c.toNat - '0'.toNat) := by
  obtain ⟨hlow, hhigh⟩ := Char.isDigit_iff_toNat.1 h
  have hzero : '0'.toNat = 0x30 := rfl
  have hnine : '9'.toNat = 0x39 := rfl
  have hzeros : digitZeros.toList = 0x30 :: digitZeros.toList.tail := rfl
  rw [digitValue?, ← Array.find?_toList, hzeros, List.find?_cons_of_pos]
  · rfl
  · simp only [Bool.and_eq_true, decide_eq_true_eq]
    omega

end Text

namespace Numeral

theorem isPadding_of_isDigit {c : Char} (h : c.isDigit = true) : isPadding c = false := by
  obtain ⟨hlow, hhigh⟩ := Char.isDigit_iff_toNat.1 h
  have hzero : '0'.toNat = 0x30 := rfl
  have hnine : '9'.toNat = 0x39 := rfl
  have hspace : c ≠ ' ' := by
    rintro rfl
    exact absurd h (by decide)
  rw [isPadding, if_pos (by omega)]
  simp only [hspace, decide_false, Bool.false_or, Bool.and_eq_false_iff, decide_eq_false_iff_not]
  omega

theorem ne_of_isDigit {c d : Char} (h : c.isDigit = true) (hd : d.isDigit = false) : c ≠ d := by
  rintro rfl
  rw [h] at hd
  cases hd

section

variable {cs : List Char}

theorem extend_digits (h : ∀ c ∈ cs, c.isDigit = true) (n : Nat) :
    extend n cs = some (Nat.ofDigitChars 10 cs n) := by
  induction cs generalizing n with
  | nil => rfl
  | cons c cs ih =>
    have hc : c.isDigit = true := h c List.mem_cons_self
    have hcs : ∀ c ∈ cs, c.isDigit = true := fun c hc => h c (List.mem_cons_of_mem _ hc)
    rw [extend, Text.digitValue?_of_isDigit hc, Nat.ofDigitChars_cons]
    · exact ih hcs _
    · intro d ds hunderscore
      exact absurd hunderscore (ne_of_isDigit hc rfl)

theorem countDigits_digits (h : ∀ c ∈ cs, c.isDigit = true) (n : Nat) :
    countDigits n false cs = some (n + cs.length) := by
  induction cs generalizing n with
  | nil => rfl
  | cons c cs ih =>
    have hc : c.isDigit = true := h c List.mem_cons_self
    have hcs : ∀ c ∈ cs, c.isDigit = true := fun c hc => h c (List.mem_cons_of_mem _ hc)
    rw [countDigits, Text.digitValue?_of_isDigit hc]
    · rw [if_pos Option.isSome_some, ih hcs, List.length_cons, Nat.add_right_comm, Nat.add_assoc]
    · exact ne_of_isDigit hc rfl

theorem dropWhile_digits (h : ∀ c ∈ cs, c.isDigit = true) : cs.dropWhile isPadding = cs := by
  cases cs with
  | nil => rfl
  | cons c cs =>
    rw [List.dropWhile_cons_of_neg]
    rw [isPadding_of_isDigit (h c List.mem_cons_self)]
    exact Bool.false_ne_true

theorem trim_digits (h : ∀ c ∈ cs, c.isDigit = true) : Text.trim isPadding cs = cs := by
  have hreverse : ∀ c ∈ cs.reverse, c.isDigit = true := fun c hc => h c (List.mem_reverse.1 hc)
  rw [Text.trim, dropWhile_digits h, dropWhile_digits hreverse, List.reverse_reverse]

theorem head?_digits (h : ∀ c ∈ cs, c.isDigit = true) {d : Char} (hd : d.isDigit = false) :
    cs.head? ≠ some d := by
  intro hc
  exact ne_of_isDigit (h d (List.mem_of_head? hc)) hd rfl

theorem excess?_digits (h : ∀ c ∈ cs, c.isDigit = true) :
    excess? cs = (some cs.length).filter fun n => mostDigits < n := by
  simp only [excess?, dropWhile_digits h]
  split
  · exact absurd rfl (head?_digits h (d := '-') rfl)
  · exact absurd rfl (head?_digits h (d := '+') rfl)
  · rw [if_neg (head?_digits h rfl), countDigits_digits h, Nat.zero_add]

theorem magnitude?_digits (hne : cs ≠ []) (h : ∀ c ∈ cs, c.isDigit = true) :
    magnitude? cs = some (Nat.ofDigitChars 10 cs 0) := by
  obtain ⟨c, cs, rfl⟩ := List.exists_cons_of_ne_nil hne
  have hcs : ∀ c ∈ cs, c.isDigit = true := fun c hc => h c (List.mem_cons_of_mem _ hc)
  simp only [magnitude?, Text.digitValue?_of_isDigit (h c List.mem_cons_self), extend_digits hcs,
    Nat.ofDigitChars_cons, Nat.mul_zero, Nat.zero_add]

theorem ofChars?_digits (hne : cs ≠ []) (h : ∀ c ∈ cs, c.isDigit = true) :
    ofChars? cs = some (Nat.ofDigitChars 10 cs 0 : Int) := by
  rw [ofChars?, trim_digits h]
  split
  · exact absurd rfl (head?_digits h (d := '-') rfl)
  · exact absurd rfl (head?_digits h (d := '+') rfl)
  · rw [magnitude?_digits hne h]
    rfl

theorem read?_digits (hne : cs ≠ []) (h : ∀ c ∈ cs, c.isDigit = true) :
    read? cs = if mostDigits < cs.length then none else some (Nat.ofDigitChars 10 cs 0 : Int) := by
  rw [read?, excess?_digits h, ofChars?_digits hne h]
  by_cases hlong : mostDigits < cs.length
  · simp [hlong]
  · simp [hlong]

end

end Numeral

end Brushwork
