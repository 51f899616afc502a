import Brushwork.Proofs.Encoding
import Brushwork.Proofs.JsonText

/-!
# Values in JSON and back

A value without fractions is read back as it was written, if its integers can be written, its texts
come back and no object has a name twice. The reader is told apart into its steps, one for each
thing that may come next, and the steps are put together along the value.
-/

namespace Brushwork.Json

/-- What follows is no part of a number. -/
def Closes (rest : List Char) : Prop :=
  ∀ c ∈ rest.head?, c.isDigit = false ∧ c ≠ '.' ∧ c ≠ 'e' ∧ c ≠ 'E'

theorem closes_nil : Closes [] := fun _ h => nomatch h

theorem closes_cons {c : Char} (h : c.isDigit = false ∧ c ≠ '.' ∧ c ≠ 'e' ∧ c ≠ 'E')
    (cs : List Char) : Closes (c :: cs) := by
  intro d hd
  cases hd
  exact h

theorem head?_toDigits {k : Nat} (h : 0 < k) : (Nat.toDigits 10 k).head? ≠ some '0' := by
  induction k using Nat.strongRecOn with
  | ind k ih =>
    by_cases hk : k < 10
    · have hdigit : ∀ k < 10, 0 < k → k.digitChar ≠ '0' := by decide
      rw [Nat.toDigits_of_lt_base hk, List.head?_cons]
      exact fun heq => hdigit k hk h (Option.some.inj heq)
    · have hne : Nat.toDigits 10 (k / 10) ≠ [] := Nat.toDigits_ne_nil
      rw [Nat.toDigits_of_base_le (by decide) (by omega), List.head?_append_of_ne_nil _ hne]
      exact ih (k / 10) (by omega) (by omega)

theorem head?_of_toDigits_append {k : Nat} {c : Char} {cs rest : List Char}
    (h : Nat.toDigits 10 k ++ rest = c :: cs) : (Nat.toDigits 10 k).head? = some c := by
  have hhead := congrArg List.head? h
  rw [List.head?_append_of_ne_nil _ Nat.toDigits_ne_nil] at hhead
  exact hhead

theorem isDigit_of_mem {k : Nat} {c : Char} (h : c ∈ Nat.toDigits 10 k) : c.isDigit = true :=
  Nat.isDigit_of_mem_toDigits (by decide) (by decide) h

section

variable {rest : List Char}

theorem takeWhile_of_closes (h : Closes rest) : rest.takeWhile Char.isDigit = [] := by
  cases rest with
  | nil => rfl
  | cons c cs => rw [List.takeWhile_cons_of_neg (by simp [(h c rfl).1])]

theorem wholeDigits_toDigits (k : Nat) (h : Closes rest) :
    wholeDigits (Nat.toDigits 10 k ++ rest) = Nat.toDigits 10 k := by
  by_cases hk : k = 0
  · subst hk
    rfl
  · unfold wholeDigits
    split
    · rename_i heq
      exact absurd (head?_of_toDigits_append heq) (head?_toDigits (Nat.pos_of_ne_zero hk))
    · rw [List.takeWhile_append_of_pos fun c hc => isDigit_of_mem hc, takeWhile_of_closes h,
        List.append_nil]

theorem fraction_of_closes (h : Closes rest) : fraction rest = ([], rest) := by
  unfold fraction
  split
  · exact absurd rfl (h '.' rfl).2.1
  · rfl

theorem exponent_of_closes (h : Closes rest) : exponent rest = (none, rest) := by
  unfold exponent
  dsimp only
  split
  · exact absurd rfl (h 'e' rfl).2.2.1
  · exact absurd rfl (h 'E' rfl).2.2.2
  · rfl

end

theorem length_toDigits_le {k most : Nat} (hmost : 0 < most) (h : k < Nat.pow 10 most) :
    (Nat.toDigits 10 k).length ≤ most := (Nat.length_toDigits_le_iff (by decide) hmost).2 h

def intChars (n : Int) : List Char :=
  if n < 0 then '-' :: Nat.toDigits 10 n.natAbs else Nat.toDigits 10 n.natAbs

@[simp] theorem toList_toString_int (n : Int) : (toString n).toList = intChars n := by
  have hrepr : toString n = n.repr := rfl
  rw [hrepr, Int.repr_eq_if, intChars]
  by_cases h : n < 0
  · have hnat : (-n).toNat = n.natAbs := by omega
    rw [if_neg (by omega), if_pos h, hnat, String.toList_append, Nat.toList_repr]
    rfl
  · have hnat : n.toNat = n.natAbs := by omega
    rw [if_pos (by omega), if_neg h, hnat, Nat.toList_repr]

theorem unsigned_toDigits {k : Nat} {rest : List Char} (h : Closes rest) (negative : Bool)
    (hk : (Nat.toDigits 10 k).length ≤ Numeral.mostDigits) :
    unsigned negative (Nat.toDigits 10 k ++ rest) =
      .ok (.int (if negative then -(k : Int) else k), rest) := by
  have hvalue : digitsNat (Nat.toDigits 10 k ++ []) = k := by
    rw [List.append_nil]
    exact Nat.ofDigitChars_toDigits (by decide) (by decide)
  rw [unsigned, wholeDigits_toDigits k h]
  split
  · rename_i hnil
    exact absurd hnil Nat.toDigits_ne_nil
  · simp only [List.drop_left, fraction_of_closes h, exponent_of_closes h, hvalue, List.isEmpty_nil,
      Option.isNone_none, Bool.and_self, if_true, if_neg (Nat.not_lt.2 hk)]

theorem number_toDigits (k : Nat) (rest : List Char) :
    number (Nat.toDigits 10 k ++ rest) = unsigned false (Nat.toDigits 10 k ++ rest) := by
  unfold number
  split
  · rename_i cs heq
    exact absurd (isDigit_of_mem (List.mem_of_head? (head?_of_toDigits_append heq))) (by decide)
  · rfl

theorem number_intChars {n : Int} {rest : List Char} (hn : Numeral.isWritable n = true)
    (h : Closes rest) : number (intChars n ++ rest) = .ok (.int n, rest) := by
  have hlength : (Nat.toDigits 10 n.natAbs).length ≤ Numeral.mostDigits :=
    length_toDigits_le (by decide) (of_decide_eq_true hn)
  unfold intChars
  by_cases hneg : n < 0
  · rw [if_pos hneg]
    refine (unsigned_toDigits h true hlength).trans ?_
    rw [if_pos rfl, Int.ofNat_natAbs_of_nonpos (Int.le_of_lt hneg), Int.neg_neg]
  · rw [if_neg hneg, number_toDigits, unsigned_toDigits h false hlength, if_neg Bool.false_ne_true,
      Int.natAbs_of_nonneg (Int.not_lt.1 hneg)]

theorem find?_words_of_digit {c : Char} (h : c.isDigit = true) (cs : List Char) :
    (words.find? fun w => w.1.isPrefixOf (c :: cs)) = none ∧
      (words.find? fun w => w.1.isPrefixOf ('-' :: c :: cs)) = none := by
  have hne {d : Char} (hd : d.isDigit = false) : d ≠ c := by
    rintro rfl
    rw [h] at hd
    cases hd
  constructor
  · simp [words, hne (d := 'n') rfl, hne (d := 't') rfl, hne (d := 'f') rfl, hne (d := 'N') rfl,
      hne (d := 'I') rfl, hne (d := '-') rfl]
  · simp [words, hne (d := 'I') rfl]

theorem scalar_intChars {n : Int} {rest : List Char} (hn : Numeral.isWritable n = true)
    (h : Closes rest) : scalar (intChars n ++ rest) = .ok (.int n, rest) := by
  obtain ⟨c, cs, hcs⟩ := List.exists_cons_of_ne_nil (Nat.toDigits_ne_nil (b := 10) (n := n.natAbs))
  have hc : c.isDigit = true := isDigit_of_mem (hcs ▸ List.mem_cons_self)
  have hwords : (words.find? fun w => w.1.isPrefixOf (intChars n ++ rest)) = none := by
    unfold intChars
    rw [hcs]
    split
    · exact (find?_words_of_digit hc _).2
    · exact (find?_words_of_digit hc _).1
  rw [scalar, hwords]
  exact number_intChars hn h

theorem skipSpace_of_not {c : Char} (h : isSpace c = false) (cs : List Char) :
    skipSpace (c :: cs) = c :: cs := by
  rw [skipSpace, List.dropWhile_cons_of_neg (by rw [h]; exact Bool.false_ne_true)]

def Gives {α : Type} {cs : List Char} (result : Except Stop (Parsed α cs)) (v : α)
    (rest : List Char) : Prop :=
  ∃ shorter, result = .ok ⟨v, rest, shorter⟩

theorem gives_ok {α : Type} {cs : List Char} (p : Parsed α cs) : Gives (.ok p) p.value p.rest :=
  ⟨p.shorter, rfl⟩

section

variable {more inner rest r₁ r₂ r₃ : List Char} {v : Json} {points : List CodePoint} {name : Text}
  {seen all : List (Text × Json)} {items before : List Json}

theorem readValue_text (h : readText (more.length + 1) [] more = .ok (points, rest)) :
    Gives (readValue ('"' :: more)) (.text ⟨points.reverse⟩) rest := by
  rw [readValue]
  split
  · rename_i heq
    rw [h] at heq
    cases heq
  · rename_i heq
    rw [h] at heq
    cases heq
    exact gives_ok _

theorem readValue_emptyObject (h : skipSpace more = '\x7d' :: rest) :
    Gives (readValue ('\x7b' :: more)) (.object []) rest := by
  rw [readValue]
  split
  · rename_i heq
    rw [h] at heq
    cases heq
    exact gives_ok _
  · rename_i hno
    exact absurd h (hno _)

theorem readValue_object (h : (skipSpace more).head? ≠ some '\x7d')
    (hmembers : Gives (readMembers [] (skipSpace more)) all rest) :
    Gives (readValue ('\x7b' :: more)) (.object all) rest := by
  rw [readValue]
  split
  · rename_i heq
    rw [heq] at h
    exact absurd rfl h
  · obtain ⟨shorter, hmembers⟩ := hmembers
    rw [hmembers]
    exact gives_ok _

theorem readValue_emptyArray (h : skipSpace more = ']' :: rest) :
    Gives (readValue ('[' :: more)) (.array []) rest := by
  rw [readValue]
  split
  · rename_i heq
    rw [h] at heq
    cases heq
    exact gives_ok _
  · rename_i hno
    exact absurd h (hno _)

theorem readValue_array (h : (skipSpace more).head? ≠ some ']')
    (hitems : Gives (readItems [] (skipSpace more)) items rest) :
    Gives (readValue ('[' :: more)) (.array items) rest := by
  rw [readValue]
  split
  · rename_i heq
    rw [heq] at h
    exact absurd rfl h
  · obtain ⟨shorter, hitems⟩ := hitems
    rw [hitems]
    exact gives_ok _

theorem readMembers_last
    (hname : readText (more.length + 1) [] more = .ok (name.points.reverse, r₁))
    (hcolon : skipSpace r₁ = ':' :: r₂) (hvalue : Gives (readValue (skipSpace r₂)) v r₃)
    (hend : skipSpace r₃ = '\x7d' :: rest) :
    Gives (readMembers seen ('"' :: more)) (Table.put name v seen) rest := by
  obtain ⟨shorter, hvalue⟩ := hvalue
  rw [readMembers]
  split
  · rename_i heq
    rw [hname] at heq
    cases heq
  rename_i heq
  rw [hname] at heq
  cases heq
  split
  · rename_i heq
    rw [hcolon] at heq
    cases heq
    rw [hvalue]
    dsimp only
    split
    · rename_i heq
      rw [hend] at heq
      cases heq
      simp only [List.reverse_reverse]
      exact gives_ok _
    · rename_i heq
      rw [hend] at heq
      cases heq
    · rename_i hno _
      exact absurd hend (hno _)
  · rename_i hno
    exact absurd hcolon (hno _)

theorem readMembers_comma
    (hname : readText (more.length + 1) [] more = .ok (name.points.reverse, r₁))
    (hcolon : skipSpace r₁ = ':' :: r₂) (hvalue : Gives (readValue (skipSpace r₂)) v r₃)
    (hcomma : skipSpace r₃ = ',' :: inner)
    (hmembers : Gives (readMembers (Table.put name v seen) (skipSpace inner)) all rest) :
    Gives (readMembers seen ('"' :: more)) all rest := by
  obtain ⟨shorter, hvalue⟩ := hvalue
  obtain ⟨shorter', hmembers⟩ := hmembers
  rw [readMembers]
  split
  · rename_i heq
    rw [hname] at heq
    cases heq
  rename_i heq
  rw [hname] at heq
  cases heq
  split
  · rename_i heq
    rw [hcolon] at heq
    cases heq
    rw [hvalue]
    dsimp only
    split
    · rename_i heq
      rw [hcomma] at heq
      cases heq
    · rename_i heq
      rw [hcomma] at heq
      cases heq
      simp only [List.reverse_reverse, hmembers]
      exact gives_ok _
    · rename_i _ hno
      exact absurd hcomma (hno _)
  · rename_i hno
    exact absurd hcolon (hno _)

theorem readItems_last (hvalue : Gives (readValue more) v r₁) (hend : skipSpace r₁ = ']' :: rest) :
    Gives (readItems before more) (v :: before).reverse rest := by
  obtain ⟨shorter, hvalue⟩ := hvalue
  rw [readItems, hvalue]
  dsimp only
  split
  · rename_i heq
    rw [hend] at heq
    cases heq
    exact gives_ok _
  · rename_i heq
    rw [hend] at heq
    cases heq
  · rename_i hno _
    exact absurd hend (hno _)

theorem readItems_comma (hvalue : Gives (readValue more) v r₁)
    (hcomma : skipSpace r₁ = ',' :: inner)
    (hitems : Gives (readItems (v :: before) (skipSpace inner)) items rest) :
    Gives (readItems before more) items rest := by
  obtain ⟨shorter, hvalue⟩ := hvalue
  obtain ⟨shorter', hitems⟩ := hitems
  rw [readItems, hvalue]
  dsimp only
  split
  · rename_i heq
    rw [hcomma] at heq
    cases heq
  · rename_i heq
    rw [hcomma] at heq
    cases heq
    rw [hitems]
    exact gives_ok _
  · rename_i _ hno
    exact absurd hcomma (hno _)

end

mutual

/-- A value that can be read back: it has no number but integers that can be written, no halves of a
pair side by side in a text, and no name twice in an object. -/
def Readable : Json → Prop
  | .int n => Numeral.isWritable n = true
  | .real _ => False
  | .text t => t.Joined
  | .array items => AreReadable items
  | .object members => (members.map Prod.fst).Nodup ∧ HaveReadable members
  | _ => True

def AreReadable : List Json → Prop
  | [] => True
  | j :: js => Readable j ∧ AreReadable js

def HaveReadable : List (Text × Json) → Prop
  | [] => True
  | (name, j) :: ms => (name.Joined ∧ Readable j) ∧ HaveReadable ms

end

theorem toList_writeMember (name : Text) (j : Json) : (quote name ++ ": " ++ write j).toList =
    '"' :: (name.points.flatMap escapePoint ++ '"' :: ':' :: ' ' :: (write j).toList) := by
  rw [String.toList_append, String.toList_append, toList_quote]
  simp

theorem intChars_starts (n : Int) :
    ∃ c cs, intChars n = c :: cs ∧ ∀ {d : Char}, d ≠ '-' → d.isDigit = false → c ≠ d := by
  obtain ⟨c, cs, hcs⟩ := List.exists_cons_of_ne_nil (Nat.toDigits_ne_nil (b := 10) (n := n.natAbs))
  rw [intChars, hcs]
  split
  · exact ⟨_, _, rfl, fun hd _ => hd.symm⟩
  · refine ⟨_, _, rfl, ?_⟩
    rintro d - hd rfl
    rw [isDigit_of_mem (hcs ▸ List.mem_cons_self)] at hd
    cases hd

theorem write_starts {j : Json} (h : j.Readable) :
    ∃ c cs, (write j).toList = c :: cs ∧ isSpace c = false ∧ c ≠ ']' := by
  cases j with
  | null => exact ⟨'n', _, rfl, rfl, by decide⟩
  | bool b =>
    cases b with
    | true => exact ⟨'t', _, rfl, rfl, by decide⟩
    | false => exact ⟨'f', _, rfl, rfl, by decide⟩
  | int n =>
    obtain ⟨c, cs, hcs, hne⟩ := intChars_starts n
    rw [write, toList_toString_int]
    refine ⟨c, cs, hcs, ?_, hne (by decide) rfl⟩
    simp [isSpace, hne (d := ' ') (by decide) rfl, hne (d := '\t') (by decide) rfl,
      hne (d := '\n') (by decide) rfl, hne (d := '\r') (by decide) rfl]
  | real x => exact h.elim
  | text t =>
    rw [write, toList_quote]
    exact ⟨_, _, rfl, rfl, by decide⟩
  | array items =>
    rw [write, String.toList_append, String.toList_append]
    exact ⟨'[', _, rfl, rfl, by decide⟩
  | object members =>
    rw [write, String.toList_append, String.toList_append]
    exact ⟨'\x7b', _, rfl, rfl, by decide⟩

theorem skipSpace_write {j : Json} (h : j.Readable) (rest : List Char) :
    skipSpace ((write j).toList ++ rest) = (write j).toList ++ rest := by
  obtain ⟨c, cs, hcs, hspace, -⟩ := write_starts h
  rw [hcs]
  exact skipSpace_of_not hspace _

theorem readValue_scalar {j : Json} {c : Char} {cs rest : List Char}
    (hcs : (write j).toList = c :: cs) (hc : c ≠ '"' ∧ c ≠ '\x7b' ∧ c ≠ '[')
    (h : scalar ((write j).toList ++ rest) = .ok (j, rest)) :
    Gives (readValue ((write j).toList ++ rest)) j rest := by
  have hlt : rest.length < (c :: (cs ++ rest)).length := by
    rw [List.length_cons, List.length_append]
    omega
  rw [hcs, List.cons_append] at h ⊢
  rw [readValue, h]
  · dsimp only
    rw [dif_pos hlt]
    exact gives_ok _
  · exact hc.1
  · exact hc.2.1
  · exact hc.2.2

def itemChars (js : List Json) : List Char :=
  [',', ' '].intercalate ((writeItems js).map String.toList)

def memberChars (ms : List (Text × Json)) : List Char :=
  [',', ' '].intercalate ((writeMembers ms).map String.toList)

@[simp] theorem toList_write_array (items : List Json) :
    (write (.array items)).toList = '[' :: (itemChars items ++ [']']) := by
  rw [write, String.toList_append, String.toList_append, String.toList_intercalate]
  rfl

@[simp] theorem toList_write_object (members : List (Text × Json)) :
    (write (.object members)).toList = '\x7b' :: (memberChars members ++ ['\x7d']) := by
  rw [write, String.toList_append, String.toList_append, String.toList_intercalate]
  rfl

theorem intercalate_starts (separator cs : List Char) (more : List (List Char)) :
    ∃ rest, separator.intercalate (cs :: more) = cs ++ rest := by
  cases more with
  | nil => exact ⟨[], by rw [List.intercalate_singleton, List.append_nil]⟩
  | cons cs' more =>
    rw [List.intercalate_cons_cons, List.append_assoc]
    exact ⟨_, rfl⟩

@[simp] theorem itemChars_singleton (j : Json) : itemChars [j] = (write j).toList := by
  simp only [itemChars, writeItems, List.map_cons, List.map_nil, List.intercalate_singleton]

@[simp] theorem itemChars_cons_cons (j j' : Json) (js : List Json) :
    itemChars (j :: j' :: js) = (write j).toList ++ ',' :: ' ' :: itemChars (j' :: js) := by
  simp only [itemChars, writeItems, List.map_cons, List.intercalate_cons_cons, List.append_assoc]
  rfl

theorem memberChars_singleton (name : Text) (j : Json) (rest : List Char) :
    memberChars [(name, j)] ++ rest = '"' ::
      (name.points.flatMap escapePoint ++ '"' :: ':' :: ' ' :: ((write j).toList ++ rest)) := by
  have hsingle : memberChars [(name, j)] = (quote name ++ ": " ++ write j).toList := by
    simp only [memberChars, writeMembers, List.map_cons, List.map_nil, List.intercalate_singleton]
  rw [hsingle, toList_writeMember]
  simp

theorem memberChars_cons_cons (name : Text) (j : Json) (m : Text × Json) (ms : List (Text × Json))
    (rest : List Char) : memberChars ((name, j) :: m :: ms) ++ rest =
      '"' :: (name.points.flatMap escapePoint ++ '"' :: ':' :: ' ' ::
        ((write j).toList ++ ',' :: ' ' :: (memberChars (m :: ms) ++ rest))) := by
  have hsplit : memberChars ((name, j) :: m :: ms) =
      (quote name ++ ": " ++ write j).toList ++ ',' :: ' ' :: memberChars (m :: ms) := by
    simp only [memberChars, writeMembers, List.map_cons, List.intercalate_cons_cons,
      List.append_assoc]
    rfl
  rw [hsplit, toList_writeMember]
  simp

theorem skipSpace_memberChars (m : Text × Json) (ms : List (Text × Json)) (rest : List Char) :
    ∃ cs, memberChars (m :: ms) ++ rest = '"' :: cs ∧ skipSpace ('"' :: cs) = '"' :: cs := by
  obtain ⟨more, hmore⟩ := intercalate_starts [',', ' '] (quote m.1 ++ ": " ++ write m.2).toList
    ((writeMembers ms).map String.toList)
  refine ⟨m.1.points.flatMap escapePoint ++ '"' :: ':' :: ' ' :: (write m.2).toList ++
    more ++ rest, ?_, skipSpace_of_not rfl _⟩
  rw [memberChars, writeMembers, List.map_cons, hmore, toList_writeMember]
  simp

theorem readText_name {name : Text} (h : name.Joined) (rest : List Char) :
    readText ((name.points.flatMap escapePoint ++ '"' :: ':' :: ' ' :: rest).length + 1) []
      (name.points.flatMap escapePoint ++ '"' :: ':' :: ' ' :: rest) =
        .ok (name.points.reverse, ':' :: ' ' :: rest) := by
  rw [readText_points h, List.append_nil]

theorem closes_of_mem {c : Char} (h : c ∈ [',', ']', '\x7d']) (cs : List Char) :
    Closes (c :: cs) := by
  simp only [List.mem_cons, List.not_mem_nil, or_false] at h
  rcases h with rfl | rfl | rfl <;> exact closes_cons (by decide) cs

theorem skipSpace_blank {j : Json} (h : j.Readable) (rest : List Char) :
    skipSpace (' ' :: ((write j).toList ++ rest)) = (write j).toList ++ rest :=
  skipSpace_write h rest

theorem notMem_of_nodup {name : Text} {j : Json} {seen ms : List (Text × Json)}
    (h : ((seen ++ (name, j) :: ms).map Prod.fst).Nodup) : name ∉ seen.map Prod.fst := by
  rw [List.map_append, List.nodup_append] at h
  intro hmem
  exact h.2.2 name hmem name (by simp) rfl

mutual

theorem readValue_write : ∀ (j : Json), j.Readable → ∀ rest, Closes rest →
    Gives (readValue ((write j).toList ++ rest)) j rest
  | .null, _, rest, _ => readValue_scalar (c := 'n') rfl (by decide) rfl
  | .bool true, _, rest, _ => readValue_scalar (c := 't') rfl (by decide) rfl
  | .bool false, _, rest, _ => readValue_scalar (c := 'f') rfl (by decide) rfl
  | .int n, h, rest, hrest => by
    obtain ⟨c, cs, hcs, hne⟩ := intChars_starts n
    have hwrite : (write (.int n)).toList = intChars n := by rw [write, toList_toString_int]
    refine readValue_scalar (hwrite.trans hcs)
      ⟨hne (by decide) rfl, hne (by decide) rfl, hne (by decide) rfl⟩ ?_
    rw [hwrite]
    exact scalar_intChars h hrest
  | .real _, h, _, _ => h.elim
  | .text t, h, rest, _ => by
    have hread :=
      readText_points h rest ((t.points.flatMap escapePoint ++ '"' :: rest).length + 1) []
    rw [List.append_nil] at hread
    have hgives := readValue_text hread
    rw [List.reverse_reverse] at hgives
    rw [write, toList_quote, List.cons_append, List.append_assoc]
    exact hgives
  | .array [], _, rest, _ => by
    rw [toList_write_array]
    exact readValue_emptyArray rfl
  | .array (j :: js), h, rest, _ => by
    obtain ⟨c, cs, hcs, hspace, hclosing⟩ := write_starts h.1
    obtain ⟨more, hmore⟩ :=
      intercalate_starts [',', ' '] (write j).toList ((writeItems js).map String.toList)
    have hstart : itemChars (j :: js) ++ ']' :: rest = c :: (cs ++ more ++ ']' :: rest) := by
      rw [itemChars, writeItems, List.map_cons, hmore, hcs]
      rfl
    have hskip :
        skipSpace (itemChars (j :: js) ++ ']' :: rest) = itemChars (j :: js) ++ ']' :: rest := by
      rw [hstart]
      exact skipSpace_of_not hspace _
    rw [toList_write_array, List.cons_append, List.append_assoc]
    apply readValue_array
    · rw [List.singleton_append, hskip, hstart]
      exact fun heq => hclosing (Option.some.inj heq)
    · rw [List.singleton_append, hskip]
      exact readItems_write (j :: js) (List.cons_ne_nil _ _) h [] rest
  | .object [], _, rest, _ => by
    rw [toList_write_object]
    exact readValue_emptyObject rfl
  | .object (m :: ms), h, rest, _ => by
    obtain ⟨cs, hcs, hskip⟩ := skipSpace_memberChars m ms ('\x7d' :: rest)
    have hmembers := readMembers_write (m :: ms) (List.cons_ne_nil _ _) h.2 [] rest h.1
    rw [toList_write_object, List.cons_append, List.append_assoc, List.singleton_append, hcs]
    rw [hcs, ← hskip] at hmembers
    refine readValue_object ?_ hmembers
    rw [hskip]
    exact fun heq => absurd (Option.some.inj heq) (by decide)

theorem readItems_write : ∀ (js : List Json), js ≠ [] → AreReadable js → ∀ before rest,
    Gives (readItems before (itemChars js ++ ']' :: rest)) (before.reverse ++ js) rest
  | [], hne, _, _, _ => absurd rfl hne
  | [j], _, h, before, rest => by
    have hvalue := readValue_write j h.1 (']' :: rest) (closes_of_mem (by decide) _)
    rw [itemChars_singleton, ← List.reverse_cons]
    exact readItems_last hvalue (skipSpace_of_not rfl rest)
  | j :: j' :: js, _, h, before, rest => by
    have hvalue := readValue_write j h.1 (',' :: ' ' :: (itemChars (j' :: js) ++ ']' :: rest))
      (closes_of_mem (by decide) _)
    have hitems := readItems_write (j' :: js) (List.cons_ne_nil _ _) h.2 (j :: before) rest
    obtain ⟨c, cs, hcs, hspace, -⟩ := write_starts h.2.1
    obtain ⟨more, hmore⟩ :=
      intercalate_starts [',', ' '] (write j').toList ((writeItems js).map String.toList)
    have hskip :
        skipSpace (' ' :: (itemChars (j' :: js) ++ ']' :: rest)) = itemChars
          (j' :: js) ++ ']' :: rest := by
      rw [itemChars, writeItems, List.map_cons, hmore, hcs]
      exact skipSpace_of_not hspace _
    rw [← hskip] at hitems
    have hgives := readItems_comma hvalue (skipSpace_of_not rfl _) hitems
    rw [itemChars_cons_cons, List.append_assoc]
    rw [List.reverse_cons, List.append_assoc] at hgives
    exact hgives

theorem readMembers_write : ∀ (ms : List (Text × Json)), ms ≠ [] → HaveReadable ms → ∀ seen rest,
    ((seen ++ ms).map Prod.fst).Nodup →
    Gives (readMembers seen (memberChars ms ++ '\x7d' :: rest)) (seen ++ ms) rest
  | [], hne, _, _, _, _ => absurd rfl hne
  | [(name, j)], _, h, seen, rest, hnodup => by
    have hname := readText_name h.1.1 ((write j).toList ++ '\x7d' :: rest)
    have hvalue := readValue_write j h.1.2 ('\x7d' :: rest) (closes_of_mem (by decide) _)
    rw [← skipSpace_blank h.1.2] at hvalue
    rw [memberChars_singleton, ← Table.put_of_notMem (notMem_of_nodup hnodup)]
    exact readMembers_last hname (skipSpace_of_not rfl _) hvalue (skipSpace_of_not rfl _)
  | (name, j) :: m :: ms, _, h, seen, rest, hnodup => by
    have hsplit : seen ++ (name, j) :: m :: ms = seen ++ [(name, j)] ++ m :: ms := by simp
    obtain ⟨cs, hcs, hskip⟩ := skipSpace_memberChars m ms ('\x7d' :: rest)
    have hblank : skipSpace (' ' :: '"' :: cs) = '"' :: cs := hskip
    have hname := readText_name h.1.1 ((write j).toList ++ ',' :: ' ' :: '"' :: cs)
    have hvalue := readValue_write j h.1.2 (',' :: ' ' :: '"' :: cs) (closes_of_mem (by decide) _)
    rw [← skipSpace_blank h.1.2] at hvalue
    have hmembers :=
      readMembers_write (m :: ms) (List.cons_ne_nil _ _) h.2 (seen ++ [(name, j)]) rest
      (hsplit ▸ hnodup)
    rw [hcs, ← hblank, ← hsplit, ← Table.put_of_notMem (notMem_of_nodup hnodup)] at hmembers
    rw [memberChars_cons_cons, hcs]
    exact readMembers_comma hname (skipSpace_of_not rfl _) hvalue (skipSpace_of_not rfl _) hmembers

end

theorem isPlain_of_isDigit {c : Char} (h : c.isDigit = true) : Text.isPlain c = true := by
  obtain ⟨hlow, hhigh⟩ := Char.isDigit_iff_toNat.1 h
  have hzero : '0'.toNat = 0x30 := rfl
  have hnine : '9'.toNat = 0x39 := rfl
  simp only [Text.isPlain, Bool.and_eq_true, decide_eq_true_eq]
  omega

theorem isPlain_of_mem_intercalate {ss : List String} {c : Char}
    (h : ∀ s ∈ ss, ∀ c ∈ s.toList, Text.isPlain c = true) (hc : c ∈ (", ".intercalate ss).toList) :
    Text.isPlain c = true := by
  have hcomma : ", ".toList.all Text.isPlain = true := rfl
  induction ss with
  | nil => cases hc
  | cons s ss ih =>
    rw [String.toList_intercalate] at hc ih
    cases ss with
    | nil =>
      rw [List.map_cons, List.map_nil, List.intercalate_singleton] at hc
      exact h s List.mem_cons_self c hc
    | cons s' ss =>
      rw [List.map_cons, List.map_cons, List.intercalate_cons_cons, List.mem_append,
        List.mem_append] at hc
      rcases hc with (hc | hc) | hc
      · exact h s List.mem_cons_self c hc
      · exact List.all_eq_true.1 hcomma c hc
      · exact ih (fun t ht => h t (List.mem_cons_of_mem s ht)) hc

mutual

theorem isPlain_of_mem_write :
    ∀ (j : Json), j.Readable → ∀ c ∈ (write j).toList, Text.isPlain c = true
  | .null, _, c, hc | .bool true, _, c, hc | .bool false, _, c, hc => List.all_eq_true.1 rfl c hc
  | .int n, _, c, hc => by
    rw [write, toList_toString_int, intChars] at hc
    split at hc
    · rcases List.mem_cons.1 hc with rfl | hc
      · rfl
      · exact isPlain_of_isDigit (isDigit_of_mem hc)
    · exact isPlain_of_isDigit (isDigit_of_mem hc)
  | .real _, h, _, _ => h.elim
  | .text t, _, c, hc => by
    rw [write] at hc
    exact isPlain_of_mem_quote hc
  | .array items, h, c, hc => by
    rw [write, String.toList_append, String.toList_append, List.mem_append, List.mem_append] at hc
    rcases hc with (hc | hc) | hc
    · exact List.all_eq_true.1 rfl c hc
    · exact isPlain_of_mem_intercalate (isPlain_of_mem_writeItems items h) hc
    · exact List.all_eq_true.1 rfl c hc
  | .object members, h, c, hc => by
    rw [write, String.toList_append, String.toList_append, List.mem_append, List.mem_append] at hc
    rcases hc with (hc | hc) | hc
    · exact List.all_eq_true.1 rfl c hc
    · exact isPlain_of_mem_intercalate (isPlain_of_mem_writeMembers members h.2) hc
    · exact List.all_eq_true.1 rfl c hc

theorem isPlain_of_mem_writeItems : ∀ (js : List Json), AreReadable js →
    ∀ s ∈ writeItems js, ∀ c ∈ s.toList, Text.isPlain c = true
  | [], _, s, hs => by cases hs
  | j :: js, h, s, hs => by
    rw [writeItems, List.mem_cons] at hs
    rcases hs with rfl | hs
    · exact isPlain_of_mem_write j h.1
    · exact isPlain_of_mem_writeItems js h.2 s hs

theorem isPlain_of_mem_writeMembers : ∀ (ms : List (Text × Json)), HaveReadable ms →
    ∀ s ∈ writeMembers ms, ∀ c ∈ s.toList, Text.isPlain c = true
  | [], _, s, hs => by cases hs
  | (name, j) :: ms, h, s, hs => by
    rw [writeMembers, List.mem_cons] at hs
    rcases hs with rfl | hs
    · intro c hc
      rw [String.toList_append, String.toList_append, List.mem_append, List.mem_append] at hc
      rcases hc with (hc | hc) | hc
      · exact isPlain_of_mem_quote hc
      · exact List.all_eq_true.1 rfl c hc
      · exact isPlain_of_mem_write j h.1.2 c hc
    · exact isPlain_of_mem_writeMembers ms h.2 s hs

end

/-- What is written is read back. -/
theorem read_write {j : Json} (h : j.Readable) : read (write j) = .ok j := by
  obtain ⟨c, cs, hcs, hspace, -⟩ := write_starts h
  have hskip : skipSpace (write j).toList = (write j).toList := by
    rw [hcs]
    exact skipSpace_of_not hspace cs
  obtain ⟨shorter, hvalue⟩ : Gives (readValue (skipSpace (write j).toList)) j [] := by
    have hgives := readValue_write j h [] closes_nil
    rw [List.append_nil] at hgives
    rw [hskip]
    exact hgives
  have hmark : (write j).toList.head? ≠ some (Char.ofNat 0xFEFF) := by
    intro hhead
    exact absurd (isPlain_of_mem_write j h _ (List.mem_of_head? hhead)) (by decide)
  rw [read, readChars, if_neg hmark, hvalue]
  rfl

end Brushwork.Json
