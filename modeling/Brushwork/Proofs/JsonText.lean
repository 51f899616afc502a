import Brushwork.Json.Printer
import Brushwork.Json.Reader
import Brushwork.Text.Utf8
import Mathlib.Data.List.Chain

/-!
# Texts in JSON and back

A text is written in printable ASCII: characters by themselves or by an escape, those beyond U+FFFF
by the two halves of a pair, and a surrogate by its own unit. When it is read, the halves of a pair
that stand side by side become one character. So a text comes back as it was as long as no first
half stands in front of a second half in it, and no text that has been read is otherwise.
-/

namespace Brushwork

namespace CodePoint

def isHigh (p : CodePoint) : Bool := 0xD800 ≤ p.toNat && p.toNat ≤ 0xDBFF
def isLow (p : CodePoint) : Bool := 0xDC00 ≤ p.toNat && p.toNat ≤ 0xDFFF

theorem toNat_inj {p q : CodePoint} (h : p.toNat = q.toNat) : p = q := by
  obtain ⟨p, _⟩ := p
  obtain ⟨q, _⟩ := q
  obtain rfl : p = q := UInt32.toNat_inj.1 h
  rfl

theorem toNat_ofNat {n : Nat} (h : n < 0x110000) : (ofNat n).toNat = n := by
  rw [ofNat, dif_pos h]
  exact UInt32.toNat_ofNatLT ..

@[simp] theorem ofNat_toNat (p : CodePoint) : ofNat p.toNat = p := toNat_inj (toNat_ofNat p.lt)

@[simp] theorem toNat_ofChar (c : Char) : (ofChar c).toNat = c.toNat := rfl

theorem eq_ofChar {p : CodePoint} {c : Char} (h : p.char? = some c) : p = ofChar c := by
  unfold char? at h
  split at h
  · cases h
    rfl
  · cases h

theorem isSurrogate {p : CodePoint} (h : p.char? = none) : 0xD800 ≤ p.toNat ∧ p.toNat ≤ 0xDFFF := by
  unfold char? at h
  split at h
  · cases h
  · rename_i hvalid
    have hlt := p.lt
    have : ¬ p.val.toNat.isValidChar := hvalid
    unfold Nat.isValidChar at this
    unfold toNat
    omega

theorem not_surrogate (c : Char) : c.toNat < 0xD800 ∨ 0xDFFF < c.toNat := by
  have : c.val.toNat.isValidChar := c.valid
  unfold Nat.isValidChar at this
  have heq : c.val.toNat = c.toNat := rfl
  omega

@[simp] theorem isLow_ofNat (n : Nat) : (ofNat n).isLow = (0xDC00 ≤ n && n ≤ 0xDFFF) := by
  by_cases h : n < 0x110000
  · rw [isLow, toNat_ofNat h]
  · rw [ofNat, dif_neg h]
    have hno : (0xDC00 ≤ n && n ≤ 0xDFFF) = false := by
      simp only [Bool.and_eq_false_iff, decide_eq_false_iff_not]
      omega
    rw [hno]
    rfl

@[simp] theorem isHigh_ofNat (n : Nat) : (ofNat n).isHigh = (0xD800 ≤ n && n ≤ 0xDBFF) := by
  by_cases h : n < 0x110000
  · rw [isHigh, toNat_ofNat h]
  · rw [ofNat, dif_neg h]
    have hno : (0xD800 ≤ n && n ≤ 0xDBFF) = false := by
      simp only [Bool.and_eq_false_iff, decide_eq_false_iff_not]
      omega
    rw [hno]
    rfl

@[simp] theorem isHigh_ofChar (c : Char) : (ofChar c).isHigh = false := by
  have := not_surrogate c
  rw [← ofNat_toNat (ofChar c), isHigh_ofNat, toNat_ofChar, Bool.and_eq_false_iff,
    decide_eq_false_iff_not, decide_eq_false_iff_not]
  omega

@[simp] theorem isLow_ofChar (c : Char) : (ofChar c).isLow = false := by
  have := not_surrogate c
  rw [← ofNat_toNat (ofChar c), isLow_ofNat, toNat_ofChar, Bool.and_eq_false_iff,
    decide_eq_false_iff_not, decide_eq_false_iff_not]
  omega

end CodePoint

namespace Text

/-- No first half of a pair stands in front of a second half. -/
def Joined (t : Text) : Prop := t.points.IsChain fun p q => ¬ (p.isHigh = true ∧ q.isLow = true)

def isPlain (c : Char) : Bool := 0x20 ≤ c.toNat && c.toNat < 0x7F

theorem hexValue?_digitChar : ∀ n < 16, hexValue? n.digitChar = some n := by decide

theorem hexDigits_four {n : Nat} (h : n < 0x10000) : hexDigits 4 n =
    [(n / 0x1000).digitChar, (n / 0x100 % 16).digitChar, (n / 0x10 % 16).digitChar,
      (n % 16).digitChar] := by
  have hmore {k : Nat} (hk : 16 ≤ k) :
      Nat.toDigits 16 k = Nat.toDigits 16 (k / 16) ++ [(k % 16).digitChar] :=
    Nat.toDigits_of_base_le (by decide) hk
  have hlast {k : Nat} (hk : k < 16) : Nat.toDigits 16 k = [k.digitChar] :=
    Nat.toDigits_of_lt_base hk
  have h₂ : n / 16 / 16 = n / 0x100 := by omega
  have h₃ : n / 0x100 / 16 = n / 0x1000 := by omega
  have hzero : '0' = Nat.digitChar 0 := rfl
  unfold hexDigits
  by_cases h₁ : n < 16
  · rw [hlast h₁, hzero, Nat.div_eq_of_lt (by omega), Nat.div_eq_of_lt (by omega),
      Nat.div_eq_of_lt (by omega), Nat.mod_eq_of_lt h₁]
    rfl
  rw [hmore (by omega)]
  by_cases h₁ : n / 16 < 16
  · rw [hlast h₁, hzero, Nat.div_eq_of_lt (by omega : n < 0x1000),
      Nat.div_eq_of_lt (by omega : n < 0x100), Nat.mod_eq_of_lt h₁]
    rfl
  rw [hmore (by omega), h₂]
  by_cases h₁ : n / 0x100 < 16
  · rw [hlast h₁, hzero, Nat.div_eq_of_lt (by omega : n < 0x1000), Nat.mod_eq_of_lt h₁]
    rfl
  rw [hmore (by omega), h₃, hlast (by omega)]
  rfl

theorem joined_ofChars (cs : List Char) : (ofChars cs).Joined := by
  induction cs with
  | nil => exact .nil
  | cons c cs ih =>
    refine List.isChain_cons.2 ⟨fun q _ hpair => ?_, ih⟩
    rw [CodePoint.isHigh_ofChar] at hpair
    exact Bool.false_ne_true hpair.1

theorem joined_ofString (s : String) : (ofString s).Joined := joined_ofChars s.toList

theorem eq_ofChars_of_chars? {t : Text} {cs : List Char} (h : t.chars? = some cs) :
    t = ofChars cs := by
  obtain ⟨points⟩ := t
  simp only [chars?] at h
  induction points generalizing cs with
  | nil =>
    cases h
    rfl
  | cons p ps ih =>
    simp only [List.mapM_cons, Option.bind_eq_bind, Option.bind_eq_some_iff, Option.pure_def,
      Option.some.injEq] at h
    obtain ⟨c, hc, cs', hcs', rfl⟩ := h
    have htail : ps = cs'.map CodePoint.ofChar := congrArg points (ih hcs')
    rw [CodePoint.eq_ofChar hc, htail]
    rfl

theorem joined_of_chars? {t : Text} {cs : List Char} (h : t.chars? = some cs) : t.Joined := by
  rw [eq_ofChars_of_chars? h]
  exact joined_ofChars cs

theorem decodeFrom_plain {cs : List Char} (h : ∀ c ∈ cs, isPlain c = true) (start : Nat)
    (acc : List Char) :
    Utf8.decodeFrom start acc (cs.flatMap String.utf8EncodeChar) = .ok (acc.reverse ++ cs) := by
  induction cs generalizing start acc with
  | nil => simp [Utf8.decodeFrom]
  | cons c cs ih =>
    have hc := h c List.mem_cons_self
    simp only [isPlain, Bool.and_eq_true, decide_eq_true_eq] at hc
    have hval : c.val.toNat = c.toNat := rfl
    have hbyte : c.val.toUInt8.toNat = c.toNat := by
      rw [UInt32.toNat_toUInt8, hval, Nat.mod_eq_of_lt (by omega)]
    have hencode : String.utf8EncodeChar c = [c.val.toUInt8] := by
      apply String.utf8EncodeChar_eq_singleton
      rw [Char.utf8Size_eq_one_iff, UInt32.le_iff_toNat_le, hval]
      have : (127 : UInt32).toNat = 127 := rfl
      omega
    have hcharacter (more : List UInt8) : Utf8.character c.toNat more = .ok (c, 0) := by
      unfold Utf8.character
      rw [if_pos (by omega), Char.ofNat_toNat]
    rw [List.flatMap_cons, hencode, List.singleton_append, Utf8.decodeFrom, hbyte, hcharacter]
    dsimp only
    rw [List.drop_zero, ih fun d hd => h d (List.mem_cons_of_mem c hd)]
    simp

theorem unifyFrom_plain {cs : List Char} (h : ∀ c ∈ cs, isPlain c = true) (acc : List Char) :
    unifyFrom acc cs = acc.reverse ++ cs := by
  induction cs generalizing acc with
  | nil => simp [unifyFrom]
  | cons c cs ih =>
    have hne : c ≠ '\r' := by
      rintro rfl
      exact absurd (h _ List.mem_cons_self) (by decide)
    rw [unifyFrom, ih fun d hd => h d (List.mem_cons_of_mem c hd)]
    · simp
    · exact fun _ hc _ => hne hc
    · exact hne

theorem ofBytes_toBytes {s : String} (h : ∀ c ∈ s.toList, isPlain c = true) :
    ofBytes (toBytes s) = .ok s := by
  have hbytes : (toBytes s).toList = s.toList.flatMap String.utf8EncodeChar := by
    rw [toBytes, String.toUTF8, ← String.utf8Encode_toList, List.utf8Encode]
    simp
  rw [ofBytes, hbytes, decodeFrom_plain h]
  dsimp only
  rw [List.reverse_nil, List.nil_append, unifyNewlines, unifyFrom_plain h, List.reverse_nil,
    List.nil_append, String.ofList_toList]

end Text

namespace Json

theorem unit?_hexDigits {n : Nat} (h : n < 0x10000) : unit? (Text.hexDigits 4 n) = some n := by
  rw [Text.hexDigits_four h]
  simp only [unit?, Text.hexValue?_digitChar _ (by omega : n / 0x1000 < 16),
    Text.hexValue?_digitChar _ (by omega : n / 0x100 % 16 < 16),
    Text.hexValue?_digitChar _ (by omega : n / 0x10 % 16 < 16),
    Text.hexValue?_digitChar _ (by omega : n % 16 < 16)]
  refine congrArg some ?_
  omega

theorem length_hexDigits {n : Nat} (h : n < 0x10000) : (Text.hexDigits 4 n).length = 4 := by
  rw [Text.hexDigits_four h]
  rfl

/-- What follows does not go on with the second half of a pair. -/
def Unpaired (cs : List Char) : Prop :=
  ∃ unit, secondUnit cs = .ok unit ∧ ∀ low ∈ unit, (0xDC00 ≤ low && low ≤ 0xDFFF) = false

section

variable {n : Nat} {rest : List Char}

theorem take_hexDigits (h : n < 0x10000) :
    (Text.hexDigits 4 n ++ rest).take 4 = Text.hexDigits 4 n := by
  rw [List.take_append_of_le_length (Nat.le_of_eq (length_hexDigits h).symm),
    List.take_of_length_le (Nat.le_of_eq (length_hexDigits h))]

theorem drop_hexDigits (h : n < 0x10000) : (Text.hexDigits 4 n ++ rest).drop 4 = rest :=
  List.drop_left' (length_hexDigits h)

theorem not_short (h : n < 0x10000) (hrest : rest ≠ []) :
    ¬ (Text.hexDigits 4 n ++ rest).length < 5 := by
  have := List.length_pos_iff.2 hrest
  rw [List.length_append, length_hexDigits h]
  omega

theorem secondUnit_unitEscape (h : n < 0x10000) (hrest : rest ≠ []) :
    secondUnit (unitEscape n ++ rest) = .ok (some n) := by
  simp only [unitEscape, List.cons_append, secondUnit, if_neg (not_short h hrest), take_hexDigits h,
    unit?_hexDigits h]

theorem unpaired_of_ne {c : Char} {cs : List Char} (h : c ≠ '\\') : Unpaired (c :: cs) := by
  refine ⟨none, ?_, fun _ h => nomatch h⟩
  unfold secondUnit
  split
  · rename_i heq
    cases heq
    exact absurd rfl h
  · rfl

variable {opening : Nat} {acc : List CodePoint}

/-- A unit that is no first half of a pair, or is one without its second half. -/
theorem readText_unitEscape (h : n < 0x10000) (hrest : rest ≠ [])
    (hsingle : (0xD800 ≤ n && n ≤ 0xDBFF) = true → Unpaired rest) :
    readText opening acc (unitEscape n ++ rest) = readText opening (.ofNat n :: acc) rest := by
  rw [unitEscape, List.cons_append, List.cons_append, readText, if_neg (not_short h hrest),
    take_hexDigits h, unit?_hexDigits h, drop_hexDigits h]
  dsimp only
  split
  · rename_i hhigh
    obtain ⟨unit, hunit, hlow⟩ := hsingle hhigh
    rw [hunit]
    cases unit with
    | none => rfl
    | some low => simp only [hlow low rfl, Bool.false_eq_true, if_false]
  · rfl

theorem readText_pair {low : Nat} (hn : 0xD800 ≤ n ∧ n ≤ 0xDBFF)
    (hlow : 0xDC00 ≤ low ∧ low ≤ 0xDFFF) (hrest : rest ≠ []) :
    readText opening acc (unitEscape n ++ (unitEscape low ++ rest)) =
      readText opening (.ofNat (0x10000 + (n - 0xD800) * 0x400 + (low - 0xDC00)) :: acc) rest := by
  have hne : unitEscape low ++ rest ≠ [] := List.cons_ne_nil _ _
  have hn' : n < 0x10000 := by omega
  have hlow' : low < 0x10000 := by omega
  have hdrop : (Text.hexDigits 4 n ++ (unitEscape low ++ rest)).drop 10 = rest := by
    have hten : 10 = 4 + 6 := rfl
    rw [hten, ← List.drop_drop, drop_hexDigits hn', unitEscape, List.cons_append, List.cons_append]
    exact drop_hexDigits hlow'
  rw [unitEscape, List.cons_append, List.cons_append, readText, if_neg (not_short hn' hne),
    take_hexDigits hn', unit?_hexDigits hn', drop_hexDigits hn', secondUnit_unitEscape hlow' hrest,
    hdrop]
  simp [hn.1, hn.2, hlow.1, hlow.2]

end

theorem readText_escape (c : Char) {rest : List Char} (hrest : rest ≠ []) (opening : Nat)
    (acc : List CodePoint) :
    readText opening acc (escape c ++ rest) = readText opening (.ofChar c :: acc) rest := by
  have hsurrogate := CodePoint.not_surrogate c
  have hpoint : CodePoint.ofNat c.toNat = .ofChar c := CodePoint.ofNat_toNat (.ofChar c)
  unfold escape
  split
  · rename_i h
    rw [Bool.or_eq_true, decide_eq_true_eq, decide_eq_true_eq] at h
    rcases h with rfl | rfl <;> simp [readText, shortEscape?]
  split
  · rename_i h
    subst h
    simp [readText, shortEscape?]
  split
  · rename_i h
    subst h
    simp [readText, shortEscape?]
  split
  · rename_i h
    subst h
    simp [readText, shortEscape?]
  split
  · rename_i h
    obtain rfl : c = Char.ofNat 8 := by rw [← h, Char.ofNat_toNat]
    simp [readText, shortEscape?]
  split
  · rename_i h
    obtain rfl : c = Char.ofNat 12 := by rw [← h, Char.ofNat_toNat]
    simp [readText, shortEscape?]
  split
  · rename_i hquote _ _ _ _ _ h
    simp only [Bool.and_eq_true, decide_eq_true_eq, Bool.or_eq_true, not_or] at h hquote
    rw [List.singleton_append, readText, if_neg (by omega)]
    · exact hquote.1
    · exact fun h _ => hquote.2 h
    · exact fun _ h _ => hquote.2 h
    · exact fun _ _ h _ => hquote.2 h
  split
  · rename_i h
    rw [readText_unitEscape h hrest, hpoint]
    intro hhigh
    simp only [Bool.and_eq_true, decide_eq_true_eq] at hhigh
    omega
  · rename_i h
    have hlt : c.toNat < 0x110000 := (CodePoint.ofChar c).lt
    have hvalue : 0x10000 + (0xD800 + (c.toNat - 0x10000) / 0x400 - 0xD800) * 0x400 +
        (0xDC00 + (c.toNat - 0x10000) % 0x400 - 0xDC00) = c.toNat := by omega
    dsimp only
    rw [List.append_assoc, readText_pair (by omega) (by omega) hrest, hvalue, hpoint]

theorem unpaired_unitEscape {n : Nat} {rest : List Char} (h : n < 0x10000) (hrest : rest ≠ [])
    (hn : (0xDC00 ≤ n && n ≤ 0xDFFF) = false) : Unpaired (unitEscape n ++ rest) := by
  refine ⟨some n, secondUnit_unitEscape h hrest, fun low hlow => ?_⟩
  cases hlow
  exact hn

theorem unpaired_escape (c : Char) {rest : List Char} (hrest : rest ≠ []) :
    Unpaired (escape c ++ rest) := by
  have hsurrogate := CodePoint.not_surrogate c
  have hshort {d : Char} (hd : d ≠ 'u') : Unpaired ('\\' :: d :: rest) := by
    refine ⟨none, ?_, fun _ h => nomatch h⟩
    unfold secondUnit
    split
    · rename_i heq
      cases heq
      exact absurd rfl hd
    · rfl
  unfold escape
  split
  · rename_i h
    rw [Bool.or_eq_true, decide_eq_true_eq, decide_eq_true_eq] at h
    rcases h with rfl | rfl <;> exact hshort (by decide)
  rename_i hquote
  split
  · exact hshort (by decide)
  split
  · exact hshort (by decide)
  split
  · exact hshort (by decide)
  split
  · exact hshort (by decide)
  split
  · exact hshort (by decide)
  split
  · apply unpaired_of_ne
    rintro rfl
    exact hquote rfl
  split
  · rename_i h
    apply unpaired_unitEscape h hrest
    simp only [Bool.and_eq_false_iff, decide_eq_false_iff_not]
    omega
  · have hlt : c.toNat < 0x110000 := (CodePoint.ofChar c).lt
    dsimp only
    rw [List.append_assoc]
    apply unpaired_unitEscape (by omega) (List.cons_ne_nil _ _)
    simp only [Bool.and_eq_false_iff, decide_eq_false_iff_not]
    omega

theorem unpaired_points {ps : List CodePoint} (h : ∀ p ∈ ps.head?, p.isLow = false)
    (rest : List Char) : Unpaired (ps.flatMap escapePoint ++ '"' :: rest) := by
  cases ps with
  | nil => exact unpaired_of_ne (by decide)
  | cons p ps =>
    have hne : ps.flatMap escapePoint ++ '"' :: rest ≠ [] := by simp
    rw [List.flatMap_cons, List.append_assoc, escapePoint]
    cases hp : p.char? with
    | some c => exact unpaired_escape c hne
    | none =>
      have := CodePoint.isSurrogate hp
      exact unpaired_unitEscape (by omega) hne (h p rfl)

/-- A text is read back up to its closing quote, unless halves of a pair stand side by side in
it. -/
theorem readText_points {ps : List CodePoint} (h : Text.Joined ⟨ps⟩) (rest : List Char)
    (opening : Nat) (acc : List CodePoint) :
    readText opening acc (ps.flatMap escapePoint ++ '"' :: rest) =
      .ok (ps.reverse ++ acc, rest) := by
  induction ps generalizing acc with
  | nil => simp [readText]
  | cons p ps ih =>
    obtain ⟨hhead, htail⟩ := List.isChain_cons.1 h
    have hne : ps.flatMap escapePoint ++ '"' :: rest ≠ [] := by simp
    have hread : readText opening acc (escapePoint p ++ (ps.flatMap escapePoint ++ '"' :: rest)) =
        readText opening (p :: acc) (ps.flatMap escapePoint ++ '"' :: rest) := by
      rw [escapePoint]
      cases hp : p.char? with
      | some c =>
        rw [CodePoint.eq_ofChar hp]
        exact readText_escape c hne opening acc
      | none =>
        have hlt := CodePoint.isSurrogate hp
        dsimp only
        rw [readText_unitEscape (by omega) hne, CodePoint.ofNat_toNat]
        intro hhigh
        exact unpaired_points (fun q hq => Bool.eq_false_iff.2 fun hlow =>
          hhead q hq ⟨hhigh, hlow⟩) rest
    rw [List.flatMap_cons, List.append_assoc, hread, ih htail, List.reverse_cons, List.append_assoc]
    rfl

@[simp] theorem toList_quote (t : Text) :
    (quote t).toList = '"' :: (t.points.flatMap escapePoint ++ ['"']) := by
  have hpush (cs : List Char) (s : String) : (cs.foldl String.push s).toList = s.toList ++ cs := by
    induction cs generalizing s with
    | nil => simp
    | cons c cs ih =>
      rw [List.foldl_cons, ih]
      simp
  have hfold (ps : List CodePoint) (s : String) :
      (ps.foldl (fun (acc : String) p => (escapePoint p).foldl String.push acc) s).toList =
        s.toList ++ ps.flatMap escapePoint := by
    induction ps generalizing s with
    | nil => simp
    | cons p ps ih =>
      rw [List.foldl_cons, ih, hpush, List.flatMap_cons, List.append_assoc]
  rw [quote, String.toList_push, hfold]
  rfl

theorem isPlain_of_mem_unitEscape {n : Nat} (h : n < 0x10000) {c : Char} (hc : c ∈ unitEscape n) :
    Text.isPlain c = true := by
  have hdigit : ∀ k < 16, Text.isPlain k.digitChar = true := by decide
  rw [unitEscape, Text.hexDigits_four h] at hc
  simp only [List.mem_cons, List.not_mem_nil, or_false] at hc
  rcases hc with rfl | rfl | rfl | rfl | rfl | rfl
  · rfl
  · rfl
  · exact hdigit _ (by omega)
  · exact hdigit _ (by omega)
  · exact hdigit _ (by omega)
  · exact hdigit _ (by omega)

theorem isPlain_of_mem_escape {c d : Char} (h : d ∈ escape c) : Text.isPlain d = true := by
  have hlt : c.toNat < 0x110000 := (CodePoint.ofChar c).lt
  unfold escape at h
  split at h
  · rename_i hc
    rw [Bool.or_eq_true, decide_eq_true_eq, decide_eq_true_eq] at hc
    simp only [List.mem_cons, List.not_mem_nil, or_false] at h
    rcases hc with rfl | rfl <;> rcases h with rfl | rfl <;> rfl
  split at h
  · exact List.all_eq_true.1 rfl d h
  split at h
  · exact List.all_eq_true.1 rfl d h
  split at h
  · exact List.all_eq_true.1 rfl d h
  split at h
  · exact List.all_eq_true.1 rfl d h
  split at h
  · exact List.all_eq_true.1 rfl d h
  split at h
  · rename_i hc
    rw [List.mem_singleton] at h
    rw [h]
    exact hc
  split at h
  · rename_i hc
    exact isPlain_of_mem_unitEscape hc h
  · rcases List.mem_append.1 h with h | h
    · exact isPlain_of_mem_unitEscape (by omega) h
    · exact isPlain_of_mem_unitEscape (by omega) h

theorem isPlain_of_mem_quote {t : Text} {c : Char} (h : c ∈ (quote t).toList) :
    Text.isPlain c = true := by
  rw [toList_quote, List.mem_cons, List.mem_append, List.mem_singleton, List.mem_flatMap] at h
  rcases h with rfl | ⟨p, -, hc⟩ | rfl
  · rfl
  · rw [escapePoint] at hc
    cases hp : p.char? with
    | some d =>
      rw [hp] at hc
      exact isPlain_of_mem_escape hc
    | none =>
      rw [hp] at hc
      have := CodePoint.isSurrogate hp
      exact isPlain_of_mem_unitEscape (by omega) hc
  · rfl

/-- Code points in reverse, among which no halves of a pair stand side by side, and what comes next
is no second half for a first half that stands last. -/
structure Pending (acc : List CodePoint) (cs : List Char) : Prop where
  joined : acc.IsChain fun q p => ¬ (p.isHigh = true ∧ q.isLow = true)
  next : ∀ p ∈ acc.head?, p.isHigh = true → ∀ low, secondUnit cs = .ok (some low) →
    (0xDC00 ≤ low && low ≤ 0xDFFF) = false

theorem Pending.push {acc : List CodePoint} {cs rest : List Char} {q : CodePoint}
    (h : Pending acc cs) (hlow : ∀ p ∈ acc.head?, p.isHigh = true → q.isLow = false)
    (hhigh : q.isHigh = true → ∀ low, secondUnit rest = .ok (some low) →
      (0xDC00 ≤ low && low ≤ 0xDFFF) = false) : Pending (q :: acc) rest := by
  refine ⟨List.isChain_cons.2 ⟨fun p hp hpair => ?_, h.joined⟩, fun p hp => ?_⟩
  · rw [hlow p hp hpair.1] at hpair
    exact Bool.false_ne_true hpair.2
  · cases hp
    exact hhigh

theorem not_low_of_high {n : Nat} (h : (0xD800 ≤ n && n ≤ 0xDBFF) = true) :
    (0xDC00 ≤ n && n ≤ 0xDFFF) = false := by
  simp only [Bool.and_eq_true, decide_eq_true_eq] at h
  simp only [Bool.and_eq_false_iff, decide_eq_false_iff_not]
  omega

theorem joined_readText {opening : Nat} {acc v : List CodePoint} {cs rest : List Char}
    (h : readText opening acc cs = .ok (v, rest)) (hacc : Pending acc cs) :
    Text.Joined ⟨v.reverse⟩ := by
  fun_induction readText opening acc cs with
  | case1 | case3 | case4 | case5 | case6 | case11 | case13 => cases h
  | case2 acc rest =>
    cases h
    exact List.isChain_reverse.2 hacc.joined
  | case7 acc more _ n _ hhigh hunit ih =>
    refine ih h (hacc.push (fun _ _ _ => ?_) fun _ low hlow => ?_)
    · rw [CodePoint.isLow_ofNat]
      exact not_low_of_high hhigh
    · rw [hunit] at hlow
      cases hlow
  | case8 acc more _ n _ hhigh low hunit hlow p ih =>
    simp only [Bool.and_eq_true, decide_eq_true_eq] at hhigh hlow
    refine ih h (hacc.push (fun _ _ _ => ?_) fun hp => ?_)
    · rw [CodePoint.isLow_ofNat, Bool.and_eq_false_iff, decide_eq_false_iff_not,
        decide_eq_false_iff_not]
      omega
    · rw [CodePoint.isHigh_ofNat, Bool.and_eq_true, decide_eq_true_eq, decide_eq_true_eq] at hp
      omega
  | case9 acc more _ n _ hhigh low hunit hlow ih =>
    refine ih h (hacc.push (fun _ _ _ => ?_) fun _ low' hlow' => ?_)
    · rw [CodePoint.isLow_ofNat]
      exact not_low_of_high hhigh
    · rw [hunit] at hlow'
      cases hlow'
      exact Bool.eq_false_iff.2 hlow
  | case10 acc more hshort n hn hhigh ih =>
    have hunit : secondUnit ('\\' :: 'u' :: more) = .ok (some n) := by
      simp only [secondUnit, if_neg hshort, hn]
    refine ih h (hacc.push (fun p hp hhigh' => ?_) fun hq => ?_)
    · rw [CodePoint.isLow_ofNat]
      exact hacc.next p hp hhigh' n hunit
    · rw [CodePoint.isHigh_ofNat] at hq
      exact absurd hq hhigh
  | case12 | case14 =>
    rename_i ih
    refine ih h (hacc.push (fun _ _ _ => CodePoint.isLow_ofChar _) fun hq => ?_)
    rw [CodePoint.isHigh_ofChar] at hq
    cases hq

theorem pending_start (cs : List Char) : Pending [] cs := ⟨.nil, fun _ h => nomatch h⟩

end Json

end Brushwork
