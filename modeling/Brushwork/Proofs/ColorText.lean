import Brushwork.Proofs.Easel
import Mathlib.Data.List.Forall2
import Mathlib.Data.List.TakeWhile

/-!
# Texts of colours

The text of a pixel is read back as the pixel. Reading drops the blanks around a text first and the
quotes around the rest next, so that both may be added to the text in this order; each digit may be
in lower case, and the last two may be missing. What is stored of a text that was read has no blanks
and quotes at its ends, and is read and stored as it is.
-/

namespace Brushwork

namespace Text

variable {p : Char → Bool} {before cs after : List Char}

theorem trim_append (hbefore : ∀ c ∈ before, p c = true) (hcs : ∀ c ∈ cs, p c = false)
    (hafter : ∀ c ∈ after, p c = true) : trim p (before ++ cs ++ after) = cs := by
  rw [trim, List.append_assoc, List.dropWhile_append_of_pos hbefore]
  cases cs with
  | nil =>
    rw [List.nil_append, List.dropWhile_eq_nil_iff.2 hafter]
    rfl
  | cons c cs =>
    have hfirst : ((c :: cs) ++ after).dropWhile p = (c :: cs) ++ after :=
      List.dropWhile_cons_of_neg (by simp [hcs c List.mem_cons_self])
    rw [hfirst, List.reverse_append, List.dropWhile_append_of_pos (by simpa using hafter),
      dropWhile_eq_self fun d hd => hcs d (List.mem_reverse.1 hd), List.reverse_reverse]

/-- A digit as it is or in lower case. -/
def Recased (d d' : Char) : Prop := d' = d ∨ d' = d.toLower

theorem hexValue?_upperHexDigit : ∀ n < 16, hexValue? (upperHexDigit n) = some n := by decide

theorem hexValue?_toLower_upperHexDigit :
    ∀ n < 16, hexValue? (upperHexDigit n).toLower = some n := by decide

theorem hexValue?_of_recased {n : Nat} (hn : n < 16) {d : Char} (h : Recased (upperHexDigit n) d) :
    hexValue? d = some n := by
  rcases h with rfl | rfl
  · exact hexValue?_upperHexDigit n hn
  · exact hexValue?_toLower_upperHexDigit n hn

theorem hexByte?_of_recased {b : UInt8} {c d : Char} (hc : Recased (upperHexDigit (b.toNat / 16)) c)
    (hd : Recased (upperHexDigit (b.toNat % 16)) d) : hexByte? c d = some b := by
  have hb := b.toNat_lt
  have hvalue : 16 * (b.toNat / 16) + b.toNat % 16 = b.toNat := Nat.div_add_mod b.toNat 16
  rw [hexByte?, hexValue?_of_recased (by omega) hc,
    hexValue?_of_recased (Nat.mod_lt _ (by decide)) hd]
  simp only [hvalue, UInt8.ofNat_toNat]

theorem hexValue?_lt {c : Char} {n : Nat} (h : hexValue? c = some n) : n < 16 := by
  unfold hexValue? at h
  split at h
  · rename_i hdigit
    cases h
    simp only [Char.isDigit, Bool.and_eq_true, decide_eq_true_eq] at hdigit
    have hhigh : c.toNat ≤ 57 := UInt32.le_iff_toNat_le.1 hdigit.2
    omega
  · split at h
    · rename_i hsmall
      cases h
      simp only [Bool.and_eq_true, decide_eq_true_eq] at hsmall
      have hhigh : c.toNat ≤ 102 := UInt32.le_iff_toNat_le.1 hsmall.2
      omega
    · split at h
      · rename_i hcapital
        cases h
        simp only [Bool.and_eq_true, decide_eq_true_eq] at hcapital
        have hhigh : c.toNat ≤ 70 := UInt32.le_iff_toNat_le.1 hcapital.2
        omega
      · cases h

theorem hexByte?_eq_some {a b : Char} {n : UInt8} (h : hexByte? a b = some n) :
    ∃ k l, hexValue? a = some k ∧ hexValue? b = some l ∧ n.toNat = 16 * k + l := by
  unfold hexByte? at h
  split at h
  · rename_i k l ha hb
    cases h
    have hk := hexValue?_lt ha
    have hl := hexValue?_lt hb
    have hsize : 16 * k + l < 256 := by omega
    exact ⟨k, l, ha, hb, UInt8.toNat_ofNat_of_lt' hsize⟩
  · cases h

def hexPairs? : List Char → Option (List Nat)
  | a :: b :: cs =>
    match hexValue? a, hexValue? b, hexPairs? cs with
    | some k, some l, some ns => some ((16 * k + l) :: ns)
    | _, _, _ => none
  | [_] => none
  | [] => some []

theorem hexPairs?_cons {a b : Char} {n : UInt8} {cs : List Char} {ns : List Nat}
    (h : hexByte? a b = some n) (hns : hexPairs? cs = some ns) :
    hexPairs? (a :: b :: cs) = some (n.toNat :: ns) := by
  obtain ⟨k, l, ha, hb, hn⟩ := hexByte?_eq_some h
  rw [hexPairs?, ha, hb, hns, hn]

end Text

namespace Rgba

open Text

variable {color : Rgba} {cs ds before after : List Char}

def wrapped (before : List Char) (m : Nat) (cs : List Char) (n : Nat) (after : List Char) : Text :=
  .ofChars (before ++ (List.replicate m '"' ++ cs ++ List.replicate n '"') ++ after)

theorem bareChars_wrapped (hbefore : ∀ c ∈ before, isBlank c = true)
    (hcs : ∀ c ∈ cs, isEdge c = false) (hafter : ∀ c ∈ after, isBlank c = true) (m n : Nat) :
    bareChars (before ++ (List.replicate m '"' ++ cs ++ List.replicate n '"') ++ after) = cs := by
  have hquote (k : Nat) : ∀ c ∈ List.replicate k '"', decide (c = '"') = true := by
    intro c hc
    exact decide_eq_true (List.eq_of_mem_replicate hc)
  have hinner : ∀ c ∈ List.replicate m '"' ++ cs ++ List.replicate n '"', isBlank c = false := by
    intro c hc
    simp only [List.mem_append, List.mem_replicate] at hc
    rcases hc with (⟨-, rfl⟩ | hc) | ⟨-, rfl⟩
    · decide
    · exact (Bool.or_eq_false_iff.1 (hcs c hc)).1
    · decide
  have hcore : ∀ c ∈ cs, decide (c = '"') = false := by
    intro c hc
    exact (Bool.or_eq_false_iff.1 (hcs c hc)).2
  rw [bareChars, trim_append hbefore hinner hafter, trim_append (hquote m) hcore (hquote n)]

/-- No palette name starts with the sign. -/
@[simp] theorem lookup_palette_sign (cs : List Char) : palette.lookup ('#' :: cs) = none := by
  have hall : (palette.all fun e => e.1.head? != some '#') = true := by decide
  rw [List.lookup_eq_none_iff]
  intro e he
  have hhead := List.all_eq_true.1 hall e he
  rw [bne_iff_ne] at hhead ⊢
  rintro heq
  exact hhead (by rw [← heq]; rfl)

theorem ofText?_wrapped (hdigits : ofDigits? ('#' :: ds) = some color)
    (hbefore : ∀ c ∈ before, isBlank c = true) (hafter : ∀ c ∈ after, isBlank c = true)
    (m n : Nat) : ofText? (wrapped before m ('#' :: ds) n after) = some color := by
  have hbare := bareChars_wrapped hbefore (isEdge_of_ofDigits? hdigits) hafter m n
  have hsign : smallLetter '#' = '#' := rfl
  rw [ofText?, wrapped, chars?_ofChars, Option.bind_some, ofChars?, hbare, List.map_cons, hsign,
    lookup_palette_sign]
  exact hdigits

theorem ofDigits?_of_recased (h : List.Forall₂ Recased color.digits ds) :
    ofDigits? ('#' :: ds) = some color ∧
      ofDigits? ('#' :: ds.take 6) = some { color with alpha := 255 } := by
  obtain ⟨r, g, b, a⟩ := color
  rcases h with _ | ⟨h₁, _ | ⟨h₂, _ | ⟨h₃, _ | ⟨h₄, _ | ⟨h₅, _ | ⟨h₆, _ | ⟨h₇, _ | ⟨h₈, ⟨⟩⟩⟩⟩⟩⟩⟩⟩⟩
  have hred := hexByte?_of_recased h₁ h₂
  have hgreen := hexByte?_of_recased h₃ h₄
  have hblue := hexByte?_of_recased h₅ h₆
  have halpha := hexByte?_of_recased h₇ h₈
  constructor
  · simp only [ofDigits?, hred, hgreen, hblue, halpha]
  · simp only [List.take, ofDigits?, hred, hgreen, hblue]

/-- The components of a colour that was read from digits are the numbers of their pairs, alpha 255
if it is missing. -/
theorem hexPairs?_of_ofDigits? (h : ofDigits? cs = some color) :
    ∃ ds ns, cs = '#' :: ds ∧ hexPairs? ds = some ns ∧
      color.bytes.map UInt8.toNat = (ns ++ [255]).take 4 := by
  unfold ofDigits? at h
  split at h
  · split at h
    · rename_i hred hgreen hblue
      cases h
      exact ⟨_, _, rfl, hexPairs?_cons hred (hexPairs?_cons hgreen (hexPairs?_cons hblue rfl)), rfl⟩
    · cases h
  · split at h
    · rename_i hred hgreen hblue halpha
      cases h
      exact ⟨_, _, rfl,
        hexPairs?_cons hred
          (hexPairs?_cons hgreen (hexPairs?_cons hblue (hexPairs?_cons halpha rfl))), rfl⟩
    · cases h
  · cases h

theorem recased_self (color : Rgba) : List.Forall₂ Recased color.digits color.digits :=
  List.forall₂_same.2 fun _ _ => Or.inl rfl

@[simp] theorem ofText?_text (color : Rgba) : ofText? color.text = some color := by
  have hplain : Text.ofString color.text = wrapped [] 0 ('#' :: color.digits) 0 [] := by
    simp only [Text.ofString, text, String.toList_ofList, wrapped, List.replicate_zero,
      List.nil_append, List.append_nil]
  rw [hplain]
  exact ofText?_wrapped (ofDigits?_of_recased color.recased_self).1 (by simp) (by simp) 0 0

theorem text_inj {color color' : Rgba} (h : color.text = color'.text) : color = color' := by
  have hread := ofText?_text color
  rw [h, ofText?_text] at hread
  exact (Option.some.inj hread).symm

end Rgba

theorem Canvas.colorText_of_pixel {c : Canvas} {x y : Int} {color : Rgba}
    (h : c.pixel x y = .ok color) : c.colorText x y = .ok color.text := by
  rw [colorText, h]
  rfl

namespace Rgba

/-- The text of a pixel is a sign with eight digits, and is read as the colour of the pixel, also
with digits in lower case, with quotes around it and with blanks around the quotes; without the last
two digits the colour is opaque. Pixels of different colours have different texts. A text that is
read as a colour is the name of a palette colour or tells the components, none above 255, by pairs
of digits; what a brush stores of it is read as the same colour, and setting the brush by what it
has stored changes nothing. -/
theorem color_texts_round_trip :
    (∀ (c : Canvas) (x y : Int) (color : Rgba), c.pixel x y = .ok color →
      ∃ (t : String) (digits : List Char), c.colorText x y = .ok t ∧ ofText? t = some color ∧
        t.toList = '#' :: digits ∧ digits.length = 8 ∧
        ∀ ds, List.Forall₂ Text.Recased digits ds → ∀ (before after : List Char) (m n : Nat),
          (∀ a ∈ before, Text.isBlank a = true) → (∀ a ∈ after, Text.isBlank a = true) →
          ofText? (wrapped before m ('#' :: ds) n after) = some color ∧
          ofText? (wrapped before m ('#' :: ds.take 6) n after) =
            some { color with alpha := 255 }) ∧
    (∀ (c c' : Canvas) (x y x' y' : Int) (color color' : Rgba), c.pixel x y = .ok color →
      c'.pixel x' y' = .ok color' → color ≠ color' → c.colorText x y ≠ c'.colorText x' y') ∧
    ∀ (v : Text) (color : Rgba), ofText? v = some color →
      (∃ cs, v.chars? = some cs ∧ (palette.lookup ((bareChars cs).map smallLetter) = some color ∨
        ∃ ds ns, bareChars cs = '#' :: ds ∧ Text.hexPairs? ds = some ns ∧
          color.bytes.map UInt8.toNat = (ns ++ [255]).take 4)) ∧
      (∀ b ∈ color.bytes, b.toNat ≤ 255) ∧ ofText? (bare v) = some color ∧
      ∀ e : Easel, ∃ e' : Easel, Draw.setColor v e = .ok () e' ∧ e'.canvas.brush.color = color ∧
        e'.pen.color = bare v ∧ Draw.setColor (bare v) e' = .ok () e' := by
  refine ⟨?_, ?_, ?_⟩
  · intro c x y color hpixel
    refine ⟨color.text, color.digits, Canvas.colorText_of_pixel hpixel, ofText?_text color,
      String.toList_ofList, rfl, ?_⟩
    intro ds hds before after m n hbefore hafter
    obtain ⟨hall, hsix⟩ := ofDigits?_of_recased hds
    exact ⟨ofText?_wrapped hall hbefore hafter m n, ofText?_wrapped hsix hbefore hafter m n⟩
  · intro c c' x y x' y' color color' hpixel hpixel' hne hsame
    rw [Canvas.colorText_of_pixel hpixel, Canvas.colorText_of_pixel hpixel'] at hsame
    exact hne (text_inj (Except.ok.inj hsame))
  · intro v color hv
    obtain ⟨hsame, hbare⟩ := ofText?_bare hv
    refine ⟨?_, fun b _ => Nat.le_of_lt_succ b.toNat_lt, hsame, ?_⟩
    · obtain ⟨cs, hcs, hcolor⟩ := Option.bind_eq_some_iff.1 hv
      refine ⟨cs, hcs, ?_⟩
      unfold ofChars? at hcolor
      split at hcolor
      · rename_i hname
        cases hcolor
        exact Or.inl hname
      · exact Or.inr (hexPairs?_of_ofDigits? hcolor)
    · rintro ⟨⟨grid, brush⟩, pen⟩
      refine ⟨_, Draw.setColor_of_color hv grid brush pen, rfl, rfl, ?_⟩
      rw [Draw.setColor_of_color hsame, hbare]

/-- A pixel whose text has letters among its digits, and a name in capitals between blanks and
quotes. -/
theorem letters_round_trip :
    let color : Rgba := ⟨0xAB, 0xCD, 0x0E, 0xF0⟩
    let c : Canvas := { grid := (Grid.blank 2 1).put 1 0 color }
    c.pixel 1 0 = .ok color ∧ c.colorText 1 0 = .ok "#ABCD0EF0" ∧
      ofText? " \"\"#aBCd0eF0\"\t" = some color ∧
      ofText? " \"\"#aBCd0e\"\t" = some { color with alpha := 255 } ∧
      c.colorText 0 0 ≠ c.colorText 1 0 ∧
      ∃ e' : Easel, Draw.setColor " \"BLACK\"" ⟨c, {}⟩ = .ok () e' ∧ e'.pen.color = "BLACK" ∧
        Draw.setColor "BLACK" e' = .ok () e' := by
  intro color c
  obtain ⟨hread, hdistinct, hstored⟩ := color_texts_round_trip
  have hpixel : c.pixel 1 0 = .ok color := rfl
  have htext : c.colorText 1 0 = .ok "#ABCD0EF0" :=
    (Canvas.colorText_of_pixel hpixel).trans (congrArg Except.ok (by decide))
  obtain ⟨t, digits, ht, -, hdigits, -, hforms⟩ := hread c 1 0 color hpixel
  obtain rfl : "#ABCD0EF0" = t := Except.ok.inj (htext.symm.trans ht)
  obtain rfl : ['A', 'B', 'C', 'D', '0', 'E', 'F', '0'] = digits := (List.cons.inj hdigits).2
  have hrecased : List.Forall₂ Text.Recased ['A', 'B', 'C', 'D', '0', 'E', 'F', '0']
      ['a', 'B', 'C', 'd', '0', 'e', 'F', '0'] :=
    .cons (.inr rfl)
      (.cons (.inl rfl) (.cons (.inl rfl) (.cons (.inr rfl) (.cons (.inl rfl) (.cons (.inr rfl)
        (.cons (.inl rfl) (.cons (.inl rfl) .nil)))))))
  obtain ⟨hall, hsix⟩ := hforms _ hrecased [' '] ['\t'] 2 1 (List.forall_mem_singleton.2 rfl)
    (List.forall_mem_singleton.2 rfl)
  have hblack : ofText? " \"BLACK\"" = some black := by decide
  obtain ⟨-, -, -, hset⟩ := hstored " \"BLACK\"" black hblack
  obtain ⟨e', hfirst, -, hpen, hagain⟩ := hset ⟨c, {}⟩
  refine ⟨hpixel, htext, hall, hsix, ?_, e', hfirst, hpen, hagain⟩
  exact hdistinct c c 0 0 1 0 white color rfl hpixel (by decide)

end Rgba

end Brushwork
