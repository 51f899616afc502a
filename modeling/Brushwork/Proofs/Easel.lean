import Brushwork.Proofs.Effect

/-!
# Pen and brush

A pen keeps the text of a colour without blanks and quotes around it, and an odd size. The bare text
of a colour is bare already, and an odd size stands for itself, so the brush that is resolved from a
pen is the one that the pen was set with. Drawings keep pen and brush in agreement, and all that
moving and painting do to a grid is to put pixels.
-/

namespace Brushwork

namespace Text

theorem dropWhile_eq_self {p : Char → Bool} {cs : List Char} (h : ∀ c ∈ cs, p c = false) :
    cs.dropWhile p = cs := by
  cases cs with
  | nil => rfl
  | cons c cs => simp [h c List.mem_cons_self]

theorem trim_eq_self {p : Char → Bool} {cs : List Char} (h : ∀ c ∈ cs, p c = false) :
    trim p cs = cs := by
  rw [trim, dropWhile_eq_self h, dropWhile_eq_self (by simpa using h), List.reverse_reverse]

end Text

namespace Rgba

def isEdge (c : Char) : Bool := Text.isBlank c || c = '"'

theorem bareChars_eq_self {cs : List Char} (h : ∀ c ∈ cs, isEdge c = false) :
    bareChars cs = cs := by
  have hblank : ∀ c ∈ cs, Text.isBlank c = false := by
    intro c hc
    exact (Bool.or_eq_false_iff.1 (h c hc)).1
  have hquote : ∀ c ∈ cs, decide (c = '"') = false := by
    intro c hc
    exact (Bool.or_eq_false_iff.1 (h c hc)).2
  rw [bareChars, Text.trim_eq_self hblank, Text.trim_eq_self hquote]

theorem toNat_of_isEdge {c : Char} (h : isEdge c = true) :
    c.toNat < 0x23 ∨ 0x7F < c.toNat ∧ c.toNat ≠ 0x212A := by
  simp only [isEdge, Text.isBlank, Bool.or_eq_true, Bool.and_eq_true, decide_eq_true_eq,
    beq_iff_eq] at h
  rcases h with h | rfl
  · omega
  · decide

theorem smallLetter_of_isEdge {c : Char} (h : isEdge c = true) : smallLetter c = c := by
  have hc := toNat_of_isEdge h
  have hkelvin : c.toNat ≠ 0x212A := by omega
  have hcapital : ¬ (c.val ≥ 'A'.val ∧ c.val ≤ 'Z'.val) := by
    rintro ⟨hlow, hhigh⟩
    have hlow' : 65 ≤ c.toNat := UInt32.le_iff_toNat_le.1 hlow
    have hhigh' : c.toNat ≤ 90 := UInt32.le_iff_toNat_le.1 hhigh
    omega
  rw [smallLetter, if_neg hkelvin]
  exact dif_neg hcapital

theorem isEdge_of_hexValue? {c : Char} {n : Nat} (h : Text.hexValue? c = some n) :
    isEdge c = false := by
  rw [Bool.eq_false_iff]
  intro hedge
  have hc := toNat_of_isEdge hedge
  have hdigit : c.isDigit = false := by
    rw [Bool.eq_false_iff]
    intro hd
    simp only [Char.isDigit, Bool.and_eq_true, decide_eq_true_eq] at hd
    have hlow : 48 ≤ c.toNat := UInt32.le_iff_toNat_le.1 hd.1
    have hhigh : c.toNat ≤ 57 := UInt32.le_iff_toNat_le.1 hd.2
    omega
  have hrange : ∀ {a b : Char}, 0x23 ≤ a.toNat → b.toNat ≤ 0x7F → (a ≤ c && c ≤ b) = false := by
    intro a b ha hb
    rw [Bool.eq_false_iff]
    intro hr
    simp only [Bool.and_eq_true, decide_eq_true_eq] at hr
    have hlow : a.toNat ≤ c.toNat := UInt32.le_iff_toNat_le.1 hr.1
    have hhigh : c.toNat ≤ b.toNat := UInt32.le_iff_toNat_le.1 hr.2
    omega
  rw [Text.hexValue?, hdigit, hrange (a := 'a') (b := 'f') (by decide) (by decide),
    hrange (a := 'A') (b := 'F') (by decide) (by decide)] at h
  cases h

theorem isEdge_of_mem_palette {e : List Char × Rgba} (he : e ∈ palette) {c : Char} (hc : c ∈ e.1) :
    isEdge c = false := by
  have hall : (palette.all fun e => e.1.all fun c => !isEdge c) = true := by decide
  simpa using List.all_eq_true.1 (List.all_eq_true.1 hall e he) c hc

theorem isEdge_of_hexByte? {a b : Char} {n : UInt8} (h : Text.hexByte? a b = some n) :
    isEdge a = false ∧ isEdge b = false := by
  unfold Text.hexByte? at h
  split at h
  · rename_i ha hb
    exact ⟨isEdge_of_hexValue? ha, isEdge_of_hexValue? hb⟩
  · cases h

theorem isEdge_of_ofDigits? {cs : List Char} {color : Rgba} (h : ofDigits? cs = some color) :
    ∀ c ∈ cs, isEdge c = false := by
  have hsign : isEdge '#' = false := by decide
  unfold ofDigits? at h
  split at h
  · split at h
    · rename_i hred hgreen hblue
      obtain ⟨ha, hb⟩ := isEdge_of_hexByte? hred
      obtain ⟨hc, hd⟩ := isEdge_of_hexByte? hgreen
      obtain ⟨he, hf⟩ := isEdge_of_hexByte? hblue
      simp [hsign, ha, hb, hc, hd, he, hf]
    · cases h
  · split at h
    · rename_i hred hgreen hblue halpha
      obtain ⟨ha, hb⟩ := isEdge_of_hexByte? hred
      obtain ⟨hc, hd⟩ := isEdge_of_hexByte? hgreen
      obtain ⟨he, hf⟩ := isEdge_of_hexByte? hblue
      obtain ⟨hg, hh⟩ := isEdge_of_hexByte? halpha
      simp [hsign, ha, hb, hc, hd, he, hf, hg, hh]
    · cases h
  · cases h

theorem isEdge_of_ofChars? {cs : List Char} {color : Rgba} (h : ofChars? cs = some color) :
    ∀ c ∈ bareChars cs, isEdge c = false := by
  unfold ofChars? at h
  split at h
  · rename_i name hname
    intro c hc
    rw [Bool.eq_false_iff]
    intro hedge
    have hmem := List.mem_map_of_mem (f := smallLetter) hc
    rw [smallLetter_of_isEdge hedge] at hmem
    obtain ⟨before, after, hpalette, -⟩ := List.lookup_eq_some_iff.1 hname
    have hnamed : ((bareChars cs).map smallLetter, name) ∈ palette := by
      rw [hpalette]
      simp
    have hentry := isEdge_of_mem_palette hnamed hmem
    rw [hedge] at hentry
    cases hentry
  · exact isEdge_of_ofDigits? h

/-- The bare form of the text of a colour is the text of the same colour, and bare already. -/
theorem ofText?_bare {t : Text} {color : Rgba} (h : ofText? t = some color) :
    ofText? (bare t) = some color ∧ bare (bare t) = bare t := by
  obtain ⟨cs, hcs, hcolor⟩ := Option.bind_eq_some_iff.1 h
  have hbare : bare t = .ofChars (bareChars cs) := by rw [bare, hcs]
  have hfixed := bareChars_eq_self (isEdge_of_ofChars? hcolor)
  rw [hbare, ofText?, bare, Text.chars?_ofChars]
  refine ⟨?_, ?_⟩
  · simp only [Option.bind_some, ofChars?, hfixed]
    exact hcolor
  · simp only [hfixed]

end Rgba

namespace Grid

/-- A property of grids that putting a pixel keeps. -/
def Steady (P : Grid → Prop) : Prop := ∀ (g : Grid) (x y : Int) (c : Rgba), P g → P (g.put x y c)

variable {P : Grid → Prop} {g : Grid}

theorem overRange_induct {σ : Type} {f : σ → Int → σ} {Q : σ → Prop}
    (hf : ∀ {s : σ} (i : Int), Q s → Q (f s i)) (first : Int) (count : Nat) {s : σ} (hs : Q s) :
    Q (overRange f first count s) := by
  induction count generalizing first s with
  | zero => exact hs
  | succ n ih => exact ih (first + 1) (hf first hs)

theorem steady_size (width height : Nat) : Steady fun g => g.width = width ∧ g.height = height := by
  rintro g x y c ⟨hwidth, hheight⟩
  exact ⟨(width_put g x y c).trans hwidth, (height_put g x y c).trans hheight⟩

namespace Steady

theorem stamp (hP : Steady P) (c : Rgba) (reach x y : Int) (hg : P g) :
    P (g.stamp c reach x y) := by
  apply overRange_induct _ _ _ hg
  intro g v hg
  split
  · apply overRange_induct _ _ _ hg
    intro g u hg
    exact hP g u v c hg
  · exact hg

theorem stamps (hP : Steady P) (p : Int → Int → Prop) [∀ u v, Decidable (p u v)] (c : Rgba)
    (reach x y u0 u1 v0 v1 : Int) (hg : P g) : P (g.stamps p c reach x y u0 u1 v0 v1) := by
  apply overRange_induct _ _ _ hg
  intro g v hg
  apply overRange_induct _ _ _ hg
  intro g u hg
  split
  · exact hP.stamp c reach _ _ hg
  · exact hg

theorem flood (hP : Steady P) (old new : Rgba) (marks : Array Bool) (queue : Queue (Int × Int))
    (hg : P g) : P (g.flood old new marks queue) := by
  fun_induction Grid.flood old new marks g queue with
  | case1 => exact hg
  | case2 marks g queue x y waiting _ _ _ ih => exact ih (hP g x y new hg)
  | case3 _ _ _ _ _ _ _ _ _ ih => exact ih hg
  | case4 _ _ _ _ _ _ _ _ ih => exact ih hg

theorem fill (hP : Steady P) (x y : Int) (new : Rgba) (hg : P g) : P (g.fill x y new) := by
  unfold Grid.fill
  split
  · exact hg
  · split
    · exact hg
    · exact hP.flood _ _ _ _ hg

end Steady

end Grid

/-- What moving and painting leave as it was: the brush, the part of the pen it comes from, and of
the grid all that putting pixels keeps. -/
structure Easel.Touched (e e' : Easel) : Prop where
  brush : e'.canvas.brush = e.canvas.brush
  color : e'.pen.color = e.pen.color
  size : e'.pen.size = e.pen.size
  grid : ∀ {P : Grid → Prop}, Grid.Steady P → P e.canvas.grid → P e'.canvas.grid

theorem Easel.Touched.trans {e e' e'' : Easel} (h : e.Touched e') (h' : e'.Touched e'') :
    e.Touched e'' :=
  ⟨h'.brush.trans h.brush, h'.color.trans h.color, h'.size.trans h.size,
    fun hP hg => h'.grid hP (h.grid hP hg)⟩

namespace Draw

def Touches (d : Draw Unit) : Prop := ∀ e e', d e = .ok () e' → e.Touched e'

theorem Touches.bind {d d' : Draw Unit} (h : Touches d) (h' : Touches d') : Touches (do d; d') := by
  intro e e' he
  simp only [Bind.bind, EStateM.bind] at he
  split at he
  · rename_i e₁ hok
    exact (h _ _ hok).trans (h' _ _ he)
  · cases he

theorem IsCheck.touches {d : Draw Unit} (h : IsCheck d) : Touches d := by
  intro e e' he
  rw [h.passed he]
  exact ⟨rfl, rfl, rfl, fun _ hg => hg⟩

theorem touches_throw (fault : Canvas.Fault) : Touches (throw fault) := by
  intro e e' he
  cases he

theorem touches_setCursor (x y : Int) : Touches (setCursor x y) := by
  intro e e' he
  cases he
  exact ⟨rfl, rfl, rfl, fun _ hg => hg⟩

theorem touches_moveBy (dx dy : Int) : Touches (moveBy dx dy) := by
  intro e e' he
  cases he
  exact ⟨rfl, rfl, rfl, fun _ hg => hg⟩

theorem touches_paint {f : Brush → Pen → Grid → Grid}
    (hf : ∀ {P : Grid → Prop} (brush : Brush) (pen : Pen) {g : Grid}, Grid.Steady P → P g →
      P (f brush pen g)) : Touches (paint f) := by
  rintro ⟨⟨grid, brush⟩, pen⟩ e' he
  cases he
  dsimp only
  by_cases hpaints : brush.paints
  · rw [if_pos hpaints]
    exact ⟨rfl, rfl, rfl, fun hP hg => hf brush pen hP hg⟩
  · rw [if_neg hpaints]
    exact ⟨rfl, rfl, rfl, fun _ hg => hg⟩

theorem touches_steps (dx dy : Int) (n : Nat) : Touches (steps dx dy n) := by
  induction n with
  | zero =>
    intro e e' he
    cases he
    exact ⟨rfl, rfl, rfl, fun _ hg => hg⟩
  | succ n ih =>
    apply Touches.bind (touches_paint _) ((touches_moveBy dx dy).bind ih)
    intro P brush pen g hP hg
    exact hP.stamp _ _ _ _ hg

theorem touches_line (dx dy length : Int) : Touches (line dx dy length) :=
  (isCheck_requireDirection dx dy).touches.bind (touches_steps dx dy length.toNat)

theorem touches_rectangle (dx dy distance width height : Int) :
    Touches (rectangle dx dy distance width height) := by
  apply (isCheck_requireDirection dx dy).touches.bind
  apply (touches_moveBy _ _).bind
  apply touches_paint
  intro P brush pen g hP hg
  exact hP.stamps _ _ _ _ _ _ _ _ _ hg

theorem touches_circle (dx dy radius : Int) : Touches (circle dx dy radius) := by
  apply (isCheck_requireDirection dx dy).touches.bind
  split
  · exact touches_throw _
  · apply (isCheck_requireMeasurable radius).touches.bind
    apply (touches_moveBy _ _).bind
    apply touches_paint
    intro P brush pen g hP hg
    exact hP.stamps _ _ _ _ _ _ _ _ _ hg

theorem touches_fill : Touches fill := by
  apply touches_paint
  intro P brush pen g hP hg
  exact hP.fill _ _ _ hg

end Draw

theorem Draw.oddSize_spec {n : Int} (h : 0 < n) : 0 < oddSize n ∧ oddSize n % 2 = 1 := by
  unfold oddSize
  split <;> omega

/-- Pen and brush agree: the pen has the bare text of the brush's colour, and its odd size. -/
structure Easel.Bound (e : Easel) : Prop where
  color : Rgba.ofText? e.pen.color = some e.canvas.brush.color
  bare : Rgba.bare e.pen.color = e.pen.color
  size : e.pen.size = e.canvas.brush.size
  pos : 0 < e.pen.size
  odd : e.pen.size % 2 = 1

theorem Draw.setColor_of_color {text : Text} {color : Rgba} (h : Rgba.ofText? text = some color)
    (grid : Grid) (brush : Brush) (pen : Pen) : setColor text ⟨⟨grid, brush⟩, pen⟩ =
      .ok () ⟨⟨grid, { brush with color }⟩, { pen with color := Rgba.bare text }⟩ := by
  rw [setColor, h]
  rfl

/-- A pen is taken over if its text names a colour and its size is positive; then the brush is the
one of the pen. -/
theorem Draw.adopt_ok_iff {pen : Pen} {e e' : Easel} : adopt pen e = .ok () e' ↔
    ∃ color, Rgba.ofText? pen.color = some color ∧ 0 < pen.size ∧
      e' = ⟨⟨e.canvas.grid, ⟨color, oddSize pen.size⟩⟩,
        { pen with color := Rgba.bare pen.color, size := oddSize pen.size }⟩ := by
  obtain ⟨⟨grid, brush⟩, old⟩ := e
  have hadopt : adopt pen ⟨⟨grid, brush⟩, old⟩ =
      (do setColor pen.color; setSize pen.size) ⟨⟨grid, brush⟩, pen⟩ := rfl
  rw [hadopt, setColor, setSize]
  constructor
  · intro h
    cases hcolor : Rgba.ofText? pen.color with
    | none =>
      rw [hcolor] at h
      cases h
    | some color =>
      rw [hcolor] at h
      by_cases hsize : pen.size ≤ 0
      · rw [if_pos hsize] at h
        cases h
      · rw [if_neg hsize] at h
        cases h
        exact ⟨color, rfl, Int.not_le.1 hsize, rfl⟩
  · rintro ⟨color, hcolor, hsize, rfl⟩
    rw [hcolor, if_neg (Int.not_le.2 hsize)]
    rfl

namespace Easel.Bound

theorem touched {e e' : Easel} (h : e.Bound) (ht : e.Touched e') : e'.Bound := by
  obtain ⟨hcolor, hbare, hsize, hpos, hodd⟩ := h
  rw [← ht.color] at hcolor hbare
  rw [← ht.size] at hsize hpos hodd
  rw [← ht.brush] at hcolor hsize
  exact ⟨hcolor, hbare, hsize, hpos, hodd⟩

theorem setColor {e e' : Easel} {text : Text} (h : e.Bound)
    (hd : Draw.setColor text e = .ok () e') : e'.Bound ∧ e'.canvas.grid = e.canvas.grid := by
  rw [Draw.setColor] at hd
  cases hcolor : Rgba.ofText? text with
  | none =>
    rw [hcolor] at hd
    cases hd
  | some color =>
    rw [hcolor] at hd
    cases hd
    obtain ⟨hsame, hbare⟩ := Rgba.ofText?_bare hcolor
    exact ⟨⟨hsame, hbare, h.size, h.pos, h.odd⟩, rfl⟩

theorem setSize {e e' : Easel} {n : Int} (h : e.Bound) (hd : Draw.setSize n e = .ok () e') :
    e'.Bound ∧ e'.canvas.grid = e.canvas.grid := by
  rw [Draw.setSize] at hd
  by_cases hpositive : n ≤ 0
  · rw [if_pos hpositive] at hd
    cases hd
  · rw [if_neg hpositive] at hd
    cases hd
    obtain ⟨hpos, hodd⟩ := Draw.oddSize_spec (Int.not_le.1 hpositive)
    exact ⟨⟨h.color, h.bare, rfl, hpos, hodd⟩, rfl⟩

/-- Any canvas takes over the brush that a pen agrees with. -/
theorem adopt {grid grid' : Grid} {brush brush' : Brush} {pen : Pen}
    (h : Easel.Bound ⟨⟨grid, brush⟩, pen⟩) :
    Draw.adopt pen ⟨⟨grid', brush'⟩, pen⟩ = .ok () ⟨⟨grid', brush⟩, pen⟩ := by
  have hodd : pen.size % 2 = 1 := h.odd
  have hpos : 0 < pen.size := h.pos
  have hsize : Draw.oddSize pen.size = brush.size := by
    rw [Draw.oddSize, if_neg (by omega)]
    exact h.size
  have hbare : Rgba.bare pen.color = pen.color := h.bare
  have hcolor : Rgba.ofText? pen.color = some brush.color := h.color
  have hsame : { pen with size := brush.size } = pen := by rw [← h.size]
  refine Draw.adopt_ok_iff.2 ⟨brush.color, hcolor, hpos, ?_⟩
  rw [hbare, hsize]
  exact congrArg (Easel.mk ⟨grid', brush⟩) hsame.symm

end Easel.Bound

theorem Easel.bound_fresh (grid : Grid) : Easel.Bound ⟨⟨grid, {}⟩, {}⟩ := by
  have hcolor : Rgba.ofText? ({} : Pen).color = some ({} : Brush).color := by decide
  have hbare : Rgba.bare ({} : Pen).color = ({} : Pen).color := by decide
  exact ⟨hcolor, hbare, rfl, Int.one_pos, rfl⟩

namespace Machine

theorem attach_ok_iff {s : State} {c : Canvas} {m : Machine} : attach ⟨s, c⟩ = .ok () m ↔
    ∃ color, Rgba.ofText? s.pen.color = some color ∧ 0 < s.pen.size ∧
      m = ⟨{ s with
          pen := { s.pen with color := Rgba.bare s.pen.color, size := Draw.oddSize s.pen.size } },
        ⟨c.grid, ⟨color, Draw.oddSize s.pen.size⟩⟩⟩ := by
  constructor
  · intro h
    simp only [attach] at h
    split at h
    · rename_i hadopt
      obtain ⟨color, hcolor, hsize, he⟩ := Draw.adopt_ok_iff.1 hadopt
      cases he
      cases h
      exact ⟨color, hcolor, hsize, rfl⟩
    · cases h
  · rintro ⟨color, hcolor, hsize, rfl⟩
    have hadopt := (Draw.adopt_ok_iff (e := ⟨c, s.pen⟩)).2 ⟨color, hcolor, hsize, rfl⟩
    simp only [attach, hadopt]

/-- A drawing keeps pen and brush in agreement, and of the grid all that putting pixels keeps. -/
theorem Drawing.bound {b : Builtin} {vs : List Value} {d : Draw Unit} {e e' : Easel}
    (h : Drawing b vs d) (hd : d e = .ok () e') (he : e.Bound) :
    e'.Bound ∧ ∀ {P : Grid → Prop}, Grid.Steady P → P e.canvas.grid → P e'.canvas.grid := by
  have htouched : ∀ {d' : Draw Unit}, d'.Touches → d' e = .ok () e' →
      e'.Bound ∧ ∀ {P : Grid → Prop}, Grid.Steady P → P e.canvas.grid → P e'.canvas.grid := by
    intro d' ht hd'
    exact ⟨he.touched (ht e e' hd'), (ht e e' hd').grid⟩
  cases h with
  | color text =>
    obtain ⟨hbound, hgrid⟩ := he.setColor hd
    exact ⟨hbound, fun _ hg => hgrid ▸ hg⟩
  | size n =>
    obtain ⟨hbound, hgrid⟩ := he.setSize hd
    exact ⟨hbound, fun _ hg => hgrid ▸ hg⟩
  | line dx dy length => exact htouched (Draw.touches_line dx dy length) hd
  | circle dx dy radius => exact htouched (Draw.touches_circle dx dy radius) hd
  | rectangle dx dy distance width height =>
    exact htouched (Draw.touches_rectangle dx dy distance width height) hd
  | fill => exact htouched Draw.touches_fill hd
  | setCursor x y => exact htouched (Draw.touches_setCursor x y) hd

end Machine

/-- An easel on which pen and brush agree, with a grid of a given size. -/
structure Easel.Fit (width height : Nat) (e : Easel) : Prop where
  bound : e.Bound
  width : e.canvas.grid.width = width
  height : e.canvas.grid.height = height

theorem Easel.Fit.drawing {width height : Nat} {e e' : Easel} (h : e.Fit width height) {b : Builtin}
    {vs : List Value} {d : Draw Unit} (hd : Machine.Drawing b vs d) (hok : d e = .ok () e') :
    e'.Fit width height := by
  obtain ⟨hbound, hgrid⟩ := hd.bound hok h.bound
  obtain ⟨hwidth, hheight⟩ := hgrid (Grid.steady_size width height) ⟨h.width, h.height⟩
  exact ⟨hbound, hwidth, hheight⟩

namespace Machine

def Fit (width height : Nat) (m : Machine) : Prop := Easel.Fit width height ⟨m.canvas, m.state.pen⟩

theorem Effect.fit {s : Tree} {m m' : Machine} {target : Option Int} {width height : Nat}
    (h : Effect s m target m') (hm : m.Fit width height) : m'.Fit width height := by
  cases h with
  | spawn _ =>
    obtain ⟨⟨hcolor, hbare, hsize, hpos, hodd⟩, hwidth, hheight⟩ := hm
    exact ⟨⟨hcolor, hbare, hsize, hpos, hodd⟩, hwidth, hheight⟩
  | instruct _ _ _ drawing drawn => exact Easel.Fit.drawing hm drawing drawn
  | assign | query | pass | jump | label => exact hm

end Machine

end Brushwork
