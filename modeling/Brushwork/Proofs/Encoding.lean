import Brushwork.Base64
import Brushwork.Canvas.Grid
import Brushwork.Machine.Snapshot
import Brushwork.Proofs.Evaluation

/-!
# What is written is read back

Bytes come back from base64 digits, a grid from its bytes, bytes from the grid they were read onto,
and a state from its JSON form, there without its labels. Variables are read back one by one, each
behind those before it, which keeps their order since no name is there twice.
-/

namespace Brushwork

namespace Base64

theorem digitValue?_digit : ∀ n < 64, digitValue? (digit n) = some n := by decide

theorem digit_ne_pad : ∀ n < 64, digit n ≠ '=' := by decide

theorem digit_ascii : ∀ n < 64, (digit n).toNat < 128 := by decide

def digits : List UInt8 → List Char
  | a :: b :: c :: bs =>
    let n := a.toNat * 65536 + b.toNat * 256 + c.toNat
    digit (n / 262144) :: digit (n / 4096 % 64) :: digit (n / 64 % 64) :: digit
      (n % 64) :: digits bs
  | [a, b] =>
    let n := a.toNat * 256 + b.toNat
    [digit (n / 1024), digit (n / 16 % 64), digit (n % 16 * 4), '=']
  | [a] => [digit (a.toNat / 4), digit (a.toNat % 4 * 16), '=', '=']
  | [] => []

@[simp] theorem toList_encodeOnto (acc : String) (bs : List UInt8) :
    (encodeOnto acc bs).toList = acc.toList ++ digits bs := by
  fun_induction encodeOnto acc bs with
  | case1 acc a b c bs n ih =>
    rw [ih]
    simp [digits, n]
  | case2 acc a b n => simp [digits, n]
  | case3 acc a => simp [digits]
  | case4 acc => simp [digits]

theorem digits_ascii {bs : List UInt8} {c : Char} (h : c ∈ digits bs) : c.toNat < 128 := by
  fun_induction digits bs with
  | case1 a b d bs n ih =>
    have := a.toNat_lt
    have := b.toNat_lt
    have := d.toNat_lt
    simp only [List.mem_cons] at h
    rcases h with rfl | rfl | rfl | rfl | h
    · exact digit_ascii _ (by omega)
    · exact digit_ascii _ (by omega)
    · exact digit_ascii _ (by omega)
    · exact digit_ascii _ (by omega)
    · exact ih h
  | case2 a b n =>
    have := a.toNat_lt
    have := b.toNat_lt
    simp only [List.mem_cons, List.not_mem_nil, or_false] at h
    rcases h with rfl | rfl | rfl | rfl
    · exact digit_ascii _ (by omega)
    · exact digit_ascii _ (by omega)
    · exact digit_ascii _ (by omega)
    · decide
  | case3 a =>
    have := a.toNat_lt
    simp only [List.mem_cons, List.not_mem_nil, or_false] at h
    rcases h with rfl | rfl | rfl | rfl
    · exact digit_ascii _ (by omega)
    · exact digit_ascii _ (by omega)
    · decide
    · decide
  | case4 => cases h

theorem decodeFrom_digit {n : Nat} (hn : n < 64) (bs : Bytes) (p : Pending) (pads : Nat)
    (cs : List Char) :
    decodeFrom bs p pads (digit n :: cs) = decodeFrom (p.feed bs n).1 (p.feed bs n).2 0 cs := by
  conv => lhs; unfold decodeFrom
  rw [if_neg (digit_ne_pad n hn), digitValue?_digit n hn]

theorem decodeFrom_digits (bs : Bytes) (cs : List UInt8) :
    ∀ pads, decodeFrom bs .none pads (digits cs) = .ok (bs ++ cs.toArray) := by
  fun_induction digits cs generalizing bs with
  | case1 a b c cs n ih =>
    intro pads
    have ha := a.toNat_lt
    have hb := b.toNat_lt
    have hc := c.toNat_lt
    rw [decodeFrom_digit (by omega), decodeFrom_digit (by omega), decodeFrom_digit (by omega),
      decodeFrom_digit (by omega)]
    simp only [Pending.feed]
    have h₁ : n / 262144 * 4 + n / 4096 % 64 / 16 = a.toNat := by omega
    have h₂ : n / 4096 % 64 % 16 * 16 + n / 64 % 64 / 4 = b.toNat := by omega
    have h₃ : n / 64 % 64 % 4 * 64 + n % 64 = c.toNat := by omega
    rw [h₁, h₂, h₃, ih]
    simp
  | case2 a b n =>
    intro pads
    have ha := a.toNat_lt
    have hb := b.toNat_lt
    rw [decodeFrom_digit (by omega), decodeFrom_digit (by omega), decodeFrom_digit (by omega)]
    simp only [Pending.feed]
    have h₁ : n / 1024 * 4 + n / 16 % 64 / 16 = a.toNat := by omega
    have h₂ : n / 16 % 64 % 16 * 16 + n % 16 * 4 / 4 = b.toNat := by omega
    rw [h₁, h₂]
    simp only [UInt8.ofNat_toNat, decodeFrom, if_true]
    exact congrArg _ (Array.toList_inj.1 (by simp))
  | case3 a =>
    intro pads
    have ha := a.toNat_lt
    rw [decodeFrom_digit (by omega), decodeFrom_digit (by omega)]
    simp only [Pending.feed]
    have h₁ : a.toNat / 4 * 4 + a.toNat % 4 * 16 / 16 = a.toNat := by omega
    rw [h₁]
    simp [decodeFrom]
  | case4 => simp [decodeFrom]

@[simp] theorem decode_encode (bs : Bytes) : decode (encode bs) = .ok bs := by
  have hdigits : (encode bs).toList = digits bs.toList := toList_encodeOnto "" bs.toList
  have hascii : (digits bs.toList).all (fun c => c.toNat < 128) = true := by
    rw [List.all_eq_true]
    intro c hc
    exact decide_eq_true (digits_ascii hc)
  simp only [decode, Text.ofString, hdigits, Text.chars?_ofChars, hascii, if_true,
    decodeFrom_digits]
  simp

end Base64

namespace Grid

@[simp] theorem toList_toBytes (g : Grid) :
    g.toBytes.toList = g.cells.toList.flatMap Rgba.bytes := by
  have hfold : ∀ (cs : List Rgba) (bs : Bytes),
      (cs.foldl (fun bs c => bs.appendList c.bytes) bs).toList =
        bs.toList ++ cs.flatMap Rgba.bytes := by
    intro cs
    induction cs with
    | nil => simp
    | cons c cs ih =>
      intro bs
      rw [List.foldl_cons, ih]
      simp
  rw [toBytes, ← Array.foldl_toList, hfold]
  exact List.nil_append _

@[simp] theorem length_flatMap_bytes (cs : List Rgba) :
    (cs.flatMap Rgba.bytes).length = cs.length * 4 := by
  induction cs with
  | nil => rfl
  | cons c cs ih =>
    rw [List.flatMap_cons, List.length_append, ih]
    simp [Rgba.bytes]
    omega

/-- The bytes of a pixel stand together, four places for each pixel before it. -/
theorem drop_flatMap_bytes (cs : List Rgba) (i : Nat) (h : i < cs.length) :
    (cs.flatMap Rgba.bytes).drop (4 * i) = cs[i].bytes ++ (cs.drop (i + 1)).flatMap Rgba.bytes := by
  induction cs generalizing i with
  | nil => cases h
  | cons c cs ih =>
    cases i with
    | zero => rfl
    | succ i =>
      have hi : i < cs.length := Nat.lt_of_succ_lt_succ h
      have hdrop : 4 * (i + 1) = c.bytes.length + 4 * i := by simp [Rgba.bytes]; omega
      rw [List.flatMap_cons, hdrop, List.drop_length_add_append]
      exact ih i hi

@[simp] theorem size_toBytes (g : Grid) : g.toBytes.size = g.width * g.height * 4 := by
  rw [← Array.length_toList, toList_toBytes, length_flatMap_bytes]
  simp

theorem getElem?_toBytes (g : Grid) {i k : Nat} (hi : i < g.width * g.height) (hk : k < 4) :
    g.toBytes[4 * i + k]? = g.cells[i].bytes[k]? := by
  have hlength : i < g.cells.toList.length := by simpa using hi
  have hk' : k < g.cells[i].bytes.length := hk
  rw [← Array.getElem?_toList, toList_toBytes, ← List.getElem?_drop, drop_flatMap_bytes _ _ hlength,
    List.getElem?_append_left (by simpa using hk')]
  simp

theorem getD_toBytes (g : Grid) {i k : Nat} (hi : i < g.width * g.height) (hk : k < 4) :
    g.toBytes.getD (4 * i + k) 0 = g.cells[i].bytes.getD k 0 := by
  rw [Array.getD_eq_getD_getElem?, List.getD_eq_getElem?_getD, getElem?_toBytes g hi hk]

theorem load?_toBytes {g g' : Grid} (hwidth : g'.width = g.width) (hheight : g'.height = g.height) :
    g'.load? g.toBytes = some g := by
  obtain ⟨width, height, cells⟩ := g
  obtain ⟨width', height', cells'⟩ := g'
  obtain rfl : width' = width := hwidth
  obtain rfl : height' = height := hheight
  rw [load?, if_pos (size_toBytes _)]
  congr 2
  apply Vector.ext
  intro i hi
  have hbyte := @getD_toBytes ⟨width', height', cells⟩ i
  rw [Vector.getElem_ofFn]
  have h₀ := hbyte hi (k := 0) (by decide)
  have h₁ := hbyte hi (k := 1) (by decide)
  have h₂ := hbyte hi (k := 2) (by decide)
  have h₃ := hbyte hi (k := 3) (by decide)
  rw [Nat.add_zero] at h₀
  rw [h₀, h₁, h₂, h₃]
  rfl

theorem size_of_load? {g g' : Grid} {bs : Bytes} (h : g.load? bs = some g') :
    g'.width = g.width ∧ g'.height = g.height ∧ bs.size = g.width * g.height * 4 := by
  unfold load? at h
  split at h
  · rename_i hsize
    cases h
    exact ⟨rfl, rfl, hsize⟩
  · cases h

theorem bytes_of_load? {g g' : Grid} {bs : Bytes} (h : g.load? bs = some g') {i k : Nat}
    (hi : i < g'.width * g'.height) (hk : k < 4) : g'.cells[i].bytes[k]? = bs[4 * i + k]? := by
  obtain ⟨-, -, hsize⟩ := size_of_load? h
  rw [load?, if_pos hsize] at h
  cases h
  have hpixel : i < g.width * g.height := hi
  have hlt : 4 * i + k < bs.size := by omega
  have hbyte : bs[4 * i + k]? = some (bs.getD (4 * i + k) 0) := by
    rw [Array.getD_eq_getD_getElem?, Array.getElem?_eq_getElem hlt, Option.getD_some]
  rw [hbyte, Vector.getElem_ofFn]
  rcases (by omega : k = 0 ∨ k = 1 ∨ k = 2 ∨ k = 3) with rfl | rfl | rfl | rfl <;> rfl

theorem toBytes_of_load? {g g' : Grid} {bs : Bytes} (h : g.load? bs = some g') :
    g'.toBytes = bs := by
  obtain ⟨hwidth, hheight, hsize⟩ := size_of_load? h
  rw [← hwidth, ← hheight] at hsize
  apply Array.ext_getElem?
  intro j
  -- byte number `j` is component `k` of pixel `i`
  obtain ⟨i, k, hk, rfl⟩ : ∃ i k, k < 4 ∧ j = 4 * i + k :=
    ⟨j / 4, j % 4, Nat.mod_lt j (by decide), (Nat.div_add_mod j 4).symm⟩
  by_cases hi : i < g'.width * g'.height
  · rw [getElem?_toBytes g' hi hk, bytes_of_load? h hi hk]
  · have hbehind : g'.width * g'.height * 4 ≤ 4 * i + k := by omega
    rw [Array.getElem?_eq_none (by rwa [size_toBytes]), Array.getElem?_eq_none (by rwa [hsize])]

/-- The components of the pixel at a point stand in a row, at four times the number of its cell. -/
theorem getElem?_toBytes_of_get? {g : Grid} {x y : Int} {color : Rgba} (h : g.get? x y = some color)
    {k : Nat} (hk : k < 4) : g.toBytes[4 * g.cell x y + k]? = color.bytes[k]? := by
  unfold get? at h
  split at h
  · rename_i hinside
    cases h
    exact getElem?_toBytes g (cell_lt hinside) hk
  · cases h

end Grid

namespace Draw

theorem load_of_some {e : Easel} {bs : Bytes} {g : Grid} (h : e.canvas.grid.load? bs = some g) :
    load bs e = .ok () ⟨⟨g, e.canvas.brush⟩, e.pen⟩ := by
  simp only [load, h]

theorem load_of_none {e : Easel} {bs : Bytes} (h : e.canvas.grid.load? bs = none) :
    load bs e = .error (.byteCount (e.canvas.grid.width * e.canvas.grid.height * 4) bs.size) e := by
  simp only [load, h]

/-- The pixels of a grid are written row by row, four bytes to a pixel, and read back onto every
canvas of its size. Each byte string of the right length is read, and written again as it was; one
of any other length is refused, and the canvas stays as it is. -/
theorem buffer_round_trips (g : Grid) :
    g.toBytes.size = 4 * g.width * g.height ∧
      (∀ x y : Nat, x < g.width → y < g.height → ∃ color, g.get? x y = some color ∧
        ∀ k < 4, g.toBytes[4 * (y * g.width + x) + k]? = color.bytes[k]?) ∧
      ∀ e : Easel, e.canvas.grid.width = g.width → e.canvas.grid.height = g.height →
        load g.toBytes e = .ok () ⟨⟨g, e.canvas.brush⟩, e.pen⟩ ∧
        ∀ bs : Bytes,
          (bs.size = 4 * g.width * g.height →
            ∃ g' : Grid, load bs e = .ok () ⟨⟨g', e.canvas.brush⟩, e.pen⟩ ∧
              g'.width = g.width ∧ g'.height = g.height ∧ g'.toBytes = bs) ∧
          (bs.size ≠ 4 * g.width * g.height →
            load bs e = .error (.byteCount (g.width * g.height * 4) bs.size) e) := by
  have harea : g.width * g.height * 4 = 4 * g.width * g.height := by
    rw [Nat.mul_comm, Nat.mul_assoc]
  refine ⟨(Grid.size_toBytes g).trans harea, ?_, ?_⟩
  · intro x y hx hy
    have hinside : g.Inside x y :=
      ⟨⟨Int.natCast_nonneg x, Int.ofNat_lt.2 hx⟩, Int.natCast_nonneg y, Int.ofNat_lt.2 hy⟩
    cases hcolor : g.get? x y with
    | none => exact absurd hinside (Grid.get?_eq_none_iff.1 hcolor)
    | some color => exact ⟨color, rfl, fun k hk => Grid.getElem?_toBytes_of_get? hcolor hk⟩
  · intro e hwidth hheight
    refine ⟨load_of_some (Grid.load?_toBytes hwidth hheight), fun bs =>
      ⟨fun hsize => ?_, fun hsize => ?_⟩⟩
    · have hfits : bs.size = e.canvas.grid.width * e.canvas.grid.height * 4 := by
        rw [hsize, hwidth, hheight, harea]
      obtain ⟨g', hg'⟩ : ∃ g', e.canvas.grid.load? bs = some g' := ⟨_, if_pos hfits⟩
      obtain ⟨hwidth', hheight', -⟩ := Grid.size_of_load? hg'
      exact ⟨g', load_of_some hg', hwidth'.trans hwidth, hheight'.trans hheight,
        Grid.toBytes_of_load? hg'⟩
    · have hmisfits : bs.size ≠ e.canvas.grid.width * e.canvas.grid.height * 4 := by
        rwa [hwidth, hheight, harea]
      rw [load_of_none (if_neg hmisfits), hwidth, hheight]

/-- The blue component of the second pixel of a row stands at offset six, and a row of two pixels is
not read from seven bytes. -/
theorem row_round_trips :
    let g : Grid := (Grid.blank 2 1).put 1 0 ⟨1, 2, 3, 4⟩
    let e : Easel := ⟨{ grid := .blank 2 1 }, {}⟩
    (e.canvas.grid.width = g.width ∧ e.canvas.grid.height = g.height) ∧
      g.toBytes[4 * (0 * g.width + 1) + 2]? = some 3 ∧
      load g.toBytes e = .ok () ⟨⟨g, e.canvas.brush⟩, e.pen⟩ ∧
      (∃ g' : Grid, load #[0, 1, 2, 3, 4, 5, 6, 7] e = .ok () ⟨⟨g', e.canvas.brush⟩, e.pen⟩ ∧
        g'.toBytes = #[0, 1, 2, 3, 4, 5, 6, 7]) ∧
      load #[0, 1, 2, 3, 4, 5, 6] e = .error (.byteCount (g.width * g.height * 4) 7) e := by
  intro g e
  obtain ⟨-, hoffset, hload⟩ := buffer_round_trips g
  obtain ⟨hback, hbytes⟩ := hload e rfl rfl
  obtain ⟨color, hcolor, hcomponent⟩ := hoffset 1 0 (by decide) (by decide)
  obtain ⟨g', hg', -, -, hsame⟩ := (hbytes #[0, 1, 2, 3, 4, 5, 6, 7]).1 rfl
  refine ⟨⟨rfl, rfl⟩, ?_, hback, ⟨g', hg', hsame⟩, (hbytes #[0, 1, 2, 3, 4, 5, 6]).2 (by decide)⟩
  have hpixel : g.get? 1 0 = some ⟨1, 2, 3, 4⟩ := rfl
  cases hpixel.symm.trans hcolor
  exact hcomponent 2 (by decide)

end Draw

namespace Table

variable {κ α : Type} [DecidableEq κ]

theorem put_of_notMem {name : κ} {es : List (κ × α)} (h : name ∉ es.map Prod.fst) (a : α) :
    put name a es = es ++ [(name, a)] := by
  induction es with
  | nil => rfl
  | cons e es ih =>
    rw [List.map_cons, List.mem_cons, not_or] at h
    rw [put, if_neg (by simpa using h.1), ih h.2]
    rfl

theorem map_fst_put (name : κ) (a : α) (es : List (κ × α)) :
    (put name a es).map Prod.fst =
      if name ∈ es.map Prod.fst then es.map Prod.fst else es.map Prod.fst ++ [name] := by
  by_cases h : name ∈ es.map Prod.fst
  · rw [if_pos h]
    induction es with
    | nil => cases h
    | cons e es ih =>
      by_cases he : name = e.1
      · simp [put, he]
      · have htail : name ∈ es.map Prod.fst := by simpa [he] using h
        simp [put, he, ih htail]
  · rw [if_neg h, put_of_notMem h]
    simp

def Distinct (t : Table κ α) : Prop := (t.entries.map Prod.fst).Nodup

omit [DecidableEq κ] in
theorem distinct_empty : (empty : Table κ α).Distinct := List.nodup_nil

theorem Distinct.insert {t : Table κ α} (h : t.Distinct) (name : κ) (a : α) :
    (t.insert name a).Distinct := by
  unfold Distinct Table.insert
  rw [map_fst_put]
  split
  · exact h
  · rename_i hname
    rw [List.nodup_append]
    refine ⟨h, by simp, ?_⟩
    rintro x hx y hy rfl
    rw [List.mem_singleton] at hy
    exact hname (hy ▸ hx)

end Table

namespace Machine.State

theorem setVariables_toJson (s : State) (es : List (Text × Value))
    (h : ((s.values.entries ++ es).map Prod.fst).Nodup) :
    s.setVariables (es.map fun (name, v) => (name, v.toJson)) =
      .ok { s with values := ⟨s.values.entries ++ es⟩ } := by
  induction es generalizing s with
  | nil => simp [setVariables]
  | cons e es ih =>
    obtain ⟨name, v⟩ := e
    have hname : name ∉ s.values.entries.map Prod.fst := by
      intro hmem
      rw [List.map_append, List.nodup_append] at h
      exact h.2.2 name hmem name (by simp) rfl
    have hset : (s.setVariable name v).values.entries = s.values.entries ++ [(name, v)] :=
      Table.put_of_notMem hname v
    rw [List.map_cons, setVariables, Value.ofJson_toJson]
    refine (ih (s.setVariable name v) ?_).trans ?_
    · rw [hset, List.append_assoc]
      exact h
    · rw [hset, List.append_assoc]
      rfl

/-- A state comes back without its labels. -/
theorem ofJson_toJson {s : State} (h : s.values.Distinct) :
    ofJson s.toJson = .ok { s with labels := .empty } := by
  have hfields : ofJson s.toJson =
      setVariables
      { pen := s.pen, lastLine := s.lastLine, spawned := s.spawned, pointer := s.pointer }
        (s.values.entries.map fun (name, v) => (name, v.toJson)) := by
    rfl
  rw [hfields]
  exact setVariables_toJson _ _ h

end Machine.State

end Brushwork
