import Brushwork.Proofs.Evaluation
import Mathlib.Algebra.Ring.Parity
import Mathlib.Data.Int.ModEq

/-!
# Arithmetic modulo 2 ^ 32

Wrapping picks one number out of each class modulo `2 ^ 32`. Signs, sums, differences, products and
powers respect these classes, so it does not matter where in an expression wrapping happens: one
wrap of the exact value is enough. Quotients do not respect them. Yet one quotient alone falls out
of the range, and even there quotient and remainder make up the dividend. A power with a negative
exponent is a quotient too, of one by the exact power, and nearly always zero.
-/

namespace Brushwork

namespace Int32

variable {a b n : Int}

def Fits (n : Int) : Prop := least ≤ n ∧ n ≤ greatest

instance : DecidablePred Fits := fun n => inferInstanceAs (Decidable (least ≤ n ∧ n ≤ greatest))

theorem fits_wrap (n : Int) : Fits (wrap n) := ⟨least_le_wrap n, wrap_le_greatest n⟩

theorem wrap_of_fits (h : Fits n) : wrap n = n := wrap_eq_self h.1 h.2

theorem wrap_modEq (n : Int) : wrap n ≡ n [ZMOD modulus] := by
  have hclass := (Int.mod_modEq (n - least) modulus).add_right least
  rwa [sub_add_cancel] at hclass

theorem wrap_congr (h : a ≡ b [ZMOD modulus]) : wrap a = wrap b :=
  congrArg (· + least) (h.sub_right least)

theorem powMod_eq (m base exponent : Nat) : powMod m base exponent = base ^ exponent % m := by
  fun_induction powMod m base exponent with
  | case1 base => rw [pow_zero]
  | case2 base exponent _ half heven ih =>
    have hhalves : exponent = 2 * (exponent / 2) := by omega
    calc half = (base * base % m) ^ (exponent / 2) % m := ih
      _ = base ^ (2 * (exponent / 2)) % m := by rw [← Nat.pow_mod, pow_mul, pow_two]
      _ = base ^ exponent % m := by rw [← hhalves]
  | case3 base exponent _ half hodd ih =>
    have hhalves : exponent = 2 * (exponent / 2) + 1 := by omega
    calc half * base % m = (base * base % m) ^ (exponent / 2) % m * base % m := by rw [← ih]
      _ = base ^ (2 * (exponent / 2) + 1) % m := by
        rw [← Nat.pow_mod, Nat.mod_mul_mod, pow_succ, pow_mul, pow_two]
      _ = base ^ exponent % m := by rw [← hhalves]

/-- A power with an exponent that is not negative is the exact one, wrapped once. -/
theorem power?_of_nonneg {base exponent : Int} (h : 0 ≤ exponent) :
    power? base exponent = some (wrap (base ^ exponent.toNat)) := by
  have hbase : ((base % modulus).toNat : Int) = base % modulus :=
    Int.toNat_of_nonneg (Int.emod_nonneg _ (by decide))
  rw [power?, if_pos h, powMod_eq, Int.natCast_mod, Nat.cast_pow, hbase]
  exact congrArg some (wrap_congr ((Int.mod_modEq _ _).trans ((Int.mod_modEq base modulus).pow _)))

theorem quotient?_of_ne_zero (h : b ≠ 0) : quotient? a b = some (a.tdiv b) := by
  rw [quotient?, if_neg h]
  refine congrArg some ?_
  cases a with
  | ofNat a =>
    have ha : ¬ Int.ofNat a < 0 := Int.not_lt.2 (Int.natCast_nonneg a)
    cases b with
    | ofNat b =>
      have hb : ¬ Int.ofNat b < 0 := Int.not_lt.2 (Int.natCast_nonneg b)
      exact if_pos (propext (iff_of_false ha hb))
    | negSucc b =>
      exact if_neg fun hsame => ha (hsame.mpr (Int.negSucc_lt_zero b))
  | negSucc a =>
    have ha : Int.negSucc a < 0 := Int.negSucc_lt_zero a
    cases b with
    | ofNat b =>
      exact if_neg fun hsame => Int.not_lt.2 (Int.natCast_nonneg b) (hsame.mp ha)
    | negSucc b => exact if_pos (propext (iff_of_true ha (Int.negSucc_lt_zero b)))

/-- A power of any number but zero, one and minus one exceeds one, so that nothing is left of its
reciprocal. -/
theorem one_tdiv_pow {k : Nat} (hsize : 1 < a.natAbs) (hk : k ≠ 0) : Int.tdiv 1 (a ^ k) = 0 := by
  have hlarge : 1 < (a ^ k).natAbs := by
    rw [Int.natAbs_pow]
    exact Nat.one_lt_pow hk hsize
  rw [← Int.natAbs_eq_zero, Int.natAbs_tdiv]
  exact Nat.div_eq_of_lt hlarge

/-- A power with a negative exponent is the reciprocal of the exact one, rounded toward zero. -/
theorem power?_of_neg (h : b < 0) (ha : a ≠ 0) :
    power? a b = some (Int.tdiv 1 (a ^ (-b).toNat)) := by
  have hk : (-b).toNat ≠ 0 := by omega
  rw [power?, if_neg (by omega), if_neg ha]
  split_ifs with hone hminus heven
  · rw [hone, one_pow, Int.tdiv_one]
  · have hparity : Even (-b).toNat := Nat.even_iff.2 (by omega)
    rw [hminus, hparity.neg_one_pow, Int.tdiv_one]
  · have hparity : Odd (-b).toNat := Nat.odd_iff.2 (by omega)
    rw [hminus, hparity.neg_one_pow]
    rfl
  · rw [one_tdiv_pow (by omega) hk]

@[simp] theorem power?_eq_none_iff : power? a b = none ↔ b < 0 ∧ a = 0 := by
  constructor
  · intro h
    by_contra hother
    rcases Int.lt_or_le b 0 with hneg | hnonneg
    · rw [power?_of_neg hneg fun ha => hother ⟨hneg, ha⟩] at h
      cases h
    · rw [power?_of_nonneg hnonneg] at h
      cases h
  · rintro ⟨hneg, rfl⟩
    rw [power?, if_neg (by omega), if_pos rfl]

/-- A remainder is never farther from zero than the dividend, and on the same side. -/
theorem fits_tmod (h : Fits a) (b : Int) : Fits (a.tmod b) := by
  have hsize : (a.tmod b).natAbs ≤ a.natAbs := by
    rw [Int.natAbs_tmod]
    exact Nat.mod_le _ _
  obtain ⟨hleast, hgreatest⟩ := h
  unfold Fits
  rcases Int.le_total 0 a with hpos | hneg
  · have hside := Int.tmod_nonneg b hpos
    simp only [least, greatest] at *
    omega
  · have hside := Int.tmod_nonneg b (Int.neg_nonneg_of_nonpos hneg)
    rw [Int.neg_tmod] at hside
    simp only [least, greatest] at *
    omega

theorem fits_tdiv (h : Fits a) (hb : b ≠ 0) (hout : ¬ (a = least ∧ b = -1)) : Fits (a.tdiv b) := by
  obtain ⟨hleast, hgreatest⟩ := h
  by_cases hunit : b.natAbs = 1
  · rcases Int.natAbs_eq_iff.1 hunit with rfl | rfl
    · rw [Nat.cast_one, Int.tdiv_one]
      exact ⟨hleast, hgreatest⟩
    · rw [Nat.cast_one, Int.tdiv_neg, Int.tdiv_one]
      simp only [Fits, least, greatest] at *
      omega
  · have hhalf : (a.tdiv b).natAbs ≤ a.natAbs / 2 := by
      rw [Int.natAbs_tdiv]
      exact Nat.div_le_div_left (by omega) (by decide)
    simp only [Fits, least, greatest] at *
    omega

theorem wrap_tdiv (h : Fits a) (hb : b ≠ 0) :
    wrap (a.tdiv b) = if a = least ∧ b = -1 then least else a.tdiv b := by
  split_ifs with hout
  · obtain ⟨rfl, rfl⟩ := hout
    decide
  · exact wrap_of_fits (fits_tdiv h hb hout)

/-- Any number in the place of the quotient, with what is left of the dividend, makes up the
dividend. -/
theorem wrap_recombine (h : Fits a) (q : Int) :
    wrap (wrap (wrap q * b) + wrap (a - b * q)) = a := by
  have hproduct : wrap (wrap q * b) ≡ q * b [ZMOD modulus] :=
    (wrap_modEq _).trans ((wrap_modEq q).mul_right b)
  have hsum : wrap (wrap q * b) + wrap (a - b * q) ≡ a [ZMOD modulus] := by
    have hparts := hproduct.add (wrap_modEq (a - b * q))
    rwa [mul_comm q b, add_sub_cancel] at hparts
  rw [wrap_congr hsum, wrap_of_fits h]

end Int32

namespace Machine

variable {m : Machine} {l r : Tree} {a b n : Int}

theorem compute_div (h : b ≠ 0) (p : Position) :
    compute .div a b p = .ok (Int32.wrap (a.tdiv b)) := by
  rw [compute, Int32.quotient?_of_ne_zero h]

theorem compute_mod (h : b ≠ 0) (p : Position) :
    compute .mod a b p = .ok (Int32.wrap (a - b * a.tdiv b)) := by
  rw [compute, Int32.quotient?_of_ne_zero h]

theorem compute_pow (h : 0 ≤ b) (p : Position) :
    compute .pow a b p = .ok (Int32.wrap (a ^ b.toNat)) := by
  rw [compute, power, Int32.power?_of_nonneg h]

theorem evalBinary_arithmetic {symbol : String} {op : Arithmetic} {p : Position}
    (hsymbol : Operator.ofSymbol? symbol = some (.arithmetic op)) (h : compute op a b p = .ok n) :
    evalBinary symbol (.int a) (.int b) p = .ok (.int n) := by
  simp only [evalBinary, hsymbol, asInt, bind, Except.bind, h]
  rfl

@[simp] theorem evalBinary_equal_self (v : Value) (p : Position) :
    evalBinary "==" v v p = .ok (.bool true) := by
  have hequal : compare .equal "==" v v p = .ok true := congrArg Except.ok (decide_eq_true rfl)
  have hsymbol : Operator.ofSymbol? "==" = some (.comparison .equal) := rfl
  simp only [evalBinary, hsymbol, ne_eq, not_true, if_false, hequal]

theorem eval_binary {v w : Value} (hl : eval m l = .ok v) (hr : eval m r = .ok w) (symbol : String)
    (p : Position) : eval m (.binary l symbol r p) = evalBinary symbol v w p := by
  simp only [eval, hl, hr, bind, Except.bind]

theorem eval_arithmetic {symbol : String} {op : Arithmetic} {p : Position}
    (hl : eval m l = .ok (.int a)) (hr : eval m r = .ok (.int b))
    (hsymbol : Operator.ofSymbol? symbol = some (.arithmetic op))
    (h : compute op a b p = .ok n) : eval m (.binary l symbol r p) = .ok (.int n) := by
  rw [eval_binary hl hr, evalBinary_arithmetic hsymbol h]

/-- An expression in the operations of a ring, over signed 32-bit literals and variables. Exponents
are literals that are not negative. -/
inductive RingTerm (m : Machine) : Tree → Prop
  | literal {n : Int} {p : Position} (fits : Int32.Fits n) : RingTerm m (.literal (.int n) p)
  | variable {name : String} {n : Int} {p : Position}
      (found : m.state.values.get? name = some (.int n)) (fits : Int32.Fits n) :
      RingTerm m (.variable name p)
  | plus {t : Tree} {p : Position} (operand : RingTerm m t) : RingTerm m (.unary "+" t p)
  | minus {t : Tree} {p : Position} (operand : RingTerm m t) : RingTerm m (.unary "-" t p)
  | add {l r : Tree} {p : Position} (left : RingTerm m l) (right : RingTerm m r) :
    RingTerm m (.binary l "+" r p)
  | sub {l r : Tree} {p : Position} (left : RingTerm m l) (right : RingTerm m r) :
    RingTerm m (.binary l "-" r p)
  | mul {l r : Tree} {p : Position} (left : RingTerm m l) (right : RingTerm m r) :
    RingTerm m (.binary l "*" r p)
  | pow {t : Tree} {k : Int} {p q : Position} (base : RingTerm m t) (natural : 0 ≤ k) :
      RingTerm m (.binary t "**" (.literal (.int k) q) p)

/-- The value of a ring term over all the integers, without any wrapping. Other trees count as
zero. -/
def exactValue (m : Machine) : Tree → Int
  | .literal (.int n) _ => n
  | .variable name _ =>
    match m.state.values.get? name with
    | some (.int n) => n
    | _ => 0
  | .unary op t _ => if op = "-" then -exactValue m t else exactValue m t
  | .binary l op r _ =>
    match Operator.ofSymbol? op with
    | some (.arithmetic .add) => exactValue m l + exactValue m r
    | some (.arithmetic .sub) => exactValue m l - exactValue m r
    | some (.arithmetic .mul) => exactValue m l * exactValue m r
    | some (.arithmetic .pow) => exactValue m l ^ (exactValue m r).toNat
    | _ => 0
  | _ => 0

/-- By induction on the term: each operation gets numbers in the classes of the exact ones, and
wraps once more. -/
theorem RingTerm.eval_eq {t : Tree} (h : RingTerm m t) :
    eval m t = .ok (.int (Int32.wrap (exactValue m t))) := by
  have hclass (t : Tree) := Int32.wrap_modEq (exactValue m t)
  induction h with
  | literal fits => rw [eval, exactValue, Int32.wrap_of_fits fits]
  | «variable» found fits => rw [eval, exactValue, State.valueOf, found, Int32.wrap_of_fits fits]
  | plus _ ih =>
    rw [eval, ih]
    rfl
  | @minus t p _ ih =>
    have hwrap : Int32.wrap (-Int32.wrap (exactValue m t)) = Int32.wrap (-exactValue m t) :=
      Int32.wrap_congr (hclass t).neg
    rw [eval, ih]
    exact congrArg (fun n => Except.ok (Value.int n)) hwrap
  | @add l r p _ _ ihl ihr =>
    exact eval_arithmetic ihl ihr rfl
      (congrArg Except.ok (Int32.wrap_congr ((hclass l).add (hclass r))))
  | @sub l r p _ _ ihl ihr =>
    exact eval_arithmetic ihl ihr rfl
      (congrArg Except.ok (Int32.wrap_congr ((hclass l).sub (hclass r))))
  | @mul l r p _ _ ihl ihr =>
    exact eval_arithmetic ihl ihr rfl
      (congrArg Except.ok (Int32.wrap_congr ((hclass l).mul (hclass r))))
  | @pow t k p q _ natural ih =>
    have hexponent : eval m (.literal (.int k) q) = .ok (.int k) := by rw [eval]
    refine eval_arithmetic ih hexponent rfl ((compute_pow natural p).trans ?_)
    exact congrArg Except.ok (Int32.wrap_congr ((hclass t).pow k.toNat))

/-- A ring term has a value on every machine, and it is the exact value, wrapped once, wherever on
the way the numbers fell out of the range. -/
theorem ring_terms_wrap_once {t : Tree} (h : RingTerm m t) :
    ∃ n, eval m t = .ok (.int n) ∧ n = Int32.wrap (exactValue m t) ∧ Int32.Fits n ∧
      n ≡ exactValue m t [ZMOD 2 ^ 32] :=
  ⟨_, h.eval_eq, rfl, Int32.fits_wrap _, Int32.wrap_modEq _⟩

/-- The expression `-x - 3 ** 40`, both sides of which fall out of the range. -/
theorem overflowing_difference_wraps_once :
    let m : Machine :=
      ⟨{ values := Table.empty.insert "x" (.int (-2147483648)) }, { grid := .blank 3 2 }⟩
    let t : Tree := .binary (.unary "-" (.variable "x" ⟨1, 2⟩) ⟨1, 1⟩) "-"
      (.binary (.literal (.int 3) ⟨1, 6⟩) "**" (.literal (.int 40) ⟨1, 11⟩) ⟨1, 8⟩) ⟨1, 4⟩
    RingTerm m t ∧ exactValue m t = -12157665456909445153 ∧ eval m t = .ok (.int 1457526751) := by
  intro m t
  have hterm : RingTerm m t :=
    .sub (.minus (.variable rfl (by decide))) (.pow (.literal (by decide)) (by decide))
  have hexact : exactValue m t = -12157665456909445153 := by rfl
  obtain ⟨n, heval, hn, -⟩ := ring_terms_wrap_once hterm
  rw [hexact] at hn
  rw [hn] at heval
  exact ⟨hterm, hexact, heval⟩

/-- The expression `(s / t) * t + s % t == s`, with its operators in any places. -/
def recombined (s t : Tree) (p₁ p₂ p₃ p₄ p₅ : Position) : Tree :=
  .binary (.binary (.binary (.binary s "/" t p₁) "*" t p₂) "+" (.binary s "%" t p₃) p₄) "==" s p₅

theorem eval_recombined {s t : Tree} (hs : eval m s = .ok (.int a)) (ht : eval m t = .ok (.int b))
    (ha : Int32.Fits a) (hb : b ≠ 0) (p₁ p₂ p₃ p₄ p₅ : Position) :
    eval m (recombined s t p₁ p₂ p₃ p₄ p₅) = .ok (.bool true) := by
  have hquotient : eval m (.binary s "/" t p₁) = .ok (.int (Int32.wrap (a.tdiv b))) :=
    eval_arithmetic hs ht rfl (compute_div hb p₁)
  have hproduct : eval m (.binary (.binary s "/" t p₁) "*" t p₂) =
      .ok (.int (Int32.wrap (Int32.wrap (a.tdiv b) * b))) := eval_arithmetic hquotient ht rfl rfl
  have hremainder : eval m (.binary s "%" t p₃) = .ok (.int (Int32.wrap (a - b * a.tdiv b))) :=
    eval_arithmetic hs ht rfl (compute_mod hb p₃)
  have hsum :
      eval m (.binary (.binary (.binary s "/" t p₁) "*" t p₂) "+" (.binary s "%" t p₃) p₄) =
        .ok (.int a) :=
    eval_arithmetic hproduct hremainder rfl (congrArg Except.ok (Int32.wrap_recombine ha _))
  rw [recombined, eval_binary hsum hs, evalBinary_equal_self]

/-- Quotients are rounded toward zero, and remainders belong to them: they have the sign of the
dividend, never wrap, and make up the dividend together with the quotient, also where this one
wraps. By zero there are neither. -/
theorem quotient_and_remainder_recombine (p : Position) :
    (∀ a b : Int, Int32.Fits a → b ≠ 0 → ∃ q r : Int,
      evalBinary "/" (.int a) (.int b) p = .ok (.int q) ∧
      evalBinary "%" (.int a) (.int b) p = .ok (.int r) ∧
      q = (if a = Int32.least ∧ b = -1 then Int32.least else a.tdiv b) ∧
      r = a - b * a.tdiv b ∧ Int32.Fits r ∧ |r| < |b| ∧ (r = 0 ∨ r.sign = a.sign) ∧
      ∀ (m : Machine) (s t : Tree), eval m s = .ok (.int a) → eval m t = .ok (.int b) →
        ∀ p₁ p₂ p₃ p₄ p₅, eval m (recombined s t p₁ p₂ p₃ p₄ p₅) = .ok (.bool true)) ∧
    ∀ v : Value, ∃ f g,
      evalBinary "/" v (.int 0) p = .error ⟨f, p⟩ ∧ evalBinary "%" v (.int 0) p = .error ⟨g, p⟩ ∧
      (v.ty = .int → f = .divisionByZero ∧ g = .moduloByZero) := by
  refine ⟨fun a b ha hb => ?_, fun v => ?_⟩
  · have hquotient : evalBinary "/" (.int a) (.int b) p = .ok (.int (Int32.wrap (a.tdiv b))) :=
      evalBinary_arithmetic rfl (compute_div hb p)
    have hremainder :
        evalBinary "%" (.int a) (.int b) p = .ok (.int (Int32.wrap (a - b * a.tdiv b))) :=
      evalBinary_arithmetic rfl (compute_mod hb p)
    have hfits : Int32.Fits (a.tmod b) := Int32.fits_tmod ha b
    rw [Int32.wrap_tdiv ha hb] at hquotient
    rw [← Int.tmod_def, Int32.wrap_of_fits hfits] at hremainder
    refine ⟨_, _, hquotient, hremainder, rfl, Int.tmod_def a b, hfits, ?_, ?_,
      fun m s t hs ht => eval_recombined hs ht ha hb⟩
    · rw [Int.abs_eq_natAbs, Int.abs_eq_natAbs, Int.natAbs_tmod]
      exact Int.ofNat_lt.2 (Nat.mod_lt _ (Int.natAbs_pos.2 hb))
    · by_cases hdvd : b ∣ a
      · exact Or.inl (Int.tmod_eq_zero_of_dvd hdvd)
      · exact Or.inr ((Int.sign_tmod a b).trans (if_neg hdvd))
  · cases v with
    | int a => exact ⟨_, _, rfl, rfl, fun _ => ⟨rfl, rfl⟩⟩
    | bool | text => exact ⟨_, _, rfl, rfl, fun hint => by cases hint⟩

/-- The one quotient that wraps. -/
theorem least_by_minus_one_recombines :
    let m : Machine :=
      ⟨{ values := ⟨[("a", .int Int32.least), ("b", .int (-1))]⟩ }, { grid := .blank 3 2 }⟩
    let p : Position := ⟨1, 1⟩
    evalBinary "/" (.int Int32.least) (.int (-1)) p = .ok (.int Int32.least) ∧
      evalBinary "%" (.int Int32.least) (.int (-1)) p = .ok (.int 0) ∧
      eval m (recombined (.variable "a" p) (.variable "b" p) p p p p p) = .ok (.bool true) ∧
      evalBinary "%" (.int Int32.least) (.int 0) p = .error ⟨.moduloByZero, p⟩ := by
  intro m p
  obtain ⟨hlaw, hzero⟩ := quotient_and_remainder_recombine p
  obtain ⟨q, r, hquotient, hremainder, rfl, rfl, -, -, -, hrecombined⟩ :=
    hlaw Int32.least (-1) (by decide) (by decide)
  obtain ⟨f, g, -, hfault, hkind⟩ := hzero (.int Int32.least)
  obtain ⟨-, rfl⟩ := hkind rfl
  exact ⟨hquotient, hremainder, hrecombined m _ _ rfl rfl p p p p p, hfault⟩

theorem power_eq_error_iff {p : Position} {e : Located Fault} :
    power a b p = .error e ↔ (b < 0 ∧ a = 0) ∧ e = ⟨.divisionByZero, p⟩ := by
  rw [← Int32.power?_eq_none_iff, power]
  cases Int32.power? a b with
  | none => simp [eq_comm]
  | some n => simp

/-- Powers are those of all the integers: wrapped once if the exponent is not negative, else the
reciprocal rounded toward zero. Zero alone has no power with a negative exponent. A product of
powers has the sum of their exponents. -/
theorem powers_follow_exact_powers (p : Position) :
    (∀ a b : Int, 0 ≤ b → power a b p = .ok (Int32.wrap (a ^ b.toNat))) ∧
    (∀ a b : Int, b < 0 → a ≠ 0 → ∃ q, power a b p = .ok q ∧
      Int32.quotient? 1 (a ^ (-b).toNat) = some q ∧ q = Int.tdiv 1 (a ^ (-b).toNat)) ∧
    (∀ (a b : Int) (e : Located Fault), power a b p = .error e ↔ (b < 0 ∧ a = 0) ∧
      e = ⟨.divisionByZero, p⟩) ∧
    ∀ b m n : Int, 0 ≤ m → 0 ≤ n → ∃ r s, power b m p = .ok r ∧ power b n p = .ok s ∧
      power b (m + n) p = .ok (Int32.wrap (r * s)) := by
  have hexact {a b : Int} (h : 0 ≤ b) : power a b p = .ok (Int32.wrap (a ^ b.toNat)) :=
    compute_pow h p
  refine ⟨fun a b => hexact, fun a b hneg ha => ?_, fun a b e => power_eq_error_iff,
    fun b m n hm hn => ?_⟩
  · refine ⟨_, ?_, Int32.quotient?_of_ne_zero (pow_ne_zero _ ha), rfl⟩
    rw [power, Int32.power?_of_neg hneg ha]
  · refine ⟨_, _, hexact hm, hexact hn, ?_⟩
    have hproduct :
        Int32.wrap (b ^ m.toNat) * Int32.wrap (b ^ n.toNat) ≡ b ^ (m + n).toNat
          [ZMOD Int32.modulus] := by
      rw [Int.toNat_add hm hn, pow_add]
      exact (Int32.wrap_modEq _).mul (Int32.wrap_modEq _)
    rw [hexact (Int.add_nonneg hm hn), Int32.wrap_congr hproduct]

/-- A base out of the range, an odd negative exponent, zero with a negative exponent, and a product
of two powers. -/
theorem power_of_wide_base_wraps :
    let p : Position := ⟨1, 1⟩
    power 4294967299 21 p = .ok 1870418611 ∧ power (-1) (-7) p = .ok (-1) ∧
      power 4294967296 (-1) p = .ok 0 ∧
      power 0 (-1) p = .error ⟨.divisionByZero, p⟩ ∧
      ∃ r s, power (-3) 20 p = .ok r ∧ power (-3) 21 p = .ok s ∧
      power (-3) 41 p = .ok (Int32.wrap (r * s)) := by
  intro p
  obtain ⟨hexact, hreciprocal, herror, hsum⟩ := powers_follow_exact_powers p
  obtain ⟨q, hodd, -, rfl⟩ := hreciprocal (-1) (-7) (by decide) (by decide)
  obtain ⟨q, hwide, -, rfl⟩ := hreciprocal 4294967296 (-1) (by decide) (by decide)
  exact ⟨hexact 4294967299 21 (by decide), hodd, hwide, (herror 0 (-1) _).2 ⟨by decide, rfl⟩,
    hsum (-3) 20 21 (by decide) (by decide)⟩

end Machine

end Brushwork
