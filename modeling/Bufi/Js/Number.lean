import Mathlib.Data.Int.Log
import Mathlib.Data.Rat.Floor
import Mathlib.Tactic.NormNum
import Mathlib.Tactic.Positivity

/-!
# Numbers of JavaScript

A `number` is a double: a rational, an infinity or not a number.  The two zeros
are one value here.  `add` and `sub` are exact, which doubles are on integers up to
`2 ^ 53`, for programs that add numbers only after they have checked that they are
small integers.  `round` is the rounding of doubles, to the nearest one and to the
even one of two, and `plus` and `minus` are rounded; up to `2 ^ 53` it changes nothing
(`round_natCast`).

`plus_sum` and `plus_sum_filter` are the rules for a loop that adds up.
-/

namespace Bufi.Js

inductive Number
  | finite (q : ℚ)
  | infinity
  | negInfinity
  | nan
  deriving DecidableEq

namespace Number

def ofInt (n : ℤ) : Number := finite n

def ofNat (n : ℕ) : Number := ofInt n

/-- `Number.isInteger(x)`. -/
def isInteger : Number → Bool
  | finite q => q.den == 1
  | _ => false

/-- The comparison `a < b`; it is false of `NaN`. -/
def lt : Number → Number → Bool
  | finite p, finite q => decide (p < q)
  | finite _, infinity | negInfinity, finite _ | negInfinity, infinity => true
  | _, _ => false

/-- The comparison `a <= b`. -/
def le : Number → Number → Bool
  | finite p, finite q => decide (p ≤ q)
  | finite _, infinity | negInfinity, finite _ | negInfinity, infinity | infinity, infinity
  | negInfinity, negInfinity => true
  | _, _ => false

/-- The comparison `a == b`; `NaN` is not equal to itself. -/
def eq : Number → Number → Bool
  | finite p, finite q => decide (p = q)
  | infinity, infinity | negInfinity, negInfinity => true
  | _, _ => false

/-- `Math.floor(x)`. -/
def floor : Number → Number
  | finite q => ofInt ⌊q⌋
  | x => x

def neg : Number → Number
  | finite q => finite (-q)
  | infinity => negInfinity
  | negInfinity => infinity
  | nan => nan

def add : Number → Number → Number
  | finite p, finite q => finite (p + q)
  | finite _, infinity | infinity, finite _ | infinity, infinity => infinity
  | finite _, negInfinity | negInfinity, finite _ | negInfinity, negInfinity => negInfinity
  | _, _ => nan

def sub (a b : Number) : Number := a.add b.neg

/-- The integer that a number is; `none` is where `BigInt(x)` throws. -/
def toInt? : Number → Option ℤ
  | finite q => if q.den = 1 then some q.num else none
  | _ => none

/-- The rational that a finite number is. -/
def toRat : Number → ℚ
  | finite q => q
  | _ => 0

/-- `Number.isFinite(x)`. -/
def isFinite : Number → Bool
  | finite _ => true
  | _ => false

/-- The size of a number that is a natural number. -/
def toNat (x : Number) : ℕ := (x.toInt?.getD 0).toNat

theorem isInteger_iff {x : Number} : x.isInteger = true ↔ ∃ n : ℤ, x = ofInt n := by
  cases x with
  | finite q =>
    rw [isInteger, beq_iff_eq]
    constructor
    · intro hden
      exact ⟨q.num, congrArg finite (Rat.coe_int_num_of_den_eq_one hden).symm⟩
    · rintro ⟨n, hn⟩
      rw [finite.inj hn]
      exact Rat.den_intCast n
  | infinity | negInfinity | nan => simp [isInteger, ofInt]

theorem eq_ofInt_of_toInt? {x : Number} {n : ℤ} (h : x.toInt? = some n) : x = ofInt n := by
  cases x with
  | finite q =>
    rw [toInt?, Option.ite_none_right_eq_some, Option.some.injEq] at h
    rw [← h.2, ofInt, Rat.coe_int_num_of_den_eq_one h.1]
  | infinity | negInfinity | nan => cases h

theorem toInt?_ofInt (n : ℤ) : (ofInt n).toInt? = some n := by
  rw [ofInt, toInt?, if_pos (Rat.den_intCast n), Rat.num_intCast]

/-- Among the finite numbers, the integers are those that are their own floor. -/
theorem eq_floor_finite {q : ℚ} : (finite q).eq (finite q).floor = true ↔ q = ⌊q⌋ := by
  rw [floor, ofInt, eq, decide_eq_true_iff]

theorem toNat_ofNat (n : ℕ) : (ofNat n).toNat = n := by
  rw [ofNat, toNat, toInt?_ofInt]
  rfl

/-- `Number.isSafeInteger(x)`: an integer of magnitude below `2 ^ 53`. -/
def isSafeInteger (x : Number) : Bool :=
  match x.toInt? with
  | some n => decide (|n| < 2 ^ 53)
  | none => false

theorem isSafeInteger_iff {x : Number} :
    x.isSafeInteger = true ↔ ∃ n : ℤ, x = ofInt n ∧ |n| < 2 ^ 53 := by
  constructor
  · intro h
    rw [isSafeInteger] at h
    cases hx : x.toInt? with
    | none =>
      rw [hx] at h
      cases h
    | some n =>
      rw [hx] at h
      exact ⟨n, eq_ofInt_of_toInt? hx, of_decide_eq_true h⟩
  · rintro ⟨n, rfl, hn⟩
    rw [isSafeInteger, toInt?_ofInt]
    exact decide_eq_true hn

theorem isSafeInteger_ofInt {n : ℤ} (h : |n| < 2 ^ 53) : (ofInt n).isSafeInteger = true :=
  isSafeInteger_iff.mpr ⟨n, rfl, h⟩

theorem ofInt_injective {a b : ℤ} (h : ofInt a = ofInt b) : a = b := by
  exact_mod_cast finite.inj h

theorem lt_ofInt {a b : ℤ} : (ofInt a).lt (ofInt b) = true ↔ a < b := by
  simp [ofInt, lt]

theorem le_ofInt {a b : ℤ} : (ofInt a).le (ofInt b) = true ↔ a ≤ b := by
  simp [ofInt, le]

theorem add_ofInt (a b : ℤ) : (ofInt a).add (ofInt b) = ofInt (a + b) := by
  simp [ofInt, add]

theorem sub_ofInt (a b : ℤ) : (ofInt a).sub (ofInt b) = ofInt (a - b) := by
  simp [ofInt, add, sub, neg, sub_eq_add_neg]

theorem add_ofNat (a b : ℕ) : (ofNat a).add (ofNat b) = ofNat (a + b) := by
  rw [ofNat, ofNat, add_ofInt, ofNat, Nat.cast_add]

theorem lt_ofNat {a b : ℕ} : (ofNat a).lt (ofNat b) = true ↔ a < b := by
  rw [ofNat, ofNat, lt_ofInt, Nat.cast_lt]

theorem le_ofNat {a b : ℕ} : (ofNat a).le (ofNat b) = true ↔ a ≤ b := by
  rw [ofNat, ofNat, le_ofInt, Nat.cast_le]

/-! ### Rounding -/

/-- The nearest integer, the even one of two. -/
def roundEven (q : ℚ) : ℤ :=
  if q - ⌊q⌋ < 1 / 2 ∨ (q - ⌊q⌋ = 1 / 2 ∧ ⌊q⌋ % 2 = 0) then ⌊q⌋ else ⌊q⌋ + 1

/-- The distance of neighbouring doubles around `q`. -/
def ulp (q : ℚ) : ℚ := 2 ^ max (Int.log 2 |q| - 52) (-1074)

/-- The double that a result is rounded to. -/
def round (q : ℚ) : Number :=
  if 2 ^ 1024 ≤ |roundEven (q / ulp q) * ulp q| then (if 0 < q then infinity else negInfinity)
  else finite (roundEven (q / ulp q) * ulp q)

/-- The sum `a + b`. -/
def plus (a b : Number) : Number :=
  match a.add b with
  | finite q => round q
  | x => x

/-- The difference `a - b`. -/
def minus (a b : Number) : Number :=
  match a.sub b with
  | finite q => round q
  | x => x

theorem roundEven_intCast (n : ℤ) : roundEven n = n := by
  rw [roundEven, Int.floor_intCast, if_pos]
  left
  norm_num

theorem ulp_natCast {n : ℕ} (h : n < 2 ^ 53) (h0 : n ≠ 0) : ∃ k : ℕ, ulp n = (2 ^ k : ℚ)⁻¹ := by
  have hlog : Nat.log 2 n < 53 := Nat.log_lt_of_lt_pow h0 h
  refine ⟨52 - Nat.log 2 n, ?_⟩
  rw [ulp, Nat.abs_cast, Int.log_natCast, max_eq_left (by omega), ← zpow_natCast, ← zpow_neg]
  congr 1
  omega

/-- A multiple of the distance of doubles around it is a double. -/
theorem round_eq {q : ℚ} {k : ℤ} (hk : q = k * ulp q) (hlt : |q| < 2 ^ 1024) :
    round q = finite q := by
  have hulp : ulp q ≠ 0 := zpow_ne_zero _ two_ne_zero
  have hdiv : q / ulp q = k := (div_eq_iff hulp).mpr hk
  have hexact : (roundEven (q / ulp q) : ℚ) * ulp q = q := by
    rw [hdiv, roundEven_intCast, ← hk]
  rw [round, hexact, if_neg (not_le.mpr hlt)]

theorem exists_eq_mul_ulp {n : ℕ} (h : n ≤ 2 ^ 53) : ∃ k : ℤ, (n : ℚ) = k * ulp n := by
  rcases Nat.eq_zero_or_pos n with rfl | hpos
  · exact ⟨0, by simp⟩
  rcases h.eq_or_lt with rfl | h
  · have hulp : ulp (2 ^ 53 : ℕ) = 2 := by
      rw [ulp, Nat.abs_cast, Int.log_natCast, Nat.log_pow (by decide) 53]
      norm_num
    refine ⟨2 ^ 52, ?_⟩
    rw [hulp]
    norm_num
  · obtain ⟨k, hk⟩ := ulp_natCast h hpos.ne'
    have hpow : (2 : ℚ) ^ k ≠ 0 := by positivity
    refine ⟨(n * 2 ^ k : ℕ), ?_⟩
    rw [hk]
    push_cast
    exact (mul_inv_cancel_right₀ hpow _).symm

/-- **Integers up to `2 ^ 53` are doubles.** -/
theorem round_intCast {n : ℤ} (h : |n| ≤ 2 ^ 53) : round n = ofInt n := by
  have habs : |(n : ℚ)| = (n.natAbs : ℚ) := by
    rw [← Int.cast_abs, Int.abs_eq_natAbs, Int.cast_natCast]
  have hulp : ulp n = ulp n.natAbs := by
    rw [ulp, ulp, Nat.abs_cast, habs]
  have hlt : |(n : ℚ)| < 2 ^ 1024 := by
    have h53 : |(n : ℚ)| ≤ 2 ^ 53 := by exact_mod_cast h
    exact h53.trans_lt (pow_lt_pow_right₀ (by norm_num) (by norm_num))
  rw [Int.abs_eq_natAbs] at h
  obtain ⟨k, hk⟩ := exists_eq_mul_ulp (n := n.natAbs) (by omega)
  rcases n.natAbs_eq with hn | hn
  · refine round_eq (k := k) ?_ hlt
    rw [hulp, ← hk, ← Int.cast_natCast, ← hn]
  · refine round_eq (k := -k) ?_ hlt
    rw [hulp, Int.cast_neg, neg_mul, ← hk, ← Int.cast_natCast, ← Int.cast_neg, ← hn]

theorem round_natCast {n : ℕ} (h : n ≤ 2 ^ 53) : round n = ofNat n := by
  have hround := round_intCast (n := n) (by rw [Nat.abs_cast]; exact_mod_cast h)
  rwa [Int.cast_natCast] at hround

theorem plus_ofInt {a b : ℤ} (h : |a + b| ≤ 2 ^ 53) : (ofInt a).plus (ofInt b) = ofInt (a + b) := by
  rw [plus, add_ofInt]
  exact round_intCast h

theorem minus_ofInt {a b : ℤ} (h : |a - b| ≤ 2 ^ 53) :
    (ofInt a).minus (ofInt b) = ofInt (a - b) := by
  rw [minus, sub_ofInt]
  exact round_intCast h

theorem plus_ofNat {a b : ℕ} (h : a + b ≤ 2 ^ 53) : (ofNat a).plus (ofNat b) = ofNat (a + b) := by
  rw [plus, add_ofNat]
  show round (((a + b : ℕ) : ℤ) : ℚ) = ofNat (a + b)
  rw [Int.cast_natCast, round_natCast h]

theorem minus_ofNat {a b : ℕ} (hle : b ≤ a) (h : a ≤ 2 ^ 53) :
    (ofNat a).minus (ofNat b) = ofNat (a - b) := by
  rw [minus, ofNat, ofNat, sub_ofInt, ← Nat.cast_sub hle]
  show round (((a - b : ℕ) : ℤ) : ℚ) = ofNat (a - b)
  rw [Int.cast_natCast, round_natCast (by omega)]

theorem floor_le_roundEven (q : ℚ) : ⌊q⌋ ≤ roundEven q := by
  rw [roundEven]
  split
  · exact le_refl _
  · omega

theorem roundEven_le (q : ℚ) : (roundEven q : ℚ) ≤ q + 1 / 2 := by
  have hfloor := Int.floor_le q
  rw [roundEven]
  split
  · linarith
  · next h =>
    push_cast
    by_contra hlt
    exact h (Or.inl (by linarith))

theorem le_roundEven (q : ℚ) : q - 1 / 2 ≤ (roundEven q : ℚ) := by
  have hfloor := Int.lt_floor_add_one q
  rw [roundEven]
  split
  · next h =>
    rcases h with h | h
    · linarith
    · linarith [h.1]
  · push_cast
    linarith

/-- A great integer is rounded to a great number. -/
theorem lt_round {m n : ℤ} (hm0 : 0 ≤ m) (hm : m < 2 ^ 52) (hn : m < n) :
    (ofInt m).lt (round n) = true := by
  rcases le_or_gt n (2 ^ 53) with hsmall | hlarge
  · rw [round_intCast (by rw [abs_of_nonneg (by omega)]; exact hsmall)]
    exact lt_ofInt.mpr hn
  have hpos : (0 : ℚ) < n := by exact_mod_cast (by omega : 0 < n)
  have hlog : (53 : ℤ) ≤ Int.log 2 (n : ℚ) := by
    rw [← Int.zpow_le_iff_le_log (by decide) hpos]
    norm_num
    exact_mod_cast hlarge.le
  have hulp : ulp n = 2 ^ (Int.log 2 (n : ℚ) - 52) := by
    rw [ulp, abs_of_pos hpos, max_eq_left (by omega)]
  have hone : (1 : ℚ) ≤ ulp n := by
    rw [hulp]
    exact one_le_zpow₀ (by norm_num) (by omega)
  have hunits : (2 : ℚ) ^ (52 : ℤ) ≤ n / ulp n := by
    rw [le_div_iff₀ (by linarith), hulp, ← zpow_add₀ (by norm_num)]
    have hle := Int.zpow_log_le_self (b := 2) (by decide) hpos
    simpa using hle
  have hfloor : (2 : ℤ) ^ 52 ≤ roundEven (n / ulp n) := by
    refine le_trans ?_ (floor_le_roundEven _)
    rw [Int.le_floor]
    push_cast
    exact_mod_cast hunits
  have hbig : (m : ℚ) < roundEven (n / ulp n) * ulp n := by
    have hm' : (m : ℚ) < 2 ^ 52 := by exact_mod_cast hm
    have hfloor' : (2 : ℚ) ^ 52 ≤ roundEven (n / ulp n) := by exact_mod_cast hfloor
    nlinarith
  rw [round]
  split
  · rfl
  · rw [ofInt, lt, decide_eq_true_iff]
    exact hbig

theorem ulp_pos (q : ℚ) : 0 < ulp q := by
  rw [ulp]
  exact zpow_pos (by norm_num) _

/-- The error of rounding. -/
theorem abs_roundEven_sub_le (q : ℚ) : |roundEven (q / ulp q) * ulp q - q| ≤ ulp q / 2 := by
  have hulp := ulp_pos q
  have hupper := mul_le_mul_of_nonneg_right (roundEven_le (q / ulp q)) hulp.le
  have hlower := mul_le_mul_of_nonneg_right (le_roundEven (q / ulp q)) hulp.le
  rw [add_mul, div_mul_cancel₀ q hulp.ne'] at hupper
  rw [sub_mul, div_mul_cancel₀ q hulp.ne'] at hlower
  rw [abs_le]
  constructor
  · linarith
  · linarith

theorem ulp_le {q : ℚ} {k : ℤ} (hk : -1022 ≤ k) (h : |q| < 2 ^ (k + 1)) (h0 : q ≠ 0) :
    ulp q ≤ 2 ^ (k - 52) := by
  have hlog : Int.log 2 |q| < k + 1 :=
    (Int.lt_zpow_iff_log_lt (by decide) (abs_pos.mpr h0)).mp (by exact_mod_cast h)
  rw [ulp]
  exact zpow_le_zpow_right₀ (by norm_num) (by omega)

/-- Milliseconds are rounded down to seconds, although the quotient is rounded to a double. -/
theorem floor_round_div {n : ℤ} (h : |n| ≤ 8640000000000000) :
    (round ((n : ℚ) / 1000)).floor = ofInt (n / 1000) := by
  obtain ⟨hlow, hhigh⟩ := abs_le.mp h
  by_cases hmod : n % 1000 = 0
  · have hdiv : (n : ℚ) / 1000 = ((n / 1000 : ℤ) : ℚ) := by
      rw [div_eq_iff (by norm_num)]
      exact_mod_cast (by omega : n = n / 1000 * 1000)
    rw [hdiv, round_intCast (by rw [abs_le]; omega), ofInt, floor, Int.floor_intCast,
      ofInt]
  have hq : (n : ℚ) / 1000 = (n / 1000 : ℤ) + ((n % 1000 : ℤ) : ℚ) / 1000 := by
    have hn : (n : ℚ) = 1000 * (n / 1000 : ℤ) + (n % 1000 : ℤ) := by
      exact_mod_cast (Int.mul_ediv_add_emod n 1000).symm
    rw [hn]
    ring
  have hone : (1 : ℚ) ≤ (n % 1000 : ℤ) := by exact_mod_cast (by omega : 1 ≤ n % 1000)
  have hlast : ((n % 1000 : ℤ) : ℚ) ≤ 999 := by exact_mod_cast (by omega : n % 1000 ≤ 999)
  have habs : |(n : ℚ) / 1000| ≤ 8640000000000 := by
    have hn : |(n : ℚ)| ≤ 8640000000000000 := by exact_mod_cast h
    rw [abs_div, div_le_iff₀ (by norm_num)]
    norm_num
    linarith
  have hulp : ulp ((n : ℚ) / 1000) ≤ 2 ^ (-10 : ℤ) := by
    refine ulp_le (k := 42) (by norm_num) (habs.trans_lt (by norm_num)) ?_
    rintro hzero
    rw [div_eq_zero_iff] at hzero
    rcases hzero with hzero | hzero
    · exact hmod (by rw [Int.cast_eq_zero.mp hzero]; rfl)
    · norm_num at hzero
  -- the error is less than half a millisecond, and the quotient is not that near to a second
  obtain ⟨herr, herr'⟩ := abs_le.mp (abs_roundEven_sub_le ((n : ℚ) / 1000))
  obtain ⟨hmin, hmax⟩ := abs_le.mp habs
  norm_num at hulp
  rw [round, if_neg, floor, ofInt, ofInt, finite.injEq, Int.cast_inj, Int.floor_eq_iff]
  · constructor <;> linarith
  · have hpow : (2 : ℚ) ^ 44 ≤ 2 ^ 1024 := pow_le_pow_right₀ (by norm_num) (by norm_num)
    rw [not_le]
    refine lt_of_lt_of_le ?_ hpow
    rw [abs_lt]
    constructor <;> linarith

/-- A loop that adds up small numbers. -/
theorem plus_sum {α : Type} {f : α → Number} {g : α → ℕ} {l : List α}
    (h : ∀ x ∈ l, f x = ofNat (g x)) {a : ℕ} (hlt : a + (l.map g).sum ≤ 2 ^ 53) :
    l.foldl (fun sum x => sum.plus (f x)) (ofNat a) = ofNat (a + (l.map g).sum) := by
  induction l generalizing a with
  | nil => rfl
  | cons x l ih =>
    have hl : ∀ y ∈ l, f y = ofNat (g y) := fun y hy => h y (List.mem_cons_of_mem x hy)
    rw [List.map_cons, List.sum_cons, ← Nat.add_assoc] at hlt ⊢
    rw [List.foldl_cons, h x List.mem_cons_self,
      plus_ofNat ((Nat.le_add_right _ _).trans hlt)]
    exact ih hl hlt

/-- A loop that adds up the small numbers of some elements. -/
theorem plus_sum_filter {α : Type} {p : α → Bool} {f : α → Number} {g : α → ℕ} {l : List α}
    (h : ∀ x ∈ l, f x = ofNat (g x)) {a : ℕ}
    (hle : a + ((l.filter p).map g).sum ≤ 2 ^ 53) :
    l.foldl (fun sum x => if p x then sum.plus (f x) else sum) (ofNat a)
      = ofNat (a + ((l.filter p).map g).sum) := by
  have hskip : l.foldl (fun sum x => if p x then sum.plus (f x) else sum) (ofNat a)
      = (l.filter p).foldl (fun sum x => sum.plus (f x)) (ofNat a) := by
    rw [List.foldl_filter]
  rw [hskip]
  exact plus_sum (fun x hx => h x (List.mem_of_mem_filter hx)) hle

end Number

end Bufi.Js
