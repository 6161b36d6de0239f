import Mathlib.Data.List.TakeWhile
import Mathlib.Data.Nat.Digits.Lemmas

/-!
# Numerals

Digits with the most significant first, as text has them.  `value` is the number that
digits spell and `numeral` the digits of a number without leading zeros, so that zero has
none.  Digits spell a number in one way but for the zeros in front of it
(`dropWhile_zero`): `numeral` of the value is what is left without them.
-/

namespace Bufi.Digits

/-- The number that digits spell in base `b`. -/
def value (b : ℕ) (ds : List ℕ) : ℕ := ds.foldl (fun n d => n * b + d) 0

/-- The digits of a number in base `b`. -/
def numeral (b n : ℕ) : List ℕ := (Nat.digits b n).reverse

variable {b : ℕ}

theorem foldl_eq (ds : List ℕ) (n : ℕ) :
    ds.foldl (fun n d => n * b + d) n = n * b ^ ds.length + Nat.ofDigits b ds.reverse := by
  induction ds generalizing n with
  | nil => simp
  | cons d ds ih =>
    rw [List.foldl_cons, ih, Nat.ofDigits_reverse_cons, List.length_cons, pow_succ]
    ring

theorem value_eq (ds : List ℕ) : value b ds = Nat.ofDigits b ds.reverse := by
  rw [value, foldl_eq, Nat.zero_mul, Nat.zero_add]

@[simp] theorem value_nil : value b [] = 0 := rfl

theorem value_append (ds es : List ℕ) :
    value b (ds ++ es) = value b ds * b ^ es.length + value b es := by
  rw [value, List.foldl_append, foldl_eq, ← value_eq]
  rfl

theorem value_cons (d : ℕ) (ds : List ℕ) : value b (d :: ds) = d * b ^ ds.length + value b ds := by
  rw [← List.singleton_append, value_append]
  simp [value]

theorem value_concat (ds : List ℕ) (d : ℕ) : value b (ds ++ [d]) = value b ds * b + d := by
  rw [value_append]
  simp [value]

/-- Zeros in front count for nothing. -/
theorem value_replicate_append (k : ℕ) (ds : List ℕ) :
    value b (List.replicate k 0 ++ ds) = value b ds := by
  rw [value_append, value_eq (List.replicate k 0)]
  simp

theorem value_lt (hb : 1 < b) {ds : List ℕ} (h : ∀ d ∈ ds, d < b) :
    value b ds < b ^ ds.length := by
  rw [value_eq, ← List.length_reverse]
  exact Nat.ofDigits_lt_base_pow_length hb (fun d hd => h d (List.mem_reverse.mp hd))

@[simp] theorem numeral_zero : numeral b 0 = [] := by
  rw [numeral, Nat.digits_zero, List.reverse_nil]

theorem value_numeral (n : ℕ) : value b (numeral b n) = n := by
  rw [value_eq, numeral, List.reverse_reverse, Nat.ofDigits_digits]

theorem numeral_injective : Function.Injective (numeral b) := by
  intro m n h
  rw [← value_numeral (b := b) m, h, value_numeral]

theorem lt_of_mem_numeral (hb : 1 < b) {n d : ℕ} (h : d ∈ numeral b n) : d < b :=
  Nat.digits_lt_base hb (List.mem_reverse.mp h)

theorem numeral_eq_append (hb : 1 < b) {n : ℕ} (h : 0 < n) :
    numeral b n = numeral b (n / b) ++ [n % b] := by
  rw [numeral, Nat.digits_def' hb h, List.reverse_cons, numeral]

theorem head_numeral_ne_zero {n d : ℕ} {ds : List ℕ} (h : numeral b n = d :: ds) : d ≠ 0 := by
  have hrev : Nat.digits b n = ds.reverse ++ [d] := by
    rw [← List.reverse_cons, ← h, numeral, List.reverse_reverse]
  have hn : n ≠ 0 := by
    rintro rfl
    rw [Nat.digits_zero] at hrev
    simp at hrev
  have hlast := Nat.getLast_digit_ne_zero b hn
  simpa [hrev] using hlast

/-- **Digits without their leading zeros are the numeral of their value.** -/
theorem dropWhile_zero (hb : 1 < b) {ds : List ℕ} (h : ∀ d ∈ ds, d < b) :
    ds.dropWhile (· == 0) = numeral b (value b ds) := by
  induction ds with
  | nil => simp
  | cons d ds ih =>
    by_cases hd : d = 0
    · rw [hd, List.dropWhile_cons_of_pos (by rfl), ih (fun e he => h e (List.mem_cons_of_mem d he)),
        value_cons, Nat.zero_mul, Nat.zero_add]
    · rw [List.dropWhile_cons_of_neg (by simpa using hd), numeral, value_eq,
        Nat.digits_ofDigits b hb, List.reverse_reverse]
      · intro e he
        exact h e (List.mem_reverse.mp he)
      · intro _
        simpa using hd

/-- The zeros in front, and the digits of the value. -/
theorem replicate_append_numeral (hb : 1 < b) {ds : List ℕ} (h : ∀ d ∈ ds, d < b) :
    List.replicate (ds.takeWhile (· == 0)).length 0 ++ numeral b (value b ds) = ds := by
  have hzero : ds.takeWhile (· == 0) = List.replicate (ds.takeWhile (· == 0)).length 0 := by
    rw [List.eq_replicate_iff]
    refine ⟨rfl, ?_⟩
    intro d hd
    simpa using List.mem_takeWhile_imp hd
  rw [← hzero, ← dropWhile_zero hb h, List.takeWhile_append_dropWhile]

/-- How many zeros are in front. -/
theorem length_takeWhile_zero (hb : 1 < b) {ds : List ℕ} (h : ∀ d ∈ ds, d < b) :
    (ds.takeWhile (· == 0)).length + (numeral b (value b ds)).length = ds.length := by
  have hds := congrArg List.length (replicate_append_numeral hb h)
  rwa [List.length_append, List.length_replicate] at hds

/-- Digits of one length spell different numbers. -/
theorem eq_of_value_eq (hb : 1 < b) {ds es : List ℕ} (hds : ∀ d ∈ ds, d < b)
    (hes : ∀ e ∈ es, e < b) (hlen : ds.length = es.length) (h : value b ds = value b es) :
    ds = es := by
  have h₁ := length_takeWhile_zero hb hds
  have h₂ := length_takeWhile_zero hb hes
  rw [← replicate_append_numeral hb hds, ← replicate_append_numeral hb hes, h]
  rw [h] at h₁
  rw [show (ds.takeWhile (· == 0)).length = (es.takeWhile (· == 0)).length by omega]

end Bufi.Digits
