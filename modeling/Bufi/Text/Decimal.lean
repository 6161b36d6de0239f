import Bufi.Text.JsonRender
import Mathlib.Algebra.Order.Field.Basic
import Mathlib.Data.List.DropRight
import Mathlib.Tactic.FieldSimp
import Mathlib.Tactic.Linarith
import Mathlib.Tactic.Positivity

/-!
# Integers as text

`decimal` and `intDecimal` are the texts that integers have in JavaScript and in
AssemblyScript: no leading zero, and a minus sign in front of a negative one.  JSON reads
them back (`parseNumber_intDecimal`).

`point` is the text of a decimal fraction, with any digits.  Without zeros at the end, the
digits behind the point are determined by the fraction they stand for (`eq_of_fraction_eq`).
-/

namespace Bufi.Text

open Bufi.Digits Json

/-- The character of a digit. -/
def digit (d : ℕ) : CodeUnit := UInt16.ofNat (0x30 + d)

/-- The text of a natural number. -/
def decimal (n : ℕ) : Utf16 := if n = 0 then [digit 0] else (numeral 10 n).map digit

/-- The text of an integer. -/
def intDecimal (n : ℤ) : Utf16 :=
  if n < 0 then unit '-' :: decimal n.natAbs else decimal n.natAbs

/-! ### Digits -/

theorem digit_spec : ∀ d < 10, isDigit (digit d) = true ∧ digitOf (digit d) = d := by
  decide +kernel

/-- The digits of the text. -/
def decimalDigits (n : ℕ) : List ℕ := if n = 0 then [0] else numeral 10 n

theorem decimal_eq (n : ℕ) : decimal n = (decimalDigits n).map digit := by
  rw [decimal, decimalDigits]
  split <;> rfl

theorem decimalDigits_lt (n : ℕ) : ∀ d ∈ decimalDigits n, d < 10 := by
  intro d hd
  rw [decimalDigits] at hd
  split at hd
  · obtain rfl := List.mem_singleton.mp hd
    decide
  · exact lt_of_mem_numeral (by decide) hd

theorem value_decimalDigits (n : ℕ) : value 10 (decimalDigits n) = n := by
  rw [decimalDigits]
  split
  · next h => rw [h, value]; rfl
  · exact value_numeral n

theorem decimalDigits_ne_nil (n : ℕ) : decimalDigits n ≠ [] := by
  rw [decimalDigits]
  split
  · exact List.cons_ne_nil 0 []
  · next h =>
    intro hnil
    exact h (numeral_injective (hnil.trans numeral_zero.symm))

/-- There is no leading zero. -/
theorem head_decimalDigits (n : ℕ) :
    ¬ ((decimalDigits n).head? = some 0 ∧ decimalDigits n ≠ [0]) := by
  rintro ⟨hhead, hne⟩
  rw [decimalDigits] at hhead hne
  split at hhead
  · next h => exact hne (if_pos h)
  · cases hds : numeral 10 n with
    | nil => rw [hds] at hhead; cases hhead
    | cons d ds =>
      rw [hds, List.head?_cons, Option.some.injEq] at hhead
      exact head_numeral_ne_zero hds hhead

theorem map_digitOf_decimal (n : ℕ) : (decimal n).map digitOf = decimalDigits n := by
  rw [decimal_eq, List.map_map]
  exact (List.map_congr_left (fun d hd => (digit_spec d (decimalDigits_lt n d hd)).2)).trans
    (List.map_id _)

theorem isDigit_of_mem_decimal {n : ℕ} {c : CodeUnit} (h : c ∈ decimal n) : isDigit c = true := by
  rw [decimal_eq] at h
  obtain ⟨d, hd, rfl⟩ := List.mem_map.mp h
  exact (digit_spec d (decimalDigits_lt n d hd)).1

/-- The first character is a digit. -/
theorem decimal_cons (n : ℕ) : ∃ c t, decimal n = c :: t ∧ isDigit c = true := by
  cases h : decimal n with
  | nil =>
    rw [decimal_eq, List.map_eq_nil_iff] at h
    exact absurd h (decimalDigits_ne_nil n)
  | cons c t => exact ⟨c, t, rfl, isDigit_of_mem_decimal (h ▸ List.mem_cons_self)⟩

/-! ### Reading -/

theorem parseDigits_map {ds : List ℕ} (hne : ds ≠ []) (hlt : ∀ d ∈ ds, d < 10) {rest : Utf16}
    (hrest : ∀ c, rest.head? = some c → isDigit c = false) :
    parseDigits (ds.map digit ++ rest) = some (ds, rest) := by
  have hdigit : ∀ c ∈ ds.map digit, isDigit c = true := by
    intro c hc
    obtain ⟨d, hd, rfl⟩ := List.mem_map.mp hc
    exact (digit_spec d (hlt d hd)).1
  have hrestTake : rest.takeWhile isDigit = [] := by
    cases rest with
    | nil => rfl
    | cons c rest => exact List.takeWhile_cons_of_neg (by simp [hrest c rfl])
  have hrestDrop : rest.dropWhile isDigit = rest := by
    cases rest with
    | nil => rfl
    | cons c rest => exact List.dropWhile_cons_of_neg (by simp [hrest c rfl])
  have htake : (ds.map digit ++ rest).takeWhile isDigit = ds.map digit := by
    rw [List.takeWhile_append_of_pos hdigit, hrestTake, List.append_nil]
  have hdrop : (ds.map digit ++ rest).dropWhile isDigit = rest := by
    rw [List.dropWhile_append_of_pos hdigit, hrestDrop]
  have hback : (ds.map digit).map digitOf = ds := by
    rw [List.map_map]
    exact (List.map_congr_left (fun d hd => (digit_spec d (hlt d hd)).2)).trans (List.map_id _)
  rw [parseDigits, htake, hdrop, hback, if_neg]
  rwa [List.map_eq_nil_iff]

theorem parseSign_decimal (n : ℕ) (rest : Utf16) :
    parseSign false (decimal n ++ rest) = (1, decimal n ++ rest) := by
  obtain ⟨c, t, htext, hc⟩ := decimal_cons n
  have hminus : c ≠ unit '-' := by
    rintro rfl
    cases hc
  rw [htext, List.cons_append, parseSign, if_neg hminus, if_neg (by simp)]

theorem parseInt_decimal (n : ℕ) {rest : Utf16}
    (hrest : ∀ c, rest.head? = some c → isDigit c = false) :
    parseInt (decimal n ++ rest) = some (decimalDigits n, rest) := by
  rw [decimal_eq, parseInt, parseDigits_map (decimalDigits_ne_nil n) (decimalDigits_lt n) hrest]
  exact if_neg (head_decimalDigits n)

theorem parseFraction_of_follow {rest : Utf16} (h : Follow rest) :
    parseFraction rest = some ([], rest) := by
  cases rest with
  | nil => rfl
  | cons c rest => rw [parseFraction, if_neg (h c rfl).2.1]

theorem parseExponent_of_follow {rest : Utf16} (h : Follow rest) :
    parseExponent rest = some (0, rest) := by
  cases rest with
  | nil => rfl
  | cons c rest =>
    rw [parseExponent, if_neg]
    rintro (he | he)
    · exact (h c rfl).2.2.1 he
    · exact (h c rfl).2.2.2 he

/-- **An integer is read back.** -/
theorem parseNumber_intDecimal (n : ℤ) {rest : Utf16} (h : Follow rest) :
    parseNumber (intDecimal n ++ rest) = some ((n : ℚ), rest) := by
  have hdigit : ∀ c, rest.head? = some c → isDigit c = false := fun c hc => (h c hc).1
  have hvalue : ∀ s : ℤ, scale (s * value 10 (decimalDigits n.natAbs ++ [])) (0 - ([] : List ℕ).length)
      = ((s * n.natAbs : ℤ) : ℚ) := by
    intro s
    rw [List.append_nil, value_decimalDigits, scale, if_pos (by simp)]
    simp
  by_cases hneg : n < 0
  · have hsign : parseSign false (unit '-' :: decimal n.natAbs ++ rest)
        = (-1, decimal n.natAbs ++ rest) := rfl
    rw [intDecimal, if_pos hneg, parseNumber, hsign]
    simp only [parseInt_decimal _ hdigit, parseFraction_of_follow h, parseExponent_of_follow h,
      Option.bind_eq_bind, Option.bind_some, Option.pure_def]
    rw [hvalue, show -1 * (n.natAbs : ℤ) = n by omega]
  · rw [intDecimal, if_neg hneg, parseNumber, parseSign_decimal]
    simp only [parseInt_decimal _ hdigit, parseFraction_of_follow h, parseExponent_of_follow h,
      Option.bind_eq_bind, Option.bind_some, Option.pure_def]
    rw [hvalue, show 1 * (n.natAbs : ℤ) = n by omega]

/-- The first character of an integer. -/
theorem intDecimal_cons (n : ℤ) :
    ∃ c t, intDecimal n = c :: t ∧ (isDigit c = true ∨ c = unit '-') := by
  rw [intDecimal]
  split
  · exact ⟨unit '-', _, rfl, Or.inr rfl⟩
  · obtain ⟨c, t, htext, hc⟩ := decimal_cons n.natAbs
    exact ⟨c, t, htext, Or.inl hc⟩

/-! ### Decimal fractions -/

/-- The number that digits behind the point stand for. -/
def fraction (ds : List ℕ) : ℚ := value 10 ds / 10 ^ ds.length

/-- The text of digits in front of the point and behind it. -/
def point (ds es : List ℕ) : Utf16 :=
  ds.map digit ++ if es = [] then [] else unit '.' :: es.map digit

@[simp] theorem fraction_nil : fraction [] = 0 := by simp [fraction]

theorem fraction_nonneg (ds : List ℕ) : 0 ≤ fraction ds := by
  rw [fraction]
  positivity

theorem fraction_lt_one {ds : List ℕ} (h : ∀ d ∈ ds, d < 10) : fraction ds < 1 := by
  have hlt : (value 10 ds : ℚ) < 10 ^ ds.length := by exact_mod_cast value_lt (by decide) h
  rw [fraction, div_lt_one (by positivity)]
  exact hlt

theorem fraction_concat_zero (ds : List ℕ) : fraction (ds ++ [0]) = fraction ds := by
  rw [fraction, fraction, value_concat, List.length_append, List.length_singleton, pow_succ]
  push_cast
  field_simp
  ring

/-- Zeros at the end count for nothing. -/
theorem fraction_rdropWhile (ds : List ℕ) : fraction (ds.rdropWhile (· == 0)) = fraction ds := by
  induction ds using List.reverseRecOn with
  | nil => rfl
  | append_singleton ds d ih =>
    by_cases hd : d = 0
    · rw [hd, List.rdropWhile_concat_pos _ _ _ (by rfl), ih, fraction_concat_zero]
    · rw [List.rdropWhile_concat_neg _ _ _ (by simpa using hd)]

theorem getLast?_rdropWhile (ds : List ℕ) : (ds.rdropWhile (· == 0)).getLast? ≠ some 0 := by
  intro h
  have hne : ds.rdropWhile (· == 0) ≠ [] := by
    intro hnil
    rw [hnil] at h
    cases h
  rw [List.getLast?_eq_some_getLast hne, Option.some.injEq] at h
  exact List.rdropWhile_last_not _ _ hne (by rw [h]; rfl)

theorem eq_of_fraction_eq_of_le {ds es : List ℕ} (hds : ∀ d ∈ ds, d < 10) (hes : ∀ e ∈ es, e < 10)
    (he : es.getLast? ≠ some 0) (hle : ds.length ≤ es.length) (h : fraction ds = fraction es) :
    ds = es := by
  obtain ⟨k, hk⟩ := Nat.exists_eq_add_of_le hle
  have hcross : value 10 ds * 10 ^ es.length = value 10 es * 10 ^ ds.length := by
    rw [fraction, fraction, div_eq_div_iff (by positivity) (by positivity)] at h
    exact_mod_cast h
  have hvalue : value 10 (ds ++ List.replicate k 0) = value 10 es := by
    rw [hk, pow_add] at hcross
    rw [value_append, List.length_replicate, value_eq (List.replicate k 0), List.reverse_replicate,
      Nat.ofDigits_replicate_zero, Nat.add_zero]
    refine Nat.eq_of_mul_eq_mul_right (Nat.pow_pos (by decide : 0 < 10) (n := ds.length)) ?_
    rw [← hcross]
    ring
  have hpad : ds ++ List.replicate k 0 = es := by
    refine eq_of_value_eq (by decide) ?_ hes (by simp [hk]) hvalue
    intro d hd
    rcases List.mem_append.mp hd with hd | hd
    · exact hds d hd
    · rw [List.eq_of_mem_replicate hd]
      decide
  cases k with
  | zero => simpa using hpad
  | succ k =>
    rw [← hpad, List.replicate_succ', ← List.append_assoc, List.getLast?_concat] at he
    exact absurd rfl he

/-- **Digits behind the point, without zeros at the end, are those of their fraction.** -/
theorem eq_of_fraction_eq {ds es : List ℕ} (hds : ∀ d ∈ ds, d < 10) (hes : ∀ e ∈ es, e < 10)
    (hd : ds.getLast? ≠ some 0) (he : es.getLast? ≠ some 0) (h : fraction ds = fraction es) :
    ds = es := by
  rcases Nat.le_total ds.length es.length with hle | hle
  · exact eq_of_fraction_eq_of_le hds hes he hle h
  · exact (eq_of_fraction_eq_of_le hes hds hd hle h.symm).symm

/-- An integer and a fraction below one are determined by their sum. -/
theorem eq_of_add_eq {m n : ℕ} {p q : ℚ} (hp : 0 ≤ p ∧ p < 1) (hq : 0 ≤ q ∧ q < 1)
    (h : (m : ℚ) + p = n + q) : m = n ∧ p = q := by
  have hmn : m = n := by
    rcases Nat.lt_trichotomy m n with hlt | heq | hgt
    · have hle : (m : ℚ) + 1 ≤ n := by exact_mod_cast hlt
      linarith [hp.2, hq.1]
    · exact heq
    · have hle : (n : ℚ) + 1 ≤ m := by exact_mod_cast hgt
      linarith [hq.2, hp.1]
  subst hmn
  exact ⟨rfl, add_left_cancel h⟩

end Bufi.Text
