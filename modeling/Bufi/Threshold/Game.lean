import Mathlib.Algebra.BigOperators.Fin
import Mathlib.Algebra.Order.BigOperators.Group.Finset
import Mathlib.Data.Nat.Bitwise
import Mathlib.Order.Minimal
import Mathlib.SetTheory.Cardinal.Finite

/-!
# Weighted threshold games

Voters have weights and a set of them wins when its weight reaches a threshold.
Winning is monotone, so it is the same as containing a minimal winning set
(`wins_iff_exists_minimal`), and whether a winning set is minimal is seen by
taking out one voter at a time (`minimal_wins_iff`).  The game is a unanimity
game, `AllOf`, exactly when there is one minimal winning set only
(`allOf_iff_unique_minimal`).

The sets of voters `0, …, n - 1` are the numbers below `2 ^ n`: `bits` and `mask`
are inverse to each other.  The voters of a list are its positions, and the
weight of some of them is a sum over a part of the list.
-/

namespace Bufi.Threshold

open Finset

section

variable {ι : Type*} {w : ι → ℕ} {t : ℕ} {s u m : Finset ι}

/-- The weight of the set reaches the threshold. -/
def Wins (w : ι → ℕ) (t : ℕ) (s : Finset ι) : Prop := t ≤ ∑ i ∈ s, w i

instance decidableWins : Decidable (Wins w t s) := inferInstanceAs (Decidable (_ ≤ _))

theorem Wins.mono (h : Wins w t s) (hsu : s ⊆ u) : Wins w t u :=
  le_trans h (sum_le_sum_of_subset hsu)

/-- **A set wins when it contains a minimal winning set.** -/
theorem wins_iff_exists_minimal : Wins w t s ↔ ∃ m, m ⊆ s ∧ Minimal (Wins w t) m := by
  constructor
  · intro h
    obtain ⟨m, hm, hmin⟩ := exists_minimal_le_of_wellFoundedLT (Wins w t) s h
    exact ⟨m, hm, hmin⟩
  · rintro ⟨m, hm, hmin⟩
    exact hmin.prop.mono hm

/-- A winning set is minimal when it stops winning without any one voter. -/
theorem minimal_wins_iff :
    Minimal (Wins w t) s ↔ Wins w t s ∧ ∀ i ∈ s, ∑ j ∈ s, w j < t + w i := by
  classical
  constructor
  · intro h
    refine ⟨h.prop, ?_⟩
    intro i hi
    have hlose : ¬ Wins w t (s.erase i) := h.not_prop_of_lt (erase_ssubset hi)
    rw [Wins, Nat.not_le] at hlose
    rw [← sum_erase_add s w hi]
    omega
  · rintro ⟨hwin, hlose⟩
    refine ⟨hwin, ?_⟩
    intro u hu hus
    by_contra hne
    obtain ⟨i, hi, hiu⟩ := not_subset.mp hne
    have hle : Wins w t (s.erase i) := hu.mono (subset_erase.mpr ⟨hus, hiu⟩)
    have hlt := hlose i hi
    rw [← sum_erase_add s w hi] at hlt
    rw [Wins] at hle
    omega

/-- The sets that win are those that contain `m`. -/
def AllOf (w : ι → ℕ) (t : ℕ) (m : Finset ι) : Prop := ∀ s, Wins w t s ↔ m ⊆ s

instance decidableAllOf [Fintype ι] [DecidableEq ι] : Decidable (AllOf w t m) :=
  inferInstanceAs (Decidable (∀ s, Wins w t s ↔ m ⊆ s))

/-- **Unanimity is one minimal winning set.** -/
theorem allOf_iff_unique_minimal :
    AllOf w t m ↔ Minimal (Wins w t) m ∧ ∀ m', Minimal (Wins w t) m' → m' = m := by
  constructor
  · intro h
    have hwin : Wins w t m := (h m).mpr (Subset.refl m)
    refine ⟨⟨hwin, fun u hu _ => (h u).mp hu⟩, ?_⟩
    intro m' hm'
    have hsub : m ⊆ m' := (h m').mp hm'.prop
    exact Subset.antisymm (hm'.le_of_le hwin hsub) hsub
  · rintro ⟨hmin, huniq⟩ s
    rw [wins_iff_exists_minimal]
    constructor
    · rintro ⟨m', hsub, hm'⟩
      rwa [huniq m' hm'] at hsub
    · intro hsub
      exact ⟨m, hsub, hmin⟩

theorem card_minimal_eq_one_iff :
    Nat.card {m // Minimal (Wins w t) m} = 1 ↔ ∃ m, AllOf w t m := by
  rw [Nat.card_eq_one_iff_exists]
  constructor
  · rintro ⟨⟨m, hm⟩, huniq⟩
    refine ⟨m, allOf_iff_unique_minimal.mpr ⟨hm, ?_⟩⟩
    intro m' hm'
    exact congrArg Subtype.val (huniq ⟨m', hm'⟩)
  · rintro ⟨m, hall⟩
    obtain ⟨hm, huniq⟩ := allOf_iff_unique_minimal.mp hall
    exact ⟨⟨m, hm⟩, fun m' => Subtype.ext (huniq m' m'.2)⟩

end

/-! ### Sets as numbers -/

section

variable {n : ℕ}

/-- The set whose members are the bits of a number. -/
def bits (n : ℕ) (mask : ℕ) : Finset (Fin n) := univ.filter (fun i => mask.testBit i = true)

/-- The number whose bits are the members of a set. -/
def mask (s : Finset (Fin n)) : ℕ := Nat.ofBits (fun i => decide (i ∈ s))

theorem mem_bits {k : ℕ} {i : Fin n} : i ∈ bits n k ↔ k.testBit i = true := by
  rw [bits, mem_filter]
  exact and_iff_right (mem_univ i)

theorem mask_lt (s : Finset (Fin n)) : mask s < 2 ^ n := Nat.ofBits_lt_two_pow _

theorem bits_mask (s : Finset (Fin n)) : bits n (mask s) = s := by
  ext i
  rw [mem_bits, mask, Nat.testBit_ofBits_lt _ _ i.isLt, decide_eq_true_iff]

theorem eq_of_bits_eq {k l : ℕ} (hk : k < 2 ^ n) (hl : l < 2 ^ n) (h : bits n k = bits n l) :
    k = l := by
  apply Nat.eq_of_testBit_eq
  intro i
  by_cases hi : i < n
  · have hiff : k.testBit i = true ↔ l.testBit i = true := by
      rw [← mem_bits (i := ⟨i, hi⟩), ← mem_bits (i := ⟨i, hi⟩), h]
    exact Bool.eq_iff_iff.mpr hiff
  · have hle : 2 ^ n ≤ 2 ^ i := Nat.pow_le_pow_right (by decide) (by omega)
    rw [Nat.testBit_lt_two_pow (lt_of_lt_of_le hk hle),
      Nat.testBit_lt_two_pow (lt_of_lt_of_le hl hle)]

end

/-! ### Voters of a list -/

section

variable {α : Type*} {l : List α}

/-- The positions of a list whose element passes. -/
def positions (l : List α) (p : α → Bool) : Finset (Fin l.length) :=
  univ.filter (fun i => p l[i] = true)

theorem mem_positions {p : α → Bool} {i : Fin l.length} : i ∈ positions l p ↔ p l[i] = true := by
  rw [positions, mem_filter]
  exact and_iff_right (mem_univ i)

theorem sum_map_ite (l : List α) (p : α → Bool) (f : α → ℕ) :
    (l.map (fun x => if p x = true then f x else 0)).sum = ((l.filter p).map f).sum := by
  induction l with
  | nil => rfl
  | cons x l ih =>
    rw [List.map_cons, List.sum_cons, ih]
    by_cases hp : p x = true
    · rw [if_pos hp, List.filter_cons_of_pos hp, List.map_cons, List.sum_cons]
    · rw [if_neg hp, List.filter_cons_of_neg hp, Nat.zero_add]

theorem sum_positions (p : α → Bool) (f : α → ℕ) :
    ∑ i ∈ positions l p, f l[i] = ((l.filter p).map f).sum := by
  rw [positions, sum_filter, ← sum_map_ite]
  exact Fin.sum_univ_fun_getElem l (fun x => if p x = true then f x else 0)

theorem card_positions (p : α → Bool) : (positions l p).card = l.countP p := by
  have hsum := sum_positions (l := l) p (fun _ => 1)
  rw [sum_const, smul_eq_mul, Nat.mul_one] at hsum
  rw [hsum, List.countP_eq_length_filter]
  simp

theorem map_zipIdx_eq_ofFn {β : Type*} (g : α × ℕ → β) :
    l.zipIdx.map g = List.ofFn (fun i : Fin l.length => g (l[i], i.val)) := by
  apply List.ext_getElem
  · simp
  · intro i h₁ h₂
    simp

theorem sum_bits (k : ℕ) (f : α → ℕ) :
    ∑ i ∈ bits l.length k, f l[i]
      = ((l.zipIdx.filter (fun x => k.testBit x.2)).map (fun x => f x.1)).sum := by
  rw [← sum_map_ite, map_zipIdx_eq_ofFn, List.sum_ofFn, bits, sum_filter]

theorem forall_zipIdx {P : α → ℕ → Prop} :
    (∀ x ∈ l.zipIdx, P x.1 x.2) ↔ ∀ i : Fin l.length, P l[i] i := by
  constructor
  · intro h i
    exact h (l[i], i.val) (List.mk_mem_zipIdx_iff_getElem?.mpr (List.getElem?_eq_getElem i.isLt))
  · rintro h ⟨x, i⟩ hx
    obtain ⟨hi, rfl⟩ := List.getElem?_eq_some_iff.mp (List.mk_mem_zipIdx_iff_getElem?.mp hx)
    exact h ⟨i, hi⟩

end

end Bufi.Threshold
