import Bufi.Subgraph.Store
import Mathlib.Data.List.Basic

/-!
# Ids tell entities apart

An id is a text whose parts stand between colons, and no part has a colon in it.  So the
last part of an id can be read off (`eq_of_last_colon`): the ids of two agents differ
where the agents do, the id of a feedback tells which agent it is about, and an
engagement has the hash of two agent ids put together, from which both can be read off
(`engagementId_inj`).
-/

namespace Bufi.Subgraph

open Bufi.Evm Bufi.Index

/-! ### Parts -/

/-- The part behind the last colon. -/
theorem eq_of_last_colon {a b x y : Bytes} (hx : colon ∉ x) (hy : colon ∉ y)
    (h : a ++ colon :: x = b ++ colon :: y) : a = b ∧ x = y := by
  rcases List.append_eq_append_iff.mp h with ⟨l, hl, hrest⟩ | ⟨l, hl, hrest⟩
  · cases l with
    | nil => exact ⟨by simpa using hl.symm, by simpa using hrest⟩
    | cons c l =>
      rw [List.cons_append] at hrest
      injection hrest with _ htail
      exact absurd (htail ▸ by simp) hx
  · cases l with
    | nil => exact ⟨by simpa using hl, by simpa using hrest.symm⟩
    | cons c l =>
      rw [List.cons_append] at hrest
      injection hrest with _ htail
      exact absurd (htail ▸ by simp) hy

theorem digit_toNat {c : Char} {n : ℕ} (hc : c ∈ Nat.toDigits 10 n) :
    48 ≤ c.toNat ∧ c.toNat ≤ 57 := by
  have hdigit := Nat.isDigit_of_mem_toDigits (by decide) (le_refl 10) hc
  rw [Char.isDigit, Bool.and_eq_true, decide_eq_true_eq, decide_eq_true_eq] at hdigit
  exact ⟨by simpa using UInt32.le_iff_toNat_le.mp hdigit.1,
    by simpa using UInt32.le_iff_toNat_le.mp hdigit.2⟩

theorem toNat_ofNat_digit {c : Char} {n : ℕ} (hc : c ∈ Nat.toDigits 10 n) :
    (UInt8.ofNat c.toNat).toNat = c.toNat := by
  have hdigit := digit_toNat hc
  exact UInt8.toNat_ofNat_of_lt (lt_of_le_of_lt hdigit.2 (by decide))

theorem colon_not_mem_decimal (n : ℕ) : colon ∉ decimal n := by
  intro h
  obtain ⟨c, hc, heq⟩ := List.mem_map.mp h
  have hnat := congrArg UInt8.toNat heq
  rw [toNat_ofNat_digit hc] at hnat
  have := digit_toNat hc
  have hcolon : colon.toNat = 58 := rfl
  omega

/-- The digits can be read back. -/
theorem map_decimal (n : ℕ) :
    (decimal n).map (fun b => Char.ofNat b.toNat) = Nat.toDigits 10 n := by
  rw [decimal, List.map_map]
  refine (List.map_congr_left ?_).trans (List.map_id _)
  intro c hc
  show Char.ofNat (UInt8.ofNat c.toNat).toNat = c
  rw [toNat_ofNat_digit hc, Char.ofNat_toNat]

theorem decimal_inj {m n : ℕ} (h : decimal m = decimal n) : m = n := by
  have hdigits : Nat.toDigits 10 m = Nat.toDigits 10 n := by
    rw [← map_decimal, h, map_decimal]
  rw [← Nat.ofDigitChars_ten_toDigits (n := m), hdigits, Nat.ofDigitChars_ten_toDigits]

theorem hexDigit_ne_colon : ∀ n < 16, hexDigit n ≠ colon := by decide

theorem colon_not_mem_hexText (a : Address) : colon ∉ hexText a := by
  intro h
  rcases List.mem_cons.mp h with h | h
  · cases h
  rcases List.mem_cons.mp h with h | h
  · cases h
  obtain ⟨i, -, heq⟩ := List.mem_map.mp h
  exact hexDigit_ne_colon _ (Nat.mod_lt _ (by decide)) heq

theorem hexDigit_inj : ∀ m < 16, ∀ n < 16, hexDigit m = hexDigit n → m = n := by decide

/-- Numbers with the same digits, up to a power. -/
theorem mod_pow_eq {b m n k : ℕ} (h : ∀ i < k, m / b ^ i % b = n / b ^ i % b) :
    m % b ^ k = n % b ^ k := by
  induction k with
  | zero => rw [pow_zero, Nat.mod_one, Nat.mod_one]
  | succ k ih =>
    rw [Nat.mod_pow_succ, Nat.mod_pow_succ, ih (fun i hi => h i (by omega)), h k (by omega)]

theorem hexText_inj {a b : Address} (h : hexText a = hexText b) : a = b := by
  have hdigits := (List.cons.inj (List.cons.inj h).2).2
  have hmod : a.toNat % 16 ^ 40 = b.toNat % 16 ^ 40 := by
    refine mod_pow_eq ?_
    intro i hi
    have hi' := List.map_inj_left.mp hdigits (39 - i) (List.mem_range.mpr (by omega))
    rw [show 39 - (39 - i) = i by omega] at hi'
    exact hexDigit_inj _ (Nat.mod_lt _ (by decide)) _ (Nat.mod_lt _ (by decide)) hi'
  refine BitVec.eq_of_toNat_eq ?_
  have ha : a.toNat < 16 ^ 40 := lt_of_lt_of_eq a.isLt (by norm_num)
  have hb : b.toNat < 16 ^ 40 := lt_of_lt_of_eq b.isLt (by norm_num)
  rwa [Nat.mod_eq_of_lt ha, Nat.mod_eq_of_lt hb] at hmod

/-! ### Ids -/

section Ids

variable {W : Type} {D : Deployment W}

theorem agentEntityId_inj {m n : ℕ} (h : agentEntityId D m = agentEntityId D n) : m = n :=
  decimal_inj (eq_of_last_colon (colon_not_mem_decimal m) (colon_not_mem_decimal n) h).2

theorem jobEntityId_inj {m n : ℕ} (h : jobEntityId D m = jobEntityId D n) : m = n :=
  decimal_inj (eq_of_last_colon (colon_not_mem_decimal m) (colon_not_mem_decimal n) h).2

/-- The id of a feedback tells the agent it is about, who gave it and its index. -/
theorem feedbackEntityId_inj {agentId agentId' : ℕ} {client client' : Address}
    {index index' : ℕ}
    (h : feedbackEntityId D agentId client index = feedbackEntityId D agentId' client' index') :
    agentId = agentId' ∧ client = client' ∧ index = index' := by
  have hindex := eq_of_last_colon (colon_not_mem_decimal index) (colon_not_mem_decimal index') h
  have hclient := eq_of_last_colon (colon_not_mem_hexText client) (colon_not_mem_hexText client')
    hindex.1
  have hagent := eq_of_last_colon (colon_not_mem_decimal agentId) (colon_not_mem_decimal agentId')
    hclient.1
  exact ⟨decimal_inj hagent.2, hexText_inj hclient.2, decimal_inj hindex.2⟩

/-- **An engagement has one client and one provider.** -/
theorem engagementId_inj {m n m' n' : ℕ}
    (h : engagementId D (agentEntityId D m) (agentEntityId D n) =
      engagementId D (agentEntityId D m') (agentEntityId D n')) : m = m' ∧ n = n' := by
  have htext := D.keccak.hash_inj h
  have hsplit : ∀ k l, agentEntityId D k ++ agentEntityId D l =
      (agentEntityId D k ++ registryEntityId D.chainId D.identityRegistry) ++
        colon :: decimal l := by
    intro k l
    rw [agentEntityId, agentEntityId, List.append_assoc, List.append_assoc, List.append_assoc]
  rw [hsplit m n, hsplit m' n'] at htext
  obtain ⟨hclient, hprovider⟩ :=
    eq_of_last_colon (colon_not_mem_decimal n) (colon_not_mem_decimal n') htext
  exact ⟨agentEntityId_inj (List.append_cancel_right hclient), decimal_inj hprovider⟩

end Ids

end Bufi.Subgraph
