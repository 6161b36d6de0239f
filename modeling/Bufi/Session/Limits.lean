import Bufi.Evm.Word

/-!
# Spend limits

A limit of a session key is an amount, what has been used of it, and a window:
with a refresh interval of zero the usage only grows; otherwise a window is in
force until `lastUsed + refreshInterval`, and the first use after it starts a
new one with nothing used.

The three functions that read or write a limit are here: the configuration
(`updateSpendLimits`), the check during validation (`checkSpendLimitUsage`) and
the check and update during execution (`runtimeUpdateSpendLimitUsage`).  `none`
is the panic of the `uint48` addition.

`Charged` is what a limit is for: amounts are charged one after another, each
is added to what the window in force has used, and the sum stays within the
limit.
-/

namespace Bufi.Session

open Bufi.Evm

structure SpendLimitTimeInfo where
  lastUsed : Uint48
  refreshInterval : Uint48
  deriving DecidableEq

structure SpendLimit where
  limitAmount : Uint256
  limitUsed : Uint256
  deriving DecidableEq

/-- A limit as it stands in storage: time info and amounts. -/
abbrev Budget := SpendLimitTimeInfo × SpendLimit

/-- The limit of zeroed storage. -/
def Budget.default : Budget := (⟨0, 0⟩, ⟨0, 0⟩)

/-- Checked `uint48` addition. -/
def checkedAdd48 (a b : Uint48) : Option Uint48 :=
  if a.toNat + b.toNat < 2 ^ 48 then some (a + b) else none

theorem toNat_of_checkedAdd48 {a b c : Uint48} (h : checkedAdd48 a b = some c) :
    c.toNat = a.toNat + b.toNat := by
  rw [checkedAdd48, Option.ite_none_right_eq_some, Option.some.injEq] at h
  rw [← h.2, BitVec.toNat_add, Nat.mod_eq_of_lt h.1]

/-- `uint48(block.timestamp)`. -/
def toUint48 (timestamp : Uint256) : Uint48 := timestamp.setWidth 48

theorem toNat_toUint48 {timestamp : Uint256} (h : timestamp.toNat < 2 ^ 48) :
    (toUint48 timestamp).toNat = timestamp.toNat := by
  rw [toUint48, BitVec.toNat_setWidth, Nat.mod_eq_of_lt h]

/-! ### Configuration -/

/-- `_updateSpendLimits`: whether the limit is enabled, and the limit.  The
largest amount disables it. -/
def updateSpendLimits (timestamp newLimit : Uint256) (newRefreshInterval : Uint48) (b : Budget) :
    Bool × Budget :=
  if newLimit = BitVec.allOnes 256 then (false, (b.1, { b.2 with limitUsed := 0 }))
  else
    (true, (⟨if newRefreshInterval = 0 then 0 else toUint48 timestamp, newRefreshInterval⟩,
      { b.2 with limitAmount := newLimit }))

/-! ### Validation -/

/-- `_checkSpendLimitUsage`: whether the usage fits, and from when on. -/
def checkSpendLimitUsage (newUsage : Uint256) (b : Budget) : Option (Bool × Uint48) :=
  let newTotalUsage := newUsage + b.2.limitUsed
  if newTotalUsage < newUsage then some (false, 0)
  else if b.1.refreshInterval = 0 then some (decide (newTotalUsage ≤ b.2.limitAmount), 0)
  else if newTotalUsage ≤ b.2.limitAmount then some (true, 0)
  else if newUsage ≤ b.2.limitAmount then
    (checkedAdd48 b.1.lastUsed b.1.refreshInterval).map (fun validAfter => (true, validAfter))
  else some (false, 0)

/-! ### Execution -/

/-- `refreshInterval == 0 || lastUsed + refreshInterval > block.timestamp`. -/
def windowActive (timestamp : Uint256) (t : SpendLimitTimeInfo) : Option Bool :=
  if t.refreshInterval = 0 then some true
  else (checkedAdd48 t.lastUsed t.refreshInterval).map
    (fun windowEnd => decide (timestamp.toNat < windowEnd.toNat))

/-- `_runtimeUpdateSpendLimitUsage`: its result, and the limit after it. -/
def runtimeUpdateSpendLimitUsage (timestamp newUsage : Uint256) (b : Budget) :
    Option (Bool × Budget) := do
  let active ← windowActive timestamp b.1
  if active then
    let newTotalUsage := newUsage + b.2.limitUsed
    if newTotalUsage < newUsage ∨ b.2.limitAmount < newTotalUsage then some (false, b)
    else some (true, (b.1, { b.2 with limitUsed := newTotalUsage }))
  else if b.2.limitAmount < newUsage then some (false, b)
  else
    some (true, ({ b.1 with lastUsed := toUint48 timestamp }, { b.2 with limitUsed := newUsage }))

/-- The window of the last use is still in force. -/
def InWindow (timestamp : Uint256) (t : SpendLimitTimeInfo) : Prop :=
  t.refreshInterval = 0 ∨ timestamp.toNat < t.lastUsed.toNat + t.refreshInterval.toNat

instance (timestamp : Uint256) (t : SpendLimitTimeInfo) : Decidable (InWindow timestamp t) :=
  inferInstanceAs (Decidable (_ ∨ _))

theorem windowActive_eq_some {timestamp : Uint256} {t : SpendLimitTimeInfo} {active : Bool}
    (h : windowActive timestamp t = some active) : active = true ↔ InWindow timestamp t := by
  rw [windowActive] at h
  by_cases hr : t.refreshInterval = 0
  · rw [if_pos hr, Option.some.injEq] at h
    rw [← h]
    exact iff_of_true rfl (.inl hr)
  · rw [if_neg hr, Option.map_eq_some_iff] at h
    obtain ⟨windowEnd, hadd, rfl⟩ := h
    rw [decide_eq_true_iff, toNat_of_checkedAdd48 hadd, InWindow]
    exact ⟨.inr, fun h => h.resolve_left hr⟩

/-- What has been used of the window a use falls into. -/
def carriedUsage (timestamp : Uint256) (b : Budget) : ℕ :=
  if InWindow timestamp b.1 then b.2.limitUsed.toNat else 0

/-- An unchecked sum that is not below its first summand did not wrap. -/
theorem toNat_add_of_not_lt {x y : Uint256} (h : ¬ x + y < x) :
    (x + y).toNat = x.toNat + y.toNat := by
  have hx := x.isLt
  have hy := y.isLt
  rw [BitVec.lt_def, BitVec.toNat_add] at h
  rw [BitVec.toNat_add]
  rcases Nat.lt_or_ge (x.toNat + y.toNat) (2 ^ 256) with hlt | hge
  · exact Nat.mod_eq_of_lt hlt
  · rw [Nat.mod_eq_sub_mod hge, Nat.mod_eq_of_lt (by omega)] at h
    omega

/-- One use of a limit: the amount is added to what the window in force has
used, and the sum is within the limit. -/
structure Charge (timestamp : Uint256) (b : Budget) (amount : Uint256) (b' : Budget) : Prop where
  limitUsed : b'.2.limitUsed.toNat = carriedUsage timestamp b + amount.toNat
  within : b'.2.limitUsed.toNat ≤ b.2.limitAmount.toNat
  limitAmount : b'.2.limitAmount = b.2.limitAmount
  refreshInterval : b'.1.refreshInterval = b.1.refreshInterval
  lastUsed : b'.1.lastUsed = if InWindow timestamp b.1 then b.1.lastUsed else toUint48 timestamp

/-- **A use the execution admits is charged.** -/
theorem charge_of_runtimeUpdate {timestamp newUsage : Uint256} {b b' : Budget}
    (h : runtimeUpdateSpendLimitUsage timestamp newUsage b = some (true, b')) :
    Charge timestamp b newUsage b' := by
  rw [runtimeUpdateSpendLimitUsage, Option.bind_eq_bind, Option.bind_eq_some_iff] at h
  obtain ⟨active, hactive, h⟩ := h
  have hwin := windowActive_eq_some hactive
  cases active with
  | true =>
    have hin : InWindow timestamp b.1 := hwin.mp rfl
    simp only [if_true] at h
    by_cases hc : newUsage + b.2.limitUsed < newUsage ∨ b.2.limitAmount < newUsage + b.2.limitUsed
    · rw [if_pos hc] at h
      exact absurd h (by simp)
    · rw [if_neg hc, Option.some.injEq, Prod.mk.injEq] at h
      obtain ⟨hwrap, hle⟩ := not_or.mp hc
      rw [BitVec.not_lt, BitVec.le_def] at hle
      rw [← h.2]
      refine ⟨?_, hle, rfl, rfl, (if_pos hin).symm⟩
      rw [carriedUsage, if_pos hin, toNat_add_of_not_lt hwrap, Nat.add_comm]
  | false =>
    have hout : ¬ InWindow timestamp b.1 := fun hin => Bool.false_ne_true (hwin.mpr hin)
    simp only [Bool.false_eq_true, if_false] at h
    by_cases hc : b.2.limitAmount < newUsage
    · rw [if_pos hc] at h
      exact absurd h (by simp)
    · rw [if_neg hc, Option.some.injEq, Prod.mk.injEq] at h
      rw [BitVec.not_lt, BitVec.le_def] at hc
      rw [← h.2]
      refine ⟨?_, hc, rfl, rfl, (if_neg hout).symm⟩
      rw [carriedUsage, if_neg hout, Nat.zero_add]

/-- A limit of zero admits nothing but zero, and stays as it is. -/
theorem Charge.eq_default {timestamp amount : Uint256} {b : Budget}
    (h : Charge timestamp .default amount b) : b = .default := by
  have hwin : InWindow timestamp Budget.default.1 := .inl rfl
  have hused : b.2.limitUsed = 0 := BitVec.eq_of_toNat_eq (Nat.le_zero.mp h.within)
  have hlast : b.1.lastUsed = 0 := h.lastUsed.trans (if_pos hwin)
  have hint : b.1.refreshInterval = 0 := h.refreshInterval
  have hamount : b.2.limitAmount = 0 := h.limitAmount
  obtain ⟨⟨lastUsed, refreshInterval⟩, ⟨limitAmount, limitUsed⟩⟩ := b
  simp only at hused hlast hint hamount
  rw [hused, hlast, hint, hamount]
  rfl

/-- The amounts are charged one after another. -/
inductive Charged (timestamp : Uint256) : Budget → List Uint256 → Budget → Prop
  | nil (b : Budget) : Charged timestamp b [] b
  | cons {b b' b'' : Budget} {amount : Uint256} {rest : List Uint256} :
      Charge timestamp b amount b' → Charged timestamp b' rest b'' →
      Charged timestamp b (amount :: rest) b''

end Bufi.Session
