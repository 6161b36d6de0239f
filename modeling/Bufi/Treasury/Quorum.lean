import Bufi.Treasury.Signatures
import Mathlib.Data.List.Chain

/-!
# What the weighted signature check accepts

`QuorumBlob k l` is the documented format: the blob opens with `k` slots, slot
`i` is a valid signature of `l[i]`, the signers ascend strictly and all have
weight, the static part ends exactly where the first dynamic part begins, and
the weights reach the threshold.

The loop is followed through `loopState l`, its variables once the slots of `l`
have been counted, and `SignedPrefix l`, what is known of them then.
`sigLoop_cases` says that from such a state the loop refuses or stops at a
longer one, never panics and never runs out of fuel; `sigLoop_complete` that a
`QuorumBlob` is walked to its end.  Together they give
`checkWeightedSigs_eq_true_iff`.
-/

namespace Bufi.Treasury

open Bufi.Evm Bufi.Gateway

instance : Trans (α := Address) (· < ·) (· < ·) (· < ·) where
  trans h₁ h₂ := by bv_omega

/-- The summed weight of a list of signers. -/
def Signers.weightOf (S : Signers) (l : List Address) : ℕ :=
  (l.map (fun a => (S.weights a).toNat)).sum

theorem Signers.weightOf_concat (S : Signers) (l : List Address) (a : Address) :
    S.weightOf (l ++ [a]) = S.weightOf l + (S.weights a).toNat := by
  simp [weightOf]

theorem Signers.weightOf_le (S : Signers) (l : List Address) :
    S.weightOf l ≤ 65535 * l.length := by
  induction l with
  | nil => simp [weightOf]
  | cons a l ih =>
    have hw := (S.weights a).isLt
    simp only [weightOf, List.map_cons, List.sum_cons, List.length_cons] at ih ⊢
    omega

/-- The owner-set invariant. -/
structure Signers.Valid (treasury : Address) (S : Signers) : Prop where
  length_pos : 1 ≤ S.owners.length
  length_le : S.owners.length ≤ 20
  nodup : S.owners.Nodup
  zero_not_mem : 0 ∉ S.owners
  treasury_not_mem : treasury ∉ S.owners
  weight_pos_iff : ∀ a, 0 < (S.weights a).toNat ↔ a ∈ S.owners
  threshold_pos : 1 ≤ S.thresholdWeight.toNat
  threshold_le : S.thresholdWeight.toNat ≤ S.weightOf S.owners

theorem Signers.Valid.weight_ne_iff {treasury : Address} {S : Signers} (h : S.Valid treasury)
    (a : Address) : S.weights a ≠ 0 ↔ a ∈ S.owners := by
  rw [← h.weight_pos_iff a]
  constructor
  · intro hne
    bv_omega
  · intro hlt he
    rw [he] at hlt
    simp at hlt

theorem Signers.Valid.weight_zero {treasury : Address} {S : Signers} (h : S.Valid treasury) :
    S.weights 0 = 0 := by
  by_contra hne
  exact h.zero_not_mem ((h.weight_ne_iff 0).mp hne)

section

variable {W : Type} (O : SigOracle W) (treasury : Address) (S : Signers) (hash : W) (b : Bytes)

/-- The blob `b` carries the signatures of `l` in its first `k` slots, as the
format asks, and they reach the threshold. -/
structure QuorumBlob (k : ℕ) (l : List Address) : Prop where
  pos : 1 ≤ k
  length_eq : l.length = k
  ascending : l.Pairwise (· < ·)
  weight_ne : ∀ a ∈ l, S.weights a ≠ 0
  slots : ∀ i a, l[i]? = some a → SlotValid O treasury hash b i a
  static_end : k * 65 = staticEndOf b k
  quorum : S.thresholdWeight.toNat ≤ S.weightOf l

/-- What the loop has established once the slots of `l` are counted. -/
structure SignedPrefix (l : List Address) : Prop where
  ascending : (0 :: l).IsChain (· < ·)
  weight_ne : ∀ a ∈ l, S.weights a ≠ 0
  slots : ∀ i a, l[i]? = some a → SlotValid O treasury hash b i a
  fits : 65 * l.length ≤ staticEndOf b l.length

/-- The loop variables once the slots of `l` are counted. -/
def loopState (l : List Address) : SigLoop :=
  ⟨l.length, staticEndOf b l.length, l.getLast?.getD 0, S.weightOf l⟩

theorem signedPrefix_nil : SignedPrefix O treasury S hash b [] where
  ascending := by simp
  weight_ne := by simp
  slots := by simp
  fits := by simp

variable {O treasury S hash b}

theorem SlotValid.static_end {i : ℕ} {a : Address} (h : SlotValid O treasury hash b i a)
    (hfit : 65 * (i + 1) ≤ staticEndOf b i) : 65 * (i + 1) ≤ staticEndOf b (i + 1) := by
  rw [staticEndOf_succ]
  cases h with
  | eoa hv hs hr => rw [contractOffset, if_neg hv, Option.getD_none, min_self]; exact hfit
  | contract hv hc ha hne hlo hhi hok =>
    rw [contractOffset, if_pos hv, Option.getD_some]
    exact le_min hfit hlo

/-- Counting one more slot keeps the invariant. -/
theorem SignedPrefix.concat {l : List Address} {a : Address} (h : SignedPrefix O treasury S hash b l)
    (hfit : 65 * (l.length + 1) ≤ staticEndOf b l.length)
    (ha : SlotValid O treasury hash b l.length a) (hlt : l.getLast?.getD 0 < a)
    (hw : S.weights a ≠ 0) : SignedPrefix O treasury S hash b (l ++ [a]) where
  ascending := by
    rw [← List.cons_append, List.isChain_append]
    refine ⟨h.ascending, List.isChain_singleton a, ?_⟩
    intro x hx y hy
    simp only [List.head?_cons, Option.mem_def, Option.some.injEq] at hy
    subst hy
    rw [List.getLast?_cons, Option.mem_def, Option.some.injEq] at hx
    exact hx ▸ hlt
  weight_ne := by
    intro x hx
    rcases List.mem_append.mp hx with hx | hx
    · exact h.weight_ne x hx
    · rw [List.mem_singleton.mp hx]
      exact hw
  slots := by
    intro i x hi
    rcases Nat.lt_trichotomy i l.length with hlt | heq | hgt
    · rw [List.getElem?_append_left hlt] at hi
      exact h.slots i x hi
    · subst heq
      rw [List.getElem?_concat_length] at hi
      exact Option.some.inj hi ▸ ha
    · rw [List.getElem?_eq_none (by simp; omega)] at hi
      exact absurd hi (by simp)
  fits := by
    rw [List.length_append, List.length_singleton]
    exact ha.static_end hfit

theorem loopState_concat (S : Signers) (sigs : MemBytes) (l : List Address) (a : Address) :
    (loopState S sigs.data l).count S sigs a = loopState S sigs.data (l ++ [a]) := by
  simp only [loopState, SigLoop.count, List.length_append, List.length_singleton,
    List.getLast?_concat, Option.getD_some, S.weightOf_concat, staticEndOf_succ]

theorem loopState_inRange {sigs : MemBytes} {l : List Address}
    (hfit : 65 * (l.length + 1) ≤ staticEndOf sigs.data l.length) :
    (loopState S sigs.data l).InRange sigs where
  fits := le_trans hfit (staticEndOf_le_length _ _)
  small := S.weightOf_le l

/-- The test of the loop, from a state that fits the blob. -/
theorem sigLoop_succ {sigs : MemBytes} {l : List Address} (fuel : ℕ)
    (hl : 65 * l.length ≤ sigs.data.length) :
    sigLoop O treasury S hash sigs (fuel + 1) (loopState S sigs.data l)
      = if 65 * (l.length + 1) ≤ staticEndOf sigs.data l.length then
          (sigStep O treasury S hash sigs (loopState S sigs.data l)).bind (fun f =>
            match f with
            | .ret b => some (.ret b)
            | .next st' => sigLoop O treasury S hash sigs fuel st')
        else some (.next (loopState S sigs.data l)) := by
  have hlen := sigs.size_lt
  rw [sigLoop]
  change (checkedAdd l.length 1).bind _ = _
  rw [checkedAdd_of_lt (by omega), Option.bind_some]
  change (checkedMul (l.length + 1) 65).bind _ = _
  rw [checkedMul_of_lt (by omega), Option.bind_some, Nat.mul_comm (l.length + 1) 65]
  rfl

/-- **A turn refuses or counts one more slot.** -/
theorem sigStep_cases {sigs : MemBytes} {l : List Address}
    (hl : SignedPrefix O treasury S hash sigs.data l)
    (hfit : 65 * (l.length + 1) ≤ staticEndOf sigs.data l.length) :
    sigStep O treasury S hash sigs (loopState S sigs.data l) = some (.ret false)
      ∨ ∃ a, SignedPrefix O treasury S hash sigs.data (l ++ [a])
        ∧ sigStep O treasury S hash sigs (loopState S sigs.data l)
          = some (.next (loopState S sigs.data (l ++ [a]))) := by
  rw [sigStep_eq O treasury S hash (loopState_inRange hfit)]
  cases ha : slotSigner O treasury hash sigs.data (loopState S sigs.data l).i with
  | none => exact Or.inl rfl
  | some a =>
    rw [turnResult]
    by_cases hc : a ≤ (loopState S sigs.data l).prevSigner ∨ S.weights a = 0
    · exact Or.inl (by rw [if_pos hc])
    · rw [if_neg hc, loopState_concat]
      rw [not_or] at hc
      refine Or.inr ⟨a, hl.concat hfit ((slotSigner_eq_some_iff _ _ _ _).mp ha) ?_ hc.2, rfl⟩
      have hlt := hc.1
      simp only [loopState] at hlt
      bv_omega

/-- **The loop refuses or stops at a longer prefix.**  It never panics, and with
a turn of fuel for every slot that may still fit it never runs out. -/
theorem sigLoop_cases {sigs : MemBytes} (fuel : ℕ) : ∀ {l : List Address},
    SignedPrefix O treasury S hash sigs.data l → sigs.data.length / 65 < fuel + l.length →
    sigLoop O treasury S hash sigs fuel (loopState S sigs.data l) = some (.ret false)
      ∨ ∃ l', SignedPrefix O treasury S hash sigs.data l'
        ∧ ¬ 65 * (l'.length + 1) ≤ staticEndOf sigs.data l'.length
        ∧ sigLoop O treasury S hash sigs fuel (loopState S sigs.data l)
          = some (.next (loopState S sigs.data l')) := by
  induction fuel with
  | zero =>
    intro l hl hfuel
    have := le_trans hl.fits (staticEndOf_le_length _ _)
    omega
  | succ fuel ih =>
    intro l hl hfuel
    rw [sigLoop_succ fuel (le_trans hl.fits (staticEndOf_le_length _ _))]
    by_cases hfit : 65 * (l.length + 1) ≤ staticEndOf sigs.data l.length
    swap
    · exact Or.inr ⟨l, hl, hfit, by rw [if_neg hfit]⟩
    rw [if_pos hfit]
    rcases sigStep_cases hl hfit with hret | ⟨a, ha, hnext⟩
    · exact Or.inl (by rw [hret, Option.bind_some])
    · rw [hnext, Option.bind_some]
      refine ih ha ?_
      rw [List.length_append, List.length_singleton]
      omega

/-- A blob in the format is walked from any of its slots to its end. -/
theorem sigLoop_complete {sigs : MemBytes} {k : ℕ} {l : List Address}
    (h : QuorumBlob O treasury S hash sigs.data k l) (h0 : S.weights 0 = 0) (fuel : ℕ) :
    ∀ i, i ≤ k → k - i < fuel →
      sigLoop O treasury S hash sigs fuel (loopState S sigs.data (l.take i))
        = some (.next (loopState S sigs.data l)) := by
  have hend := h.static_end
  have hle := staticEndOf_le_length sigs.data k
  induction fuel with
  | zero => intro i _ hf; omega
  | succ fuel ih =>
    intro i hik hf
    have hlen : (l.take i).length = i := by
      rw [List.length_take, h.length_eq]
      omega
    rw [sigLoop_succ fuel (by omega), hlen]
    rcases Nat.lt_or_ge i k with hlt | hge
    · have hil : i < l.length := by rw [h.length_eq]; exact hlt
      have hfit : 65 * (i + 1) ≤ staticEndOf sigs.data i := by
        have := staticEndOf_antitone sigs.data hik
        omega
      have hval := h.slots i l[i] (List.getElem?_eq_getElem hil)
      have hmem : l[i] ∈ l := List.getElem_mem hil
      rw [if_pos hfit, sigStep_eq O treasury S hash (loopState_inRange (by rw [hlen]; exact hfit)),
        Option.bind_some]
      have hi : (loopState S sigs.data (l.take i)).i = i := hlen
      rw [hi, (slotSigner_eq_some_iff _ _ _ _).mpr hval, turnResult]
      have hprev : ¬ (l[i] ≤ (loopState S sigs.data (l.take i)).prevSigner
          ∨ S.weights l[i] = 0) := by
        refine not_or.mpr ⟨?_, h.weight_ne _ hmem⟩
        -- the previous signer is the slot before, or zero, which has no weight
        change ¬ l[i] ≤ (l.take i).getLast?.getD 0
        rcases i with _ | j
        · have hne : l[0] ≠ 0 := fun he => h.weight_ne _ hmem (he ▸ h0)
          simp only [List.take_zero, List.getLast?_nil, Option.getD_none]
          bv_omega
        · have hj : j < l.length := by omega
          have hlt' := List.pairwise_iff_getElem.mp h.ascending j (j + 1) hj hil (by omega)
          rw [List.take_succ_eq_append_getElem hj, List.getLast?_concat, Option.getD_some]
          bv_omega
      rw [if_neg hprev, loopState_concat]
      rw [← List.take_succ_eq_append_getElem hil]
      exact ih (i + 1) (by omega) (by omega)
    · have he : i = k := by omega
      subst he
      rw [if_neg (by omega), List.take_of_length_le (by rw [h.length_eq])]

theorem SignedPrefix.length_le {l : List Address} (h : SignedPrefix O treasury S hash b l) :
    65 * l.length ≤ b.length :=
  le_trans h.fits (staticEndOf_le_length _ _)

/-- **The check never reverts.** -/
theorem checkWeightedSigs_total (O : SigOracle W) (treasury : Address) (S : Signers) (hash : W)
    (sigs : MemBytes) : ∃ v, checkWeightedSigs O treasury S hash sigs = some v := by
  have hlen := sigs.size_lt
  have hstart : loopState S sigs.data [] = ⟨0, sigs.data.length, 0, 0⟩ := rfl
  simp only [checkWeightedSigs]
  split_ifs with hne
  · exact ⟨false, rfl⟩
  rw [← hstart]
  rcases sigLoop_cases (sigs.data.length / 65 + 1) (signedPrefix_nil O treasury S hash sigs.data)
    (by omega) with hr | ⟨l, hl, -, hr⟩
  · exact ⟨false, by rw [hr]; rfl⟩
  · have := hl.length_le
    rw [hr]
    simp only [Option.bind_eq_bind, Option.bind_some]
    split_ifs with hi
    · exact ⟨false, rfl⟩
    change ∃ v, (checkedMul l.length 65).bind _ = some v
    rw [checkedMul_of_lt (by omega), Option.bind_some]
    split_ifs
    · exact ⟨false, rfl⟩
    · exact ⟨_, rfl⟩

/-- **The check is sound and complete.** -/
theorem checkWeightedSigs_eq_true_iff {sigs : MemBytes} (h0 : S.weights 0 = 0) :
    checkWeightedSigs O treasury S hash sigs = some true
      ↔ ∃ k l, QuorumBlob O treasury S hash sigs.data k l := by
  have hlen := sigs.size_lt
  have hstart : loopState S sigs.data [] = ⟨0, sigs.data.length, 0, 0⟩ := rfl
  constructor
  · intro h
    simp only [checkWeightedSigs] at h
    split_ifs at h with hne
    · simp at h
    rw [← hstart] at h
    rcases sigLoop_cases (sigs.data.length / 65 + 1) (signedPrefix_nil O treasury S hash sigs.data)
      (by omega) with hr | ⟨l, hl, hstop, hr⟩
    · rw [hr] at h
      simp at h
    · rw [hr] at h
      simp only [Option.bind_eq_bind, Option.bind_some] at h
      split_ifs at h with hi
      · simp at h
      change (checkedMul l.length 65).bind _ = _ at h
      have := hl.length_le
      rw [checkedMul_of_lt (by omega), Option.bind_some] at h
      split_ifs at h with he
      · simp at h
      simp only [Option.pure_def, Option.some.injEq, decide_eq_true_eq] at h
      refine ⟨l.length, l, ⟨Nat.pos_of_ne_zero hi, rfl, ?_, hl.weight_ne, hl.slots, not_not.mp he,
        h⟩⟩
      exact (List.pairwise_cons.mp hl.ascending.pairwise).2
  · rintro ⟨k, l, h⟩
    have hend := h.static_end
    have hle := staticEndOf_le_length sigs.data k
    have hpos := h.pos
    have hwalk := sigLoop_complete h h0 (sigs.data.length / 65 + 1) 0 (by omega) (by omega)
    rw [List.take_zero, hstart] at hwalk
    simp only [checkWeightedSigs]
    rw [if_neg (by omega), hwalk]
    simp only [Option.bind_eq_bind, Option.bind_some]
    have hi : (loopState S sigs.data l).i = k := h.length_eq
    have he : (loopState S sigs.data l).staticEnd = staticEndOf sigs.data k := by
      rw [← h.length_eq]
      rfl
    rw [hi, he, if_neg (by omega), checkedMul_of_lt (by omega), Option.bind_some,
      if_neg (not_not.mpr hend)]
    exact congrArg some (decide_eq_true h.quorum)

end

end Bufi.Treasury
