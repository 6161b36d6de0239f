import Bufi.Send.Frost
import Mathlib.Data.List.Nodup

/-!
# Handing out shares

`run_dkg` of `frost-delegate` gives every owner as many share ids as the owner has
weight, one range after another from a running 16-bit counter, and writes the ids to
`owners.json` and their number to `group.json`.  The counter points one past the last
id, so it wraps as soon as the weights add up to 65535: the range of the owner at whom
it wraps is empty, and all ids after it are handed out again.

`runDkg` is the code, and `ranges` its loop without the checks.  Below the bound the
ranges joined are an interval (`ranges_flatMap`); at the bound and above it some range
is shorter than its weight (`sum_lt_of_lengths`).
-/

namespace Bufi.Delegate

open Bufi.Evm Bufi.Send

/-- The label and the weight that a part of the list gives. -/
def labelWeight (part : String) : Option (String × ℕ) := do
  let (label, digits) ← splitOnce part
  let weight ← parseU16 digits
  return (label, weight)

/-- The owners with the weights given for them. -/
def givenWeights (ownersSpec : String) : Option (List (String × ℕ)) :=
  (splitChar ',' ownersSpec).mapM labelWeight

/-- The share ids are a partition of `1, …, n` by weight. -/
structure Partition (weights : List (String × ℕ)) (owners : Owners) (group : Send.Group) :
    Prop where
  labels : (owners.shares.map Prod.fst).Nodup
  given : owners.shares.map (fun e => (e.1, e.2.length)) = weights
  nodup : ∀ e ∈ owners.shares, e.2.Nodup
  disjoint : owners.shares.Pairwise (fun a b => a.2.Disjoint b.2)
  union : ∀ i, (∃ e ∈ owners.shares, i ∈ e.2) ↔ 1 ≤ i ∧ i ≤ group.totalShares
  threshold : 2 ≤ group.threshold ∧ group.threshold ≤ group.totalShares
  total : group.totalShares = (weights.map Prod.snd).sum

/-! ### The loop without its checks -/

/-- The ranges for some weights, from `next` on. -/
def ranges : ℕ → List (String × ℕ) → List (String × List ℕ)
  | _, [] => []
  | next, (label, weight) :: rest =>
    (label, List.range' next ((next + weight) % 65536 - next)) ::
      ranges ((next + weight) % 65536) rest

/-- **What the loop returns.** -/
theorem assignLoop_eq {shares shares' : List (String × List ℕ)} {next next' : ℕ}
    {parts : List String} (hnext : next < 65536)
    (h : assignLoop shares next parts = .ok (shares', next')) :
    ∃ weights, parts.mapM labelWeight = some weights ∧ (∀ e ∈ weights, 1 ≤ e.2)
      ∧ shares' = shares ++ ranges next weights
      ∧ next' = (next + (weights.map Prod.snd).sum) % 65536 := by
  induction parts generalizing shares next with
  | nil =>
    obtain ⟨rfl, rfl⟩ := Prod.mk.inj (pure_eq_ok.mp h)
    exact ⟨[], rfl, by simp, by rw [ranges, List.append_nil], (Nat.mod_eq_of_lt hnext).symm⟩
  | cons part rest ih =>
    obtain ⟨label, digits, weight, hsplit, hparse, hpos, -, hrest⟩ := assignLoop_cons.mp h
    obtain ⟨weights, hweights, hall, rfl, rfl⟩ := ih (Nat.mod_lt _ (by decide)) hrest
    have hpart : labelWeight part = some (label, weight) := by
      rw [labelWeight, hsplit]
      show (parseU16 digits).bind _ = _
      rw [hparse]
      rfl
    refine ⟨(label, weight) :: weights, ?_, ?_, ?_, ?_⟩
    · rw [List.mapM_cons, hpart, hweights]
      rfl
    · exact List.forall_mem_cons.mpr ⟨hpos, hall⟩
    · rw [ranges, List.append_assoc, List.singleton_append]
    · rw [List.map_cons, List.sum_cons, Nat.mod_add_mod, Nat.add_assoc]

/-! ### Below the bound -/

/-- **The ranges joined are an interval.** -/
theorem ranges_flatMap {next : ℕ} {weights : List (String × ℕ)}
    (h : next + (weights.map Prod.snd).sum < 65536) :
    (ranges next weights).flatMap Prod.snd = List.range' next (weights.map Prod.snd).sum := by
  induction weights generalizing next with
  | nil => rfl
  | cons e rest ih =>
    rw [List.map_cons, List.sum_cons] at h
    have hmod : (next + e.2) % 65536 = next + e.2 := Nat.mod_eq_of_lt (by omega)
    rw [ranges, List.flatMap_cons, hmod, Nat.add_sub_cancel_left, ih (by omega), List.map_cons,
      List.sum_cons, List.range'_append_1]

theorem ranges_lengths {next : ℕ} {weights : List (String × ℕ)}
    (h : next + (weights.map Prod.snd).sum < 65536) :
    (ranges next weights).map (fun e => (e.1, e.2.length)) = weights := by
  induction weights generalizing next with
  | nil => rfl
  | cons e rest ih =>
    rw [List.map_cons, List.sum_cons] at h
    have hmod : (next + e.2) % 65536 = next + e.2 := Nat.mod_eq_of_lt (by omega)
    rw [ranges, List.map_cons, hmod, Nat.add_sub_cancel_left, ih (by omega), List.length_range']

/-! ### At the bound -/

/-- **Where the counter wraps a range is too short.** -/
theorem sum_lt_of_lengths {next : ℕ} {weights : List (String × ℕ)} (hnext : next < 65536)
    (hpos : ∀ e ∈ weights, 1 ≤ e.2)
    (h : (ranges next weights).map (fun e => (e.1, e.2.length)) = weights) :
    next + (weights.map Prod.snd).sum < 65536 := by
  induction weights generalizing next with
  | nil => exact hnext
  | cons e rest ih =>
    obtain ⟨hhead, hpos⟩ := List.forall_mem_cons.mp hpos
    rw [ranges, List.map_cons, List.cons.injEq, List.length_range'] at h
    obtain ⟨he, hrest⟩ := h
    have hlen : (next + e.2) % 65536 - next = e.2 := congrArg Prod.snd he
    have hmod : (next + e.2) % 65536 = next + e.2 := by omega
    rw [hmod] at hrest
    have := ih (by omega) hpos hrest
    rw [List.map_cons, List.sum_cons]
    omega

/-! ### The assignment -/

/-- **Shares are handed out by weight exactly if the weights add up to less than 65535.** -/
theorem partition_iff_sum_lt {ownersSpec : String} {threshold : ℕ} {owners : Owners}
    {group : Send.Group} (h : runDkg ownersSpec threshold = .ok (owners, group)) :
    ∃ weights, givenWeights ownersSpec = some weights ∧
      (Partition weights owners group ↔ (weights.map Prod.snd).sum < 65535) := by
  obtain ⟨shares, next, hloop, hthreshold, rfl, rfl⟩ := runDkg_eq_ok.mp h
  have hnodup := assignLoop_nodup (show (List.map Prod.fst []).Nodup from List.nodup_nil) hloop
  obtain ⟨weights, hweights, hpos, rfl, rfl⟩ := assignLoop_eq (by decide) hloop
  rw [List.nil_append] at hnodup
  refine ⟨weights, hweights, ?_⟩
  constructor
  · intro hpart
    have := sum_lt_of_lengths (by decide) hpos hpart.given
    omega
  · intro hlt
    have hbound : 1 + (weights.map Prod.snd).sum < 65536 := by omega
    have hflat := ranges_flatMap hbound
    have hall : ((ranges 1 weights).flatMap Prod.snd).Nodup := by
      rw [hflat]
      exact List.nodup_range' ..
    have htotal : ((1 + (weights.map Prod.snd).sum) % 65536 + 65535) % 65536
        = (weights.map Prod.snd).sum := by omega
    obtain ⟨heach, hdisjoint⟩ := List.nodup_flatMap.mp hall
    refine ⟨hnodup, ranges_lengths hbound, heach, hdisjoint, ?_, hthreshold, htotal⟩
    intro i
    show _ ↔ 1 ≤ i ∧ i ≤ ((1 + (weights.map Prod.snd).sum) % 65536 + 65535) % 65536
    rw [List.nil_append, ← List.mem_flatMap, hflat, List.mem_range'_1, htotal]
    omega

theorem runDkg_small :
    (runDkg "A:2,B:1,C:1" 3).toOption = some
      (⟨3, [("A", [1, 2]), ("B", [3]), ("C", [4])]⟩, ⟨3, 4⟩) := by
  decide +kernel

theorem partition_iff_sum_lt_small :
    ∃ weights, givenWeights "A:2,B:1,C:1" = some weights ∧
      (Partition weights ⟨3, [("A", [1, 2]), ("B", [3]), ("C", [4])]⟩ ⟨3, 4⟩
        ↔ (weights.map Prod.snd).sum < 65535) :=
  partition_iff_sum_lt (toOption_eq_some.mp runDkg_small)

/-- A weight of 65535 and one of four: the first owner has no share, and the second has
one with the id zero. -/
theorem not_partition_wrapped :
    (runDkg "A:65535,B:4" 2).toOption = some (⟨2, [("A", []), ("B", [0, 1, 2, 3])]⟩, ⟨2, 3⟩) ∧
      givenWeights "A:65535,B:4" = some [("A", 65535), ("B", 4)] ∧
      ¬ Partition [("A", 65535), ("B", 4)] ⟨2, [("A", []), ("B", [0, 1, 2, 3])]⟩ ⟨2, 3⟩ := by
  refine ⟨by decide +kernel, by decide +kernel, ?_⟩
  intro h
  have := h.total
  revert this
  decide

end Bufi.Delegate
