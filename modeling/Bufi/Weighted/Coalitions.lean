import Bufi.Threshold.Game
import Bufi.Weighted.Spec
import Mathlib.Data.List.Sort

/-!
# Minimal winning coalitions

`minimalWinningCoalitions` walks over the `2 ^ n` sets of owners as bit masks and
keeps the minimal winning ones, in the order of their size.  The weights are added as
doubles.  For members whose weights are natural numbers with a sum that is not rounded
(`Exact`) it lists exactly the minimal winning sets of the threshold game
(`mem_minimalWinningCoalitions`), so a set of ids wins when it contains a listed
coalition (`isWinning_iff_exists_coalition`).
-/

namespace Bufi.Weighted

open Bufi.Evm Bufi.Js Bufi.Threshold

structure WeightedMember where
  id : String
  weight : Number
  deriving DecidableEq

def TreasuryOwner.member (owner : TreasuryOwner) : WeightedMember := ⟨owner.id, owner.weight⟩

def maxEnumerableOwners : ℕ := 20

/-! ### The functions -/

section Code

variable (members : List WeightedMember) (thresholdWeight : Number)

/-- `ids` is the membership test of the set. -/
def isWinning (ids : String → Bool) : Bool :=
  thresholdWeight.le
    (members.foldl (fun sum member => if ids member.id then sum.plus member.weight else sum)
      (.ofNat 0))

def weightOf (mask : ℕ) : Number :=
  members.zipIdx.foldl (fun sum x => if mask.testBit x.2 then sum.plus x.1.weight else sum)
    (.ofNat 0)

/-- The loop that looks for a member to take out. -/
def isMinimal (mask : ℕ) (sum : Number) : Bool :=
  members.zipIdx.all
    (fun x => !(mask.testBit x.2 && thresholdWeight.le (sum.minus x.1.weight)))

def minimalMasks : List ℕ :=
  (List.range' 1 (2 ^ members.length - 1)).filter (fun mask =>
    let sum := weightOf members mask
    !sum.lt thresholdWeight && isMinimal members thresholdWeight mask sum)

/-- `for (let m = mask; m; m &= m - 1) c++`; every turn makes `m` smaller, so `mask`
turns are enough. -/
def popcountLoop : ℕ → ℕ → ℕ → ℕ
  | 0, _, c => c
  | fuel + 1, m, c => if m = 0 then c else popcountLoop fuel (m &&& (m - 1)) (c + 1)

def popcount (mask : ℕ) : ℕ := popcountLoop mask mask 0

/-- Lexical order on member positions. -/
def lowBitOrder (a b n : ℕ) : ℤ :=
  match (List.range n).find? (fun i => a.testBit i != b.testBit i) with
  | none => 0
  | some i => (b.testBit i).toInt - (a.testBit i).toInt

def maskOrder (n a b : ℕ) : ℤ :=
  let bySize : ℤ := popcount a - popcount b
  if bySize ≠ 0 then bySize else lowBitOrder a b n

/-- The ids of the members in a mask, in input order. -/
def coalitionOf (mask : ℕ) : List String :=
  (members.zipIdx.filter (fun x => mask.testBit x.2)).map (fun x => x.1.id)

def minimalWinningCoalitions : Except Failure (List (List String)) := do
  let n := members.length
  require (n ≤ maxEnumerableOwners) (.cannotEnumerate n)
  let result := minimalMasks members thresholdWeight
  let sorted := result.insertionSort (fun a b => maskOrder n a b ≤ 0)
  pure (sorted.map (coalitionOf members))

end Code

/-! ### The game -/

section

variable {members : List WeightedMember} {t : ℕ}

/-- The weight of the member at a position. -/
def memberWeight (members : List WeightedMember) (i : Fin members.length) : ℕ :=
  members[i].weight.toNat

/-- Every weight is a natural number. -/
def Natural (members : List WeightedMember) : Prop :=
  ∀ member ∈ members, member.weight = .ofNat member.weight.toNat

theorem Natural.getElem (h : Natural members) (i : Fin members.length) :
    members[i].weight = .ofNat (memberWeight members i) :=
  h members[i] (List.getElem_mem i.isLt)

/-- The weight of all members. -/
def totalOf (members : List WeightedMember) : ℕ := ∑ i, memberWeight members i

/-- The weights are natural numbers whose sums are exact. -/
structure Exact (members : List WeightedMember) : Prop where
  natural : Natural members
  total_le : totalOf members ≤ 2 ^ 53

theorem Exact.sum_le (h : Exact members) (s : Finset (Fin members.length)) :
    ∑ i ∈ s, memberWeight members i ≤ 2 ^ 53 :=
  (Finset.sum_le_univ_sum_of_nonneg (fun _ => Nat.zero_le _)).trans h.total_le

theorem weightOf_eq (h : Exact members) (mask : ℕ) :
    weightOf members mask
      = .ofNat (∑ i ∈ bits members.length mask, memberWeight members i) := by
  have hnat : ∀ x ∈ members.zipIdx, x.1.weight = .ofNat x.1.weight.toNat := by
    rintro ⟨member, i⟩ hx
    exact h.natural member (List.fst_mem_of_mem_zipIdx hx)
  have hsum := sum_bits (l := members) mask (fun member => member.weight.toNat)
  have hle := h.sum_le (bits members.length mask)
  have hplus := Number.plus_sum_filter (p := fun x : WeightedMember × ℕ => mask.testBit x.2) hnat
    (a := 0) (by rw [Nat.zero_add, ← hsum]; exact hle)
  rw [weightOf, hplus, ← hsum, Nat.zero_add]
  rfl

theorem isMinimal_iff_forall (h : Exact members) {threshold : Number} {mask : ℕ} :
    isMinimal members threshold mask
        (.ofNat (∑ i ∈ bits members.length mask, memberWeight members i)) = true
      ↔ ∀ i ∈ bits members.length mask, ¬ threshold.le (.ofNat
          (∑ j ∈ bits members.length mask, memberWeight members j - memberWeight members i))
            = true := by
  have hle := h.sum_le (bits members.length mask)
  rw [isMinimal, List.all_eq_true]
  refine Iff.trans (forall_zipIdx
    (P := fun (member : WeightedMember) i => (!(mask.testBit i && threshold.le
      ((Number.ofNat (∑ i ∈ bits members.length mask, memberWeight members i)).minus
        member.weight))) = true)) ?_
  refine forall_congr' ?_
  intro i
  rw [mem_bits, h.natural.getElem i, Bool.not_eq_true', Bool.and_eq_false_imp, ← Bool.not_eq_true]
  refine imp_congr_right ?_
  intro hi
  have hmem : memberWeight members i ≤ ∑ j ∈ bits members.length mask, memberWeight members j :=
    Finset.single_le_sum (fun _ _ => Nat.zero_le _) (mem_bits.mpr hi)
  rw [Number.minus_ofNat hmem hle]

theorem isMinimal_iff (h : Exact members) {mask : ℕ} :
    isMinimal members (.ofNat t) mask
        (.ofNat (∑ i ∈ bits members.length mask, memberWeight members i)) = true
      ↔ ∀ i ∈ bits members.length mask,
          ∑ j ∈ bits members.length mask, memberWeight members j < t + memberWeight members i := by
  rw [isMinimal_iff_forall h]
  refine forall₂_congr ?_
  intro i hi
  have hmem : memberWeight members i ≤ ∑ j ∈ bits members.length mask, memberWeight members j :=
    Finset.single_le_sum (fun _ _ => Nat.zero_le _) hi
  rw [Number.le_ofNat]
  omega

/-- **The masks kept are the minimal winning sets**, but for the empty set. -/
theorem mem_minimalMasks (h : Exact members) {mask : ℕ} :
    mask ∈ minimalMasks members (.ofNat t)
      ↔ 0 < mask ∧ mask < 2 ^ members.length
        ∧ Minimal (Wins (memberWeight members) t) (bits members.length mask) := by
  have hpos : 0 < 2 ^ members.length := Nat.two_pow_pos members.length
  rw [minimalMasks, List.mem_filter, List.mem_range'_1, Bool.and_eq_true, weightOf_eq h,
    isMinimal_iff h, Bool.not_eq_true', ← Bool.not_eq_true, Number.lt_ofNat, minimal_wins_iff, Wins,
    Nat.not_lt]
  constructor
  · rintro ⟨⟨h1, h2⟩, hwin, hmin⟩
    exact ⟨by omega, by omega, hwin, hmin⟩
  · rintro ⟨h1, h2, hwin, hmin⟩
    exact ⟨⟨by omega, by omega⟩, hwin, hmin⟩

theorem mem_coalitionOf {mask : ℕ} {id : String} :
    id ∈ coalitionOf members mask ↔ ∃ i ∈ bits members.length mask, members[i].id = id := by
  rw [coalitionOf, List.mem_map]
  constructor
  · rintro ⟨⟨member, i⟩, hx, rfl⟩
    obtain ⟨hx, hbit⟩ := List.mem_filter.mp hx
    obtain ⟨hi, rfl⟩ := List.getElem?_eq_some_iff.mp (List.mk_mem_zipIdx_iff_getElem?.mp hx)
    exact ⟨⟨i, hi⟩, mem_bits.mpr hbit, rfl⟩
  · rintro ⟨i, hi, rfl⟩
    refine ⟨(members[i], i.val), List.mem_filter.mpr ⟨?_, mem_bits.mp hi⟩, rfl⟩
    exact List.mk_mem_zipIdx_iff_getElem?.mpr (List.getElem?_eq_getElem i.isLt)

theorem minimalWinningCoalitions_eq_ok {threshold : Number} {l : List (List String)} :
    minimalWinningCoalitions members threshold = .ok l
      ↔ members.length ≤ maxEnumerableOwners
        ∧ l = ((minimalMasks members threshold).insertionSort
          (fun a b => maskOrder members.length a b ≤ 0)).map (coalitionOf members) := by
  simp only [minimalWinningCoalitions, bind_eq_ok, require_eq_ok, exists_const, pure_eq_ok]

theorem mem_minimalWinningCoalitions (h : Exact members) {l : List (List String)}
    (hl : minimalWinningCoalitions members (.ofNat t) = .ok l) {c : List String} :
    c ∈ l ↔ ∃ mask, 0 < mask ∧ mask < 2 ^ members.length
      ∧ Minimal (Wins (memberWeight members) t) (bits members.length mask)
      ∧ c = coalitionOf members mask := by
  rw [(minimalWinningCoalitions_eq_ok.mp hl).2, List.mem_map]
  simp only [List.mem_insertionSort, mem_minimalMasks h]
  constructor
  · rintro ⟨mask, ⟨h1, h2, h3⟩, rfl⟩
    exact ⟨mask, h1, h2, h3, rfl⟩
  · rintro ⟨mask, h1, h2, h3, rfl⟩
    exact ⟨mask, ⟨h1, h2, h3⟩, rfl⟩

/-- The positions of the members that a set of ids has. -/
def voters (members : List WeightedMember) (ids : String → Bool) : Finset (Fin members.length) :=
  positions members (fun member => ids member.id)

theorem isWinning_iff (h : Exact members) {ids : String → Bool} :
    isWinning members (.ofNat t) ids = true
      ↔ Wins (memberWeight members) t (voters members ids) := by
  have hsum := sum_positions (l := members) (fun member => ids member.id)
    (fun member => member.weight.toNat)
  have hle := h.sum_le (voters members ids)
  have hplus := Number.plus_sum_filter (p := fun member : WeightedMember => ids member.id) h.natural
    (a := 0) (by rw [Nat.zero_add, ← hsum]; exact hle)
  rw [isWinning, hplus, ← hsum, Nat.zero_add, Number.le_ofNat]
  rfl

/-- A set that wins is not empty. -/
theorem mask_pos (ht : 0 < t) {m : Finset (Fin members.length)}
    (hmin : Minimal (Wins (memberWeight members) t) m) : 0 < mask m := by
  by_contra hz
  have hz : mask m = 0 := by omega
  have hempty : m = ∅ := by
    rw [← bits_mask m, hz]
    ext i
    simp [mem_bits]
  have hwin := hmin.prop
  rw [hempty, Wins, Finset.sum_empty] at hwin
  omega

/-- **A set of ids wins when it contains a listed coalition.** -/
theorem isWinning_iff_exists_coalition (h : Exact members) (ht : 0 < t) {l : List (List String)}
    (hl : minimalWinningCoalitions members (.ofNat t) = .ok l) {ids : String → Bool} :
    isWinning members (.ofNat t) ids = true ↔ ∃ c ∈ l, ∀ id ∈ c, ids id = true := by
  rw [isWinning_iff h, wins_iff_exists_minimal]
  constructor
  · rintro ⟨m, hsub, hmin⟩
    refine ⟨coalitionOf members (mask m), (mem_minimalWinningCoalitions h hl).mpr
      ⟨mask m, mask_pos ht hmin, mask_lt m, by rwa [bits_mask], rfl⟩, ?_⟩
    intro id hid
    obtain ⟨i, hi, rfl⟩ := mem_coalitionOf.mp hid
    rw [bits_mask] at hi
    exact mem_positions.mp (hsub hi)
  · rintro ⟨c, hc, hall⟩
    obtain ⟨mask, -, -, hmin, rfl⟩ := (mem_minimalWinningCoalitions h hl).mp hc
    refine ⟨_, ?_, hmin⟩
    intro i hi
    exact mem_positions.mpr (hall _ (mem_coalitionOf.mpr ⟨i, hi, rfl⟩))

theorem nodup_minimalMasks (threshold : Number) : (minimalMasks members threshold).Nodup :=
  (List.nodup_range' ..).filter _

/-- **There are as many coalitions as minimal winning sets.** -/
theorem length_minimalMasks (h : Exact members) (ht : 0 < t) :
    (minimalMasks members (.ofNat t)).length
      = Nat.card {m // Minimal (Wins (memberWeight members) t) m} := by
  classical
  have himage : (minimalMasks members (.ofNat t)).toFinset.image (bits members.length)
      = Finset.univ.filter (fun m => Minimal (Wins (memberWeight members) t) m) := by
    ext m
    rw [Finset.mem_image, Finset.mem_filter]
    constructor
    · rintro ⟨k, hk, rfl⟩
      exact ⟨Finset.mem_univ _, ((mem_minimalMasks h).mp (List.mem_toFinset.mp hk)).2.2⟩
    · rintro ⟨-, hmin⟩
      refine ⟨mask m, List.mem_toFinset.mpr ((mem_minimalMasks h).mpr
        ⟨mask_pos ht hmin, mask_lt m, by rwa [bits_mask]⟩), bits_mask m⟩
  have hinj : Set.InjOn (bits members.length)
      ((minimalMasks members (.ofNat t)).toFinset : Set ℕ) := by
    intro a ha b hb hab
    have ha := (mem_minimalMasks h).mp (List.mem_toFinset.mp (Finset.mem_coe.mp ha))
    have hb := (mem_minimalMasks h).mp (List.mem_toFinset.mp (Finset.mem_coe.mp hb))
    exact eq_of_bits_eq ha.2.1 hb.2.1 hab
  rw [Nat.card_eq_fintype_card, Fintype.card_subtype, ← himage, Finset.card_image_of_injOn hinj,
    List.toFinset_card_of_nodup (nodup_minimalMasks _)]

end

/-- Two of three equal owners. -/
example : minimalWinningCoalitions [⟨"a", .ofNat 1⟩, ⟨"b", .ofNat 1⟩, ⟨"c", .ofNat 1⟩] (.ofNat 2)
    = .ok [["a", "b"], ["a", "c"], ["b", "c"]] := by
  decide +kernel

end Bufi.Weighted
