import Bufi.Weighted.Coalitions
import Mathlib.Data.Nat.BitIndices
import Mathlib.Data.Prod.Lex
import Mathlib.Order.PiLex

/-!
# The list of minimal winning coalitions

The masks that `minimalWinningCoalitions` keeps are sorted by `maskOrder`: by
`popcount`, which is the size of the set (`popcount_eq_card`), and then by
`lowBitOrder`, which is the lexical order of the positions.  On different masks it is
a strict total order, so the order of the list is determined.

The weights are added as doubles.  For natural weights with a total up to `2 ^ 53` no
sum is rounded, and the list is exact (`minimalWinningCoalitions_exact`); with one more
a coalition is listed that is not minimal (`minimalWinningCoalitions_inexact`).
-/

namespace Bufi.Weighted

open Bufi.Evm Bufi.Js Bufi.Threshold

/-! ### The size of a mask -/

/-- `m & (m - 1)` has one bit less. -/
theorem length_bitIndices_and_pred {m : ℕ} (h : m ≠ 0) :
    (m &&& (m - 1)).bitIndices.length + 1 = m.bitIndices.length := by
  induction m using Nat.strong_induction_on with
  | _ m ih =>
    obtain ⟨k, rfl | rfl⟩ := Nat.even_or_odd' m
    · have hk : k ≠ 0 := by omega
      have hand : 2 * k &&& (2 * k - 1) = 2 * (k &&& (k - 1)) := by
        rw [show 2 * k - 1 = 2 * (k - 1) + 1 by omega]
        apply Nat.eq_of_testBit_eq
        intro i
        rw [Nat.testBit_and]
        cases i with
        | zero => simp
        | succ i => simp [Nat.testBit_succ, Nat.mul_add_div]
      rw [hand, Nat.bitIndices_two_mul, Nat.bitIndices_two_mul, List.length_map, List.length_map]
      exact ih k (by omega) hk
    · have hand : (2 * k + 1) &&& (2 * k + 1 - 1) = 2 * k := by
        apply Nat.eq_of_testBit_eq
        intro i
        rw [Nat.testBit_and]
        cases i with
        | zero => simp
        | succ i => simp [Nat.testBit_succ, Nat.mul_add_div]
      rw [hand, Nat.bitIndices_two_mul, Nat.bitIndices_two_mul_add_one, List.length_cons]

theorem popcountLoop_eq (fuel m c : ℕ) (h : m ≤ fuel) :
    popcountLoop fuel m c = c + m.bitIndices.length := by
  induction fuel generalizing m c with
  | zero =>
    obtain rfl : m = 0 := by omega
    simp [popcountLoop]
  | succ fuel ih =>
    rw [popcountLoop]
    by_cases hm : m = 0
    · rw [if_pos hm, hm]
      simp
    · have hle : m &&& (m - 1) ≤ m - 1 := Nat.and_le_right
      rw [if_neg hm, ih _ _ (by omega), ← length_bitIndices_and_pred hm]
      omega

/-- **The size of the set.** -/
theorem popcount_eq_card {n mask : ℕ} (h : mask < 2 ^ n) : popcount mask = (bits n mask).card := by
  have himage : (bits n mask).map Fin.valEmbedding = mask.bitIndices.toFinset := by
    ext i
    rw [Finset.mem_map, List.mem_toFinset, Nat.mem_bitIndices]
    constructor
    · rintro ⟨j, hj, rfl⟩
      exact mem_bits.mp hj
    · intro hi
      have hlt : i < n := (Nat.pow_lt_pow_iff_right (by decide)).mp
        ((Nat.ge_two_pow_of_testBit hi).trans_lt h)
      exact ⟨⟨i, hlt⟩, mem_bits.mpr hi, rfl⟩
  rw [popcount, popcountLoop_eq _ _ _ le_rfl, Nat.zero_add, ← Finset.card_map, himage,
    List.toFinset_card_of_nodup Nat.bitIndices_nodup]

/-! ### The comparator -/

/-- The first position where two masks differ is in `a`. -/
def Leads (n a b : ℕ) : Prop :=
  ∃ i < n, a.testBit i = true ∧ b.testBit i = false ∧ ∀ j < i, a.testBit j = b.testBit j

theorem lowBitOrder_neg {a b n : ℕ} : lowBitOrder a b n < 0 ↔ Leads n a b := by
  rw [lowBitOrder]
  cases hfind : (List.range n).find? (fun i => a.testBit i != b.testBit i) with
  | none =>
    have heq : ∀ i < n, a.testBit i = b.testBit i := by
      simpa using List.find?_eq_none.mp hfind
    refine iff_of_false (lt_irrefl 0) ?_
    rintro ⟨i, hi, ha, hb, -⟩
    rw [heq i hi, hb] at ha
    exact absurd ha (by decide)
  | some i =>
    obtain ⟨hne, hmem, hbefore⟩ := List.find?_range_eq_some.mp hfind
    have hbefore : ∀ j < i, a.testBit j = b.testBit j := by simpa using hbefore
    have hlt : i < n := List.mem_range.mp hmem
    have hne : a.testBit i ≠ b.testBit i := by simpa using hne
    constructor
    · intro hneg
      refine ⟨i, hlt, ?_, ?_, hbefore⟩
      · cases ha : a.testBit i <;> cases hb : b.testBit i <;> simp_all
      · cases ha : a.testBit i <;> cases hb : b.testBit i <;> simp_all
    · rintro ⟨j, hj, ha, hb, heq⟩
      obtain hij | rfl | hij := lt_trichotomy i j
      · exact absurd (heq i hij) hne
      · show (b.testBit i).toInt - (a.testBit i).toInt < 0
        rw [ha, hb]
        decide
      · have hj := hbefore j hij
        rw [ha, hb] at hj
        exact absurd hj (by decide)

theorem lowBitOrder_comm (a b n : ℕ) : lowBitOrder b a n = -lowBitOrder a b n := by
  have hfun : (fun i => b.testBit i != a.testBit i) = fun i => a.testBit i != b.testBit i := by
    funext i
    rw [bne_comm]
  rw [lowBitOrder, lowBitOrder, hfun]
  cases (List.range n).find? (fun i => a.testBit i != b.testBit i) with
  | none => rfl
  | some i => exact (neg_sub _ _).symm

theorem maskOrder_eq (n a b : ℕ) :
    maskOrder n a b
      = if popcount a = popcount b then lowBitOrder a b n else (popcount a - popcount b : ℤ) := by
  simp only [maskOrder]
  split <;> split <;> omega

theorem maskOrder_comm (n a b : ℕ) : maskOrder n b a = -maskOrder n a b := by
  rw [maskOrder_eq, maskOrder_eq, lowBitOrder_comm a b]
  split <;> split <;> omega

theorem maskOrder_neg {n a b : ℕ} :
    maskOrder n a b < 0
      ↔ popcount a < popcount b ∨ popcount a = popcount b ∧ Leads n a b := by
  rw [← lowBitOrder_neg, maskOrder_eq]
  split <;> omega

/-- What the comparator compares: the size, and then the positions from the first. -/
def orderKey (n mask : ℕ) : ℕ ×ₗ Lex (Fin n → Bool) :=
  toLex (popcount mask, toLex (fun i => !mask.testBit i))

theorem leads_iff {n a b : ℕ} : Leads n a b
    ↔ toLex (fun i : Fin n => !a.testBit i) < toLex (fun i : Fin n => !b.testBit i) := by
  constructor
  · rintro ⟨i, hi, ha, hb, heq⟩
    refine ⟨⟨i, hi⟩, ?_, ?_⟩
    · intro j hj
      show (!a.testBit j) = !b.testBit j
      rw [heq j hj]
    · show (!a.testBit i) < !b.testBit i
      rw [ha, hb]
      decide
  · rintro ⟨i, heq, hlt⟩
    obtain ⟨ha, hb⟩ : (!a.testBit i) = false ∧ (!b.testBit i) = true := Bool.lt_iff.mp hlt
    refine ⟨i, i.isLt, by simpa using ha, by simpa using hb, ?_⟩
    intro j hj
    have hij : (!a.testBit j) = !b.testBit j := heq ⟨j, by omega⟩ hj
    simpa using hij

theorem maskOrder_neg_iff {n a b : ℕ} : maskOrder n a b < 0 ↔ orderKey n a < orderKey n b := by
  rw [maskOrder_neg, leads_iff, orderKey, orderKey, Prod.Lex.toLex_lt_toLex]

theorem maskOrder_nonpos_iff {n a b : ℕ} : maskOrder n a b ≤ 0 ↔ orderKey n a ≤ orderKey n b := by
  have hcomm := maskOrder_comm n a b
  rw [← not_lt (a := orderKey n b), ← maskOrder_neg_iff]
  omega

theorem orderKey_injOn {n a b : ℕ} (ha : a < 2 ^ n) (hb : b < 2 ^ n)
    (h : orderKey n a = orderKey n b) : a = b := by
  have hbits : (fun i : Fin n => !a.testBit i) = fun i : Fin n => !b.testBit i :=
    toLex.injective (Prod.mk.inj (toLex.injective h)).2
  refine eq_of_bits_eq ha hb ?_
  ext i
  have hi : (!a.testBit i) = !b.testBit i := congrFun hbits i
  rw [mem_bits, mem_bits, Bool.not_inj hi]

/-- **The comparator is a strict total order on the masks.** -/
theorem isStrictTotalOrder_maskOrder (n : ℕ) :
    IsStrictTotalOrder (Fin (2 ^ n)) (fun a b => maskOrder n a b < 0) where
  trichotomous a b hab hba := by
    rw [maskOrder_neg_iff] at hab hba
    exact Fin.ext (orderKey_injOn a.isLt b.isLt (le_antisymm (not_lt.mp hba) (not_lt.mp hab)))
  irrefl a := by
    rw [maskOrder_neg_iff]
    exact lt_irrefl _
  trans a b c hab hbc := by
    rw [maskOrder_neg_iff] at hab hbc ⊢
    exact hab.trans hbc

/-! ### The sorted list -/

/-- The masks are sorted by the comparator, without ties. -/
theorem pairwise_sort {n : ℕ} {l : List ℕ} (hnodup : l.Nodup) (hlt : ∀ a ∈ l, a < 2 ^ n) :
    (l.insertionSort (fun a b => maskOrder n a b ≤ 0)).Pairwise
      (fun a b => maskOrder n a b < 0) := by
  have htotal : Std.Total (fun a b => maskOrder n a b ≤ 0) := ⟨by
    intro a b
    rw [maskOrder_nonpos_iff, maskOrder_nonpos_iff]
    exact le_total _ _⟩
  have htrans : IsTrans ℕ (fun a b => maskOrder n a b ≤ 0) := ⟨by
    intro a b c hab hbc
    rw [maskOrder_nonpos_iff] at hab hbc ⊢
    exact hab.trans hbc⟩
  have hperm := List.perm_insertionSort (fun a b => maskOrder n a b ≤ 0) l
  have hsorted := List.pairwise_insertionSort (fun a b => maskOrder n a b ≤ 0) l
  have hne := hperm.nodup_iff.mpr hnodup
  refine (hsorted.and hne).imp_of_mem ?_
  rintro a b ha hb ⟨hle, hab⟩
  rw [maskOrder_nonpos_iff] at hle
  rw [maskOrder_neg_iff]
  refine lt_of_le_of_ne hle ?_
  intro hkey
  exact hab (orderKey_injOn (hlt a (hperm.mem_iff.mp ha)) (hlt b (hperm.mem_iff.mp hb)) hkey)

/-- The members of a set in input order. -/
def positionsOf {n : ℕ} (s : Finset (Fin n)) : List (Fin n) :=
  (List.finRange n).filter (fun i => decide (i ∈ s))

/-- By size, and then by the lists of positions. -/
def Before {n : ℕ} (s u : Finset (Fin n)) : Prop :=
  s.card < u.card ∨ s.card = u.card ∧ List.Lex (· < ·) (positionsOf s) (positionsOf u)

theorem length_positionsOf {n : ℕ} (s : Finset (Fin n)) : (positionsOf s).length = s.card := by
  have hset : (positionsOf s).toFinset = s := by
    ext i
    simp [positionsOf]
  have hnodup : (positionsOf s).Nodup := (List.nodup_finRange n).filter _
  rw [← List.toFinset_card_of_nodup hnodup, hset]

/-- In a sorted list, the part that has the first difference comes first. -/
theorem lex_filter {n : ℕ} {p q : Fin n → Bool} {l : List (Fin n)} (hl : l.Pairwise (· < ·))
    {i : Fin n} (hi : i ∈ l) (hp : p i = true) (hq : q i = false) (heq : ∀ j < i, p j = q j)
    (hlen : (l.filter p).length ≤ (l.filter q).length) :
    List.Lex (· < ·) (l.filter p) (l.filter q) := by
  induction l with
  | nil => cases hi
  | cons x l ih =>
    obtain ⟨hx, hl⟩ := List.pairwise_cons.mp hl
    obtain rfl | hi := List.mem_cons.mp hi
    · rw [List.filter_cons_of_pos hp, List.filter_cons_of_neg (by simp [hq])] at hlen ⊢
      cases hrest : l.filter q with
      | nil =>
        rw [hrest] at hlen
        simp at hlen
      | cons y rest =>
        have hy : y ∈ l := (List.mem_filter.mp (hrest ▸ List.mem_cons_self)).1
        exact .rel (hx y hy)
    · have hxi : p x = q x := heq x (hx i hi)
      cases hpx : p x with
      | true =>
        rw [List.filter_cons_of_pos hpx, List.filter_cons_of_pos (hxi ▸ hpx)] at hlen ⊢
        exact .cons (ih hl hi (by simpa using hlen))
      | false =>
        rw [List.filter_cons_of_neg (by simp [hpx]),
          List.filter_cons_of_neg (by simp [← hxi, hpx])] at hlen ⊢
        exact ih hl hi hlen

theorem before_of_maskOrder {n a b : ℕ} (ha : a < 2 ^ n) (hb : b < 2 ^ n)
    (h : maskOrder n a b < 0) : Before (bits n a) (bits n b) := by
  rw [maskOrder_neg, popcount_eq_card ha, popcount_eq_card hb] at h
  obtain h | ⟨hcard, i, hi, hai, hbi, heq⟩ := h
  · exact Or.inl h
  · refine Or.inr ⟨hcard, ?_⟩
    refine lex_filter (List.pairwise_lt_finRange n) (List.mem_finRange ⟨i, hi⟩) ?_ ?_ ?_ ?_
    · simpa [mem_bits] using hai
    · simpa [mem_bits] using hbi
    · intro j hj
      simp [mem_bits, heq j hj]
    · exact ((length_positionsOf _).trans (hcard.trans (length_positionsOf _).symm)).le

/-! ### The coalitions -/

section

variable {members : List WeightedMember}

/-- The ids of a set of positions, in input order. -/
def idsAt (members : List WeightedMember) (s : Finset (Fin members.length)) : List String :=
  (positionsOf s).map (fun i => (members.get i).id)

/-- The set of positions reaches the threshold. -/
def Reaches (members : List WeightedMember) (threshold : Number)
    (s : Finset (Fin members.length)) : Prop :=
  threshold.le (.ofNat (∑ i ∈ s, memberWeight members i)) = true

theorem coalitionOf_eq_idsAt (mask : ℕ) :
    coalitionOf members mask = idsAt members (bits members.length mask) := by
  have hzip : members.zipIdx
      = (List.finRange members.length).map (fun i => (members[i], i.val)) := by
    apply List.ext_getElem
    · simp
    · intro i h₁ h₂
      simp
  rw [coalitionOf, hzip, List.filter_map, List.map_map, idsAt, positionsOf]
  congr 1
  apply List.filter_congr
  intro i _
  simp [mem_bits]

/-- Below the exact range a threshold is one of a natural number. -/
theorem exists_natThreshold {threshold : Number} (h : (Number.ofNat 0).lt threshold = true) :
    ∃ t : ℕ, 0 < t ∧ ∀ k ≤ 2 ^ 53,
      threshold.le (.ofNat k) = (Number.ofNat t).le (.ofNat k)
        ∧ (Number.ofNat k).lt threshold = (Number.ofNat k).lt (.ofNat t) := by
  cases threshold with
  | finite q =>
    have hq : 0 < q := by simpa [Number.ofNat, Number.ofInt, Number.lt] using h
    refine ⟨⌈q⌉₊, Nat.ceil_pos.mpr hq, ?_⟩
    intro k _
    constructor
    · rw [Bool.eq_iff_iff, Number.le_ofNat, Nat.ceil_le]
      simp [Number.ofNat, Number.ofInt, Number.le]
    · rw [Bool.eq_iff_iff, Number.lt_ofNat, Nat.lt_ceil]
      simp [Number.ofNat, Number.ofInt, Number.lt]
  | infinity =>
    refine ⟨2 ^ 53 + 1, by decide, ?_⟩
    intro k hk
    constructor
    · rw [Bool.eq_iff_iff, Number.le_ofNat]
      refine iff_of_false (by simp [Number.ofNat, Number.ofInt, Number.le]) (by omega)
    · rw [Bool.eq_iff_iff, Number.lt_ofNat]
      refine iff_of_true (by simp [Number.ofNat, Number.ofInt, Number.lt]) (by omega)
  | negInfinity | nan => simp [Number.ofNat, Number.ofInt, Number.lt] at h

/-- Thresholds that agree on the sums give the same list. -/
theorem minimalMasks_congr (h : Exact members) {T : Number} {t : ℕ}
    (heq : ∀ k ≤ 2 ^ 53, T.le (.ofNat k) = (Number.ofNat t).le (.ofNat k)
      ∧ (Number.ofNat k).lt T = (Number.ofNat k).lt (.ofNat t)) :
    minimalMasks members T = minimalMasks members (.ofNat t) := by
  refine List.filter_congr ?_
  intro mask _
  have hle := h.sum_le (bits members.length mask)
  have hmin : isMinimal members T mask (weightOf members mask)
      = isMinimal members (.ofNat t) mask (weightOf members mask) := by
    rw [weightOf_eq h, Bool.eq_iff_iff, isMinimal_iff_forall h, isMinimal_iff_forall h]
    refine forall₂_congr ?_
    intro i _
    rw [(heq _ (by omega)).1]
  simp only [hmin]
  rw [weightOf_eq h, (heq _ hle).2]

/-- The sets of the list, in its order. -/
def coalitionSets (members : List WeightedMember) (threshold : Number) :
    List (Finset (Fin members.length)) :=
  ((minimalMasks members threshold).insertionSort
    (fun a b => maskOrder members.length a b ≤ 0)).map (bits members.length)

theorem lt_of_mem_minimalMasks {threshold : Number} {mask : ℕ}
    (h : mask ∈ minimalMasks members threshold) : mask < 2 ^ members.length := by
  have hrange := List.mem_range'_1.mp (List.mem_filter.mp h).1
  omega

theorem mem_coalitionSets (h : Exact members) {t : ℕ} (ht : 0 < t)
    {s : Finset (Fin members.length)} :
    s ∈ coalitionSets members (.ofNat t) ↔ Minimal (Wins (memberWeight members) t) s := by
  rw [coalitionSets, List.mem_map]
  simp only [List.mem_insertionSort, mem_minimalMasks h]
  constructor
  · rintro ⟨k, ⟨-, -, hmin⟩, rfl⟩
    exact hmin
  · intro hmin
    exact ⟨mask s, ⟨mask_pos ht hmin, mask_lt s, by rwa [bits_mask]⟩, bits_mask s⟩

theorem nodup_coalitionSets (threshold : Number) : (coalitionSets members threshold).Nodup := by
  have hperm := List.perm_insertionSort (fun a b => maskOrder members.length a b ≤ 0)
    (minimalMasks members threshold)
  refine List.Nodup.map_on ?_ (hperm.nodup_iff.mpr (nodup_minimalMasks threshold))
  intro a ha b hb hab
  exact eq_of_bits_eq (lt_of_mem_minimalMasks (hperm.mem_iff.mp ha))
    (lt_of_mem_minimalMasks (hperm.mem_iff.mp hb)) hab

theorem sorted_coalitionSets (threshold : Number) :
    (coalitionSets members threshold).Pairwise Before := by
  have hperm := List.perm_insertionSort (fun a b => maskOrder members.length a b ≤ 0)
    (minimalMasks members threshold)
  have hsorted := pairwise_sort (nodup_minimalMasks threshold)
    (fun a (ha : a ∈ minimalMasks members threshold) => lt_of_mem_minimalMasks ha)
  rw [coalitionSets, List.pairwise_map]
  refine hsorted.imp_of_mem ?_
  intro a b ha hb hab
  exact before_of_maskOrder (lt_of_mem_minimalMasks (hperm.mem_iff.mp ha))
    (lt_of_mem_minimalMasks (hperm.mem_iff.mp hb)) hab

/-- Minimal winning sets by taking out one member. -/
theorem minimal_wins_iff_erase {t : ℕ} {s : Finset (Fin members.length)} :
    Minimal (Wins (memberWeight members) t) s ↔ Wins (memberWeight members) t s
      ∧ ∀ i ∈ s, ¬ Wins (memberWeight members) t (s.erase i) := by
  rw [minimal_wins_iff]
  refine and_congr_right' (forall₂_congr ?_)
  intro i hi
  have hsum := Finset.sum_erase_add s (memberWeight members) hi
  rw [Wins]
  omega

/-- What the list of minimal winning coalitions is. -/
structure ListsMinimal (members : List WeightedMember) (threshold : Number)
    (l : List (Finset (Fin members.length))) : Prop where
  result : minimalWinningCoalitions members threshold = .ok (l.map (idsAt members))
  nodup : l.Nodup
  mem_iff : ∀ s, s ∈ l ↔ Reaches members threshold s
    ∧ ∀ i ∈ s, ¬ Reaches members threshold (s.erase i)
  antichain : ∀ s ∈ l, ∀ u ∈ l, s ⊆ u → s = u
  covers : ∀ s, Reaches members threshold s → ∃ m ∈ l, m ⊆ s
  empty_iff : l = [] ↔ (Number.ofNat (totalOf members)).lt threshold = true
  sorted : l.Pairwise Before

/-- **The minimal winning coalitions are listed exactly**: each set of positions that
reaches the threshold and no longer does so without any one member, once, by size and
then by positions. -/
theorem minimalWinningCoalitions_exact (h : Exact members)
    (hlen : members.length ≤ maxEnumerableOwners) {threshold : Number}
    (hpos : (Number.ofNat 0).lt threshold = true) :
    (∃ l, ListsMinimal members threshold l)
      ∧ IsStrictTotalOrder (Fin (2 ^ members.length))
        (fun a b => maskOrder members.length a b < 0) := by
  refine ⟨⟨coalitionSets members threshold, ?_⟩, isStrictTotalOrder_maskOrder _⟩
  obtain ⟨t, ht, heq⟩ := exists_natThreshold hpos
  have hreach : ∀ s, Reaches members threshold s ↔ Wins (memberWeight members) t s := by
    intro s
    rw [Reaches, (heq _ (h.sum_le s)).1, Number.le_ofNat, Wins]
  have hmem : ∀ s, s ∈ coalitionSets members threshold
      ↔ Minimal (Wins (memberWeight members) t) s := by
    intro s
    rw [coalitionSets, minimalMasks_congr h heq]
    exact mem_coalitionSets h ht
  refine ⟨?_, nodup_coalitionSets _, ?_, ?_, ?_, ?_, sorted_coalitionSets _⟩
  · rw [minimalWinningCoalitions_eq_ok]
    refine ⟨hlen, ?_⟩
    rw [coalitionSets, List.map_map]
    refine List.map_congr_left ?_
    intro mask _
    exact (coalitionOf_eq_idsAt mask).symm
  · intro s
    simp only [hmem, hreach]
    exact minimal_wins_iff_erase
  · intro s hs u hu hsub
    exact ((hmem u).mp hu).eq_of_le ((hmem s).mp hs).prop hsub
  · intro s hs
    obtain ⟨m, hsub, hmin⟩ := wins_iff_exists_minimal.mp ((hreach s).mp hs)
    exact ⟨m, (hmem m).mpr hmin, hsub⟩
  · rw [(heq _ h.total_le).2, Number.lt_ofNat, List.eq_nil_iff_forall_not_mem]
    constructor
    · intro hnone
      by_contra hge
      have hwin : Wins (memberWeight members) t Finset.univ := not_lt.mp hge
      obtain ⟨m, -, hmin⟩ := wins_iff_exists_minimal.mp hwin
      exact hnone m ((hmem m).mpr hmin)
    · intro hlt s hs
      have hwin := ((hmem s).mp hs).prop.mono (Finset.subset_univ s)
      exact absurd hwin (not_le.mpr hlt)

/-- Three members, of whom the first has to be in. -/
theorem minimalWinningCoalitions_exact_three :
    (∃ l, ListsMinimal [⟨"a", .ofNat 2⟩, ⟨"b", .ofNat 1⟩, ⟨"c", .ofNat 1⟩] (.ofNat 3) l)
      ∧ IsStrictTotalOrder (Fin (2 ^ 3)) (fun a b => maskOrder 3 a b < 0) :=
  minimalWinningCoalitions_exact ⟨by simp [Natural, Number.toNat_ofNat], by decide⟩
    (by decide) (by decide)

/-- Weights of `2 ^ 53` and `1` add up to `2 ^ 53`, so the two together count as minimal
although the first alone reaches the threshold. -/
theorem minimalWinningCoalitions_inexact :
    ¬ ∃ l, ListsMinimal [⟨"a", .ofNat (2 ^ 53)⟩, ⟨"b", .ofNat 1⟩] (.ofNat (2 ^ 53)) l := by
  rintro ⟨l, h⟩
  have hrun : minimalWinningCoalitions [⟨"a", .ofNat (2 ^ 53)⟩, ⟨"b", .ofNat 1⟩] (.ofNat (2 ^ 53))
      = .ok [["a"], ["a", "b"]] := by decide +kernel
  have hids : l.map (idsAt [⟨"a", .ofNat (2 ^ 53)⟩, ⟨"b", .ofNat 1⟩]) = [["a"], ["a", "b"]] :=
    Except.ok.inj (h.result.symm.trans hrun)
  obtain ⟨s, l, rfl, hs, hl⟩ := List.map_eq_cons_iff.mp hids
  obtain ⟨u, l, rfl, hu, -⟩ := List.map_eq_cons_iff.mp hl
  have hsub : ∀ s u : Finset (Fin 2),
      idsAt [⟨"a", .ofNat (2 ^ 53)⟩, ⟨"b", .ofNat 1⟩] s = ["a"] →
      idsAt [⟨"a", .ofNat (2 ^ 53)⟩, ⟨"b", .ofNat 1⟩] u = ["a", "b"] → s ⊆ u ∧ s ≠ u := by
    decide +kernel
  obtain ⟨hle, hne⟩ := hsub s u hs hu
  exact hne (h.antichain s (by simp) u (by simp) hle)

end

end Bufi.Weighted
